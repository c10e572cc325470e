import EntityScript.Opcode
import EntityScript.Tally
import EntityScript.Text.Column
import EntityScript.Word

namespace EntityScript

instance : Ranked Opcode where
  rank opcode := opcode.code.toNat
  eq_of_rank_eq {a b} h := by
    have := congrArg Opcode.ofCode? (UInt8.toNat_inj.1 h)
    simpa using this

instance : Ranked Word where
  rank := UInt16.toNat
  eq_of_rank_eq := UInt16.toNat_inj.1

structure Report where
  opcodes : Tally Opcode := ∅
  calls : Tally Word := ∅
  /-- How often an engine halted, on a fault or on the demand of a native function. -/
  halts : Nat := 0
  deriving DecidableEq

namespace Report

instance : Add Report where
  add a b := ⟨a.opcodes + b.opcodes, a.calls + b.calls, a.halts + b.halts⟩

def countOpcode (r : Report) (opcode : Opcode) : Report :=
  { r with opcodes := r.opcodes.add opcode 1 }

def countCall (r : Report) (slot : Word) : Report :=
  { r with calls := r.calls.add slot 1 }

def countHalt (r : Report) : Report :=
  { r with halts := r.halts + 1 }

/-- The lines of a table: the keys in a column as wide as the widest, and the counts in a column of
eight. -/
def tableText (rows : List (String × Nat)) : String :=
  let width := (rows.map fun row => row.1.length).foldl max 0
  String.join (rows.map fun row =>
    "  " ++ Text.padRight width row.1 ++ " " ++ Text.padLeft 8 (toString row.2) ++ "\n")

def text (r : Report) : String :=
  s!"opcode counts ({r.opcodes.total} total instructions):\n" ++
    tableText (r.opcodes.byCount.map fun e => (e.1.mnemonic, e.2)) ++
    s!"function counts ({r.calls.total} total calls):\n" ++
    tableText (r.calls.byCount.map fun e => (toString e.1, e.2)) ++
    s!"halts: {r.halts}\n"

end Report

end EntityScript

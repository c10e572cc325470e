import EntityScript.Bytes
import EntityScript.Fault
import EntityScript.Instruction

namespace EntityScript

/-- The scripts of one category. -/
structure Program where
  /-- The text pool.  It starts with a table of offsets into itself. -/
  pool : Array UInt8 := #[]
  /-- The offset at which each subtype starts. -/
  entries : Array Word := #[]
  words : Array Word := #[]
  deriving DecidableEq

namespace Program

def entry? (p : Program) (subtype : Word) : Option Word :=
  p.entries[subtype.toNat]?

def textWord? (p : Program) (index : Word) : Option Word :=
  match p.pool[2 * index.toNat]?, p.pool[2 * index.toNat + 1]? with
  | some high, some low => some (Bytes.ofBigEndian [high, low]).toUInt16
  | _, _ => none

def readText (pool : Array UInt8) (position : Nat) (read : Array UInt8) : Array UInt8 :=
  if h : position < pool.size then
    if pool[position] = 0 then read
    else readText pool (position + 1) (read.push pool[position])
  else
    read
termination_by pool.size - position

/-- The string that a word of the text pool refers to, without its terminator. -/
def text? (p : Program) (index : Word) : Option Bytes :=
  match p.textWord? index with
  | none => none
  | some start =>
      if start.toNat ≤ p.pool.size then some (readText p.pool start.toNat #[]).toList
      else none

/-- Decodes the instruction at an offset.  Also gives the offset that follows it, which starts
over at zero behind the last of the 65536 addresses. -/
def fetch (p : Program) (offset : Word) : Except Fault (Instruction × Word) :=
  match Instruction.at? p.words offset.toNat with
  | some instruction => .ok (instruction, offset + instruction.size.toUInt16)
  | none => .error (.invalidAddress offset)

end Program

end EntityScript

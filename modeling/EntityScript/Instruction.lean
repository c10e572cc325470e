import EntityScript.Opcode
import EntityScript.Word

/-!
The layout of instructions.  Bits 15, 14 and 13 of the first word choose it, in this order of
precedence: a target in the other 15 bits, a parameter in the sign-extended low byte, a parameter in
the next word, or none.  Bits 8 to 12 hold the code of the operation.
-/

namespace EntityScript

inductive Encoding where
  | jump
  | byte
  | word
  | bare
  deriving DecidableEq

/-- A decoded instruction.  Words that name no operation decode too. -/
structure Instruction where
  code : UInt8
  parameter : Word
  encoding : Encoding
  deriving DecidableEq

namespace Instruction

def jumpFlag : Word := 0x8000

def byteFlag : Word := 0x4000

def wordFlag : Word := 0x2000

def targetMask : Word := 0x7FFF

def opcode? (i : Instruction) : Option Opcode :=
  Opcode.ofCode? i.code

def size (i : Instruction) : Nat :=
  match i.encoding with
  | .word => 2
  | .jump | .byte | .bare => 1

/-- The instruction for an operation.  Its parameter is none, a byte or a word, whichever holds it. -/
def shortest (op : Opcode) (parameter : Word) : Instruction :=
  let signed := parameter.toInt16
  let encoding : Encoding :=
    if parameter = 0 then .bare
    else if -128 ≤ signed ∧ signed ≤ 127 then .byte
    else .word
  ⟨op.code, parameter, encoding⟩

def jumpTo (target : Word) : Instruction :=
  ⟨Opcode.jump.code, target &&& targetMask, .jump⟩

/-- The words of an instruction.  What does not fit its layout is cut off. -/
def encode (i : Instruction) : List Word :=
  let head := (i.code &&& 0x1F).toUInt16 <<< 8
  match i.encoding with
  | .jump => [jumpFlag ||| (i.parameter &&& targetMask)]
  | .byte => [byteFlag ||| head ||| (i.parameter &&& 0xFF)]
  | .word => [wordFlag ||| head, i.parameter]
  | .bare => [head]

theorem length_encode (i : Instruction) : i.encode.length = i.size := by
  unfold encode size
  cases i.encoding <;> rfl

theorem size_pos (i : Instruction) : 0 < i.size := by
  rw [size]
  split <;> decide

def ofHead? (head : Word) (operand : Option Word) : Option Instruction :=
  let code := ((head >>> 8) &&& 0x1F).toUInt8
  if head &&& jumpFlag ≠ 0 then some (jumpTo head)
  else if head &&& byteFlag ≠ 0 then some ⟨code, head.signExtend, .byte⟩
  else if head &&& wordFlag ≠ 0 then operand.map fun parameter => ⟨code, parameter, .word⟩
  else some ⟨code, 0, .bare⟩

def ofWords? : List Word → Option Instruction
  | [] => none
  | head :: rest => ofHead? head rest.head?

def at? (words : Array Word) (offset : Nat) : Option Instruction :=
  match words[offset]? with
  | none => none
  | some head => ofHead? head words[offset + 1]?

theorem at?_eq_ofWords? (words : Array Word) (offset : Nat) :
    at? words offset = ofWords? (words.toList.drop offset) := by
  unfold at?
  cases h : words.toList.drop offset with
  | nil =>
      have : words[offset]? = none := by
        have := List.drop_eq_nil_iff.1 h
        simpa using this
      simp [this, ofWords?]
  | cons head rest =>
      have h₀ : words[offset]? = some head := by
        have := congrArg List.head? h
        simpa using this
      have h₁ : words[offset + 1]? = rest.head? := by
        have := congrArg (fun l => (l.drop 1).head?) h
        simpa [List.drop_drop] using this
      simp [h₀, h₁, ofWords?]

end Instruction

end EntityScript

import EntityScript.Opcode
import EntityScript.Word

namespace EntityScript

inductive Fault where
  /-- A push, pop, peek or frame access left the stack; `slot` is where it would have gone. -/
  | stackOverflow (stackPointer : UInt8) (slot : Slot)
  | unknownOpcode (code : UInt8)
  | unknownFunction (slot : Word)
  | invalidParameter (opcode : Opcode) (parameter : Word)
  /-- No whole instruction starts at the offset. -/
  | invalidAddress (offset : Word)
  | divisionByZero
  | unknownEntry (subtype : Word)
  | unknownVariable (index : Nat)
  /-- A push through a stack pointer beyond the empty stack, as only a restored machine has it. -/
  | strayPointer (slot : UInt8)
  deriving DecidableEq

def Fault.message : Fault → String
  | stackOverflow sp slot => s!"stack overflow (stack pointer {sp}, slot {slot})"
  | unknownOpcode code => s!"unknown opcode {code}"
  | unknownFunction slot => s!"unknown function {slot}"
  | invalidParameter opcode parameter =>
      s!"invalid parameter {parameter} for {opcode.mnemonic}"
  | invalidAddress offset => s!"instruction offset {offset} is outside the program"
  | divisionByZero => "division by zero"
  | unknownEntry subtype => s!"no entry offset for subtype {subtype}"
  | unknownVariable index => s!"unknown variable {index}"
  | strayPointer slot => s!"index out of bounds: the len is 15 but the index is {slot}"

end EntityScript

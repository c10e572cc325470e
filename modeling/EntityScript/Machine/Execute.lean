import EntityScript.Arithmetic
import EntityScript.Machine

namespace EntityScript.Machine

/-- The slot of a local, counted from 1. -/
def localSlot (framePointer : UInt8) (parameter : Word) : Slot :=
  .ofByte framePointer - .ofWord parameter - 2

def argumentSlot (framePointer : UInt8) (parameter : Word) : Slot :=
  .ofByte framePointer + .ofWord parameter - 1

/-- The return address skips the one-word jump that follows the instruction. -/
def enterFrame (next : Word) : Action Unit := do
  requireTwoSlots
  push (next + 1)
  push (← get).framePointer.toUInt16
  modify fun m => { m with framePointer := m.stackPointer + 2 }

def leaveFrame : Action Unit := do
  let _ ← peek 2
  let frame ← pop
  modify fun m => { m with framePointer := frame.toUInt8 }
  jump (← pop)

def leaveSubroutine : Action Unit := do
  let _ ← peek 2
  setResult (← pop)
  jump (← pop)
  modify fun m => { m with inSubroutine := false }

def pushSlot (slot : Slot) : Action Unit := do
  push (← readSlot slot)

def popSlot (slot : Slot) : Action Unit := do
  let _ ← readSlot slot
  writeSlot slot (← pop)

def applyUnary (op : UnaryOp) : Action Unit := do
  push (op.apply (← pop))

def applyBinary (op : BinaryOp) : Action Unit := do
  let _ ← peek 2
  let right ← pop
  let left ← pop
  match op.apply left right with
  | .ok value => push value
  | .error fault => throw fault

/-- Executes an operation; `next` is the offset that follows the instruction.  What `function` does
is up to the native function it calls. -/
def execute (opcode : Opcode) (parameter next : Word) : Action Unit := do
  let invalid : Action Unit := throw (.invalidParameter opcode parameter)
  match opcode with
  | .jump => jump parameter
  | .setResult => setResult parameter
  | .pushResultOrFrame =>
      match parameter with
      | 0 => push (← get).result
      | 1 => enterFrame next
      | _ => invalid
  | .push | .push2 => push parameter
  | .pushVariable =>
      match variableIndex? parameter.toNat with
      | some i => push ((← get).vars.get i)
      | none => invalid
  | .pushLocal => pushSlot (localSlot (← get).framePointer parameter)
  | .pushArgument => pushSlot (argumentSlot (← get).framePointer parameter)
  | .popResultOrFrame =>
      match parameter with
      | 0 => setResult (← pop)
      | 1 => leaveFrame
      | _ => invalid
  | .popVariable =>
      match variableIndex? parameter.toNat with
      | some i => setVariable i (← pop)
      | none => invalid
  | .popLocal => popSlot (localSlot (← get).framePointer parameter)
  | .popArgument => popSlot (argumentSlot (← get).framePointer parameter)
  | .rewind => rewind parameter
  | .forward => forward parameter
  | .function => return
  | .jumpIfZero =>
      let _ ← peek 1
      if (← pop) = 0 then jump (parameter &&& Instruction.targetMask)
  | .unary =>
      match UnaryOp.ofSelector? parameter with
      | some op => applyUnary op
      | none => invalid
  | .binary =>
      match BinaryOp.ofSelector? parameter with
      | some op => applyBinary op
      | none => invalid
  | .ret => leaveSubroutine

end EntityScript.Machine

import EntityScript.Proofs.Operations

/-!
The operations of the machine, computed with unbounded integers, with a record of the slots and the
numbers that they use.  Without the record they are the operations themselves as long as everything
recorded fits.
-/

namespace EntityScript.Machine

/-- What an operation notes.  Slots and numbers are as computed, not as a format cuts them. -/
inductive Access where
  /-- A slot is read without being popped. -/
  | read (slot : Int)
  /-- A slot is written without being pushed. -/
  | write (slot : Int)
  | push (slot : Int)
  | pop (slot : Int)
  | pointer (value : Int)
  | base (value : Int)
  | number (value : Int)
  deriving DecidableEq

/-- A slot is on the stack, the stack pointer in bounds, and a number in the range of its format. -/
def Access.Fits : Access → Prop
  | read slot | write slot | push slot | pop slot => 0 ≤ slot ∧ slot < stackSize
  | pointer value => 0 ≤ value ∧ value ≤ stackSize
  | base value => 0 ≤ value ∧ value < 256
  | number value => -2147483648 ≤ value ∧ value < 2147483648

def Access.isWrite : Access → Bool
  | write _ => true
  | read _ | push _ | pop _ | pointer _ | base _ | number _ => false

instance : DecidablePred Access.Fits
  | .read slot | .write slot | .push slot | .pop slot =>
      inferInstanceAs (Decidable (0 ≤ slot ∧ slot < stackSize))
  | .pointer value => inferInstanceAs (Decidable (0 ≤ value ∧ value ≤ stackSize))
  | .base value => inferInstanceAs (Decidable (0 ≤ value ∧ value < 256))
  | .number value => inferInstanceAs (Decidable (-2147483648 ≤ value ∧ value < 2147483648))

/-- A machine and what its operations noted, the oldest first. -/
structure Recording where
  machine : Machine
  log : List Access := []
  deriving DecidableEq

namespace Recording

def note (r : Recording) (accesses : List Access) : Recording :=
  { r with log := r.log ++ accesses }

/-- The value of a slot, and zero outside the stack. -/
def valueAt (r : Recording) (slot : Int) : Word :=
  r.machine.stack[slot.toNat]?.getD 0

def movePointer (r : Recording) (value : Int) : Recording :=
  ({ r with machine := { r.machine with stackPointer := .ofInt value } }).note [.pointer value]

def put (r : Recording) (slot : Int) (value : Word) : Recording :=
  { r with
    machine := { r.machine with stack := r.machine.stack.setIfInBounds slot.toNat value } }

end Recording

abbrev Recorded := EStateM Fault Recording

namespace Recorded

variable {α : Type}

def overflow (slot : Int) : Recorded α := fun r =>
  .error (r.machine.overflow (.ofInt slot)) r

def note (accesses : List Access) : Recorded Unit :=
  modify fun r => r.note accesses

def look : Recorded Machine :=
  return (← get).machine

def change (f : Machine → Machine) : Recorded Unit :=
  modify fun r => { r with machine := f r.machine }

def push (value : Word) : Recorded Unit := fun r =>
  let top : Int := r.machine.stackPointer.toNat - 1
  if r.machine.stackPointer = 0 then overflow (-1) r
  else .ok () (((r.movePointer top).put top value).note [.push top])

def pop : Recorded Word := fun r =>
  let top : Int := r.machine.stackPointer.toNat
  if stackSize ≤ top then overflow top r
  else .ok (r.valueAt top) ((r.note [.pop top]).movePointer (top + 1))

def readSlot (slot : Int) : Recorded Word := fun r =>
  if 0 ≤ slot ∧ slot < stackSize then .ok (r.valueAt slot) (r.note [.read slot])
  else overflow slot r

def writeSlot (slot : Int) (value : Word) : Recorded Unit := fun r =>
  if 0 ≤ slot ∧ slot < stackSize then .ok () ((r.put slot value).note [.write slot])
  else overflow slot r

/-- Reads the `n`-th value from the top.  Nothing checks that the slot is not negative. -/
def peek (n : UInt8) : Recorded Word := fun r =>
  let sum : Int := r.machine.stackPointer.toNat + n.toNat
  let noted := r.note [.number sum, .number (sum - 1)]
  if n = 0 ∨ stackSize ≤ sum - 1 then overflow (sum - 1) noted
  else .ok (r.valueAt (sum - 1)) (noted.note [.read (sum - 1)])

def shift (amount : Int) : Recorded Unit := fun r =>
  let target := r.machine.stackPointer.toNat + amount
  let noted := r.note [.number target]
  if 0 ≤ target ∧ target ≤ stackSize then .ok () (noted.movePointer target)
  else overflow target noted

def rewind (count : Word) : Recorded Unit :=
  shift count.signed.toInt

def forward (count : Word) : Recorded Unit := do
  note [.number (-count.signed.toInt)]
  shift (-count.signed.toInt)

def requireTwoSlots : Recorded Unit := fun r =>
  let missing : Int := r.machine.stackPointer.toNat - 2
  if r.machine.stackPointer < 2 then overflow missing (r.note [.number missing]) else .ok () r

def reset : Recorded Unit := do
  note [.pointer stackSize]
  change Machine.reset

def enterSubroutine (program : Program) (subtype : Word) : Recorded Unit := do
  let m ← look
  match m.ip with
  | none => return
  | some ip =>
      if m.inSubroutine then return
      match program.entry? subtype with
      | none => throw (.unknownEntry subtype)
      | some entry =>
          requireTwoSlots
          push ip
          push m.result
          change fun m => { m with inSubroutine := true, ip := some entry }

def enterFrame (next : Word) : Recorded Unit := do
  requireTwoSlots
  push (next + 1)
  push (← look).framePointer.toUInt16
  let top : Int := (← look).stackPointer.toNat
  note [.base (top + 2)]
  change fun m => { m with framePointer := .ofInt (top + 2) }

def leaveFrame : Recorded Unit := do
  let _ ← peek 2
  let frame ← pop
  change fun m => { m with framePointer := frame.toUInt8 }
  let next ← pop
  change fun m => { m with ip := some next }

def leaveSubroutine : Recorded Unit := do
  let _ ← peek 2
  let result ← pop
  change fun m => { m with result := result }
  let next ← pop
  change fun m => { m with ip := some next }
  change fun m => { m with inSubroutine := false }

def localSlot (framePointer : UInt8) (parameter : Word) : Recorded Int := do
  let slot : Int := framePointer.toNat - parameter.toNat
  note [.number slot, .number (slot - 2)]
  return slot - 2

def argumentSlot (framePointer : UInt8) (parameter : Word) : Recorded Int := do
  let slot : Int := framePointer.toNat + parameter.toNat
  note [.number slot, .number (slot - 1)]
  return slot - 1

def pushSlot (slot : Int) : Recorded Unit := do
  push (← readSlot slot)

def popSlot (slot : Int) : Recorded Unit := do
  let _ ← readSlot slot
  writeSlot slot (← pop)

def applyUnary (op : UnaryOp) : Recorded Unit := do
  push (op.apply (← pop))

def applyBinary (op : BinaryOp) : Recorded Unit := do
  let _ ← peek 2
  let right ← pop
  let left ← pop
  match op.apply left right with
  | .ok value => push value
  | .error fault => throw fault

def execute (opcode : Opcode) (parameter next : Word) : Recorded Unit := do
  let invalid : Recorded Unit := throw (.invalidParameter opcode parameter)
  match opcode with
  | .jump => change fun m => { m with ip := some parameter }
  | .setResult => change fun m => { m with result := parameter }
  | .pushResultOrFrame =>
      match parameter with
      | 0 => push (← look).result
      | 1 => enterFrame next
      | _ => invalid
  | .push | .push2 => push parameter
  | .pushVariable =>
      match variableIndex? parameter.toNat with
      | some i => push ((← look).vars.get i)
      | none => invalid
  | .pushLocal => pushSlot (← localSlot (← look).framePointer parameter)
  | .pushArgument => pushSlot (← argumentSlot (← look).framePointer parameter)
  | .popResultOrFrame =>
      match parameter with
      | 0 =>
          let value ← pop
          change fun m => { m with result := value }
      | 1 => leaveFrame
      | _ => invalid
  | .popVariable =>
      match variableIndex? parameter.toNat with
      | some i =>
          let value ← pop
          change fun m => { m with vars := m.vars.setIfInBounds i value }
      | none => invalid
  | .popLocal => popSlot (← localSlot (← look).framePointer parameter)
  | .popArgument => popSlot (← argumentSlot (← look).framePointer parameter)
  | .rewind => rewind parameter
  | .forward => forward parameter
  | .function => return
  | .jumpIfZero =>
      let _ ← peek 1
      if (← pop) = 0 then
        change fun m => { m with ip := some (parameter &&& Instruction.targetMask) }
  | .unary =>
      match UnaryOp.ofSelector? parameter with
      | some op => applyUnary op
      | none => invalid
  | .binary =>
      match BinaryOp.ofSelector? parameter with
      | some op => applyBinary op
      | none => invalid
  | .ret => leaveSubroutine

end Recorded

end EntityScript.Machine

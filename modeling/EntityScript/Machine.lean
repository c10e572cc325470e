import EntityScript.Fault
import EntityScript.Program

/-!
The machine of one script.  Its stack of fifteen slots grows toward slot 0; the stack pointer names
the topmost value and is 15 when the stack is empty.
-/

namespace EntityScript

def stackSize : Nat := 15

def variableCount : Nat := 5

structure Machine where
  /-- The offset of the next instruction; none when nothing is loaded. -/
  ip : Option Word := none
  delay : Word := 0
  result : Word := 0
  /-- The base of the current call frame.  It is 17 when there is none. -/
  framePointer : UInt8 := 17
  stackPointer : UInt8 := 15
  vars : Vector Word variableCount := .replicate variableCount 0
  stack : Vector Word stackSize := .replicate stackSize 0
  inSubroutine : Bool := false
  deriving DecidableEq

namespace Machine

/-- An operation on a machine.  An error comes with the machine as the operation left it. -/
abbrev Action := EStateM Fault Machine

def isLoaded (m : Machine) : Bool :=
  m.ip.isSome

/-- The values on the stack, the topmost first. -/
def values (m : Machine) : List Word :=
  m.stack.toList.drop m.stackPointer.toNat

def depth (m : Machine) : Nat :=
  stackSize - m.stackPointer.toNat

theorem length_values (m : Machine) : m.values.length = m.depth := by
  simp [values, depth]

/-- Clears the stack, the frame and the instruction pointer, but not what the stack slots hold. -/
def reset (m : Machine) : Machine :=
  { m with
    ip := none
    result := 0
    framePointer := 17
    stackPointer := 15
    inSubroutine := false }

def overflow (m : Machine) (slot : Slot) : Fault :=
  .stackOverflow m.stackPointer slot

def slotIndex? (slot : Slot) : Option (Fin stackSize) :=
  if h : 0 ≤ slot.toInt ∧ slot.toInt < stackSize then
    some ⟨slot.toInt.toNat, by omega⟩
  else
    none

def push (value : Word) : Action Unit := fun m =>
  if m.stackPointer = 0 then
    .error (m.overflow (-1)) m
  else
    let top := m.stackPointer - 1
    if h : top.toNat < stackSize then
      .ok () { m with stackPointer := top, stack := m.stack.set top.toNat value }
    else
      .error (.strayPointer top) m

def pop : Action Word := fun m =>
  if h : m.stackPointer.toNat < stackSize then
    .ok m.stack[m.stackPointer.toNat] { m with stackPointer := m.stackPointer + 1 }
  else
    .error (m.overflow (.ofByte m.stackPointer)) m

def readSlot (slot : Slot) : Action Word := fun m =>
  match slotIndex? slot with
  | some i => .ok m.stack[i] m
  | none => .error (m.overflow slot) m

def writeSlot (slot : Slot) (value : Word) : Action Unit := fun m =>
  match slotIndex? slot with
  | some i => .ok () { m with stack := m.stack.set i value }
  | none => .error (m.overflow slot) m

/-- Reads the `n`-th value from the top, which is the first. -/
def peek (n : UInt8) : Action Word := fun m =>
  let slot := .ofByte m.stackPointer + .ofByte n - 1
  if n = 0 then .error (m.overflow slot) m else readSlot slot m

def shift (amount : Int32) : Action Unit := fun m =>
  let target : Slot := .ofByte m.stackPointer + amount
  if 0 ≤ target ∧ target ≤ 15 then
    .ok () { m with stackPointer := target.toUInt32.toUInt8 }
  else
    .error (m.overflow target) m

/-- Discards values.  A negative count reserves slots. -/
def rewind (count : Word) : Action Unit :=
  shift count.signed

/-- Reserves slots, which keep what they hold.  A negative count discards values. -/
def forward (count : Word) : Action Unit :=
  shift (-count.signed)

def jump (target : Word) : Action Unit :=
  modify fun m => { m with ip := some target }

def setResult (value : Word) : Action Unit :=
  modify fun m => { m with result := value }

def setVariable (i : Fin variableCount) (value : Word) : Action Unit :=
  modify fun m => { m with vars := m.vars.set i value }

def variableIndex? (index : Nat) : Option (Fin variableCount) :=
  if h : index < variableCount then some ⟨index, h⟩ else none

def requireTwoSlots : Action Unit := fun m =>
  if m.stackPointer < 2 then .error (m.overflow (.ofByte m.stackPointer - 2)) m else .ok () m

/-- Does nothing when no script is loaded or a subroutine is active already. -/
def enterSubroutine (program : Program) (subtype : Word) : Action Unit := do
  let m ← get
  match m.ip with
  | none => return
  | some ip =>
      if m.inSubroutine then return
      match program.entry? subtype with
      | none => throw (.unknownEntry subtype)
      | some entry =>
          requireTwoSlots
          push ip
          push m.result
          modify fun m => { m with inSubroutine := true, ip := some entry }

end Machine

end EntityScript

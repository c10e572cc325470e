import EntityScript.Machine

namespace EntityScript.Machine

inductive ImageError where
  | shortImage
  | noRoom
  | stackPointer (value : UInt8)
  | offset (value : UInt32)
  deriving DecidableEq

def ImageError.message : ImageError → String
  | shortImage => "failed to fill whole buffer"
  | noRoom => "failed to write whole buffer"
  | stackPointer value => s!"stack pointer {value} exceeds the stack size"
  | offset value => s!"instruction offset {value} is out of range"

/-- The fields of an image of 55 bytes, in order. -/
def imageFields (m : Machine) : List Bytes :=
  [ Bytes.littleEndian 2 m.delay.toNat,
    Bytes.littleEndian 4 (m.ip.getD 0).toNat,
    Bytes.littleEndian 4 0,
    Bytes.littleEndian 2 m.result.toNat,
    [m.framePointer],
    [m.stackPointer] ] ++
  m.vars.toList.map (fun w => Bytes.littleEndian 2 w.toNat) ++
  m.stack.toList.map (fun w => Bytes.littleEndian 2 w.toNat) ++
  [[if m.inSubroutine then 1 else 0]]

def save (m : Machine) : Bytes :=
  m.imageFields.flatten

/-- A buffer that cannot grow: the bytes written to it, and the room behind them, which still holds
what stood there. -/
structure Buffer where
  written : Bytes := []
  room : Nat
  ahead : Vector UInt8 room := .replicate room 0

namespace Buffer

def write (field : Bytes) : EStateM ImageError Buffer Unit := fun b =>
  if field.length ≤ b.room then
    .ok () ⟨b.written ++ field, b.room - field.length, b.ahead.drop field.length⟩
  else
    .error .noRoom ⟨b.written ++ field.take b.room, 0, #v[]⟩

def writeAll : List Bytes → EStateM ImageError Buffer Unit
  | [] => return
  | field :: rest => do
      write field
      writeAll rest

end Buffer

def saveInto (m : Machine) : EStateM ImageError Buffer Unit :=
  Buffer.writeAll m.imageFields

abbrev Reader := StateT Bytes (Except ImageError)

namespace Reader

def bytes (count : Nat) : Reader Bytes := do
  let rest ← get
  if rest.length < count then throw .shortImage
  set (rest.drop count)
  return rest.take count

def number (width : Nat) : Reader Nat :=
  return Bytes.ofLittleEndian (← bytes width)

def words : (count : Nat) → Reader (Vector Word count)
  | 0 => return #v[]
  | count + 1 => do
      let before ← words count
      return before.push (← number 2).toUInt16

end Reader

/-- Reads a machine.  The offset and the stack pointer are checked as soon as they are read, so
they are reported even if the image ends early after them. -/
def read : Reader Machine := do
  let delay ← Reader.number 2
  let offset ← Reader.number 4
  if 65536 ≤ offset then throw (.offset offset.toUInt32)
  let _ ← Reader.number 4
  let result ← Reader.number 2
  let framePointer ← Reader.number 1
  let stackPointer ← Reader.number 1
  if stackSize < stackPointer then throw (.stackPointer stackPointer.toUInt8)
  let vars ← Reader.words variableCount
  let stack ← Reader.words stackSize
  let flag ← Reader.number 1
  return {
    ip := if offset = 0 then none else some offset.toUInt16
    delay := delay.toUInt16
    result := result.toUInt16
    framePointer := framePointer.toUInt8
    stackPointer := stackPointer.toUInt8
    vars := vars
    stack := stack
    inSubroutine := flag ≠ 0
  }

def load (bytes : Bytes) : Except ImageError (Machine × Bytes) :=
  read.run bytes

end EntityScript.Machine

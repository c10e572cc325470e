import EntityScript.Machine
import EntityScript.Owner
import EntityScript.Packed

namespace EntityScript

def Category.pack (c : Category) : Bytes :=
  Packed.choice c.rank

def Opcode.pack (op : Opcode) : Bytes :=
  Packed.choice op.code.toNat

def Encoding.pack (e : Encoding) : Bytes :=
  Packed.choice <| match e with
    | .jump => 0
    | .byte => 1
    | .word => 2
    | .bare => 3

def Instruction.pack (i : Instruction) : Bytes :=
  Packed.byte i.code ++ Packed.word i.parameter ++ i.encoding.pack

def Program.pack (p : Program) : Bytes :=
  Packed.list Packed.byte p.pool.toList ++ Packed.list Packed.word p.entries.toList ++
    Packed.list Packed.word p.words.toList

namespace Machine

def pack (m : Machine) : Bytes :=
  Packed.option Packed.word m.ip ++ Packed.word m.delay ++ Packed.word m.result ++
    Packed.byte m.framePointer ++ Packed.byte m.stackPointer ++
    m.vars.toList.flatMap Packed.word ++ m.stack.toList.flatMap Packed.word ++
    Packed.bool m.inSubroutine

def unpackReader : Packed.Reader Machine := do
  return {
    ip := ← .option .word
    delay := ← .word
    result := ← .word
    framePointer := ← .byte
    stackPointer := ← .byte
    vars := ← .vector .word variableCount
    stack := ← .vector .word stackSize
    inSubroutine := ← .bool
  }

/-- Reads a packed machine from the start of the bytes.  Its stack pointer is not checked. -/
def unpack? (bytes : Bytes) : Option (Machine × Bytes) :=
  unpackReader.run bytes

end Machine

end EntityScript

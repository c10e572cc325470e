import EntityScript.Program.Image

namespace EntityScript

structure Assembly where
  pool : Array UInt8 := #[]
  entries : Array Word := #[]
  words : Array Word := #[]

namespace Assembly

def offset (a : Assembly) : Word :=
  a.words.size.toUInt16

/-- Adds the offsets of zero-terminated strings to `table` and the strings to `pool`; `base` is
where the pool starts. -/
def layText (base : Nat) (table pool : Array UInt8) : List String → Array UInt8
  | [] => table ++ pool
  | text :: rest =>
      let start := Bytes.bigEndian 2 (base + pool.size)
      layText base (table ++ start) ((pool ++ Text.Utf8.encode text).push 0) rest

/-- Makes the strings the text pool: a table of their offsets, then the strings, each with a zero
byte at its end. -/
def text (a : Assembly) (strings : List String) : Assembly :=
  { a with pool := layText (2 * strings.length) #[] #[] strings }

def entryAt (a : Assembly) (offset : Word) : Assembly :=
  { a with entries := a.entries.push offset }

/-- Starts the next subtype here. -/
def entry (a : Assembly) : Assembly :=
  a.entryAt a.offset

def raw (a : Assembly) (words : Array Word) : Assembly :=
  { a with words := a.words ++ words }

def instruction (a : Assembly) (i : Instruction) : Assembly :=
  a.raw i.encode.toArray

def op (a : Assembly) (opcode : Opcode) (parameter : Word) : Assembly :=
  a.instruction (.shortest opcode parameter)

def jump (a : Assembly) (target : Word) : Assembly :=
  a.instruction (.jumpTo target)

def build (a : Assembly) : Program :=
  ⟨a.pool, a.entries, a.words⟩

def bytes (a : Assembly) : Bytes :=
  a.build.toBytes

end Assembly

end EntityScript

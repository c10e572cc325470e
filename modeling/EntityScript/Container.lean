import EntityScript.Bytes

/-!
The containers of program files: the tag `FORM`, the size of all that follows, the tag of the kind,
and chunks.  A chunk is a tag, a size, the data and a pad byte if the size is odd.  Sizes have 32
bits, highest byte first.
-/

namespace EntityScript

structure Tag where
  first : UInt8
  second : UInt8
  third : UInt8
  fourth : UInt8
  deriving DecidableEq

namespace Tag

def ofChars (a b c d : Char) : Tag :=
  ⟨a.toUInt8, b.toUInt8, c.toUInt8, d.toUInt8⟩

def bytes (t : Tag) : Bytes :=
  [t.first, t.second, t.third, t.fourth]

def form : Tag := ofChars 'F' 'O' 'R' 'M'

end Tag

structure Chunk where
  id : Tag
  data : Bytes
  deriving DecidableEq

/-- A container: its kind and its chunks in file order. -/
structure Form where
  kind : Tag
  chunks : List Chunk
  deriving DecidableEq

namespace Form

inductive Error where
  | notAForm
  /-- A chunk runs past the end; `name` is what there is of its name. -/
  | truncated (name : Bytes)
  deriving DecidableEq

def padding (length : Nat) : Bytes :=
  List.replicate (length % 2) 0

def writeChunk (chunk : Chunk) : Bytes :=
  chunk.id.bytes ++ Bytes.bigEndian 4 chunk.data.length ++ chunk.data ++ padding chunk.data.length

def write (form : Form) : Bytes :=
  let body := form.kind.bytes ++ form.chunks.flatMap writeChunk
  Tag.form.bytes ++ Bytes.bigEndian 4 body.length ++ body

/-- Reads chunks up to the end of the bytes.  The pad byte may have any value, and may be missing
after the last chunk. -/
def readChunks : Bytes → Except Error (List Chunk)
  | [] => .ok []
  | a :: b :: c :: d :: n₃ :: n₂ :: n₁ :: n₀ :: rest =>
      let id : Tag := ⟨a, b, c, d⟩
      let length := Bytes.ofBigEndian [n₃, n₂, n₁, n₀]
      let data := rest.take length
      if data.length = length then
        (readChunks (rest.drop (length + length % 2))).map (⟨id, data⟩ :: ·)
      else
        .error (.truncated id.bytes)
  | short => .error (.truncated short)
termination_by bytes => bytes.length
decreasing_by simp only [List.length_cons, List.length_drop]; omega

def readBody : Bytes → Except Error Form
  | a :: b :: c :: d :: rest => (readChunks rest).map fun chunks => ⟨⟨a, b, c, d⟩, chunks⟩
  | _ => .error (.truncated Tag.form.bytes)

/-- Reads a container.  Bytes after its end are ignored. -/
def read (input : Bytes) : Except Error Form :=
  if input.length < 12 ∨ input.take 4 ≠ Tag.form.bytes then
    .error .notAForm
  else
    let size := Bytes.ofBigEndian ((input.drop 4).take 4)
    let rest := input.drop 8
    if size ≤ rest.length then readBody (rest.take size)
    else .error (.truncated Tag.form.bytes)

def find? (form : Form) (id : Tag) : Option Bytes :=
  (form.chunks.find? fun chunk => chunk.id = id).map Chunk.data

end Form

end EntityScript

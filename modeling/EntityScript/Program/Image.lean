import EntityScript.Container
import EntityScript.Program
import EntityScript.Text.Quoted
import EntityScript.Text.Utf8

/-!
Program files: a container of kind `EMC2` with the chunks `TEXT`, `ORDR` and `DATA` for the text
pool, the entries and the instruction stream.  Words are stored with the high byte first.
-/

namespace EntityScript.Program

def kind : Tag := .ofChars 'E' 'M' 'C' '2'

def poolTag : Tag := .ofChars 'T' 'E' 'X' 'T'

def entriesTag : Tag := .ofChars 'O' 'R' 'D' 'R'

def wordsTag : Tag := .ofChars 'D' 'A' 'T' 'A'

inductive ImageError where
  | form (error : Form.Error)
  | wrongKind (found : Tag)
  | missingChunk (id : Tag)
  | oddLength (id : Tag) (length : Nat)
  deriving DecidableEq

def ImageError.message : ImageError → String
  | form .notAForm => "not a FORM container"
  | form (.truncated name) => "chunk " ++ Text.Utf8.decode name ++ " is truncated"
  | wrongKind found => "unexpected form type " ++ Text.quote (Text.Utf8.decode found.bytes)
  | missingChunk id => "missing required chunk " ++ Text.Utf8.decode id.bytes
  | oddLength id length =>
      "chunk " ++ Text.Utf8.decode id.bytes ++ " has odd length " ++ toString length

def requireChunk (form : Form) (id : Tag) : Except ImageError Bytes :=
  match form.find? id with
  | some data => .ok data
  | none => .error (.missingChunk id)

def readWords (id : Tag) (data : Bytes) : Except ImageError (Array Word) :=
  if data.length % 2 = 0 then .ok (Bytes.appendWords #[] data)
  else .error (.oddLength id data.length)

def ofForm (form : Form) : Except ImageError Program := do
  if form.kind ≠ kind then throw (.wrongKind form.kind)
  let pool ← requireChunk form poolTag
  let entries ← requireChunk form entriesTag
  let words ← requireChunk form wordsTag
  return {
    pool := pool.toArray
    entries := ← readWords entriesTag entries
    words := ← readWords wordsTag words
  }

def ofBytes (input : Bytes) : Except ImageError Program := do
  ofForm (← (Form.read input).mapError .form)

def toForm (p : Program) : Form where
  kind := kind
  chunks := [
    ⟨poolTag, p.pool.toList⟩,
    ⟨entriesTag, Bytes.ofWords p.entries.toList⟩,
    ⟨wordsTag, Bytes.ofWords p.words.toList⟩
  ]

def toBytes (p : Program) : Bytes :=
  p.toForm.write

end EntityScript.Program

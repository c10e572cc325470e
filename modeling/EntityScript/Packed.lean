import EntityScript.Bytes

/-!
The packed form of values: numbers in their full width, lowest byte first, and fields one after the
other.  Only 0 and 1 are read as a truth value or the start of an optional one.
-/

namespace EntityScript.Packed

def byte (b : UInt8) : Bytes :=
  [b]

def word (w : Word) : Bytes :=
  Bytes.littleEndian 2 w.toNat

def bool (b : Bool) : Bytes :=
  [if b then 1 else 0]

def choice (alternative : Nat) : Bytes :=
  Bytes.littleEndian 4 alternative

def option {α : Type} (pack : α → Bytes) : Option α → Bytes
  | none => [0]
  | some a => 1 :: pack a

def list {α : Type} (pack : α → Bytes) (items : List α) : Bytes :=
  Bytes.littleEndian 8 items.length ++ items.flatMap pack

abbrev Reader := StateT Bytes Option

namespace Reader

def byte : Reader UInt8 := fun bytes =>
  match bytes with
  | b :: rest => some (b, rest)
  | [] => none

def word : Reader Word := do
  let low ← byte
  let high ← byte
  return (Bytes.ofLittleEndian [low, high]).toUInt16

def bool : Reader Bool := do
  match ← byte with
  | 0 => return false
  | 1 => return true
  | _ => failure

def option {α : Type} (read : Reader α) : Reader (Option α) := do
  match ← byte with
  | 0 => return none
  | 1 => return some (← read)
  | _ => failure

def vector {α : Type} (read : Reader α) : (count : Nat) → Reader (Vector α count)
  | 0 => return #v[]
  | count + 1 => do
      let before ← vector read count
      return before.push (← read)

end Reader

end EntityScript.Packed

namespace EntityScript.Text.Decimal

/-- The value of a non-empty run of digits. -/
def ofDigits? (digits : List Char) : Option Nat :=
  if digits ≠ [] ∧ digits.all Char.isDigit then
    some (digits.foldl (fun value d => 10 * value + (d.toNat - '0'.toNat)) 0)
  else
    none

def unsigned? (text : String) : Option Nat :=
  match text.toList with
  | '+' :: digits => ofDigits? digits
  | digits => ofDigits? digits

def signed? (text : String) : Option Int :=
  match text.toList with
  | '-' :: digits => (ofDigits? digits).map fun n => -(n : Int)
  | _ => (unsigned? text).map Int.ofNat

end EntityScript.Text.Decimal

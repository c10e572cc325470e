namespace EntityScript.Text

/-- The number in lowercase hexadecimal, with at least four digits. -/
def hex4 (n : Nat) : String :=
  let digits := Nat.toDigits 16 n
  String.ofList (List.replicate (4 - digits.length) '0' ++ digits)

def hex (n : Nat) : String :=
  String.ofList (Nat.toDigits 16 n)

def blanks (width : Nat) (text : String) : String :=
  String.ofList (List.replicate (width - text.length) ' ')

def padRight (width : Nat) (text : String) : String :=
  text ++ blanks width text

def padLeft (width : Nat) (text : String) : String :=
  blanks width text ++ text

end EntityScript.Text

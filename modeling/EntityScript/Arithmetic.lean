import EntityScript.Fault

namespace EntityScript

inductive UnaryOp where
  /-- The zero test. -/
  | not
  | negate
  | complement
  deriving DecidableEq

namespace UnaryOp

def ofSelector? : Word → Option UnaryOp
  | 0 => some not
  | 1 => some negate
  | 2 => some complement
  | _ => none

def mnemonic : UnaryOp → String
  | not => "not"
  | negate => "neg"
  | complement => "bnot"

def apply (op : UnaryOp) (value : Word) : Word :=
  match op with
  | not => .ofBool (value == 0)
  | negate => 0 - value
  | complement => ~~~value

end UnaryOp

/-- The operations that `binary` selects, on signed words in 32 bits. -/
inductive BinaryOp where
  | both
  | either
  | equal
  | different
  | less
  | lessEqual
  | greater
  | greaterEqual
  | add
  | subtract
  | multiply
  /-- The quotient, cut toward zero. -/
  | divide
  /-- Arithmetic, by the right operand modulo 32. -/
  | shiftRight
  | shiftLeft
  | bitAnd
  | bitOr
  /-- The remainder, with the sign of the left operand. -/
  | modulo
  | bitXor
  deriving DecidableEq

namespace BinaryOp

def ofSelector? : Word → Option BinaryOp
  | 0 => some both
  | 1 => some either
  | 2 => some equal
  | 3 => some different
  | 4 => some less
  | 5 => some lessEqual
  | 6 => some greater
  | 7 => some greaterEqual
  | 8 => some add
  | 9 => some subtract
  | 10 => some multiply
  | 11 => some divide
  | 12 => some shiftRight
  | 13 => some shiftLeft
  | 14 => some bitAnd
  | 15 => some bitOr
  | 16 => some modulo
  | 17 => some bitXor
  | _ => none

def mnemonic : BinaryOp → String
  | both => "land"
  | either => "lor"
  | equal => "eq"
  | different => "ne"
  | less => "lt"
  | lessEqual => "le"
  | greater => "gt"
  | greaterEqual => "ge"
  | add => "add"
  | subtract => "sub"
  | multiply => "mul"
  | divide => "div"
  | shiftRight => "shr"
  | shiftLeft => "shl"
  | bitAnd => "and"
  | bitOr => "or"
  | modulo => "mod"
  | bitXor => "xor"

/-- The value that replaces the operands.  Only a division or a remainder by zero fails. -/
def apply (op : BinaryOp) (left right : Word) : Except Fault Word :=
  let l := left.signed
  let r := right.signed
  match op with
  | both => .ok (.ofBool (l != 0 && r != 0))
  | either => .ok (.ofBool (l != 0 || r != 0))
  | equal => .ok (.ofBool (l == r))
  | different => .ok (.ofBool (l != r))
  | less => .ok (.ofBool (l < r))
  | lessEqual => .ok (.ofBool (l ≤ r))
  | greater => .ok (.ofBool (r < l))
  | greaterEqual => .ok (.ofBool (r ≤ l))
  | add => .ok (.ofSigned (l + r))
  | subtract => .ok (.ofSigned (l - r))
  | multiply => .ok (.ofSigned (l * r))
  | divide => if r = 0 then .error .divisionByZero else .ok (.ofSigned (l / r))
  | shiftRight => .ok (.ofSigned (l >>> r))
  | shiftLeft => .ok (.ofSigned (l <<< r))
  | bitAnd => .ok (.ofSigned (l &&& r))
  | bitOr => .ok (.ofSigned (l ||| r))
  | modulo => if r = 0 then .error .divisionByZero else .ok (.ofSigned (l % r))
  | bitXor => .ok (.ofSigned (l ^^^ r))

end BinaryOp

end EntityScript

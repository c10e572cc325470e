import EntityScript.Arithmetic
import EntityScript.Instruction
import EntityScript.Text.Column

namespace EntityScript.Instruction

def selectorText (mnemonic : Option String) (selector : Word) : String :=
  mnemonic.getD s!"?{selector}"

def operandText (opcode : Opcode) (parameter : Word) : String :=
  match opcode with
  | .unary => selectorText ((UnaryOp.ofSelector? parameter).map UnaryOp.mnemonic) parameter
  | .binary => selectorText ((BinaryOp.ofSelector? parameter).map BinaryOp.mnemonic) parameter
  | .jump | .jumpIfZero => "0x" ++ Text.hex4 (parameter &&& targetMask).toNat
  | .function => s!"#{parameter &&& 0xFF}"
  | _ => toString parameter.signed.toInt

def mnemonic (i : Instruction) : String :=
  match i.opcode? with
  | some opcode => opcode.mnemonic
  | none => s!"op{i.code}"

/-- The parameter of an undefined operation is shown unsigned. -/
def text (i : Instruction) : String :=
  let operand := match i.opcode? with
    | some opcode => operandText opcode i.parameter
    | none => toString i.parameter
  Text.padRight 10 i.mnemonic ++ " " ++ operand

end EntityScript.Instruction

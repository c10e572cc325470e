namespace EntityScript

inductive Opcode where
  | jump
  | setResult
  /-- Push the result, or set up a call frame. -/
  | pushResultOrFrame
  | push
  /-- Push the parameter; a second code for the same operation. -/
  | push2
  | pushVariable
  | pushLocal
  | pushArgument
  /-- Pop into the result, or leave a call frame. -/
  | popResultOrFrame
  | popVariable
  | popLocal
  | popArgument
  | rewind
  | forward
  | function
  /-- Pop, and continue at the parameter if the value is zero. -/
  | jumpIfZero
  | unary
  | binary
  | ret
  deriving DecidableEq

namespace Opcode

def code : Opcode → UInt8
  | jump => 0
  | setResult => 1
  | pushResultOrFrame => 2
  | push => 3
  | push2 => 4
  | pushVariable => 5
  | pushLocal => 6
  | pushArgument => 7
  | popResultOrFrame => 8
  | popVariable => 9
  | popLocal => 10
  | popArgument => 11
  | rewind => 12
  | forward => 13
  | function => 14
  | jumpIfZero => 15
  | unary => 16
  | binary => 17
  | ret => 18

/-- The operation with a given code.  Codes from 19 on name none. -/
def ofCode? : UInt8 → Option Opcode
  | 0 => some jump
  | 1 => some setResult
  | 2 => some pushResultOrFrame
  | 3 => some push
  | 4 => some push2
  | 5 => some pushVariable
  | 6 => some pushLocal
  | 7 => some pushArgument
  | 8 => some popResultOrFrame
  | 9 => some popVariable
  | 10 => some popLocal
  | 11 => some popArgument
  | 12 => some rewind
  | 13 => some forward
  | 14 => some function
  | 15 => some jumpIfZero
  | 16 => some unary
  | 17 => some binary
  | 18 => some ret
  | _ => none

def mnemonic : Opcode → String
  | jump => "jump"
  | setResult => "setret"
  | pushResultOrFrame => "pushrf"
  | push => "push"
  | push2 => "push2"
  | pushVariable => "pushv"
  | pushLocal => "pushl"
  | pushArgument => "pushp"
  | popResultOrFrame => "poprf"
  | popVariable => "popv"
  | popLocal => "popl"
  | popArgument => "popp"
  | rewind => "rewind"
  | forward => "forward"
  | function => "call"
  | jumpIfZero => "jumpz"
  | unary => "unary"
  | binary => "binary"
  | ret => "ret"

@[simp] theorem ofCode?_code (op : Opcode) : ofCode? op.code = some op := by
  cases op <;> rfl

theorem code_of_ofCode? {c : UInt8} {op : Opcode} (h : ofCode? c = some op) : op.code = c := by
  unfold ofCode? at h
  split at h <;> simp at h <;> subst h <;> rfl

theorem ofCode?_eq_some_iff {c : UInt8} {op : Opcode} : ofCode? c = some op ↔ op.code = c :=
  ⟨code_of_ofCode?, fun h => h ▸ ofCode?_code op⟩

end Opcode

end EntityScript

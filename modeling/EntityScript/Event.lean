import EntityScript.Instruction.Display
import EntityScript.Owner
import EntityScript.Schedule.Summary

namespace EntityScript

inductive Level where
  | error
  | warning
  | info
  | debug
  | trace
  deriving DecidableEq

namespace Level

def rank : Level → Nat
  | error => 0
  | warning => 1
  | info => 2
  | debug => 3
  | trace => 4

def name : Level → String
  | error => "ERROR"
  | warning => "WARN"
  | info => "INFO"
  | debug => "DEBUG"
  | trace => "TRACE"

def admits (threshold level : Level) : Bool :=
  level.rank ≤ threshold.rank

end Level

inductive Event where
  /-- A program was read; the counts are bytes of text, entries and instruction words. -/
  | programLoaded (text entries words : Nat)
  | nativeReplaced (category : Category) (slot : Nat)
  | valueIgnored (name value : String)
  | reset
  | noEntry (subtype : Word)
  | loaded (subtype entry : Word)
  | subroutineLoaded (subtype : Word) (ip : Option Word)
  | dispatched (offset : Word) (instruction : Instruction)
  /-- A native function was called; its argument is the top of the stack. -/
  | nativeCalled (slot : Nat) (argument : Option Word) (result : Word)
  | stopped (slot : Word)
  /-- An engine halted on a fault at an offset; the instruction is known if it could be decoded. -/
  | halted (owner : OwnerLabel) (offset : Option Word) (instruction : Option Instruction)
      (fault : Fault)
  | tickDone (summary : TickSummary)
  deriving DecidableEq

namespace Event

def level : Event → Level
  | halted .. => .error
  | noEntry .. | nativeReplaced .. | valueIgnored .. => .warning
  | nativeCalled .. => .info
  | programLoaded .. | reset | loaded .. | subroutineLoaded .. | stopped .. => .debug
  | dispatched .. | tickDone .. => .trace

def message : Event → String
  | programLoaded .. => "loaded program"
  | nativeReplaced .. => "overriding native function"
  | valueIgnored .. => "ignoring invalid value"
  | reset => "script reset"
  | noEntry .. => "no entry offset, script left idle"
  | loaded .. => "script loaded"
  | subroutineLoaded .. => "subroutine loaded"
  | dispatched .. => "dispatch"
  | nativeCalled .. => "native"
  | stopped .. => "script stopped by native function"
  | halted _ _ _ fault => "script halted: " ++ fault.message
  | tickDone .. => "tick done"

def optionText : Option Word → String
  | some w => s!"Some({w})"
  | none => "None"

def fields : Event → List (String × String)
  | programLoaded text entries words =>
      [("text", toString text), ("entries", toString entries), ("instructions", toString words)]
  | nativeReplaced category slot => [("category", category.name), ("index", toString slot)]
  | valueIgnored name value => [("name", name), ("value", value)]
  | reset => []
  | noEntry subtype => [("subtype", toString subtype)]
  | loaded subtype entry => [("subtype", toString subtype), ("entry", toString entry)]
  | subroutineLoaded subtype ip => [("subtype", toString subtype), ("entry", optionText ip)]
  | dispatched offset instruction =>
      [("offset", toString offset), ("instruction", instruction.text)]
  | nativeCalled slot argument result =>
      [("slot", toString slot), ("argument", optionText argument),
        ("return_value", toString result)]
  | stopped slot => [("function", toString slot)]
  | halted owner offset instruction _ =>
      [("category", owner.category.name), ("index", toString owner.index),
        ("subtype", toString owner.subtype), ("offset", optionText offset),
        ("opcode", (instruction.map Instruction.mnemonic).getD "-")]
  | tickDone summary => [("summary", summary.text)]

end Event

/-- The result of an operation, what the operation left behind, and the events it reported. -/
structure Outcome (σ α : Type) where
  value : α
  after : σ
  events : Array Event := #[]

end EntityScript

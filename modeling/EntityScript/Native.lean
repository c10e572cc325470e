import EntityScript.Machine
import EntityScript.Settings

namespace EntityScript

structure CallSite where
  program : Program
  settings : Settings

structure Call (ω : Type) where
  machine : Machine
  owner : ω
  stopped : Bool := false
  events : Array Event := #[]

/-- An error comes with the call as the action left it. -/
abbrev NativeM (ω : Type) := ReaderT CallSite (EStateM Fault (Call ω))

/-- A native function.  Its value becomes the result of the calling script. -/
abbrev Native (ω : Type) := NativeM ω Word

namespace Native

variable {ω α : Type}

def onMachine (action : Machine.Action α) : NativeM ω α := fun _ call =>
  match action call.machine with
  | .ok value machine => .ok value { call with machine := machine }
  | .error fault machine => .error fault { call with machine := machine }

/-- Reads an argument; the top of the stack is the first.  The arguments stay there. -/
def peek (n : UInt8) : NativeM ω Word :=
  onMachine (Machine.peek n)

def readVariable (index : Nat) : NativeM ω Word :=
  match Machine.variableIndex? index with
  | some i => onMachine do return (← get).vars.get i
  | none => throw (.unknownVariable index)

def writeVariable (index : Nat) (value : Word) : NativeM ω Unit :=
  match Machine.variableIndex? index with
  | some i => onMachine (Machine.setVariable i value)
  | none => throw (.unknownVariable index)

def setDelay (ticks : Word) : NativeM ω Unit :=
  onMachine (modify fun m => { m with delay := ticks })

def enterSubroutine (subtype : Word) : NativeM ω Unit := do
  onMachine (Machine.enterSubroutine (← read).program subtype)

def stop : NativeM ω Unit :=
  modify fun call => { call with stopped := true }

def isStopped : NativeM ω Bool :=
  return (← get).stopped

def text? (index : Word) : NativeM ω (Option Bytes) :=
  return (← read).program.text? index

def report (event : Event) : NativeM ω Unit :=
  modify fun call => { call with events := call.events.push event }

def modifyOwner (change : ω → ω) : NativeM ω Unit :=
  modify fun call => { call with owner := change call.owner }

/-- A unit of zero ticks counts as one. -/
def delay : NativeM ω Word := do
  let ticks := (← peek 1) / max (← read).settings.ticksPerDelayUnit 1
  setDelay ticks
  return ticks

def noOperation : NativeM ω Word :=
  return 0

end Native

end EntityScript

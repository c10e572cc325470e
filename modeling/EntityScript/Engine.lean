import EntityScript.Event
import EntityScript.Machine
import EntityScript.Report
import EntityScript.Settings

namespace EntityScript

inductive Status where
  | idle
  | running
  | suspended
  | halted
  deriving DecidableEq

def Status.name : Status → String
  | idle => "Idle"
  | running => "Running"
  | suspended => "Suspended"
  | halted => "Halted"

structure Engine where
  program : Program
  settings : Settings := {}
  machine : Machine := {}
  /-- What was done since the report was last taken. -/
  report : Report := {}
  /-- Whether the engine halted since it was last reset. -/
  halted : Bool := false
  deriving DecidableEq

namespace Engine

def isLoaded (e : Engine) : Bool :=
  e.machine.isLoaded

def isReady (e : Engine) : Bool :=
  e.isLoaded && e.machine.delay = 0

def status (e : Engine) : Status :=
  if e.isLoaded then
    if e.machine.delay = 0 then .running else .suspended
  else
    if e.halted then .halted else .idle

def takeReport (e : Engine) : Report × Engine :=
  (e.report, { e with report := {} })

/-- The engine with its instruction pointer cleared, counted as a halt. -/
def halt (e : Engine) : Engine :=
  { e with
    machine := { e.machine with ip := none }
    halted := true
    report := e.report.countHalt }

def reset (e : Engine) : Outcome Engine Unit where
  value := ()
  after := { e with machine := e.machine.reset, halted := false }
  events := #[.reset]

/-- Resets and starts at the entry of a subtype.  Without such an entry the engine stays reset. -/
def load (e : Engine) (subtype : Word) : Outcome Engine (Except Fault Unit) :=
  let cleared := e.reset
  let engine := cleared.after
  match engine.program.entry? subtype with
  | none =>
      ⟨.error (.unknownEntry subtype), engine, cleared.events.push (.noEntry subtype)⟩
  | some entry =>
      ⟨.ok (), { engine with machine := { engine.machine with ip := some entry } },
        cleared.events.push (.loaded subtype entry)⟩

end Engine

structure Actor (ω : Type) where
  engine : Engine
  owner : ω

namespace Actor

variable {ω α : Type}

def mapEngine (a : Actor ω) (change : Engine → Engine) : Actor ω :=
  { a with engine := change a.engine }

def withMachine (a : Actor ω) (machine : Machine) : Actor ω :=
  a.mapEngine fun e => { e with machine := machine }

def onMachine (action : Machine.Action α) (a : Actor ω) :
    Outcome (Actor ω) (Except Fault α) :=
  match action a.engine.machine with
  | .ok value machine => { value := .ok value, after := a.withMachine machine }
  | .error fault machine => { value := .error fault, after := a.withMachine machine }

def fail [Owner ω] (a : Actor ω) (offset : Option Word) (instruction : Option Instruction)
    (fault : Fault) : Outcome (Actor ω) (Except Fault α) where
  value := .error fault
  after := a.mapEngine Engine.halt
  events := #[.halted (Owner.label a.owner) offset instruction fault]

/-- Does nothing when no script is loaded or a subroutine is active already; halts if there is no
such entry or no room on the stack. -/
def loadSubroutine [Owner ω] (a : Actor ω) (subtype : Word) :
    Outcome (Actor ω) (Except Fault Unit) :=
  let ip := a.engine.machine.ip
  let entered := a.onMachine (Machine.enterSubroutine a.engine.program subtype)
  match entered.value with
  | .error fault => entered.after.fail ip none fault
  | .ok () =>
      { entered with
        events := #[.subroutineLoaded subtype entered.after.engine.machine.ip] }

end Actor

end EntityScript

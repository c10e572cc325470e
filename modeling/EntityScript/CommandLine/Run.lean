import EntityScript.CommandLine.Reply
import EntityScript.Schedule

namespace EntityScript.CommandLine

/-- The entity that a script stands for when it runs by itself. -/
structure Standalone where
  category : Category
  subtype : Word

instance : Owner Standalone where
  category := Standalone.category
  subtype := Standalone.subtype

def reportCall (slot : Nat) : NativeM Standalone Word := do
  let call ← get
  let argument := match Machine.peek 1 call.machine with
    | .ok value _ => some value
    | .error .. => none
  Native.report (.nativeCalled slot argument call.machine.result)
  return 0

def reportingTable (category : Category) : NativeTable Standalone where
  category := category
  slots := .ofFn fun slot => some (if slot.val = 0 then Native.delay else reportCall slot)

/-- The settings of a run: those asked for, else those of the environment, else the defaults.  None
of them may be zero. -/
def RunRequest.settings (request : RunRequest) (world : World) :
    Except Failure Settings × Array Event :=
  let (defaults, events) := Settings.ofEnvironment world.environment
  let settings : Settings :=
    ⟨request.budget.getD defaults.instructionBudget,
      request.ticksPerDelayUnit.getD defaults.ticksPerDelayUnit⟩
  let checked :=
    if settings.instructionBudget = 0 then
      .error { message := "the instruction budget must be positive" }
    else if settings.ticksPerDelayUnit = 0 then
      .error { message := "ticks per delay unit must be positive" }
    else
      .ok settings
  (checked, events)

/-- How a run ended: after how many ticks, on which fault, and in which state. -/
structure RunEnd where
  ticks : Nat
  fault : Option Fault
  actor : Actor Standalone
  events : Array Event

/-- Ticks up to `limit` times, after `ticks` others, until nothing is loaded any more. -/
def tickUpTo (table : NativeTable Standalone) (ticks : Nat) (events : Array Event) :
    (limit : Nat) → Actor Standalone → RunEnd
  | 0, actor => ⟨ticks, none, actor, events⟩
  | limit + 1, actor =>
      let ticked := actor.tick table
      let events := events ++ ticked.events
      match ticked.value with
      | .idle => ⟨ticks + 1, none, ticked.after, events⟩
      | .halted fault => ⟨ticks + 1, some fault, ticked.after, events⟩
      | .waiting _ | .ran _ => tickUpTo table (ticks + 1) events limit ticked.after

def RunEnd.text (e : RunEnd) : String :=
  let engine := e.actor.engine
  let fault := match e.fault with
    | some fault => s!"halted on tick {e.ticks}: " ++ fault.message ++ "\n"
    | none => ""
  fault ++ s!"{e.ticks} ticks, engine {engine.status.name}\n" ++ engine.report.text

def run (world : World) (request : RunRequest) : Reply :=
  match loadProgram world request.path with
  | .error failure => .finished "" failure #[]
  | .ok (program, loadEvents) =>
      match request.settings world with
      | (.error failure, settingsEvents) =>
          .finished "" failure (loadEvents ++ settingsEvents)
      | (.ok settings, settingsEvents) =>
          let engine : Engine := { program := program, settings := settings }
          let loaded := engine.load request.subtype
          let events := loadEvents ++ settingsEvents ++ loaded.events
          match loaded.value with
          | .error fault =>
              .finished "" (some ⟨s!"while loading subtype {request.subtype}", [fault.message]⟩)
                events
          | .ok () =>
              let actor : Actor Standalone :=
                ⟨loaded.after, ⟨request.category, request.subtype⟩⟩
              let ended := tickUpTo (reportingTable request.category) 0 events request.ticks actor
              .finished ended.text none ended.events

end EntityScript.CommandLine

import EntityScript.Engine.Step

namespace EntityScript

/-- Gives an engine its turn: a delay is counted down, and any other loaded engine runs. -/
def Actor.tick {ω : Type} [Owner ω] (table : NativeTable ω) (a : Actor ω) :
    Outcome (Actor ω) Turn :=
  let machine := a.engine.machine
  if !machine.isLoaded then
    { value := .idle, after := a }
  else if 0 < machine.delay then
    let left := machine.delay - 1
    { value := .waiting left, after := a.withMachine { machine with delay := left } }
  else
    let ran := a.run table
    match ran.value with
    | .ok instructions => { ran with value := .ran instructions }
    | .error fault => { ran with value := .halted fault }

structure Schedule where
  ticks : Nat := 0

def Schedule.tick {ω : Type} [Owner ω] (table : NativeTable ω) (s : Schedule)
    (actors : List (Actor ω)) : Outcome (Schedule × List (Actor ω)) TickSummary :=
  let turns := actors.map (Actor.tick table)
  let summary := TickSummary.ofTurns (turns.map (·.value))
  { value := summary
    after := (⟨s.ticks + 1⟩, turns.map (·.after))
    events := (turns.toArray.flatMap (·.events)).push (.tickDone summary) }

end EntityScript

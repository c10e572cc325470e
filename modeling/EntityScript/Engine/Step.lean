import EntityScript.Engine
import EntityScript.Machine.Execute
import EntityScript.Native.Table

namespace EntityScript.Actor

variable {ω : Type}

/-- Calls a native function.  Its value becomes the result of the script, whatever the function
itself left there. -/
def callNative (table : NativeTable ω) (slot : Word) (a : Actor ω) :
    Outcome (Actor ω) (Except Fault Unit) :=
  let engine := { a.engine with report := a.engine.report.countCall slot }
  let call : Call ω := { machine := engine.machine, owner := a.owner }
  match table.invoke slot ⟨engine.program, engine.settings⟩ call with
  | .error fault call =>
      ⟨.error fault, ⟨{ engine with machine := call.machine }, call.owner⟩, call.events⟩
  | .ok value call =>
      let engine := { engine with machine := { call.machine with result := value } }
      if call.stopped then
        ⟨.ok (), ⟨engine.halt, call.owner⟩, call.events.push (.stopped slot)⟩
      else
        ⟨.ok (), ⟨engine, call.owner⟩, call.events⟩

/-- Executes an instruction; `next` is the offset that follows it, and is in the instruction pointer
already.  Defined operations are counted whether or not they succeed. -/
def execute (table : NativeTable ω) (instruction : Instruction) (next : Word) (a : Actor ω) :
    Outcome (Actor ω) (Except Fault Unit) :=
  match instruction.opcode? with
  | none => { value := .error (.unknownOpcode instruction.code), after := a }
  | some opcode =>
      let counted := a.mapEngine fun e => { e with report := e.report.countOpcode opcode }
      match opcode with
      | .function => counted.callNative table (instruction.parameter &&& 0xFF)
      | _ => counted.onMachine (Machine.execute opcode instruction.parameter next)

/-- Decodes and executes one instruction.  The value is false when nothing is loaded. -/
def step [Owner ω] (table : NativeTable ω) (a : Actor ω) :
    Outcome (Actor ω) (Except Fault Bool) :=
  match a.engine.machine.ip with
  | none => { value := .ok false, after := a }
  | some ip =>
      match a.engine.program.fetch ip with
      | .error fault => a.fail (some ip) none fault
      | .ok (instruction, next) =>
          let begun := a.withMachine { a.engine.machine with ip := some next }
          let executed := begun.execute table instruction next
          let events := #[.dispatched ip instruction] ++ executed.events
          match executed.value with
          | .ok () => ⟨.ok true, executed.after, events⟩
          | .error fault =>
              let failed := executed.after.fail (some ip) (some instruction) fault
              { failed with events := events ++ failed.events }

/-- Executes up to `budget` instructions, after `executed` others, while the engine is ready. -/
def runFrom [Owner ω] (table : NativeTable ω) (executed : Nat) (events : Array Event) :
    (budget : Nat) → (a : Actor ω) → Outcome (Actor ω) (Except Fault Nat)
  | 0, a => ⟨.ok executed, a, events⟩
  | budget + 1, a =>
      if a.engine.isReady then
        let stepped := a.step table
        let events := events ++ stepped.events
        match stepped.value with
        | .ok _ => runFrom table (executed + 1) events budget stepped.after
        | .error fault => ⟨.error fault, stepped.after, events⟩
      else
        ⟨.ok executed, a, events⟩

/-- Executes instructions until the script sets a delay, halts or uses up the budget of its engine.
The value is the number of instructions executed. -/
def run [Owner ω] (table : NativeTable ω) (a : Actor ω) :
    Outcome (Actor ω) (Except Fault Nat) :=
  runFrom table 0 #[] a.engine.settings.instructionBudget a

end EntityScript.Actor

import EntityScript.Proofs.HostCalls

namespace EntityScript

variable {ω : Type} {table : NativeTable ω} {settings : Settings → Settings}
  {report : Report → Report}

/-- The engine with other settings and another report. -/
def Engine.changed (settings : Settings → Settings) (report : Report → Report) (e : Engine) :
    Engine :=
  { e with settings := settings e.settings, report := report e.report }

/-- What makes a change of settings and reports one that steps with a table do not see. -/
structure Unseen (table : NativeTable ω) (settings : Settings → Settings)
    (report : Report → Report) : Prop where
  countOpcode (r : Report) (opcode : Opcode) :
    report (r.countOpcode opcode) = (report r).countOpcode opcode
  countCall (r : Report) (slot : Word) : report (r.countCall slot) = (report r).countCall slot
  countHalt (r : Report) : report r.countHalt = (report r).countHalt
  invoke (slot : Word) (site : CallSite) (call : Call ω) :
    table.invoke slot { site with settings := settings site.settings } call =
      table.invoke slot site call

namespace Actor

def changed (settings : Settings → Settings) (report : Report → Report) (a : Actor ω) : Actor ω :=
  a.mapEngine (Engine.changed settings report)

theorem onMachine_changed {α : Type} (action : Machine.Action α) (a : Actor ω) :
    (a.changed settings report).onMachine action =
      (a.onMachine action).mapAfter (changed settings report) := by
  simp only [onMachine, changed, mapEngine, Engine.changed]
  cases action a.engine.machine with
  | ok value machine => rfl
  | error fault machine => rfl

variable (h : Unseen table settings report) (a : Actor ω)

include h

theorem mapEngine_halt_changed :
    (a.changed settings report).mapEngine Engine.halt =
      (a.mapEngine Engine.halt).changed settings report := by
  simp only [changed, mapEngine, Engine.changed, Engine.halt, h.countHalt]

theorem callNative_changed (slot : Word) :
    (a.changed settings report).callNative table slot =
      (a.callNative table slot).mapAfter (changed settings report) := by
  simp only [callNative, changed, mapEngine, Engine.changed, ← h.countCall]
  rw [h.invoke slot ⟨a.engine.program, a.engine.settings⟩]
  cases table.invoke slot ⟨a.engine.program, a.engine.settings⟩
      { machine := a.engine.machine, owner := a.owner } with
  | error fault call => rfl
  | ok value call =>
      dsimp only
      split
      · simp only [Engine.halt, ← h.countHalt]
        rfl
      · rfl

theorem counted_changed (opcode : Opcode) :
    ((a.changed settings report).mapEngine fun e =>
        { e with report := e.report.countOpcode opcode }) =
      (a.mapEngine fun e => { e with report := e.report.countOpcode opcode }).changed settings
        report := by
  simp only [changed, mapEngine, Engine.changed, h.countOpcode]

theorem execute_changed (instruction : Instruction) (next : Word) :
    (a.changed settings report).execute table instruction next =
      (a.execute table instruction next).mapAfter (changed settings report) := by
  cases hcode : instruction.opcode? with
  | none =>
      simp only [execute, hcode]
      rfl
  | some opcode =>
      by_cases hopcode : opcode = .function
      · subst opcode
        simp only [execute, hcode]
        rw [counted_changed h, callNative_changed h]
      · rw [execute_operation table hcode hopcode, execute_operation table hcode hopcode,
          counted_changed h, onMachine_changed]

variable [Owner ω]

theorem fail_changed {α : Type} (offset : Option Word) (instruction : Option Instruction)
    (fault : Fault) :
    ((a.changed settings report).fail offset instruction fault : Outcome _ (Except Fault α)) =
      (a.fail offset instruction fault).mapAfter (changed settings report) := by
  rw [fail, mapEngine_halt_changed h]
  rfl

theorem loadSubroutine_changed (subtype : Word) :
    (a.changed settings report).loadSubroutine subtype =
      (a.loadSubroutine subtype).mapAfter (changed settings report) := by
  have hprogram : (a.changed settings report).engine.program = a.engine.program := rfl
  simp only [loadSubroutine, onMachine_changed, hprogram]
  obtain ⟨value, after, events⟩ := a.onMachine (Machine.enterSubroutine a.engine.program subtype)
  rcases value with fault | ⟨⟩
  · exact fail_changed h after _ _ fault
  · rfl

theorem step_changed :
    (a.changed settings report).step table =
      (a.step table).mapAfter (changed settings report) := by
  have hmachine : (a.changed settings report).engine.machine = a.engine.machine := rfl
  have hprogram : (a.changed settings report).engine.program = a.engine.program := rfl
  have hbegun (m : Machine) :
      (a.changed settings report).withMachine m = (a.withMachine m).changed settings report := rfl
  simp only [step, hmachine, hprogram, hbegun, execute_changed h]
  cases a.engine.machine.ip with
  | none => rfl
  | some ip =>
      dsimp only
      rcases a.engine.program.fetch ip with fault | ⟨instruction, next⟩
      · exact fail_changed h a _ _ fault
      · dsimp only
        obtain ⟨value, after, events⟩ :=
          (a.withMachine { a.engine.machine with ip := some next }).execute table instruction next
        rcases value with fault | ⟨⟩
        · simp only [Outcome.mapAfter, fail_changed h]
        · rfl

theorem runFrom_changed (executed : Nat) (events : Array Event) (budget : Nat) :
    (a.changed settings report).runFrom table executed events budget =
      (a.runFrom table executed events budget).mapAfter (changed settings report) := by
  induction budget generalizing executed events a with
  | zero => rfl
  | succ budget ih =>
      have hready : (a.changed settings report).engine.isReady = a.engine.isReady := rfl
      simp only [runFrom, hready, step_changed h]
      split
      · obtain ⟨value, after, reported⟩ := a.step table
        rcases value with fault | ran
        · rfl
        · exact ih after (executed + 1) (events ++ reported)
      · rfl

end Actor

end EntityScript

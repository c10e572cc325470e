import EntityScript.Proofs.Dispatch
import EntityScript.Schedule

namespace EntityScript

namespace Outcome

variable {σ τ α β : Type}

def map (f : α → β) (o : Outcome σ α) : Outcome σ β :=
  ⟨f o.value, o.after, o.events⟩

def mapAfter (f : σ → τ) (o : Outcome σ α) : Outcome τ α :=
  ⟨o.value, f o.after, o.events⟩

end Outcome

/-- What a host asks of an engine. -/
inductive HostCall (ω : Type) where
  | load (subtype : Word)
  | reset
  | loadSubroutine (subtype : Word)
  | step (table : NativeTable ω)
  | run (table : NativeTable ω)
  | tick (table : NativeTable ω)

namespace HostCall

inductive Reply where
  | done
  | loaded (result : Except Fault Unit)
  | stepped (result : Except Fault Bool)
  | ran (result : Except Fault Nat)
  | turned (turn : Turn)

def Reply.isFault : Reply → Bool
  | loaded (.error _) | stepped (.error _) | ran (.error _) | turned (.halted _) => true
  | _ => false

variable {ω : Type} [Owner ω]

def perform (a : Actor ω) : HostCall ω → Outcome (Actor ω) Reply
  | load subtype => ((a.engine.load subtype).map .loaded).mapAfter fun engine => ⟨engine, a.owner⟩
  | reset => (a.engine.reset.map fun _ => .done).mapAfter fun engine => ⟨engine, a.owner⟩
  | loadSubroutine subtype => (a.loadSubroutine subtype).map .loaded
  | step table => (a.step table).map .stepped
  | run table => (a.run table).map .ran
  | tick table => (a.tick table).map .turned

def play (a : Actor ω) : List (HostCall ω) → Actor ω
  | [] => a
  | call :: rest => play (call.perform a).after rest

def answers (a : Actor ω) : List (HostCall ω) → List (Reply × Array Event)
  | [] => []
  | call :: rest =>
      ((call.perform a).value, (call.perform a).events) :: answers (call.perform a).after rest

end HostCall

/-- The engines that come about from a new one. -/
inductive Engine.Reached (program : Program) (settings : Settings) : Engine → Prop where
  | fresh : Reached program settings { program := program, settings := settings }
  | perform {ω : Type} [Owner ω] {e : Engine} (owner : ω) (call : HostCall ω) :
      Reached program settings e → Reached program settings (call.perform ⟨e, owner⟩).after.engine

/-- An engine keeps its program and its settings, and has nothing loaded while it is halted. -/
structure Engine.Over (program : Program) (settings : Settings) (e : Engine) : Prop where
  program_eq : e.program = program
  settings_eq : e.settings = settings
  ip_eq_none : e.halted = true → e.machine.ip = none

variable {ω : Type} {program : Program} {settings : Settings} {e : Engine} {a : Actor ω}

namespace Engine.Over

theorem halt (h : e.Over program settings) : e.halt.Over program settings :=
  ⟨h.program_eq, h.settings_eq, fun _ => rfl⟩

theorem continued (h : e.Over program settings) (hloaded : e.machine.ip ≠ none)
    (machine : Machine) (report : Report) :
    Over program settings { e with machine := machine, report := report } :=
  ⟨h.program_eq, h.settings_eq, fun hhalted => (hloaded (h.ip_eq_none hhalted)).elim⟩

theorem reset (h : e.Over program settings) : e.reset.after.Over program settings :=
  ⟨h.program_eq, h.settings_eq, fun _ => rfl⟩

theorem load (h : e.Over program settings) (subtype : Word) :
    (e.load subtype).after.Over program settings := by
  simp only [Engine.load]
  split
  · exact h.reset
  · exact ⟨h.program_eq, h.settings_eq, fun hhalted => by cases hhalted⟩

variable [Owner ω]

theorem step (h : a.engine.Over program settings) (table : NativeTable ω) :
    (a.step table).after.engine.Over program settings := by
  by_cases hloaded : a.engine.machine.ip = none
  · rwa [(Actor.step_unloaded table hloaded).2]
  · obtain ⟨machine, report, owner, hafter | hafter⟩ := Actor.step_loaded_after table hloaded
    · rw [hafter]
      exact h.continued hloaded machine report
    · rw [hafter]
      exact (h.continued hloaded machine report).halt

theorem runFrom (h : a.engine.Over program settings) (table : NativeTable ω) (executed : Nat)
    (events : Array Event) (budget : Nat) :
    (a.runFrom table executed events budget).after.engine.Over program settings := by
  induction budget generalizing executed events a with
  | zero => exact h
  | succ budget ih =>
      rw [Actor.runFrom]
      split
      · dsimp only
        cases (a.step table).value with
        | ok value => exact ih (h.step table) _ _
        | error fault => exact h.step table
      · exact h

theorem tick (h : a.engine.Over program settings) (table : NativeTable ω) :
    (a.tick table).after.engine.Over program settings := by
  have hran := h.runFrom table 0 #[] a.engine.settings.instructionBudget
  simp only [Actor.tick]
  split
  · exact h
  · split
    · exact ⟨h.program_eq, h.settings_eq, h.ip_eq_none⟩
    · split <;> exact hran

theorem loadSubroutine (h : a.engine.Over program settings) (subtype : Word) :
    (a.loadSubroutine subtype).after.engine.Over program settings := by
  by_cases hloaded : a.engine.machine.ip = none
  · rw [(Actor.loadSubroutine_ok (Machine.enterSubroutine_idle (.inl hloaded))).2]
    exact h
  · cases hentered : Machine.enterSubroutine a.engine.program subtype a.engine.machine with
    | ok value m =>
        rw [(Actor.loadSubroutine_ok hentered).2]
        exact h.continued hloaded m _
    | error fault m =>
        rw [(Actor.loadSubroutine_error hentered).2]
        exact (h.continued hloaded m _).halt

theorem perform (h : a.engine.Over program settings) (call : HostCall ω) :
    (call.perform a).after.engine.Over program settings := by
  cases call with
  | load subtype => exact h.load subtype
  | reset => exact h.reset
  | loadSubroutine subtype => exact h.loadSubroutine subtype
  | step table => exact h.step table
  | run table => exact h.runFrom table 0 #[] _
  | tick table => exact h.tick table

end Engine.Over

theorem Engine.Reached.over (h : e.Reached program settings) : e.Over program settings := by
  induction h with
  | fresh => exact ⟨rfl, rfl, fun hhalted => by cases hhalted⟩
  | perform owner call _ ih => exact ih.perform call

end EntityScript

import EntityScript.Proofs.Accounting
import EntityScript.Proofs.StayingLoaded

namespace EntityScript

open Machine

variable {ω : Type}

/-- What becomes of a loaded engine.  It halts, which its report counts, or it stays loaded. -/
structure Engine.Fares (e : Engine) (ended : Bool) (e' : Engine) : Prop where
  loaded : ended = false → e'.machine.ip ≠ none
  unloaded : ended = true → e'.machine.ip = none ∧ e'.halted = true
  halts : e'.report.halts = e.report.halts + ended.toNat

namespace Engine

variable {e e' e'' : Engine} {ended : Bool}

theorem Fares.stay (hip : e'.machine.ip ≠ none) (h : e'.report.halts = e.report.halts) :
    e.Fares false e' :=
  ⟨fun _ => hip, nofun, h⟩

theorem Fares.halt (h : e'.report.halts = e.report.halts) : e.Fares true e'.halt :=
  ⟨nofun, fun _ => ⟨rfl, rfl⟩, congrArg (· + 1) h⟩

theorem Fares.trans (h : e.Fares false e') (hnext : e'.Fares ended e'') : e.Fares ended e'' := by
  refine ⟨hnext.loaded, hnext.unloaded, ?_⟩
  rw [hnext.halts, h.halts]
  rfl

end Engine

/-- The step ends what is loaded. -/
def Stride.ends (s : Stride) : Bool :=
  s.fails || s.stops

theorem Stride.fares (s : Stride) (hguided : s.table.Guided)
    (hloaded : s.start.engine.machine.ip ≠ none) :
    s.start.engine.Fares s.ends (s.start.step s.table).after.engine := by
  rw [ends]
  cases s.start.stepCase s.table with
  | unloaded hunloaded => exact (hloaded hunloaded).elim
  | stray _ _ hvalue hafter =>
      rw [fails_error hvalue, hafter]
      exact .halt rfl
  | @executed opcode parameter next m hoperation hopcode hrun hvalue hafter =>
      have hm := StaysLoaded.execute opcode parameter next (s.start.begun next)
        (Option.some_ne_none next)
      rw [hrun] at hm
      rw [fails_ok hvalue, (slot?_operation hoperation hopcode).2, hafter]
      exact .stay hm rfl
  | refused _ _ _ hvalue hafter =>
      rw [fails_error hvalue, hafter]
      exact .halt rfl
  | returned hoperation hcall hstopped hvalue hafter =>
      rw [fails_ok hvalue, stops_ok hoperation hcall, hstopped, hafter]
      exact .stay (hguided.loaded_call hcall) rfl
  | stopped hoperation hcall hstopped hvalue hafter =>
      rw [fails_ok hvalue, stops_ok hoperation hcall, hstopped, hafter]
      exact .halt rfl
  | raised _ _ hvalue hafter =>
      rw [fails_error hvalue, hafter]
      exact .halt rfl

variable [Owner ω] {a : Actor ω} {table : NativeTable ω}

theorem Actor.runFrom_fares (hguided : table.Guided) (hloaded : a.engine.machine.ip ≠ none)
    (executed : Nat) (events : Array Event) (budget : Nat) :
    let ran := a.runFrom table executed events budget
    a.engine.Fares (!ran.value.isOk || (a.strides table budget).any (·.stops)) ran.after.engine := by
  induction budget generalizing executed events a with
  | zero => exact .stay hloaded rfl
  | succ budget ih =>
      cases hready : a.engine.isReady with
      | false =>
          rw [runFrom_unready _ _ _ hready, strides_unready table _ hready]
          exact .stay hloaded rfl
      | true =>
          have hstep := Stride.fares ⟨table, a⟩ hguided hloaded
          rw [runFrom_ready _ _ _ hready, strides_ready table _ hready]
          cases hvalue : (a.step table).value with
          | error fault =>
              rw [Stride.ends, Stride.fails_error hvalue] at hstep
              exact hstep
          | ok done =>
              rw [Stride.ends, Stride.fails_ok hvalue, Bool.false_or] at hstep
              dsimp only
              rw [List.any_cons]
              cases hstops : (⟨table, a⟩ : Stride).stops with
              | true =>
                  rw [hstops] at hstep
                  rw [runFrom_unready _ _ _ (Engine.isReady_unloaded (hstep.unloaded rfl).1)]
                  exact hstep
              | false =>
                  rw [hstops] at hstep
                  exact hstep.trans (ih (hstep.loaded rfl) _ _)

namespace HostCall

/-- The native functions that the call can use change the instruction pointer only as they enter
subroutines. -/
def Guided : HostCall ω → Prop
  | step table | run table | tick table => table.Guided
  | load _ | reset | loadSubroutine _ => True

/-- The call ends what is loaded: it returns a fault, or a native function stops the engine. -/
def ends (a : Actor ω) (asked : HostCall ω) : Bool :=
  asked.faults a || (asked.strides a).any (·.stops)

theorem fares_perform {asked : HostCall ω} (hguided : asked.Guided)
    (hrestarts : asked.restarts = false) (hloaded : a.engine.machine.ip ≠ none) :
    a.engine.Fares (asked.ends a) (asked.perform a).after.engine := by
  cases asked with
  | load subtype => cases hrestarts
  | reset => cases hrestarts
  | loadSubroutine subtype =>
      rw [ends, faults, perform]
      cases hentered : Machine.enterSubroutine a.engine.program subtype a.engine.machine with
      | ok value m =>
          obtain ⟨hvalue, hafter⟩ := Actor.loadSubroutine_ok hentered
          have hm := StaysLoaded.enterSubroutine a.engine.program subtype _ hloaded
          rw [hentered] at hm
          simp only [Outcome.map, hvalue, hafter]
          exact .stay hm rfl
      | error fault m =>
          obtain ⟨hvalue, hafter⟩ := Actor.loadSubroutine_error hentered
          simp only [Outcome.map, hvalue, hafter]
          exact .halt rfl
  | step table =>
      rw [ends, faults_step, HostCall.strides, List.any_cons, List.any_nil, Bool.or_false]
      exact Stride.fares ⟨table, a⟩ hguided hloaded
  | run table =>
      rw [ends, faults_run]
      exact Actor.runFrom_fares hguided hloaded 0 #[] _
  | tick table =>
      cases hready : a.engine.isReady with
      | false =>
          have hdelay := Engine.delay_ne_zero hloaded hready
          rw [ends, (tick_unready table hready).1, HostCall.strides,
            Actor.strides_unready table _ hready, perform, Actor.tick_waiting table hloaded hdelay]
          exact .stay hloaded rfl
      | true =>
          rw [ends, faults_tick hready, perform, Actor.tick_ready table hready]
          exact Actor.runFrom_fares hguided hloaded 0 #[] _

end HostCall

/-- Whether an engine in this state has a script loaded. -/
def Status.isLoaded : Status → Bool
  | running | suspended => true
  | idle | halted => false

namespace Engine

variable {e e' : Engine} {ended : Bool}

theorem isLoaded_status (e : Engine) : e.status.isLoaded = e.isLoaded := by
  rw [status]
  cases e.isLoaded with
  | true => simp only [if_true]; split <;> rfl
  | false => simp only [Bool.false_eq_true, if_false]; split <;> rfl

theorem isLoaded_iff : e.isLoaded = true ↔ e.machine.ip ≠ none :=
  Option.isSome_iff_ne_none

theorem isLoaded_eq_false_iff : e.isLoaded = false ↔ e.machine.ip = none :=
  Option.isSome_eq_false_iff.trans Option.isNone_iff_eq_none

theorem status_running_iff : e.status = .running ↔ e.isReady = true := by
  simp only [status, isReady]
  cases e.isLoaded <;> by_cases hdelay : e.machine.delay = 0 <;> cases e.halted <;> simp [hdelay]

theorem status_load (e : Engine) (subtype : Word) :
    (e.load subtype).after.status =
      if (e.program.entry? subtype).isNone then .idle
      else if e.machine.delay = 0 then .running else .suspended := by
  simp only [load, reset]
  cases e.program.entry? subtype with
  | none => rfl
  | some entry => rfl

theorem Fares.status (h : e.Fares ended e') :
    if ended then
      e'.status = .halted ∧ e'.report.halts = e.report.halts + 1
    else
      e'.status.isLoaded = true ∧ e'.report.halts = e.report.halts := by
  cases ended with
  | true =>
      obtain ⟨hip, hhalted⟩ := h.unloaded rfl
      refine ⟨?_, h.halts⟩
      simp only [Engine.status, isLoaded_eq_false_iff.2 hip, hhalted, Bool.false_eq_true, if_false,
        if_true]
  | false =>
      refine ⟨?_, h.halts⟩
      rw [isLoaded_status, isLoaded_iff]
      exact h.loaded rfl

end Engine

namespace Actor

theorem run_running (h : (a.run table).after.engine.status = .running) :
    (a.run table).value = .ok a.engine.settings.instructionBudget := by
  rw [Engine.status_running_iff] at h
  obtain ⟨b, -, hran⟩ := runFrom_cases table 0 #[] a.engine.settings.instructionBudget a
  change (a.runFrom table 0 #[] a.engine.settings.instructionBudget).after.engine.isReady = true at h
  rcases hran with ⟨hvalue, hafter, hend⟩ | ⟨fault, hfault, -, -, -, hafter⟩
  · rw [hafter] at h
    rcases hend with hbudget | hunready
    · rw [Nat.zero_add, hbudget] at hvalue
      exact hvalue
    · rw [h] at hunready
      cases hunready
  · rw [hafter, Engine.isReady_iff, step_error_unloaded hfault] at h
    obtain ⟨⟨ip, hip⟩, -⟩ := h
    cases hip

end Actor

namespace HostAct

theorem over_play {program : Program} {settings : Settings} {e : Engine}
    (h : e.Over program settings) (acts : List HostAct) :
    (play e acts).Over program settings := by
  induction acts generalizing e with
  | nil => exact h
  | cons act rest ih =>
      cases act with
      | call owner asked => exact ih (h.perform (a := ⟨e, owner⟩) asked)
      | takeReport => exact ih ⟨h.program_eq, h.settings_eq, h.ip_eq_none⟩

/-- Only a load or a reset changes anything while nothing is loaded.  What is loaded ends with a
fault or with a native function that stops the engine, which is one halt; and a run that ends while
the engine could go on has used up the budget. -/
theorem lifecycle (program : Program) (settings : Settings) (acts : List HostAct) (owner : ω)
    (asked : HostCall ω) (hguided : asked.Guided) :
    let e := play { program := program, settings := settings } acts
    let reply := (asked.perform ⟨e, owner⟩).value
    let after := (asked.perform ⟨e, owner⟩).after
    (e.halted = true → e.machine.ip = none) ∧
      e.takeReport.2.status = e.status ∧
      (∀ subtype, asked = .load subtype →
        after.engine.status =
          if (program.entry? subtype).isNone then .idle
          else if e.machine.delay = 0 then .running else .suspended) ∧
      (asked = .reset → after.engine.status = .idle) ∧
      (asked.restarts = false → e.status.isLoaded = false →
        reply.isFault = false ∧ after = ⟨e, owner⟩) ∧
      (asked.restarts = false → e.status.isLoaded = true →
        if asked.ends ⟨e, owner⟩ then
          after.engine.status = .halted ∧ after.engine.report.halts = e.report.halts + 1
        else
          after.engine.status.isLoaded = true ∧ after.engine.report.halts = e.report.halts) ∧
      (∀ table, asked = .run table → after.engine.status = .running →
        reply = .ran (.ok settings.instructionBudget)) := by
  intro e reply after
  have hover : e.Over program settings := over_play Engine.Reached.fresh.over acts
  refine ⟨hover.ip_eq_none, rfl, ?_, ?_, ?_, ?_, ?_⟩
  · rintro subtype rfl
    rw [← hover.program_eq]
    exact e.status_load subtype
  · rintro rfl
    rfl
  · intro hrestarts hstatus
    rw [Engine.isLoaded_status, Engine.isLoaded_eq_false_iff] at hstatus
    obtain ⟨answer, events, hanswer, hperform⟩ := HostCall.perform_unloaded hrestarts
    have hsame := hperform ⟨e, owner⟩ hstatus
    have hreply : reply = answer := congrArg Outcome.value hsame
    rw [hreply]
    exact ⟨hanswer, congrArg Outcome.after hsame⟩
  · intro hrestarts hstatus
    rw [Engine.isLoaded_status, Engine.isLoaded_iff] at hstatus
    exact (HostCall.fares_perform (a := ⟨e, owner⟩) hguided hrestarts hstatus).status
  · rintro table rfl hstatus
    have hbudget := Actor.run_running (a := ⟨e, owner⟩) hstatus
    rw [← hover.settings_eq]
    exact congrArg HostCall.Reply.ran hbudget

/-- A native function that enters a subroutine and asks for a delay may still stop the engine. -/
theorem lifecycle_stopped :
    let program : Program := { entries := #[0, 0], words := #[0x0E00] }
    let native : NativeM Unit Word := do
      Native.enterSubroutine 1
      Native.setDelay 3
      Native.stop
      return 7
    let table : NativeTable Unit := ⟨.team, .replicate nativeSlots (some native)⟩
    let e := play { program := program } [.call () (.load 0 : HostCall Unit)]
    let after := ((.tick table : HostCall Unit).perform ⟨e, ()⟩).after.engine
    table.Guided ∧ e.status = .running ∧ after.status = .halted ∧ after.report.halts = 1 := by
  intro program native table e after
  have hnative : Native.Guided native :=
    .bind (.enterSubroutine 1) fun _ => .bind (.setDelay 3) fun _ => .bind .stop fun _ => .pure 7
  have htable : table.Guided := by
    intro slot found hfound
    simp only [NativeTable.get?, table, Vector.getElem?_replicate] at hfound
    split at hfound
    · obtain rfl := Option.some.inj hfound
      exact hnative
    · cases hfound
  have hstatus : e.status = .running := by decide
  obtain ⟨-, -, -, -, -, hends, -⟩ :=
    lifecycle program {} [.call () (.load 0 : HostCall Unit)] () (.tick table) htable
  have hstops : (HostCall.tick table).ends ⟨e, ()⟩ = true := by decide +kernel
  have hhalted := hends rfl (congrArg Status.isLoaded hstatus)
  rw [if_pos hstops] at hhalted
  exact ⟨htable, hstatus, hhalted⟩

end HostAct

end EntityScript

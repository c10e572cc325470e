import EntityScript.Proofs.Counting
import EntityScript.Proofs.Image
import EntityScript.Proofs.Turns
import EntityScript.Proofs.UnseenChanges

/-!
Nothing that an engine does depends on its report, and what it does while nothing is loaded does not
depend on whether it halted.
-/

namespace EntityScript

variable {ω : Type}

namespace Engine

/-- The engine with a report to begin with, to which its own is added. -/
def carrying (before : Report) (e : Engine) : Engine :=
  { e with report := before + e.report }

/-- The engine as if it had halted. -/
def flagged (e : Engine) : Engine :=
  { e with halted := true }

theorem load_carrying (before : Report) (e : Engine) (subtype : Word) :
    (e.carrying before).load subtype = (e.load subtype).mapAfter (carrying before) := by
  simp only [load, reset, carrying]
  cases e.program.entry? subtype with
  | none => rfl
  | some entry => rfl

end Engine

namespace Actor

def carrying (before : Report) (a : Actor ω) : Actor ω :=
  a.mapEngine (Engine.carrying before)

def flagged (a : Actor ω) : Actor ω :=
  a.mapEngine Engine.flagged

section Carrying

variable (before : Report) (a : Actor ω)

theorem unseen_carrying (table : NativeTable ω) : Unseen table id (before + ·) where
  countOpcode := Report.add_countOpcode before
  countCall := Report.add_countCall before
  countHalt _ := rfl
  invoke _ _ _ := rfl

variable [Owner ω]

theorem loadSubroutine_carrying (subtype : Word) :
    (a.carrying before).loadSubroutine subtype =
      (a.loadSubroutine subtype).mapAfter (carrying before) :=
  loadSubroutine_changed (unseen_carrying before (.empty default)) a subtype

theorem step_carrying (table : NativeTable ω) :
    (a.carrying before).step table = (a.step table).mapAfter (carrying before) :=
  step_changed (unseen_carrying before table) a

theorem run_carrying (table : NativeTable ω) :
    (a.carrying before).run table = (a.run table).mapAfter (carrying before) :=
  runFrom_changed (unseen_carrying before table) a 0 #[] _

theorem tick_carrying (table : NativeTable ω) :
    (a.carrying before).tick table = (a.tick table).mapAfter (carrying before) := by
  have hmachine : (a.carrying before).engine.machine = a.engine.machine := rfl
  simp only [tick, hmachine, run_carrying]
  split
  · rfl
  · split
    · rfl
    · obtain ⟨value, after, events⟩ := a.run table
      rcases value with fault | instructions
      · rfl
      · rfl

end Carrying

section Unloaded

variable [Owner ω] {a : Actor ω} (h : a.engine.machine.ip = none)

include h

theorem loadSubroutine_unloaded (subtype : Word) :
    a.loadSubroutine subtype = ⟨.ok (), a, #[.subroutineLoaded subtype none]⟩ := by
  have hidle : Machine.enterSubroutine a.engine.program subtype a.engine.machine =
      .ok () a.engine.machine := Machine.enterSubroutine_idle (.inl h)
  simp only [loadSubroutine, onMachine, hidle, withMachine, mapEngine, h]

theorem step_eq_of_unloaded (table : NativeTable ω) : a.step table = ⟨.ok false, a, #[]⟩ := by
  simp only [step, h]

theorem run_unloaded (table : NativeTable ω) : a.run table = ⟨.ok 0, a, #[]⟩ :=
  runFrom_unready 0 #[] _ (Engine.isReady_unloaded h)

end Unloaded

end Actor

namespace HostCall

variable [Owner ω] {a : Actor ω} {calls : List (HostCall ω)}

section Carrying

variable (before : Report)

theorem perform_carrying (a : Actor ω) (call : HostCall ω) :
    call.perform (a.carrying before) = (call.perform a).mapAfter (Actor.carrying before) := by
  cases call with
  | load subtype =>
      have hengine : (a.carrying before).engine = a.engine.carrying before := rfl
      simp only [perform, hengine, Engine.load_carrying]
      rfl
  | reset => rfl
  | loadSubroutine subtype =>
      simp only [perform, Actor.loadSubroutine_carrying]
      rfl
  | step table =>
      simp only [perform, Actor.step_carrying]
      rfl
  | run table =>
      simp only [perform, Actor.run_carrying]
      rfl
  | tick table =>
      simp only [perform, Actor.tick_carrying]
      rfl

theorem play_carrying (a : Actor ω) (calls : List (HostCall ω)) :
    play (a.carrying before) calls = (play a calls).carrying before := by
  induction calls generalizing a with
  | nil => rfl
  | cons call rest ih =>
      rw [play, perform_carrying]
      exact ih (call.perform a).after

theorem answers_carrying (a : Actor ω) (calls : List (HostCall ω)) :
    answers (a.carrying before) calls = answers a calls := by
  induction calls generalizing a with
  | nil => rfl
  | cons call rest ih =>
      rw [answers, perform_carrying]
      exact congrArg _ (ih (call.perform a).after)

end Carrying

/-- Whether a call starts the engine anew. -/
def restarts : HostCall ω → Bool
  | load _ | reset => true
  | _ => false

theorem perform_flagged {call : HostCall ω} (h : call.restarts = true) :
    call.perform a.flagged = call.perform a := by
  cases call with
  | load subtype => rfl
  | reset => rfl
  | loadSubroutine _ => cases h
  | step _ => cases h
  | run _ => cases h
  | tick _ => cases h

theorem perform_unloaded {call : HostCall ω} (h : call.restarts = false) :
    ∃ reply events, reply.isFault = false ∧ ∀ a : Actor ω, a.engine.machine.ip = none →
      call.perform a = ⟨reply, a, events⟩ := by
  cases call with
  | load _ => cases h
  | reset => cases h
  | loadSubroutine subtype =>
      refine ⟨.loaded (.ok ()), #[.subroutineLoaded subtype none], rfl, fun a hip => ?_⟩
      rw [perform, Actor.loadSubroutine_unloaded hip]
      rfl
  | step table =>
      refine ⟨.stepped (.ok false), #[], rfl, fun a hip => ?_⟩
      rw [perform, Actor.step_eq_of_unloaded hip]
      rfl
  | run table =>
      refine ⟨.ran (.ok 0), #[], rfl, fun a hip => ?_⟩
      rw [perform, Actor.run_unloaded hip]
      rfl
  | tick table =>
      refine ⟨.turned .idle, #[], rfl, fun a hip => ?_⟩
      rw [perform, Actor.tick_unloaded table hip]
      rfl

theorem play_unloaded (hip : a.engine.machine.ip = none)
    (h : ∀ call ∈ calls, call.restarts = false) : play a calls = a := by
  induction calls with
  | nil => rfl
  | cons call rest ih =>
      obtain ⟨hcall, hrest⟩ := List.forall_mem_cons.1 h
      obtain ⟨reply, events, -, hperform⟩ := perform_unloaded hcall
      rw [play, hperform a hip]
      exact ih hrest

theorem play_flagged (hip : a.engine.machine.ip = none)
    (h : ∃ call ∈ calls, call.restarts = true) : play a.flagged calls = play a calls := by
  -- Nothing changes up to the first call that starts the engine anew, which clears the flag.
  induction calls with
  | nil => simp at h
  | cons call rest ih =>
      rw [play, play]
      cases hcall : call.restarts with
      | true => rw [perform_flagged hcall]
      | false =>
          obtain ⟨reply, events, -, hperform⟩ := perform_unloaded hcall
          rw [hperform a hip, hperform a.flagged hip]
          exact ih (by simpa [hcall] using h)

theorem answers_flagged (hip : a.engine.machine.ip = none) :
    answers a.flagged calls = answers a calls := by
  induction calls with
  | nil => rfl
  | cons call rest ih =>
      rw [answers, answers]
      cases hcall : call.restarts with
      | true => rw [perform_flagged hcall]
      | false =>
          obtain ⟨reply, events, -, hperform⟩ := perform_unloaded hcall
          rw [hperform a hip, hperform a.flagged hip]
          exact congrArg _ ih

end HostCall

namespace Engine

open HostCall

variable {program : Program} {settings : Settings} {e : Engine}

def resumed (program : Program) (settings : Settings) (machine : Machine) : Engine :=
  { program := program, settings := settings, machine := machine }

theorem Over.eq_carrying (h : e.Over program settings) (hhalted : e.halted = false) :
    e = (resumed program settings e.machine).carrying e.report := by
  obtain ⟨rfl, rfl, -⟩ := h
  cases e
  cases hhalted
  rfl

theorem Over.eq_flagged_carrying (h : e.Over program settings) (hhalted : e.halted = true) :
    e = (resumed program settings e.machine).flagged.carrying e.report := by
  obtain ⟨rfl, rfl, -⟩ := h
  cases e
  cases hhalted
  rfl

theorem Over.status_eq_halted_iff (h : e.Over program settings) :
    e.status = .halted ↔ e.halted = true := by
  cases hhalted : e.halted with
  | false =>
      simp only [status, hhalted]
      split
      · split <;> simp
      · simp
  | true => simp [status, isLoaded, Machine.isLoaded, h.ip_eq_none hhalted, hhalted]

theorem status_flagged (h : e.machine.ip = none) : e.flagged.status = .halted := by
  simp [status, isLoaded, Machine.isLoaded, flagged, h]

theorem status_resumed {machine : Machine} (h : machine.ip = none) :
    (resumed program settings machine).status = .idle := by
  simp [status, isLoaded, Machine.isLoaded, resumed, h]

theorem load_save_eq (hm : e.machine.InBounds) (hip : e.machine.ip ≠ some 0) :
    Machine.load e.machine.save = .ok (e.machine, []) := by
  have hload := Machine.load_save hm []
  rwa [List.append_nil, e.machine.filter_ip_eq_iff.2 hip] at hload

variable [Owner ω]

theorem Over.resumed_agrees (h : e.Over program settings) (owner : ω) (calls : List (HostCall ω)) :
    let original : Actor ω := ⟨e, owner⟩
    let restored : Actor ω := ⟨resumed program settings e.machine, owner⟩
    let a := play original calls
    let b := play restored calls
    answers original calls = answers restored calls ∧
      a.engine.machine = b.engine.machine ∧ a.owner = b.owner ∧
      a.engine.report = e.report + b.engine.report ∧
      if e.status = .halted ∧ ∀ call ∈ calls, call.restarts = false then
        a.engine.status = .halted ∧ b.engine.status = .idle
      else
        a.engine.status = b.engine.status := by
  intro original restored a b
  cases hhalted : e.halted with
  | false =>
      have horiginal : original = restored.carrying e.report :=
        congrArg (Actor.mk · owner) (h.eq_carrying hhalted)
      have ha : a = b.carrying e.report := by
        rw [← play_carrying, ← horiginal]
      have hstatus : ¬e.status = .halted := by simp [h.status_eq_halted_iff, hhalted]
      rw [if_neg fun hcase => hstatus hcase.1, ha, horiginal, answers_carrying]
      exact ⟨rfl, rfl, rfl, rfl, rfl⟩
  | true =>
      have hip : restored.engine.machine.ip = none := h.ip_eq_none hhalted
      have horiginal : original = restored.flagged.carrying e.report :=
        congrArg (Actor.mk · owner) (h.eq_flagged_carrying hhalted)
      have hstatus : e.status = .halted := h.status_eq_halted_iff.2 hhalted
      have ha : a = (play restored.flagged calls).carrying e.report := by
        rw [← play_carrying, ← horiginal]
      rw [horiginal, answers_carrying, answers_flagged hip]
      by_cases hcalls : ∀ call ∈ calls, call.restarts = false
      · have hflagged : restored.flagged.engine.machine.ip = none := hip
        have hb : b = restored := play_unloaded hip hcalls
        rw [if_pos ⟨hstatus, hcalls⟩, ha, hb, play_unloaded hflagged hcalls]
        exact ⟨rfl, rfl, rfl, rfl, status_flagged hip, status_resumed hip⟩
      · have hrestart : ∃ call ∈ calls, call.restarts = true := by simpa using hcalls
        rw [if_neg fun hcase => hcalls hcase.2, ha, play_flagged hip hrestart]
        exact ⟨rfl, rfl, rfl, rfl, rfl⟩

/-- An engine goes on from a saved machine as it would have gone on.  Only its report starts anew,
and a halted engine is idle until it is started again. -/
theorem Reached.restored (h : e.Reached program settings) (hm : e.machine.InBounds)
    (hip : e.machine.ip ≠ some 0) :
    ∃ machine, Machine.load e.machine.save = .ok (machine, []) ∧
      ∀ (ω : Type) [Owner ω] (owner : ω) (calls : List (HostCall ω)),
        let original : Actor ω := ⟨e, owner⟩
        let restored : Actor ω := ⟨resumed program settings machine, owner⟩
        let a := play original calls
        let b := play restored calls
        answers original calls = answers restored calls ∧
        a.engine.machine = b.engine.machine ∧ a.owner = b.owner ∧
        a.engine.report = e.report + b.engine.report ∧
        if e.status = .halted ∧ ∀ call ∈ calls, call.restarts = false then
          a.engine.status = .halted ∧ b.engine.status = .idle
        else
          a.engine.status = b.engine.status :=
  ⟨e.machine, load_save_eq hm hip, fun _ _ owner calls => h.over.resumed_agrees owner calls⟩

/-- The script counts its rounds and sleeps in between. -/
theorem Reached.restored_suspended :
    let program : Program := {
      entries := #[0]
      words := #[0x0500, 0x4301, 0x5108, 0x0900, 0x430A, 0x0E00, 0x4C01, 0x8000] }
    let table : NativeTable Unit := ⟨.team, .replicate nativeSlots (some .delay)⟩
    let started := ((.load 0 : HostCall Unit).perform ⟨{ program := program }, ()⟩).after
    let saved := ((.tick table : HostCall Unit).perform started).after.engine
    let calls : List (HostCall Unit) := [.tick table, .tick table, .tick table]
    ∃ machine, Machine.load saved.machine.save = .ok (machine, []) ∧
      (play ⟨saved, ()⟩ calls).engine.machine =
        (play ⟨resumed program {} machine, ()⟩ calls).engine.machine ∧
      answers ⟨saved, ()⟩ calls = answers ⟨resumed program {} machine, ()⟩ calls := by
  intro program table started saved calls
  have hreached : saved.Reached program {} := .perform () (.tick table) (.perform () (.load 0) .fresh)
  obtain ⟨machine, hload, hagree⟩ :=
    Reached.restored hreached (by decide +kernel) (by decide +kernel)
  obtain ⟨hanswers, hmachine, -⟩ := hagree Unit () calls
  exact ⟨machine, hload, hmachine, hanswers⟩

end Engine

end EntityScript

import EntityScript.Proofs.HostCalls

namespace EntityScript

def Turn.ofRun : Except Fault Nat → Turn
  | .ok instructions => .ran instructions
  | .error fault => .halted fault

theorem Engine.isReady_iff {e : Engine} :
    e.isReady = true ↔ (∃ ip, e.machine.ip = some ip) ∧ e.machine.delay = 0 := by
  simp [isReady, isLoaded, Machine.isLoaded, Option.isSome_iff_exists]

theorem Engine.isReady_unloaded {e : Engine} (h : e.machine.ip = none) : e.isReady = false := by
  simp [isReady, isLoaded, Machine.isLoaded, h]

theorem Engine.delay_ne_zero {e : Engine} (hip : e.machine.ip ≠ none) (h : e.isReady = false) :
    e.machine.delay ≠ 0 := by
  intro hzero
  have hready := isReady_iff.2 ⟨Option.ne_none_iff_exists'.1 hip, hzero⟩
  rw [h] at hready
  cases hready

theorem Engine.unready_cases {e : Engine} (h : e.isReady = false) :
    e.machine.ip = none ∨ e.machine.delay ≠ 0 := by
  by_cases hip : e.machine.ip = none
  · exact .inl hip
  · exact .inr (delay_ne_zero hip h)

namespace Actor

variable {ω : Type} [Owner ω]

/-- An actor after its turn. -/
def turned (table : NativeTable ω) (a : Actor ω) : Actor ω :=
  (a.tick table).after

/-- The actor with so many ticks left to wait. -/
def delayed (a : Actor ω) (ticks : Word) : Actor ω :=
  a.withMachine { a.engine.machine with delay := ticks }

variable {a b : Actor ω} {count : Nat}

section Tick

variable (table : NativeTable ω)

theorem tick_unloaded (h : a.engine.machine.ip = none) : a.tick table = ⟨.idle, a, #[]⟩ := by
  simp [tick, Machine.isLoaded, h]

theorem tick_waiting (hloaded : a.engine.machine.ip ≠ none) (h : a.engine.machine.delay ≠ 0) :
    a.tick table =
      ⟨.waiting (a.engine.machine.delay - 1), a.delayed (a.engine.machine.delay - 1), #[]⟩ := by
  have hsome : a.engine.machine.isLoaded = true := Option.isSome_iff_ne_none.2 hloaded
  have hpos : 0 < a.engine.machine.delay := UInt16.pos_iff_ne_zero.2 h
  simp only [tick, hsome, Bool.not_true, Bool.false_eq_true, if_false, if_pos hpos]
  rfl

theorem tick_ready (h : a.engine.isReady = true) :
    a.tick table = (a.run table).map Turn.ofRun := by
  obtain ⟨⟨ip, hip⟩, hdelay⟩ := Engine.isReady_iff.1 h
  simp only [tick, Machine.isLoaded, hip, hdelay]
  obtain ⟨value, after, events⟩ := a.run table
  cases value with
  | error fault => rfl
  | ok instructions => rfl

theorem tick_unready (h : a.engine.isReady = false) :
    (a.tick table).value = .idle ∨ ∃ ticks, (a.tick table).value = .waiting ticks := by
  by_cases hip : a.engine.machine.ip = none
  · rw [tick_unloaded table hip]
    exact .inl rfl
  · rw [tick_waiting table hip (Engine.delay_ne_zero hip h)]
    exact .inr ⟨_, rfl⟩

end Tick

variable {table : NativeTable ω}

section Step

theorem step_ok_eq_true {done : Bool} (hready : a.engine.isReady = true)
    (h : (a.step table).value = .ok done) : done = true := by
  obtain ⟨⟨ip, hip⟩, -⟩ := Engine.isReady_iff.1 hready
  simp only [step, hip] at h
  split at h
  · cases h
  · split at h
    · cases h
      rfl
    · cases h

/-- What is reported first at an offset: the instruction there, or that there is none. -/
def arrival (a : Actor ω) (ip : Word) : Event :=
  match a.engine.program.fetch ip with
  | .ok (instruction, _) => .dispatched ip instruction
  | .error fault => .halted (Owner.label a.owner) (some ip) none fault

theorem step_events (table : NativeTable ω) {ip : Word} (h : a.engine.machine.ip = some ip) :
    ∃ later, (a.step table).events = #[a.arrival ip] ++ later := by
  simp only [step, arrival, h]
  cases a.engine.program.fetch ip with
  | error fault => exact ⟨#[], rfl⟩
  | ok found =>
      obtain ⟨instruction, next⟩ := found
      dsimp only
      split
      · exact ⟨_, rfl⟩
      · rw [Array.append_assoc]
        exact ⟨_, rfl⟩

end Step

section Run

omit [Owner ω] in
/-- What a run comes to that began after so many instructions and events. -/
def following (earlier : Nat) (before : Array Event) (ran : Outcome (Actor ω) (Except Fault Nat)) :
    Outcome (Actor ω) (Except Fault Nat) :=
  ⟨ran.value.map (earlier + ·), ran.after, before ++ ran.events⟩

variable (executed : Nat) (events : Array Event)

theorem runFrom_ready (budget : Nat) (h : a.engine.isReady = true) :
    a.runFrom table executed events (budget + 1) =
      match (a.step table).value with
      | .ok _ =>
          (a.step table).after.runFrom table (executed + 1) (events ++ (a.step table).events) budget
      | .error fault =>
          ⟨.error fault, (a.step table).after, events ++ (a.step table).events⟩ :=
  if_pos h

theorem runFrom_unready (budget : Nat) (h : a.engine.isReady = false) :
    a.runFrom table executed events budget = ⟨.ok executed, a, events⟩ := by
  cases budget with
  | zero => rfl
  | succ budget => simp [runFrom, h]

theorem following_runFrom (table : NativeTable ω) (earlier : Nat) (before : Array Event)
    (budget : Nat) (a : Actor ω) :
    following earlier before (a.runFrom table executed events budget) =
      a.runFrom table (earlier + executed) (before ++ events) budget := by
  induction budget generalizing executed events a with
  | zero => rfl
  | succ budget ih =>
      cases hready : a.engine.isReady with
      | false =>
          rw [runFrom_unready _ _ _ hready, runFrom_unready _ _ _ hready]
          rfl
      | true =>
          rw [runFrom_ready _ _ _ hready, runFrom_ready _ _ _ hready, Array.append_assoc]
          cases (a.step table).value with
          | ok done => exact ih (executed + 1) _ (a.step table).after
          | error fault => rfl

theorem runFrom_eq_following (table : NativeTable ω) (budget : Nat) (a : Actor ω) :
    a.runFrom table executed events budget =
      following executed events (a.runFrom table 0 #[] budget) := by
  rw [following_runFrom, Nat.add_zero, Array.append_empty]

theorem runFrom_events (table : NativeTable ω) (budget : Nat) (a : Actor ω) :
    ∃ later, (a.runFrom table executed events budget).events = events ++ later :=
  ⟨_, congrArg Outcome.events (runFrom_eq_following executed events table budget a)⟩

theorem runFrom_arrival (table : NativeTable ω) {ip : Word} (budget : Nat)
    (h : a.engine.isReady = true) (hip : a.engine.machine.ip = some ip) :
    ∃ later, (a.runFrom table executed events (budget + 1)).events =
      events ++ #[a.arrival ip] ++ later := by
  obtain ⟨first, hfirst⟩ := step_events table hip
  rw [runFrom_ready executed events budget h]
  split
  · obtain ⟨later, hlater⟩ := runFrom_events (executed + 1) (events ++ (a.step table).events) table
      budget (a.step table).after
    exact ⟨first ++ later, by rw [hlater, hfirst]; simp only [Array.append_assoc]⟩
  · exact ⟨first, by rw [hfirst]; simp only [Array.append_assoc]⟩

end Run

/-- So many steps in a row, each from a ready engine and each without a fault. -/
inductive Advances (table : NativeTable ω) (a : Actor ω) : Nat → Actor ω → Prop
  | start : Advances table a 0 a
  | step {count : Nat} {b : Actor ω} :
      Advances table a count b → b.engine.isReady = true → (b.step table).value = .ok true →
        Advances table a (count + 1) (b.step table).after

namespace Advances

theorem isReady (h : Advances table a count b) (hb : b.engine.isReady = true) :
    a.engine.isReady = true := by
  induction h with
  | start => exact hb
  | step _ hready _ ih => exact ih hready

theorem settings_eq (h : Advances table a count b) :
    b.engine.settings = a.engine.settings := by
  induction h with
  | start => rfl
  | step _ _ _ ih => rw [(step_fixed table _).2, ih]

theorem runFrom_eq (h : Advances table a count b) (executed : Nat) (events : Array Event)
    (rest : Nat) :
    ∃ later, a.runFrom table executed events (count + rest) =
      b.runFrom table (executed + count) (events ++ later) rest := by
  -- The steps made last are taken from what the induction leaves of the budget.
  induction h generalizing rest with
  | start => exact ⟨#[], by simp⟩
  | @step count b _ hready hvalue ih =>
      obtain ⟨later, hlater⟩ := ih (rest + 1)
      refine ⟨later ++ (b.step table).events, ?_⟩
      rw [show count + 1 + rest = count + (rest + 1) by omega, hlater,
        runFrom_ready _ _ rest hready, hvalue, Array.append_assoc, Nat.add_assoc]

theorem tick_eq (h : Advances table a count b) (hready : a.engine.isReady = true)
    (hcount : count ≤ a.engine.settings.instructionBudget) :
    ∃ earlier, a.tick table =
      (b.runFrom table count earlier (a.engine.settings.instructionBudget - count)).map
        Turn.ofRun := by
  obtain ⟨earlier, hrun⟩ := h.runFrom_eq 0 #[] (a.engine.settings.instructionBudget - count)
  refine ⟨#[] ++ earlier, ?_⟩
  rw [Nat.add_sub_cancel' hcount, Nat.zero_add] at hrun
  rw [tick_ready table hready, run, hrun]

theorem cons (hready : a.engine.isReady = true) (hvalue : (a.step table).value = .ok true)
    (h : Advances table (a.step table).after count b) : Advances table a (count + 1) b := by
  induction h with
  | start => exact .step .start hready hvalue
  | step _ hready' hvalue' ih => exact .step ih hready' hvalue'

end Advances

/-- What the steps of a run with a budget return, in order. -/
def stepValues (table : NativeTable ω) : (budget : Nat) → (a : Actor ω) → List (Except Fault Bool)
  | 0, _ => []
  | budget + 1, a =>
      if a.engine.isReady then
        (a.step table).value ::
          match (a.step table).value with
          | .ok _ => stepValues table budget (a.step table).after
          | .error _ => []
      else
        []

def isDone : Except Fault Bool → Bool
  | .ok done => done
  | .error _ => false

def completedIn (table : NativeTable ω) (budget : Nat) (a : Actor ω) : Nat :=
  (a.stepValues table budget).countP isDone

/-- The number of instructions that an actor executes in its turn. -/
def completed (table : NativeTable ω) (a : Actor ω) : Nat :=
  a.completedIn table a.engine.settings.instructionBudget

section Completed

variable (table)

theorem completedIn_unready (budget : Nat) (h : a.engine.isReady = false) :
    a.completedIn table budget = 0 := by
  cases budget with
  | zero => rfl
  | succ budget => simp [completedIn, stepValues, h]

theorem completedIn_ok {done : Bool} (budget : Nat) (hready : a.engine.isReady = true)
    (h : (a.step table).value = .ok done) :
    a.completedIn table (budget + 1) = (a.step table).after.completedIn table budget + 1 := by
  obtain rfl := step_ok_eq_true hready h
  rw [completedIn, stepValues, if_pos hready, h]
  exact List.countP_cons_of_pos rfl

theorem completedIn_error {fault : Fault} (budget : Nat)
    (h : (a.step table).value = .error fault) : a.completedIn table (budget + 1) = 0 := by
  simp only [completedIn, stepValues, h]
  split <;> rfl

theorem completedIn_le (budget : Nat) (a : Actor ω) : a.completedIn table budget ≤ budget := by
  induction budget generalizing a with
  | zero => exact Nat.le_refl 0
  | succ budget ih =>
      cases hready : a.engine.isReady with
      | false =>
          rw [completedIn_unready table _ hready]
          exact Nat.zero_le _
      | true =>
          cases hvalue : (a.step table).value with
          | ok done =>
              rw [completedIn_ok table budget hready hvalue]
              exact Nat.succ_le_succ (ih _)
          | error fault =>
              rw [completedIn_error table budget hvalue]
              exact Nat.zero_le _

/-- A run ends with the budget, or when the engine is not ready any more, or with the first step that
fails; then its count is lost. -/
theorem runFrom_cases (executed : Nat) (events : Array Event) (budget : Nat) (a : Actor ω) :
    ∃ b, Advances table a (a.completedIn table budget) b ∧
      let ran := a.runFrom table executed events budget
      (ran.value = .ok (executed + a.completedIn table budget) ∧ ran.after = b ∧
          (a.completedIn table budget = budget ∨ b.engine.isReady = false)) ∨
        ∃ fault, (b.step table).value = .error fault ∧ b.engine.isReady = true ∧
          a.completedIn table budget < budget ∧
            ran.value = .error fault ∧ ran.after = (b.step table).after := by
  induction budget generalizing executed events a with
  | zero => exact ⟨a, .start, .inl ⟨rfl, rfl, .inl rfl⟩⟩
  | succ budget ih =>
      cases hready : a.engine.isReady with
      | false =>
          rw [runFrom_unready executed events _ hready, completedIn_unready table _ hready]
          exact ⟨a, .start, .inl ⟨rfl, rfl, .inr hready⟩⟩
      | true =>
          rw [runFrom_ready executed events budget hready]
          cases hvalue : (a.step table).value with
          | error fault =>
              rw [completedIn_error table budget hvalue]
              exact ⟨a, .start, .inr ⟨fault, hvalue, hready, budget.succ_pos, rfl, rfl⟩⟩
          | ok done =>
              rw [completedIn_ok table budget hready hvalue]
              obtain rfl := step_ok_eq_true hready hvalue
              obtain ⟨b, hadvances, hends⟩ :=
                ih (executed + 1) (events ++ (a.step table).events) (a.step table).after
              refine ⟨b, hadvances.cons hready hvalue, ?_⟩
              rcases hends with ⟨hran, hafter, hend⟩ | ⟨fault, hfault, hready', hlt, hran, hafter⟩
              · refine .inl ⟨?_, hafter, ?_⟩
                · rw [hran, Nat.add_assoc, Nat.add_comm 1]
                · exact hend.imp_left (congrArg (· + 1))
              · exact .inr ⟨fault, hfault, hready', Nat.succ_lt_succ hlt, hran, hafter⟩

end Completed

end Actor

end EntityScript

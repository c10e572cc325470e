import EntityScript.Proofs.Turns

namespace EntityScript

namespace Turn

def isWaiting : Turn → Bool
  | waiting _ => true
  | idle | ran _ | halted _ => false

def isRan : Turn → Bool
  | ran _ => true
  | idle | waiting _ | halted _ => false

def isHalted : Turn → Bool
  | halted _ => true
  | idle | waiting _ | ran _ => false

/-- The instructions of a turn, as far as it tells. -/
def instructions : Turn → Nat
  | ran count => count
  | idle | waiting _ | halted _ => 0

end Turn

namespace TickSummary

/-- A summary has the number of turns of each kind and the total of their instructions. -/
structure Counts (summary : TickSummary) (turns : List Turn) : Prop where
  idle : summary.idle = turns.count .idle
  waiting : summary.waiting = turns.countP Turn.isWaiting
  ran : summary.ran = turns.countP Turn.isRan
  halted : summary.halted = turns.countP Turn.isHalted
  instructions : summary.instructions = (turns.map Turn.instructions).sum
  total : summary.idle + summary.waiting + summary.ran + summary.halted = turns.length

theorem Counts.record {summary : TickSummary} {turns : List Turn} (h : summary.Counts turns)
    (turn : Turn) : (summary.record turn).Counts (turns ++ [turn]) := by
  refine ⟨?_, ?_, ?_, ?_, ?_, ?_⟩
  · cases turn <;> simp [TickSummary.record, h.idle]
  · cases turn <;> simp [TickSummary.record, Turn.isWaiting, h.waiting]
  · cases turn <;> simp [TickSummary.record, Turn.isRan, h.ran]
  · cases turn <;> simp [TickSummary.record, Turn.isHalted, h.halted]
  · cases turn <;> simp [TickSummary.record, Turn.instructions, h.instructions]
  · rw [List.length_append, List.length_singleton, ← h.total]
    cases turn <;> simp only [TickSummary.record] <;> omega

theorem counts_ofTurns (turns : List Turn) : (ofTurns turns).Counts turns := by
  induction turns using List.reverseRecOn with
  | nil => exact ⟨rfl, rfl, rfl, rfl, rfl, rfl⟩
  | append_singleton turns turn ih =>
      rw [ofTurns, List.foldl_concat]
      exact ih.record turn

section Counts

variable {summary other : TickSummary} {turns others : List Turn}

theorem Counts.perm (h : summary.Counts turns) (hperm : turns.Perm others) :
    summary.Counts others where
  idle := h.idle.trans (hperm.count_eq _)
  waiting := h.waiting.trans (hperm.countP_eq _)
  ran := h.ran.trans (hperm.countP_eq _)
  halted := h.halted.trans (hperm.countP_eq _)
  instructions := h.instructions.trans (hperm.map _).sum_eq
  total := h.total.trans hperm.length_eq

theorem Counts.unique (h : summary.Counts turns) (hother : other.Counts turns) :
    summary = other := by
  cases summary
  cases other
  rw [mk.injEq]
  exact ⟨h.idle.trans hother.idle.symm, h.waiting.trans hother.waiting.symm,
    h.ran.trans hother.ran.symm, h.halted.trans hother.halted.symm,
    h.instructions.trans hother.instructions.symm⟩

end Counts

end TickSummary

variable {ω : Type} [Owner ω] (table : NativeTable ω)

namespace Actor

/-- Whether the turn of an actor ends with a fault. -/
def fails (a : Actor ω) : Bool :=
  (a.tick table).value.isHalted

theorem instructions_tick (a : Actor ω) :
    (a.tick table).value.instructions = if a.fails table then 0 else a.completed table := by
  cases hready : a.engine.isReady with
  | false =>
      rw [fails, completed, completedIn_unready table _ hready, ite_self]
      rcases tick_unready table hready with hidle | ⟨ticks, hwaiting⟩
      · rw [hidle]
        rfl
      · rw [hwaiting]
        rfl
  | true =>
      rw [fails, tick_ready table hready]
      obtain ⟨b, -, ⟨hran, -⟩ | ⟨fault, -, -, -, hran, -⟩⟩ :=
        runFrom_cases table 0 #[] a.engine.settings.instructionBudget a
      · simp only [run, Outcome.map, hran, Turn.ofRun, Turn.instructions, Turn.isHalted, completed]
        simp
      · simp only [run, Outcome.map, hran, Turn.ofRun, Turn.instructions, Turn.isHalted]
        simp

theorem sum_instructions_tick (actors : List (Actor ω)) :
    (actors.map fun a => (a.tick table).value.instructions).sum +
        ((actors.filter (fails table)).map (completed table)).sum =
      (actors.map (completed table)).sum := by
  induction actors with
  | nil => rfl
  | cons a rest ih =>
      have ha := instructions_tick table a
      cases hfails : a.fails table with
      | true =>
          rw [hfails, if_pos rfl] at ha
          rw [List.filter_cons_of_pos hfails]
          simp only [List.map_cons, List.sum_cons]
          omega
      | false =>
          rw [hfails, if_neg Bool.false_ne_true] at ha
          rw [List.filter_cons_of_neg (by simp [hfails])]
          simp only [List.map_cons, List.sum_cons]
          omega

end Actor

namespace Schedule

theorem tick_counts (s : Schedule) (actors : List (Actor ω)) :
    (s.tick table actors).value.Counts (actors.map fun a => (a.tick table).value) := by
  simp only [tick, List.map_map]
  exact TickSummary.counts_ofTurns _

/-- A summary lacks the instructions of the engines that halted on a fault in the same tick, and no
others. -/
theorem tick_instructions (s : Schedule) (actors : List (Actor ω)) :
    let summary := (s.tick table actors).value
    let failed := actors.filter (Actor.fails table)
    let executed := (actors.map (Actor.completed table)).sum
    summary.instructions + (failed.map (Actor.completed table)).sum = executed ∧
      (summary.instructions = executed ↔
        ∀ a ∈ actors, a.fails table = true → a.completed table = 0) := by
  intro summary failed executed
  have hsummary : summary.instructions =
      (actors.map fun a => (a.tick table).value.instructions).sum := by
    rw [(s.tick_counts table actors).instructions, List.map_map]
    rfl
  have htotal : summary.instructions + (failed.map (Actor.completed table)).sum = executed := by
    rw [hsummary]
    exact Actor.sum_instructions_tick table actors
  have hlost : (failed.map (Actor.completed table)).sum = 0 ↔
      ∀ a ∈ actors, a.fails table = true → a.completed table = 0 := by
    rw [List.sum_eq_zero_iff, List.forall_mem_map]
    simp [failed]
  rw [← hlost]
  omega

/-- The engine sets its result and then meets an operation that is not defined. -/
theorem tick_instructions_lost :
    let a : Actor Unit :=
      ⟨{ program := { words := #[0x4101, 0x1F00] }, machine := { ip := some 0 } }, ()⟩
    let table : NativeTable Unit := .empty .unknown
    (tick table {} [a]).value.instructions = 0 ∧ a.completed table = 1 := by
  decide

end Schedule

end EntityScript

import EntityScript.Proofs.Turns
import EntityScript.Proofs.UnseenChanges

namespace EntityScript

variable {ω : Type}

def Settings.withBudget (budget : Nat) (s : Settings) : Settings :=
  { s with instructionBudget := budget }

/-- What the function does is the same under every budget. -/
def Native.IgnoresBudget (native : Native ω) : Prop :=
  ∀ (budget : Nat) (site : CallSite) (call : Call ω),
    native { site with settings := site.settings.withBudget budget } call = native site call

def NativeTable.IgnoresBudget (table : NativeTable ω) : Prop :=
  ∀ slot native, table.get? slot = some native → native.IgnoresBudget

theorem Native.ignoresBudget_delay : IgnoresBudget (delay : Native ω) :=
  fun _ _ _ => rfl

theorem NativeTable.IgnoresBudget.unseen {table : NativeTable ω} (h : table.IgnoresBudget)
    (budget : Nat) : Unseen table (Settings.withBudget budget) id where
  countOpcode _ _ := rfl
  countCall _ _ := rfl
  countHalt _ := rfl
  invoke slot site call := by
    unfold invoke
    cases hfound : table.get? slot with
    | none => rfl
    | some native => exact h slot native hfound budget site call

namespace Actor

def withBudget (budget : Nat) (a : Actor ω) : Actor ω :=
  a.changed (Settings.withBudget budget) id

variable [Owner ω]

/-- What a run comes to that goes on with a budget after another one. -/
def resume (table : NativeTable ω) (budget : Nat) (ran : Outcome (Actor ω) (Except Fault Nat)) :
    Outcome (Actor ω) (Except Fault Nat) :=
  match ran.value with
  | .ok executed => following executed ran.events (ran.after.runFrom table 0 #[] budget)
  | .error _ => ran

section Run

variable (table : NativeTable ω) (a : Actor ω) (executed : Nat) (events : Array Event)

theorem runFrom_add (first second : Nat) :
    a.runFrom table executed events (first + second) =
      resume table second (a.runFrom table executed events first) := by
  induction first generalizing a executed events with
  | zero =>
      rw [Nat.zero_add]
      exact runFrom_eq_following executed events table second a
  | succ first ih =>
      rw [Nat.add_right_comm]
      cases hready : a.engine.isReady with
      | false =>
          have hrest := runFrom_eq_following executed events table second a
          rw [runFrom_unready _ _ _ hready] at hrest ⊢
          rwa [runFrom_unready _ _ _ hready]
      | true =>
          rw [runFrom_ready _ _ _ hready, runFrom_ready _ _ _ hready]
          cases (a.step table).value with
          | ok done => exact ih (a.step table).after (executed + 1) _
          | error fault => rfl

end Run

variable {table : NativeTable ω} {a : Actor ω}

theorem run_withBudget (h : table.IgnoresBudget) (budget : Nat) :
    (a.withBudget budget).run table =
      (a.runFrom table 0 #[] budget).mapAfter (withBudget budget) :=
  runFrom_changed (h.unseen budget) a 0 #[] budget

theorem run_ok {count : Nat} (h : (a.run table).value = .ok count) :
    count ≤ a.engine.settings.instructionBudget ∧
      (count < a.engine.settings.instructionBudget →
        (a.run table).after.engine.isReady = false) := by
  have hle := completedIn_le table a.engine.settings.instructionBudget a
  obtain ⟨b, -, ⟨hvalue, hafter, hend⟩ | ⟨fault, -, -, -, hvalue, -⟩⟩ :=
    runFrom_cases table 0 #[] a.engine.settings.instructionBudget a
  · obtain rfl := Except.ok.inj (hvalue.symm.trans h)
    rw [Nat.zero_add]
    refine ⟨hle, fun hlt => ?_⟩
    rcases hend with hall | hunready
    · exact absurd hall hlt.ne
    · rwa [← hafter] at hunready
  · cases hvalue.symm.trans h

/-- A run with two budgets is a run with the first and then one with the second: an error in either
ends it, and otherwise both count. -/
theorem budgets_add (table : NativeTable ω) (a : Actor ω) :
    (table.IgnoresBudget → ∀ first second : Nat,
      let whole := (a.withBudget (first + second)).run table
      let ran := (a.withBudget first).run table
      let rest := (ran.after.withBudget second).run table
      match ran.value with
      | .error fault => whole = ⟨.error fault, ran.after.withBudget (first + second), ran.events⟩
      | .ok count =>
          whole = ⟨rest.value.map (count + ·), rest.after.withBudget (first + second),
            ran.events ++ rest.events⟩) ∧
    ∀ budget count : Nat, ((a.withBudget budget).run table).value = .ok count →
      count ≤ budget ∧
        (count < budget →
          let m := ((a.withBudget budget).run table).after.engine.machine
          m.ip = none ∨ m.delay ≠ 0) := by
  refine ⟨?_, ?_⟩
  · intro h first second whole ran rest
    have hwhole : whole = (resume table second (a.runFrom table 0 #[] first)).mapAfter
        (withBudget (first + second)) := by
      rw [← runFrom_add]
      exact run_withBudget h (first + second)
    have hran : ran = (a.runFrom table 0 #[] first).mapAfter (withBudget first) :=
      run_withBudget h first
    have hrest : rest = ((a.runFrom table 0 #[] first).after.runFrom table 0 #[] second).mapAfter
        (withBudget second) := by
      have hafter : ran.after.withBudget second =
          (a.runFrom table 0 #[] first).after.withBudget second := by
        rw [hran]
        rfl
      rw [← run_withBudget h second, ← hafter]
    rw [hwhole, hrest, hran]
    obtain ⟨value, after, events⟩ := a.runFrom table 0 #[] first
    cases value with
    | error fault => rfl
    | ok count => rfl
  · intro budget count hvalue
    obtain ⟨hle, hunready⟩ := run_ok hvalue
    exact ⟨hle, fun hlt => Engine.unready_cases (hunready hlt)⟩

/-- The third instruction puts the script to sleep, which leaves some of the second budget and so
as much of both. -/
theorem budgets_add_sleep :
    let program : Program := { words := #[0x4307, 0x4305, 0x0E00, 0x8000] }
    let table : NativeTable Unit := ⟨.team, .replicate nativeSlots (some .delay)⟩
    let a : Actor Unit := ⟨{ program := program, machine := { ip := some 0 } }, ()⟩
    table.IgnoresBudget ∧ ((a.withBudget 1).run table).value = .ok 1 ∧
      ((a.withBudget (1 + 5)).run table).value = .ok 3 ∧
        ((a.withBudget (1 + 5)).run table).after.engine.machine.delay ≠ 0 := by
  intro program table a
  have htable : table.IgnoresBudget := by
    intro slot native hfound
    rw [NativeTable.eq_of_get?_replicate hfound]
    exact Native.ignoresBudget_delay
  have hfirst : ((a.withBudget 1).run table).value = .ok 1 := by decide +kernel
  obtain ⟨hadd, hwithin⟩ := budgets_add table a
  have hwhole := hadd htable 1 5
  simp only [hfirst] at hwhole
  have hcount : ((a.withBudget (1 + 5)).run table).value = .ok 3 := by
    rw [hwhole]
    decide +kernel
  have hloaded : ((a.withBudget (1 + 5)).run table).after.engine.machine.ip ≠ none := by
    decide +kernel
  exact ⟨htable, hfirst, hcount, ((hwithin _ _ hcount).2 (by decide)).resolve_left hloaded⟩

end Actor

end EntityScript

import EntityScript.Proofs.Summaries

namespace EntityScript

/-- A schedule and numbered actors. -/
structure Fleet (ω : Type) (n : Nat) where
  schedule : Schedule := {}
  actors : Fin n → Actor ω

namespace Fleet

variable {ω : Type} [Owner ω] {n : Nat}

/-- Hands over the actors in an order, and takes each back to its place. -/
def tick (table : NativeTable ω) (fleet : Fleet ω n) (order : Equiv.Perm (Fin n)) :
    Outcome (Fleet ω n) TickSummary :=
  let ticked := fleet.schedule.tick table (List.ofFn fun i => fleet.actors (order i))
  { value := ticked.value
    after := ⟨ticked.after.1, fun i => ticked.after.2.getD (order.symm i) (fleet.actors i)⟩
    events := ticked.events }

/-- One tick for each order. -/
def play (table : NativeTable ω) (fleet : Fleet ω n) :
    List (Equiv.Perm (Fin n)) → Outcome (Fleet ω n) (List TickSummary)
  | [] => { value := [], after := fleet }
  | order :: rest =>
      let ticked := fleet.tick table order
      let played := ticked.after.play table rest
      { value := ticked.value :: played.value
        after := played.after
        events := ticked.events ++ played.events }

/-- What the actors do in a tick when each is ticked alone. -/
def turns (table : NativeTable ω) (fleet : Fleet ω n) : List Turn :=
  List.ofFn fun i => ((fleet.actors i).tick table).value

/-- The actors after so many ticks of each alone. -/
def alone (table : NativeTable ω) (fleet : Fleet ω n) (ticks : Nat) : Fleet ω n :=
  ⟨⟨fleet.schedule.ticks + ticks⟩, fun i => (Actor.turned table)^[ticks] (fleet.actors i)⟩

variable (table : NativeTable ω) (fleet : Fleet ω n)

theorem alone_succ (ticks : Nat) :
    fleet.alone table (ticks + 1) = (fleet.alone table 1).alone table ticks := by
  have hticks : fleet.schedule.ticks + (ticks + 1) = fleet.schedule.ticks + 1 + ticks := by omega
  rw [alone, hticks]
  rfl

theorem tick_after (order : Equiv.Perm (Fin n)) :
    (fleet.tick table order).after = fleet.alone table 1 := by
  have hplace (i : Fin n) : ((fleet.schedule.tick table
      (List.ofFn fun i => fleet.actors (order i))).after.2.getD (order.symm i) (fleet.actors i)) =
        (fleet.actors i).turned table := by
    simp [Schedule.tick, Actor.turned]
  simp only [tick, hplace]
  rfl

theorem tick_counts (order : Equiv.Perm (Fin n)) :
    (fleet.tick table order).value.Counts (fleet.turns table) := by
  have hcounts := fleet.schedule.tick_counts table (List.ofFn fun i => fleet.actors (order i))
  rw [List.map_ofFn] at hcounts
  exact hcounts.perm (order.ofFn_comp_perm fun i => ((fleet.actors i).tick table).value)

theorem play_after (orders : List (Equiv.Perm (Fin n))) :
    (fleet.play table orders).after = fleet.alone table orders.length := by
  induction orders generalizing fleet with
  | nil => rfl
  | cons order rest ih =>
      rw [play, List.length_cons, alone_succ, ← tick_after table fleet order]
      exact ih _

theorem length_play (orders : List (Equiv.Perm (Fin n))) :
    (fleet.play table orders).value.length = orders.length := by
  induction orders generalizing fleet with
  | nil => rfl
  | cons order rest ih => exact congrArg (· + 1) (ih _)

theorem play_counts {orders : List (Equiv.Perm (Fin n))} {k : Nat} {summary : TickSummary}
    (h : (fleet.play table orders).value[k]? = some summary) :
    summary.Counts ((fleet.alone table k).turns table) := by
  induction orders generalizing fleet k with
  | nil => cases h
  | cons order rest ih =>
      cases k with
      | zero =>
          cases h
          exact fleet.tick_counts table order
      | succ k =>
          rw [alone_succ, ← tick_after table fleet order]
          exact ih _ h

theorem play_value_eq {orders others : List (Equiv.Perm (Fin n))}
    (h : others.length = orders.length) :
    (fleet.play table others).value = (fleet.play table orders).value := by
  have hlength : (fleet.play table others).value.length = (fleet.play table orders).value.length := by
    rw [length_play, length_play, h]
  apply List.ext_getElem hlength
  intro k hothers horders
  have hcounts := fleet.play_counts table (List.getElem?_eq_getElem horders)
  exact (fleet.play_counts table (List.getElem?_eq_getElem hothers)).unique hcounts

/-- Ticking all actors together, in any orders, is ticking each of them alone, and the summaries count
what each does alone. -/
theorem play_alone (table : NativeTable ω) (fleet : Fleet ω n)
    (orders : List (Equiv.Perm (Fin n))) :
    let played := fleet.play table orders
    (∀ i, played.after.actors i = (Actor.turned table)^[orders.length] (fleet.actors i)) ∧
      played.after.schedule.ticks = fleet.schedule.ticks + orders.length ∧
      played.value.length = orders.length ∧
      (∀ (k : Nat) (summary : TickSummary), played.value[k]? = some summary →
        summary.Counts ((fleet.alone table k).turns table) ∧
          summary.idle + summary.waiting + summary.ran + summary.halted = n) ∧
      ∀ others : List (Equiv.Perm (Fin n)), others.length = orders.length →
        (fleet.play table others).value = played.value := by
  intro played
  have hafter : played.after = fleet.alone table orders.length := fleet.play_after table orders
  refine ⟨?_, ?_, fleet.length_play table orders, ?_, fun others => fleet.play_value_eq table⟩
  · intro i
    rw [hafter]
    rfl
  · rw [hafter]
    rfl
  · intro k summary hsummary
    have hcounts := fleet.play_counts table hsummary
    exact ⟨hcounts, hcounts.total.trans List.length_ofFn⟩

/-- One engine counts and sleeps, one has nothing loaded, and one divides by zero. -/
theorem play_alone_three :
    let table : NativeTable Unit := ⟨.team, .replicate nativeSlots (some .delay)⟩
    let settings : Settings := { instructionBudget := 4 }
    let sleeper : Program := { words := #[0x430A, 0x0E00, 0x4C01, 0x8000] }
    let divider : Program := { words := #[0x4301, 0x4300, 0x510B] }
    let actors : Fin 3 → Actor Unit := ![
      ⟨{ program := sleeper, settings := settings, machine := { ip := some 0 } }, ()⟩,
      ⟨{ program := sleeper, settings := settings }, ()⟩,
      ⟨{ program := divider, settings := settings, machine := { ip := some 0 } }, ()⟩]
    let fleet : Fleet Unit 3 := { actors := actors }
    let played := fleet.play table [finRotate 3, Equiv.swap 0 2]
    played.after.actors 0 = ((actors 0).turned table).turned table ∧
      played.after.schedule.ticks = 2 ∧
      played.value = (fleet.play table [1, 1]).value ∧
      (⟨2, 1, 0, 0, 0⟩ : TickSummary).Counts ((fleet.alone table 1).turns table) := by
  intro table settings sleeper divider actors fleet played
  obtain ⟨hactors, hticks, -, hcounts, horders⟩ :=
    fleet.play_alone table [finRotate 3, Equiv.swap 0 2]
  have hsecond : played.value[1]? = some ⟨2, 1, 0, 0, 0⟩ := by decide +kernel
  exact ⟨hactors 0, hticks, (horders [1, 1] rfl).symm, (hcounts 1 _ hsecond).1⟩

end Fleet

end EntityScript

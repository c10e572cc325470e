import EntityScript.Proofs.Dispatch
import Mathlib

namespace EntityScript

namespace NativeTable

variable {ω : Type} {table after : NativeTable ω} {slot : Nat} {native : Native ω}
  {binds : List (Nat × Native ω)}

def bindAll (table : NativeTable ω) :
    List (Nat × Native ω) → Except SlotError (NativeTable ω × Array Event)
  | [] => .ok (table, #[])
  | (slot, native) :: rest => do
      let (table, first) ← table.bind slot native
      let (table, later) ← table.bindAll rest
      return (table, first ++ later)

/-- The last function that a list binds to a slot. -/
def lastBound? (binds : List (Nat × Native ω)) (slot : Nat) : Option (Native ω) :=
  binds.reverse.lookup slot

/-- What a slot holds.  There are no slots from 64 on. -/
def held (table : NativeTable ω) (slot : Nat) : Option (Native ω) :=
  table.slots[slot]?.join

theorem get?_eq_held (table : NativeTable ω) (slot : Word) :
    table.get? slot = table.held slot.toNat :=
  rfl

theorem held_empty (category : Category) (slot : Nat) :
    (empty category : NativeTable ω).held slot = none := by
  rw [held, empty, Vector.getElem?_replicate]
  split <;> rfl

theorem held_of_le (table : NativeTable ω) (h : nativeSlots ≤ slot) : table.held slot = none := by
  rw [held, Vector.getElem?_eq_none h]
  rfl

theorem mem_bound_iff : slot ∈ table.bound ↔ (table.held slot).isSome = true := by
  have hbound : table.bound = (List.range nativeSlots).filter fun i => (table.held i).isSome := rfl
  rw [hbound, List.mem_filter, List.mem_range]
  constructor
  · exact And.right
  · intro hheld
    refine ⟨?_, hheld⟩
    by_contra hle
    rw [table.held_of_le (Nat.le_of_not_lt hle)] at hheld
    cases hheld

theorem bound_ascending (table : NativeTable ω) : table.bound.Pairwise (· < ·) :=
  List.Pairwise.filter _ List.pairwise_lt_range

theorem toFinset_bound_empty (category : Category) :
    (empty category : NativeTable ω).bound.toFinset = ∅ := by
  ext slot
  rw [List.mem_toFinset, mem_bound_iff, held_empty]
  simp

structure Binds (table : NativeTable ω) (slot : Nat) (native : Native ω) (after : NativeTable ω)
    (events : Array Event) : Prop where
  category_eq : after.category = table.category
  held_eq : ∀ i, after.held i = if i = slot then some native else table.held i
  events_eq :
    events = if slot ∈ table.bound then #[.nativeReplaced table.category slot] else #[]

theorem bind_ok (table : NativeTable ω) (native : Native ω) (h : slot < nativeSlots) :
    ∃ after events, table.bind slot native = .ok (after, events) ∧
      table.Binds slot native after events := by
  refine ⟨_, _, dif_pos h, rfl, ?_, ?_⟩
  · intro i
    by_cases hi : i = slot
    · subst hi
      simp [held, h]
    · simp [held, hi, Ne.symm hi, Vector.getElem?_set_ne]
  · simp only [mem_bound_iff, held, Vector.getElem?_eq_getElem h, Option.join_some]

theorem bind_error (table : NativeTable ω) (native : Native ω) (h : nativeSlots ≤ slot) :
    table.bind slot native = .error ⟨slot⟩ :=
  dif_neg (Nat.not_lt.2 h)

theorem Binds.mem_bound_iff {events : Array Event} (h : table.Binds slot native after events)
    (i : Nat) : i ∈ after.bound ↔ i = slot ∨ i ∈ table.bound := by
  rw [NativeTable.mem_bound_iff, NativeTable.mem_bound_iff, h.held_eq]
  split
  · simp [*]
  · simp [*]

theorem Binds.count {events : Array Event} (h : table.Binds slot native after events) :
    events.size + after.bound.toFinset.card = table.bound.toFinset.card + 1 := by
  have hbound : after.bound.toFinset = insert slot table.bound.toFinset := by
    ext i
    rw [List.mem_toFinset, h.mem_bound_iff, Finset.mem_insert, List.mem_toFinset]
  rw [hbound, h.events_eq]
  by_cases hslot : slot ∈ table.bound
  · rw [if_pos hslot, Finset.insert_eq_of_mem (List.mem_toFinset.2 hslot), Nat.add_comm]
    rfl
  · rw [if_neg hslot, Finset.card_insert_of_notMem (fun h => hslot (List.mem_toFinset.1 h)),
      Array.size_empty, Nat.zero_add]

theorem lastBound?_cons (i : Nat) :
    lastBound? ((slot, native) :: binds) i =
      (lastBound? binds i).or (if i = slot then some native else none) := by
  rw [lastBound?, List.reverse_cons, List.lookup_append, lastBound?]
  by_cases hi : i = slot
  · simp [hi]
  · rw [if_neg hi, List.lookup_cons, beq_false_of_ne hi, List.lookup_nil]

theorem isSome_lastBound?_iff :
    (lastBound? binds slot).isSome = true ↔ slot ∈ binds.map Prod.fst := by
  induction binds with
  | nil => simp [lastBound?]
  | cons bind rest ih =>
    obtain ⟨first, native⟩ := bind
    rw [lastBound?_cons, Option.isSome_or, Bool.or_eq_true, ih, List.map_cons, List.mem_cons]
    by_cases hslot : slot = first <;> simp [hslot]

theorem mem_of_lastBound? (h : lastBound? binds slot = some native) : (slot, native) ∈ binds := by
  induction binds with
  | nil => cases h
  | cons bind rest ih =>
    obtain ⟨first, earlier⟩ := bind
    rw [lastBound?_cons, Option.or_eq_some_iff] at h
    obtain hlater | ⟨-, hfirst⟩ := h
    · exact List.mem_cons_of_mem _ (ih hlater)
    · obtain ⟨rfl, hnative⟩ := Option.ite_none_right_eq_some.1 hfirst
      cases hnative
      exact List.mem_cons_self

/-- What binding functions one after another does to a table. -/
structure Fills (table : NativeTable ω) (binds : List (Nat × Native ω)) (after : NativeTable ω)
    (events : Array Event) : Prop where
  category_eq : after.category = table.category
  held_eq : ∀ i, after.held i = (lastBound? binds i).or (table.held i)
  replaced : ∀ event ∈ events, ∃ slot ∈ binds.map Prod.fst,
    event = .nativeReplaced table.category slot
  count : events.size + after.bound.toFinset.card = table.bound.toFinset.card + binds.length

theorem Fills.nil (table : NativeTable ω) : table.Fills [] table #[] :=
  ⟨rfl, fun _ => rfl, by simp, by simp⟩

theorem Fills.cons {middle : NativeTable ω} {first later : Array Event}
    (hfirst : table.Binds slot native middle first) (hlater : middle.Fills binds after later) :
    table.Fills ((slot, native) :: binds) after (first ++ later) where
  category_eq := hlater.category_eq.trans hfirst.category_eq
  held_eq i := by
    rw [hlater.held_eq, hfirst.held_eq, lastBound?_cons, Option.or_assoc]
    split <;> rfl
  replaced event hevent := by
    rcases Array.mem_append.1 hevent with hevent | hevent
    · rw [hfirst.events_eq] at hevent
      split at hevent
      · exact ⟨slot, List.mem_cons_self, Array.mem_singleton.1 hevent⟩
      · cases Array.not_mem_empty _ hevent
    · obtain ⟨i, hi, rfl⟩ := hlater.replaced event hevent
      exact ⟨i, List.mem_cons_of_mem _ hi, by rw [hfirst.category_eq]⟩
  count := by
    have hone := hfirst.count
    have hrest := hlater.count
    rw [Array.size_append, List.length_cons]
    omega

theorem bindAll_ok (table : NativeTable ω) (hslots : ∀ bind ∈ binds, bind.1 < nativeSlots) :
    ∃ after events, table.bindAll binds = .ok (after, events) ∧
      table.Fills binds after events := by
  induction binds generalizing table with
  | nil => exact ⟨table, #[], rfl, .nil table⟩
  | cons bind rest ih =>
    obtain ⟨slot, native⟩ := bind
    obtain ⟨hslot, hrest⟩ := List.forall_mem_cons.1 hslots
    obtain ⟨middle, first, hbind, hfirst⟩ := table.bind_ok native hslot
    obtain ⟨after, later, hall, hlater⟩ := ih middle hrest
    refine ⟨after, first ++ later, ?_, .cons hfirst hlater⟩
    rw [bindAll, hbind]
    change (do let (table, later) ← middle.bindAll rest; return (table, first ++ later)) = _
    rw [hall]
    rfl

theorem bindAll_error (table : NativeTable ω) (hslots : ∀ bind ∈ binds, bind.1 < nativeSlots)
    (native : Native ω) (rest : List (Nat × Native ω)) (hslot : nativeSlots ≤ slot) :
    table.bindAll (binds ++ (slot, native) :: rest) = .error ⟨slot⟩ := by
  induction binds generalizing table with
  | nil =>
    rw [List.nil_append, bindAll, table.bind_error native hslot]
    rfl
  | cons bind earlier ih =>
    obtain ⟨hfirst, hearlier⟩ := List.forall_mem_cons.1 hslots
    obtain ⟨middle, first, hbind, -⟩ := table.bind_ok bind.2 hfirst
    rw [List.cons_append, bindAll, hbind]
    change (do let (table, later) ← middle.bindAll _; return (table, first ++ later)) = _
    rw [ih middle hearlier]
    rfl

end NativeTable

namespace Actor

variable {ω : Type} {a : Actor ω} {parameter next : Word}

theorem low_byte_eq (parameter : Word) : parameter &&& 0xFF = parameter % 256 := by
  apply UInt16.toNat_inj.1
  rw [UInt16.toNat_and, UInt16.toNat_mod]
  exact Nat.and_two_pow_sub_one_eq_mod _ 8

def ownerAfter : EStateM.Result Fault (Call ω) Word → ω
  | .ok _ left | .error _ left => left.owner

/-- The function starts past the instruction with the stack as it is, and its value replaces what it
stored as the result. -/
def CallDoes [Owner ω] (a : Actor ω) (table : NativeTable ω) (slot next : Word) :
    Option (Native ω) → Prop
  | none =>
      (a.step table).value = .error (.unknownFunction slot) ∧
        (a.step table).after.engine.machine = { a.engine.machine with ip := none } ∧
        (a.step table).after.owner = a.owner
  | some native =>
      let came := native ⟨a.engine.program, a.engine.settings⟩
        { machine := { a.engine.machine with ip := some next }, owner := a.owner }
      (a.step table).after.owner = ownerAfter came ∧
        match came with
        | .ok value left =>
            (a.step table).value = .ok true ∧
              (a.step table).after.engine.machine =
                { left.machine with
                  result := value
                  ip := if left.stopped then none else left.machine.ip }
        | .error fault left =>
            (a.step table).value = .error fault ∧
              (a.step table).after.engine.machine = { left.machine with ip := none }

theorem callDoes [Owner ω] (table : NativeTable ω)
    (h : a.operation? = some (.function, parameter, next)) :
    a.CallDoes table (parameter % 256) next (table.get? (parameter % 256)) := by
  rw [← low_byte_eq]
  cases hget : table.get? (parameter &&& 0xFF) with
  | none =>
    obtain ⟨hvalue, hafter⟩ := step_call_error h (call_unbound hget)
    rw [CallDoes, hafter]
    exact ⟨hvalue, rfl, rfl⟩
  | some native =>
    have hcall : a.call table parameter next = native a.site (a.opened next) := call_bound hget
    change (a.step table).after.owner = ownerAfter (native a.site (a.opened next)) ∧
      match native a.site (a.opened next) with
      | .ok value left => _
      | .error fault left => _
    cases hcame : native a.site (a.opened next) with
    | ok value left =>
      rw [hcame] at hcall
      obtain ⟨hvalue, hafter⟩ := step_call_ok h hcall
      dsimp only
      rw [hafter]
      dsimp only
      refine ⟨?_, hvalue, ?_⟩
      · cases left.stopped <;> rfl
      · cases left.stopped <;> rfl
    | error fault left =>
      rw [hcame] at hcall
      obtain ⟨hvalue, hafter⟩ := step_call_error h hcall
      dsimp only
      rw [hafter]
      exact ⟨rfl, hvalue, rfl⟩

end Actor

namespace NativeTable

variable {ω : Type} [Owner ω]

/-- A step that calls runs, once, the function bound last to the slot that the low byte of its
parameter names, if there is one.  Bindings end at the first slot that no table has, and each
function that is replaced is reported. -/
theorem last_bound_runs (category : Category) (binds : List (Nat × Native ω))
    (hslots : ∀ bind ∈ binds, bind.1 < nativeSlots) :
    (∀ slot native rest, nativeSlots ≤ slot →
        (empty category).bindAll (binds ++ (slot, native) :: rest) = .error ⟨slot⟩) ∧
      ∃ table events, (empty category).bindAll binds = .ok (table, events) ∧
        (∀ slot : Word, table.get? slot = lastBound? binds slot.toNat) ∧
        (∀ slot : Word, nativeSlots ≤ slot.toNat → table.get? slot = none) ∧
        (∀ slot, slot ∈ table.bound ↔ slot ∈ binds.map Prod.fst) ∧ table.bound.Pairwise (· < ·) ∧
        (∀ event ∈ events, event.message = "overriding native function" ∧
          ∃ slot ∈ binds.map Prod.fst, event = .nativeReplaced category slot) ∧
        events.size + (binds.map Prod.fst).toFinset.card = binds.length ∧
        ∀ (a : Actor ω) (parameter next : Word),
          a.operation? = some (.function, parameter, next) →
            let slot := parameter % 256
            a.CallDoes table slot next (lastBound? binds slot.toNat) ∧
              ∀ runs : ω → Nat,
                (∀ bind ∈ binds, ∀ site call,
                  runs (Actor.ownerAfter (bind.2 site call)) = runs call.owner + 1) →
                runs (a.step table).after.owner =
                  runs a.owner + if slot.toNat ∈ binds.map Prod.fst then 1 else 0 := by
  obtain ⟨table, events, hall, hfills⟩ := (empty category).bindAll_ok hslots
  have hheld (slot : Nat) : table.held slot = lastBound? binds slot := by
    rw [hfills.held_eq, held_empty, Option.or_none]
  have hbound (slot : Nat) : slot ∈ table.bound ↔ slot ∈ binds.map Prod.fst := by
    rw [mem_bound_iff, hheld, isSome_lastBound?_iff]
  have hcount : events.size + (binds.map Prod.fst).toFinset.card = binds.length := by
    have hdistinct : (binds.map Prod.fst).toFinset = table.bound.toFinset := by
      ext slot
      rw [List.mem_toFinset, List.mem_toFinset, hbound]
    rw [hdistinct, hfills.count, toFinset_bound_empty, Finset.card_empty, Nat.zero_add]
  refine ⟨fun slot native rest => bindAll_error _ hslots native rest, table, events, hall,
    fun slot => hheld slot.toNat, fun slot => table.held_of_le, hbound, table.bound_ascending, ?_,
    hcount, ?_⟩
  · intro event hevent
    obtain ⟨slot, hslot, rfl⟩ := hfills.replaced event hevent
    exact ⟨rfl, slot, hslot, rfl⟩
  · intro a parameter next hoperation slot
    have hcall := Actor.callDoes table hoperation
    rw [get?_eq_held, hheld] at hcall
    refine ⟨hcall, ?_⟩
    intro runs hruns
    have hmem : (lastBound? binds slot.toNat).isSome = true ↔ slot.toNat ∈ binds.map Prod.fst :=
      isSome_lastBound?_iff
    cases hlast : lastBound? binds slot.toNat with
    | none =>
      rw [hlast] at hcall hmem
      rw [hcall.2.2, if_neg (fun hbound => Bool.false_ne_true (hmem.2 hbound)), Nat.add_zero]
    | some native =>
      rw [hlast] at hcall hmem
      rw [hcall.1, if_pos (hmem.1 rfl)]
      exact hruns _ (mem_of_lastBound? hlast) _ _

/-- A function that was replaced does not run.  The last one stores a result, sets a delay and stops
the engine; the parameter 515 names slot 3. -/
theorem last_bound_runs_replaced :
    let _ : Owner Nat := {}
    let count : NativeM Nat Unit := Native.modifyOwner (· + 1)
    let earlier : NativeM Nat Word := do
      count
      return 8
    let last : NativeM Nat Word := do
      count
      Native.onMachine (Machine.setResult 9)
      Native.setDelay 5
      Native.stop
      return 7
    let caller : Actor Nat :=
      ⟨{ program := { words := #[0x2E00, 515] }, machine := { ip := some 0 } }, 40⟩
    ∃ table events,
      (empty .team).bindAll [(3, earlier), (63, earlier), (3, last)] = .ok (table, events) ∧
        table.get? 3 = some last ∧ 63 ∈ table.bound ∧ events.size = 1 ∧
        (caller.step table).value = .ok true ∧ (caller.step table).after.owner = 41 ∧
        (caller.step table).after.engine.machine = { result := 7, delay := 5 } := by
  intro _ count earlier last caller
  obtain ⟨-, table, events, hall, hget, -, hbound, -, -, hcount, hcalls⟩ :=
    last_bound_runs .team [(3, earlier), (63, earlier), (3, last)] (by decide)
  have hoperation : caller.operation? = some (.function, 515, 2) := by cbv
  obtain ⟨hcall, hruns⟩ := hcalls caller 515 2 hoperation
  have hone := hruns id <| by
    simp only [List.forall_mem_cons]
    exact ⟨fun _ _ => rfl, fun _ _ => rfl, fun _ _ => rfl, by simp⟩
  refine ⟨table, events, hall, hget 3, (hbound 63).2 (by decide), ?_, hcall.2.1, hone, hcall.2.2⟩
  exact Nat.add_right_cancel (hcount.trans (by decide : 3 = 1 + 2))

end NativeTable

end EntityScript

import EntityScript.Proofs.Forgetting

namespace EntityScript.Machine

variable {α β : Type} {base : Nat}

/-- A recorded operation that starts with the stack pointer at or below `base` either pops the value
there, or leaves the pointer at or below it and all values from there on that it does not write. -/
structure Confines (base : Nat) (f : Recorded α) : Prop where
  log_subset : ∀ r, r.log ⊆ (endState (f r)).log
  popped_or_kept : ∀ r : Recording, r.machine.stackPointer.toNat ≤ base →
    .pop base ∈ (endState (f r)).log ∨
      (endState (f r)).machine.stackPointer.toNat ≤ base ∧
        ∀ i : Nat, base ≤ i → .write i ∉ (endState (f r)).log →
          (endState (f r)).machine.stack[i]? = r.machine.stack[i]?

namespace Confines

theorem of_unchanged {f : Recorded α} (hlog : ∀ r, r.log ⊆ (endState (f r)).log)
    (hpointer : ∀ r, (endState (f r)).machine.stackPointer = r.machine.stackPointer)
    (hstack : ∀ r, (endState (f r)).machine.stack = r.machine.stack) : Confines base f := by
  refine ⟨hlog, fun r hr => .inr ⟨?_, ?_⟩⟩
  · rw [hpointer]
    exact hr
  · intro i _ _
    rw [hstack]

theorem pure (a : α) : Confines base (Pure.pure a : Recorded α) :=
  of_unchanged (fun _ => List.Subset.refl _) (fun _ => rfl) (fun _ => rfl)

theorem throw (fault : Fault) : Confines base (MonadExcept.throw fault : Recorded α) :=
  of_unchanged (fun _ => List.Subset.refl _) (fun _ => rfl) (fun _ => rfl)

theorem look : Confines base Recorded.look :=
  of_unchanged (fun _ => List.Subset.refl _) (fun _ => rfl) (fun _ => rfl)

theorem note (accesses : List Access) : Confines base (Recorded.note accesses) :=
  of_unchanged (fun _ => List.subset_append_left _ _) (fun _ => rfl) (fun _ => rfl)

theorem change {h : Machine → Machine}
    (hpointer : ∀ m, (h m).stackPointer = m.stackPointer) (hstack : ∀ m, (h m).stack = m.stack) :
    Confines base (Recorded.change h) :=
  of_unchanged (fun _ => List.Subset.refl _) (fun r => hpointer r.machine)
    (fun r => hstack r.machine)

theorem bind {f : Recorded α} {k : α → Recorded β} (hf : Confines base f)
    (hk : ∀ a, Confines base (k a)) : Confines base (f >>= k) := by
  constructor
  · intro r
    have hlog := hf.log_subset r
    cases hresult : f r with
    | error e s =>
        rw [hresult] at hlog
        rw [bind_error hresult]
        exact hlog
    | ok a s =>
        rw [hresult] at hlog
        rw [bind_ok hresult]
        exact List.Subset.trans hlog ((hk a).log_subset s)
  · intro r hr
    have hfirst := hf.popped_or_kept r hr
    cases hresult : f r with
    | error e s =>
        rw [hresult] at hfirst
        rw [bind_error hresult]
        exact hfirst
    | ok a s =>
        rw [hresult] at hfirst
        rw [bind_ok hresult]
        have hlog := (hk a).log_subset s
        rcases hfirst with hpop | ⟨hpointer, hkept⟩
        · exact .inl (hlog hpop)
        · rcases (hk a).popped_or_kept s hpointer with hpop | ⟨hpointer', hkept'⟩
          · exact .inl hpop
          · refine .inr ⟨hpointer', ?_⟩
            intro i hi hwrite
            exact (hkept' i hi hwrite).trans (hkept i hi fun h => hwrite (hlog h))

theorem push (value : Word) : Confines base (Recorded.push value) := by
  constructor
  · intro r
    rw [Recorded.push]
    split
    · exact List.Subset.refl _
    · simp [endState, Recording.note, Recording.put, Recording.movePointer]
  · intro r hr
    rw [Recorded.push]
    split
    · exact .inr ⟨hr, fun _ _ _ => rfl⟩
    · rename_i hne
      have hpos : 0 < r.machine.stackPointer.toNat := by
        rw [Nat.pos_iff_ne_zero]
        intro h
        exact hne (UInt8.toNat_inj.1 h)
      have hbyte := r.machine.stackPointer.toNat_lt
      have htop := toNat_ofInt (n := r.machine.stackPointer.toNat - 1) (by omega) (by omega)
      refine .inr ⟨?_, ?_⟩
      · simp only [endState, Recording.note, Recording.put, Recording.movePointer]
        omega
      · intro i hi _
        exact Vector.getElem?_setIfInBounds_ne (by omega)

theorem pop : Confines base Recorded.pop := by
  constructor
  · intro r
    rw [Recorded.pop]
    split
    · exact List.Subset.refl _
    · simp [endState, Recording.note, Recording.movePointer]
  · intro r hr
    rw [Recorded.pop]
    split
    · exact .inr ⟨hr, fun _ _ _ => rfl⟩
    · rename_i hlt
      rcases Nat.lt_or_eq_of_le hr with hbelow | hbase
      · refine .inr ⟨?_, fun _ _ _ => rfl⟩
        have hnext := toNat_ofInt (n := r.machine.stackPointer.toNat + 1) (by omega)
          (by unfold stackSize at hlt; omega)
        simp only [endState, Recording.note, Recording.movePointer]
        omega
      · exact .inl (by simp [endState, Recording.note, Recording.movePointer, hbase])

theorem readSlot (slot : Int) : Confines base (Recorded.readSlot slot) := by
  refine of_unchanged (fun r => ?_) (fun r => ?_) (fun r => ?_)
  · rw [Recorded.readSlot]
    split
    · exact List.subset_append_left _ _
    · exact List.Subset.refl _
  · rw [Recorded.readSlot]
    split <;> rfl
  · rw [Recorded.readSlot]
    split <;> rfl

theorem peek (n : UInt8) : Confines base (Recorded.peek n) := by
  refine of_unchanged (fun r => ?_) (fun r => ?_) (fun r => ?_)
  · rw [Recorded.peek]
    split <;> simp [Recorded.overflow, endState, Recording.note]
  · rw [Recorded.peek]
    split <;> rfl
  · rw [Recorded.peek]
    split <;> rfl

theorem requireTwoSlots : Confines base Recorded.requireTwoSlots := by
  refine of_unchanged (fun r => ?_) (fun r => ?_) (fun r => ?_)
  · rw [Recorded.requireTwoSlots]
    split
    · exact List.subset_append_left _ _
    · exact List.Subset.refl _
  · rw [Recorded.requireTwoSlots]
    split <;> rfl
  · rw [Recorded.requireTwoSlots]
    split <;> rfl

theorem writeSlot (slot : Int) (value : Word) : Confines base (Recorded.writeSlot slot value) := by
  constructor
  · intro r
    rw [Recorded.writeSlot]
    split
    · exact List.subset_append_left _ _
    · exact List.Subset.refl _
  · intro r hr
    rw [Recorded.writeSlot]
    split
    · rename_i hslot
      refine .inr ⟨hr, ?_⟩
      intro i _ hwrite
      have hne : slot.toNat ≠ i := by
        rintro rfl
        rw [Int.toNat_of_nonneg hslot.1] at hwrite
        exact hwrite (by simp [endState, Recording.note])
      exact Vector.getElem?_setIfInBounds_ne hne
    · exact .inr ⟨hr, fun _ _ _ => rfl⟩

theorem enterFrame (next : Word) : Confines base (Recorded.enterFrame next) := by
  refine bind requireTwoSlots fun _ => ?_
  refine bind (push (next + 1)) fun _ => ?_
  refine bind look fun m => ?_
  refine bind (push _) fun _ => ?_
  refine bind look fun k => ?_
  refine bind (note _) fun _ => ?_
  exact change (fun _ => rfl) (fun _ => rfl)

theorem leaveFrame : Confines base Recorded.leaveFrame := by
  refine bind (peek 2) fun _ => ?_
  refine bind pop fun frame => ?_
  refine bind (change (fun _ => rfl) (fun _ => rfl)) fun _ => ?_
  refine bind pop fun next => ?_
  exact change (fun _ => rfl) (fun _ => rfl)

theorem leaveSubroutine : Confines base Recorded.leaveSubroutine := by
  refine bind (peek 2) fun _ => ?_
  refine bind pop fun result => ?_
  refine bind (change (fun _ => rfl) (fun _ => rfl)) fun _ => ?_
  refine bind pop fun next => ?_
  refine bind (change (fun _ => rfl) (fun _ => rfl)) fun _ => ?_
  exact change (fun _ => rfl) (fun _ => rfl)

theorem pushSlot (slot : Int) : Confines base (Recorded.pushSlot slot) :=
  bind (readSlot slot) push

theorem popSlot (slot : Int) : Confines base (Recorded.popSlot slot) := by
  refine bind (readSlot slot) fun _ => ?_
  exact bind pop (writeSlot slot)

theorem applyBinary (op : BinaryOp) : Confines base (Recorded.applyBinary op) := by
  refine bind (peek 2) fun _ => ?_
  refine bind pop fun right => ?_
  refine bind pop fun left => ?_
  cases op.apply left right with
  | ok value => exact push value
  | error fault => exact throw fault

theorem execute {opcode : Opcode} (hrewind : opcode ≠ .rewind) (hforward : opcode ≠ .forward)
    (parameter next : Word) : Confines base (Recorded.execute opcode parameter next) := by
  have hslot (slot : Machine → Recorded Int) (k : Int → Recorded Unit)
      (h : ∀ m, Confines base (slot m)) (hk : ∀ i, Confines base (k i)) :
      Confines base (Recorded.look >>= fun m => slot m >>= k) :=
    bind look fun m => bind (h m) hk
  have hlocal (m : Machine) : Confines base (Recorded.localSlot m.framePointer parameter) :=
    bind (note _) fun _ => pure _
  have hargument (m : Machine) : Confines base (Recorded.argumentSlot m.framePointer parameter) :=
    bind (note _) fun _ => pure _
  cases opcode with
  | jump =>
      exact change (h := fun m => { m with ip := some parameter }) (fun _ => rfl) (fun _ => rfl)
  | setResult =>
      exact change (h := fun m => { m with result := parameter }) (fun _ => rfl) (fun _ => rfl)
  | pushResultOrFrame =>
      simp only [Recorded.execute]
      split
      · exact bind look fun m => push m.result
      · exact enterFrame next
      · exact throw _
  | push => exact push parameter
  | push2 => exact push parameter
  | pushVariable =>
      simp only [Recorded.execute]
      split
      · exact bind look fun m => push _
      · exact throw _
  | pushLocal => exact hslot _ _ hlocal pushSlot
  | pushArgument => exact hslot _ _ hargument pushSlot
  | popResultOrFrame =>
      simp only [Recorded.execute]
      split
      · exact bind pop fun value => change (fun _ => rfl) (fun _ => rfl)
      · exact leaveFrame
      · exact throw _
  | popVariable =>
      simp only [Recorded.execute]
      split
      · exact bind pop fun value => change (fun _ => rfl) (fun _ => rfl)
      · exact throw _
  | popLocal => exact hslot _ _ hlocal popSlot
  | popArgument => exact hslot _ _ hargument popSlot
  | rewind => exact absurd rfl hrewind
  | forward => exact absurd rfl hforward
  | function => exact pure ()
  | jumpIfZero =>
      refine bind (peek 1) fun _ => ?_
      refine bind pop fun value => ?_
      split
      · exact change (fun _ => rfl) (fun _ => rfl)
      · exact pure _
  | unary =>
      simp only [Recorded.execute]
      split
      · exact bind pop fun value => push _
      · exact throw _
  | binary =>
      simp only [Recorded.execute]
      split
      · exact applyBinary _
      · exact throw _
  | ret => exact leaveSubroutine

end Confines

theorem stack_shift (amount : Int) (r : Recording) :
    (endState (Recorded.shift amount r)).machine.stack = r.machine.stack := by
  rw [Recorded.shift]
  split <;> rfl

theorem getElem?_stack_execute {opcode : Opcode} {parameter next : Word} {r : Recording} {i : Nat}
    (hr : r.machine.stackPointer.toNat ≤ base)
    (hpop : .pop base ∉ (endState (Recorded.execute opcode parameter next r)).log)
    (hi : base ≤ i)
    (hwrite : .write i ∉ (endState (Recorded.execute opcode parameter next r)).log) :
    (endState (Recorded.execute opcode parameter next r)).machine.stack[i]? =
      r.machine.stack[i]? := by
  by_cases hrewind : opcode = .rewind
  · subst opcode
    exact congrArg (·[i]?) (stack_shift _ r)
  · by_cases hforward : opcode = .forward
    · subst opcode
      exact congrArg (·[i]?) (stack_shift _ (r.note _))
    · have hconfines : Confines base _ := Confines.execute hrewind hforward parameter next
      rcases hconfines.popped_or_kept r hr with h | ⟨_, hkept⟩
      · exact absurd h hpop
      · exact hkept i hi hwrite

theorem enterSubroutine_below {m : Machine} (hbase : base ≤ stackSize)
    (hm : m.stackPointer.toNat ≤ base) (program : Program) (subtype : Word) :
    let done := endState (enterSubroutine program subtype m)
    done.stackPointer.toNat ≤ base ∧ done.framePointer = m.framePointer ∧
      ∀ i, base ≤ i → done.stack[i]? = m.stack[i]? := by
  intro done
  have hbounds : m.InBounds := Nat.le_trans hm hbase
  rcases enterSubroutine_cases hbounds program subtype with
    hsame | ⟨fault, hfail⟩ | ⟨ip, entry, htwo, hentered⟩
  · rw [show done = m from congrArg endState hsame]
    exact ⟨hm, rfl, fun _ _ => rfl⟩
  · rw [show done = m from congrArg endState hfail]
    exact ⟨hm, rfl, fun _ _ => rfl⟩
  · rw [show done = m.entered ip entry from congrArg endState hentered]
    obtain ⟨hpointer, _, _, habove⟩ := pushed_pushed hbounds htwo ip m.result
    refine ⟨Nat.le_trans (Nat.le_of_eq hpointer) (Nat.le_trans (Nat.sub_le _ _) hm), rfl, ?_⟩
    intro i hi
    exact habove i (Nat.le_trans hm hi)

end EntityScript.Machine

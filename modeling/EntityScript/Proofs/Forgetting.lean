import EntityScript.Proofs.Recording

namespace EntityScript.Machine

def forget {α : Type} : EStateM.Result Fault Recording α → EStateM.Result Fault Machine α
  | .ok a r => .ok a r.machine
  | .error e r => .error e r.machine

theorem endState_forget {α : Type} (result : EStateM.Result Fault Recording α) :
    endState (forget result) = (endState result).machine := by
  cases result <;> rfl

/-- The machine is in bounds, and everything noted so far fits. -/
structure Recording.Fits (r : Recording) : Prop where
  inBounds : r.machine.InBounds
  log : ∀ access ∈ r.log, access.Fits

/-- A recorded operation records an operation. -/
def Records {α : Type} (f : Recorded α) (g : Action α) : Prop :=
  ∀ r : Recording, r.Fits → forget (f r) = g r.machine ∧ (endState (f r)).Fits

namespace Recording.Fits

variable {r : Recording}

theorem note (hr : r.Fits) {accesses : List Access} (h : ∀ access ∈ accesses, access.Fits) :
    (r.note accesses).Fits := by
  refine ⟨hr.inBounds, ?_⟩
  intro access haccess
  rcases List.mem_append.1 haccess with hold | hnew
  · exact hr.log access hold
  · exact h access hnew

theorem movePointer (hr : r.Fits) {n : Int} (hlow : 0 ≤ n) (hhigh : n ≤ stackSize) :
    (r.movePointer n).Fits := by
  have hbound : n < 256 := by
    unfold stackSize at hhigh
    omega
  have hbyte := toNat_ofInt hlow hbound
  have hmoved : ({ r with
      machine := { r.machine with stackPointer := .ofInt n } } : Recording).Fits := by
    refine ⟨?_, hr.log⟩
    change (UInt8.ofInt n).toNat ≤ stackSize
    omega
  exact hmoved.note (by simpa [Access.Fits] using ⟨hlow, hhigh⟩)

theorem put (hr : r.Fits) (slot : Int) (value : Word) : (r.put slot value).Fits :=
  ⟨hr.inBounds, hr.log⟩

end Recording.Fits

theorem valueAt_natCast (r : Recording) {i : Nat} (h : i < stackSize) :
    r.valueAt i = r.machine.stack[i] := by
  simp [Recording.valueAt, h]

theorem InBounds.fits {m : Machine} (hm : m.InBounds) : Recording.Fits ⟨m, []⟩ :=
  ⟨hm, List.forall_mem_nil _⟩

namespace Records

variable {α β : Type} {f : Recorded α} {g : Action α}

theorem inBounds (h : Records f g) {m : Machine} (hm : m.InBounds) : (endState (g m)).InBounds := by
  obtain ⟨hforget, hfits⟩ := h _ hm.fits
  rw [← hforget, endState_forget]
  exact hfits.inBounds

theorem pure (a : α) : Records (Pure.pure a) (Pure.pure a) :=
  fun _ hr => ⟨rfl, hr⟩

theorem throw (fault : Fault) :
    Records (α := α) (MonadExcept.throw fault) (MonadExcept.throw fault) :=
  fun _ hr => ⟨rfl, hr⟩

theorem bind {k : α → Recorded β} {l : α → Action β} (hf : Records f g)
    (hk : ∀ a, Records (k a) (l a)) : Records (f >>= k) (g >>= l) := by
  intro r hr
  obtain ⟨hforget, hfits⟩ := hf r hr
  cases hresult : f r with
  | error e s =>
      rw [hresult] at hforget hfits
      rw [bind_error hresult, bind_error hforget.symm]
      exact ⟨rfl, hfits⟩
  | ok a s =>
      rw [hresult] at hforget hfits
      rw [bind_ok hresult, bind_ok hforget.symm]
      exact hk a s hfits

theorem look_bind {k : Machine → Recorded β} {l : Machine → Action β}
    (hk : ∀ m, Records (k m) (l m)) : Records (Recorded.look >>= k) (get >>= l) :=
  bind (fun _ hr => ⟨rfl, hr⟩) hk

theorem change {h : Machine → Machine} (hh : ∀ m : Machine, m.InBounds → (h m).InBounds) :
    Records (Recorded.change h) (modify h) :=
  fun r hr => ⟨rfl, hh r.machine hr.inBounds, hr.log⟩

theorem setVariable (i : Fin variableCount) (value : Word) :
    Records (Recorded.change fun m => { m with vars := m.vars.setIfInBounds i value })
      (Machine.setVariable i value) := by
  rw [setVariable_eq]
  exact change fun _ hm => hm

theorem note_bind {k : PUnit → Recorded α} {accesses : List Access}
    (h : ∀ access ∈ accesses, access.Fits) (hk : Records (k ⟨⟩) g) :
    Records (Recorded.note accesses >>= k) g :=
  fun r hr => hk (r.note accesses) (hr.note h)

theorem push (value : Word) : Records (Recorded.push value) (Machine.push value) := by
  intro r hr
  have hbound := hr.inBounds
  unfold InBounds at hbound
  by_cases hzero : r.machine.stackPointer.toNat = 0
  · have hfull : r.machine.stackPointer = 0 := UInt8.toNat_inj.1 hzero
    rw [Recorded.push, if_pos hfull, push_full hzero]
    exact ⟨rfl, hr⟩
  · have hne : r.machine.stackPointer ≠ 0 := by
      intro h
      exact hzero (by simp [h])
    have htop : ((r.machine.stackPointer.toNat : Int) - 1).toNat =
        r.machine.stackPointer.toNat - 1 := by omega
    rw [Recorded.push, if_neg hne, push_ok hr.inBounds (by omega)]
    refine ⟨?_, ?_⟩
    · simp only [forget, Recording.note, Recording.put, Recording.movePointer, pushed, htop,
        ofInt_toNat_sub_one]
    · have hmoved := hr.movePointer (n := r.machine.stackPointer.toNat - 1) (by omega)
        (by omega)
      exact (hmoved.put _ value).note (by
        simp only [List.forall_mem_singleton, Access.Fits]
        omega)

theorem pop : Records Recorded.pop Machine.pop := by
  intro r hr
  by_cases hempty : stackSize ≤ r.machine.stackPointer.toNat
  · rw [Recorded.pop, if_pos (by omega), pop_empty hempty, Slot.ofByte_eq_ofInt]
    exact ⟨rfl, hr⟩
  · rw [Recorded.pop, if_neg (by omega), pop_ok (by omega),
      valueAt_natCast r (by omega)]
    refine ⟨?_, ?_⟩
    · simp only [forget, Recording.note, Recording.movePointer, popped, UInt8.ofInt_add,
        ofInt_toNat, UInt8.ofInt_one]
    · have hnoted : (r.note [.pop r.machine.stackPointer.toNat]).Fits := hr.note (by
        simp only [List.forall_mem_singleton, Access.Fits]
        omega)
      exact hnoted.movePointer (by omega) (by omega)

theorem readSlot (slot : Slot) :
    Records (Recorded.readSlot slot.toInt) (Machine.readSlot slot) := by
  intro r hr
  by_cases hslot : 0 ≤ slot.toInt ∧ slot.toInt < stackSize
  · obtain ⟨i, hi⟩ := Int.eq_ofNat_of_zero_le hslot.1
    have hlt : i < stackSize := by omega
    rw [Recorded.readSlot, if_pos hslot, readSlot_ok (slotIndex?_ok hi hlt), hi,
      valueAt_natCast r hlt]
    refine ⟨rfl, hr.note ?_⟩
    simp only [List.forall_mem_singleton, Access.Fits]
    omega
  · rw [Recorded.readSlot, if_neg hslot, readSlot_outside (slotIndex?_eq_none_iff.2 hslot),
      Recorded.overflow, Int32.ofInt_toInt]
    exact ⟨rfl, hr⟩

theorem writeSlot (slot : Slot) (value : Word) :
    Records (Recorded.writeSlot slot.toInt value) (Machine.writeSlot slot value) := by
  intro r hr
  by_cases hslot : 0 ≤ slot.toInt ∧ slot.toInt < stackSize
  · obtain ⟨i, hi⟩ := Int.eq_ofNat_of_zero_le hslot.1
    have hlt : i < stackSize := by omega
    rw [Recorded.writeSlot, if_pos hslot, writeSlot_ok (slotIndex?_ok hi hlt)]
    refine ⟨?_, (hr.put _ value).note ?_⟩
    · simp [forget, Recording.note, Recording.put, hi]
    · simp only [List.forall_mem_singleton, Access.Fits]
      omega
  · rw [Recorded.writeSlot, if_neg hslot, Machine.writeSlot, slotIndex?_eq_none_iff.2 hslot,
      Recorded.overflow, Int32.ofInt_toInt]
    exact ⟨rfl, hr⟩

theorem peek (n : UInt8) : Records (Recorded.peek n) (Machine.peek n) := by
  intro r hr
  have hsp := r.machine.stackPointer.toNat_lt
  have hn := n.toNat_lt
  have hnoted : (r.note [.number (r.machine.stackPointer.toNat + n.toNat),
      .number (r.machine.stackPointer.toNat + n.toNat - 1)]).Fits := hr.note (by
    simp only [List.forall_mem_cons, List.not_mem_nil, Access.Fits]
    refine ⟨by omega, by omega, ?_⟩
    simp)
  by_cases hzero : n = 0
  · rw [Recorded.peek, if_pos (.inl hzero), Machine.peek, if_pos hzero, peekSlot_eq]
    exact ⟨rfl, hnoted⟩
  · have hpos : 0 < n.toNat := by
      rw [Nat.pos_iff_ne_zero]
      intro h
      exact hzero (UInt8.toNat_inj.1 h)
    by_cases hslot : stackSize < r.machine.stackPointer.toNat + n.toNat
    · rw [Recorded.peek, if_pos (.inr (by omega)), peek_short hslot, peekSlot_eq]
      exact ⟨rfl, hnoted⟩
    · have hindex : ((r.machine.stackPointer.toNat : Int) + n.toNat - 1) =
          ((r.machine.stackPointer.toNat + n.toNat - 1 : Nat) : Int) := by omega
      rw [Recorded.peek, if_neg (not_or.2 ⟨hzero, by omega⟩), peek_ok hpos (by omega), hindex,
        valueAt_natCast r (by omega)]
      refine ⟨rfl, ?_⟩
      rw [← hindex]
      refine hnoted.note ?_
      simp only [List.forall_mem_singleton, Access.Fits]
      omega

theorem shift {amount : Int32} (hlow : -32768 ≤ amount.toInt) (hhigh : amount.toInt ≤ 32768) :
    Records (Recorded.shift amount.toInt) (Machine.shift amount) := by
  intro r hr
  have hsp := r.machine.stackPointer.toNat_lt
  have hnoted : (r.note [.number (r.machine.stackPointer.toNat + amount.toInt)]).Fits :=
    hr.note (by
      simp only [List.forall_mem_singleton, Access.Fits]
      omega)
  by_cases hrange : 0 ≤ r.machine.stackPointer.toNat + amount.toInt ∧
      r.machine.stackPointer.toNat + amount.toInt ≤ stackSize
  · rw [Recorded.shift, if_pos hrange, shift_ok hlow hhigh hrange.1 hrange.2]
    exact ⟨rfl, hnoted.movePointer hrange.1 hrange.2⟩
  · rw [Recorded.shift, if_neg hrange, shift_outside hlow hhigh hrange, shiftTarget_eq]
    exact ⟨rfl, hnoted⟩

theorem rewind (count : Word) : Records (Recorded.rewind count) (Machine.rewind count) := by
  have hbounds := signed_bounds count
  exact shift (by omega) (by omega)

theorem forward (count : Word) : Records (Recorded.forward count) (Machine.forward count) := by
  have hbounds := signed_bounds count
  rw [Recorded.forward, Machine.forward, ← toInt_neg_signed]
  refine note_bind ?_ (shift ?_ ?_)
  · simp only [List.forall_mem_singleton, Access.Fits, toInt_neg_signed]
    omega
  · rw [toInt_neg_signed]
    omega
  · rw [toInt_neg_signed]
    omega

theorem requireTwoSlots : Records Recorded.requireTwoSlots Machine.requireTwoSlots := by
  intro r hr
  by_cases hfull : r.machine.stackPointer.toNat < 2
  · have hlt : r.machine.stackPointer < 2 := UInt8.lt_iff_toNat_lt.2 hfull
    rw [Recorded.requireTwoSlots, if_pos hlt, requireTwoSlots_full hfull, Slot.ofByte_eq_ofInt]
    refine ⟨?_, hr.note ?_⟩
    · rw [Recorded.overflow, Int32.ofInt_sub]
      rfl
    · simp only [List.forall_mem_singleton, Access.Fits]
      omega
  · have hlt : ¬r.machine.stackPointer < 2 := fun h => hfull (UInt8.lt_iff_toNat_lt.1 h)
    rw [Recorded.requireTwoSlots, if_neg hlt, requireTwoSlots_ok (by omega)]
    exact ⟨rfl, hr⟩

theorem reset : Records Recorded.reset (modify Machine.reset) := by
  refine note_bind ?_ (change ?_)
  · decide
  · intro m _
    exact (by decide : (15 : UInt8).toNat ≤ stackSize)

theorem enterSubroutine (program : Program) (subtype : Word) :
    Records (Recorded.enterSubroutine program subtype)
      (Machine.enterSubroutine program subtype) := by
  -- The case splits follow the checks, which come before the two pushes.
  refine look_bind fun m => ?_
  cases m.ip with
  | none => exact pure ()
  | some ip =>
      cases m.inSubroutine with
      | true => exact pure ()
      | false =>
          cases program.entry? subtype with
          | none => exact throw _
          | some entry =>
              refine bind requireTwoSlots fun _ => ?_
              refine bind (push ip) fun _ => ?_
              refine bind (push m.result) fun _ => ?_
              exact change fun _ hm => hm

theorem enterFrame (next : Word) :
    Records (Recorded.enterFrame next) (Machine.enterFrame next) := by
  refine bind requireTwoSlots fun _ => ?_
  refine bind (push (next + 1)) fun _ => ?_
  refine look_bind fun m => ?_
  refine bind (push _) fun _ => ?_
  intro r hr
  have hbase : UInt8.ofInt (r.machine.stackPointer.toNat + 2) = r.machine.stackPointer + 2 := by
    rw [UInt8.ofInt_add, ofInt_toNat]
    rfl
  have hbound : r.machine.stackPointer.toNat ≤ 15 := hr.inBounds
  have hnoted : (r.note [.base (r.machine.stackPointer.toNat + 2)]).Fits := hr.note (by
    simp only [List.forall_mem_singleton, Access.Fits]
    omega)
  refine ⟨?_, hnoted.inBounds, hnoted.log⟩
  change EStateM.Result.ok () { r.machine with
    framePointer := UInt8.ofInt (r.machine.stackPointer.toNat + 2) } = _
  rw [hbase]
  rfl

theorem leaveFrame : Records Recorded.leaveFrame Machine.leaveFrame := by
  refine bind (peek 2) fun _ => ?_
  refine bind pop fun frame => ?_
  refine bind (change fun _ hm => hm) fun _ => ?_
  refine bind pop fun next => ?_
  exact change fun _ hm => hm

theorem leaveSubroutine : Records Recorded.leaveSubroutine Machine.leaveSubroutine := by
  refine bind (peek 2) fun _ => ?_
  refine bind pop fun result => ?_
  refine bind (change fun _ hm => hm) fun _ => ?_
  refine bind pop fun next => ?_
  refine bind (change fun _ hm => hm) fun _ => ?_
  exact change fun _ hm => hm

theorem pushSlot (slot : Slot) : Records (Recorded.pushSlot slot.toInt) (Machine.pushSlot slot) :=
  bind (readSlot slot) push

theorem popSlot (slot : Slot) : Records (Recorded.popSlot slot.toInt) (Machine.popSlot slot) := by
  refine bind (readSlot slot) fun _ => ?_
  exact bind pop (writeSlot slot)

theorem applyUnary (op : UnaryOp) :
    Records (Recorded.applyUnary op) (Machine.applyUnary op) :=
  bind pop fun _ => push _

theorem applyBinary (op : BinaryOp) :
    Records (Recorded.applyBinary op) (Machine.applyBinary op) := by
  refine bind (peek 2) fun _ => ?_
  refine bind pop fun right => ?_
  refine bind pop fun left => ?_
  cases op.apply left right with
  | ok value => exact push value
  | error fault => exact throw fault

theorem number_bind {k : Int → Recorded Unit} {l : Slot → Action Unit} {slot : Slot}
    {part whole : Int} (hk : ∀ slot : Slot, Records (k slot.toInt) (l slot))
    (hslot : slot.toInt = whole) (hpart : (Access.number part).Fits)
    (hwhole : (Access.number whole).Fits) :
    Records (Recorded.note [.number part, .number whole] >>= fun _ => k whole) (l slot) := by
  refine note_bind ?_ (hslot ▸ hk slot)
  intro access haccess
  simp only [List.mem_cons, List.not_mem_nil, or_false] at haccess
  rcases haccess with rfl | rfl
  · exact hpart
  · exact hwhole

theorem localSlot_bind {k : Int → Recorded Unit} {l : Slot → Action Unit}
    (hk : ∀ slot : Slot, Records (k slot.toInt) (l slot)) (framePointer : UInt8)
    (parameter : Word) :
    Records (Recorded.localSlot framePointer parameter >>= k)
      (l (Machine.localSlot framePointer parameter)) := by
  have hframe := framePointer.toNat_lt
  have hparameter := parameter.toNat_lt
  exact number_bind hk (toInt_localSlot framePointer parameter)
    ⟨by omega, by omega⟩ ⟨by omega, by omega⟩

theorem argumentSlot_bind {k : Int → Recorded Unit} {l : Slot → Action Unit}
    (hk : ∀ slot : Slot, Records (k slot.toInt) (l slot)) (framePointer : UInt8)
    (parameter : Word) :
    Records (Recorded.argumentSlot framePointer parameter >>= k)
      (l (Machine.argumentSlot framePointer parameter)) := by
  have hframe := framePointer.toNat_lt
  have hparameter := parameter.toNat_lt
  exact number_bind hk (toInt_argumentSlot framePointer parameter)
    ⟨by omega, by omega⟩ ⟨by omega, by omega⟩

theorem execute (opcode : Opcode) (parameter next : Word) :
    Records (Recorded.execute opcode parameter next) (Machine.execute opcode parameter next) := by
  cases opcode with
  | jump => exact change (h := fun m => { m with ip := some parameter }) fun _ hm => hm
  | setResult => exact change (h := fun m => { m with result := parameter }) fun _ hm => hm
  | pushResultOrFrame =>
      by_cases hzero : parameter = 0
      · subst parameter
        exact look_bind fun m => push m.result
      · by_cases hone : parameter = 1
        · subst parameter
          exact enterFrame next
        · simp only [Recorded.execute, Machine.execute]
          exact throw _
  | push => exact push parameter
  | push2 => exact push parameter
  | pushVariable =>
      simp only [Recorded.execute, Machine.execute]
      cases variableIndex? parameter.toNat with
      | none => exact throw _
      | some i => exact look_bind fun m => push _
  | pushLocal => exact look_bind fun m => localSlot_bind pushSlot m.framePointer parameter
  | pushArgument => exact look_bind fun m => argumentSlot_bind pushSlot m.framePointer parameter
  | popResultOrFrame =>
      by_cases hzero : parameter = 0
      · subst parameter
        exact bind pop fun value => change (h := fun m => { m with result := value }) fun _ hm => hm
      · by_cases hone : parameter = 1
        · subst parameter
          exact leaveFrame
        · simp only [Recorded.execute, Machine.execute]
          exact throw _
  | popVariable =>
      simp only [Recorded.execute, Machine.execute]
      cases variableIndex? parameter.toNat with
      | none => exact throw _
      | some i => exact bind pop fun value => setVariable i value
  | popLocal => exact look_bind fun m => localSlot_bind popSlot m.framePointer parameter
  | popArgument => exact look_bind fun m => argumentSlot_bind popSlot m.framePointer parameter
  | rewind => exact rewind parameter
  | forward => exact forward parameter
  | function => exact pure ()
  | jumpIfZero =>
      refine bind (peek 1) fun _ => ?_
      refine bind pop fun value => ?_
      by_cases hzero : value = 0
      · rw [if_pos hzero, if_pos hzero]
        exact change fun _ hm => hm
      · rw [if_neg hzero, if_neg hzero]
        exact pure ()
  | unary =>
      simp only [Recorded.execute, Machine.execute]
      cases UnaryOp.ofSelector? parameter with
      | none => exact throw _
      | some op => exact applyUnary op
  | binary =>
      simp only [Recorded.execute, Machine.execute]
      cases BinaryOp.ofSelector? parameter with
      | none => exact throw _
      | some op => exact applyBinary op
  | ret => exact leaveSubroutine

end Records

end EntityScript.Machine

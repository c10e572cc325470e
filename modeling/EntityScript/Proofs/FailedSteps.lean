import EntityScript.Proofs.Dispatch
import EntityScript.Proofs.Forgetting

namespace EntityScript

namespace Machine

/-- An operation that changes nothing when it fails. -/
def Atomic {α : Type} (f : Action α) : Prop :=
  ∀ ⦃m : Machine⦄ ⦃e : Fault⦄ ⦃m' : Machine⦄, m.InBounds → f m = .error e m' → m' = m

namespace Atomic

variable {α β : Type}

theorem of_endState {f : Action α} (hf : ∀ m, endState (f m) = m) : Atomic f := by
  intro m e m' _ h
  have hend := hf m
  rw [h] at hend
  exact hend

theorem modify (h : Machine → Machine) : Atomic (modify h : Action Unit) := by
  intro m e m' _ hfail
  cases hfail

theorem bind_read {f : Action α} {k : α → Action β} (hf : ∀ m, endState (f m) = m)
    (hk : ∀ a, Atomic (k a)) : Atomic (f >>= k) := by
  intro m e m' hm h
  have hend := hf m
  cases hresult : f m with
  | error fault s =>
      rw [hresult] at hend
      rw [bind_error hresult] at h
      cases h
      exact hend
  | ok a s =>
      rw [hresult] at hend
      obtain rfl : s = m := hend
      rw [bind_ok hresult] at h
      exact hk a hm h

theorem bind_total {f : Action α} {k : α → Action β} (hf : Atomic f)
    (hk : ∀ a m, ∃ b m', k a m = .ok b m') : Atomic (f >>= k) := by
  intro m e m' hm h
  cases hresult : f m with
  | error fault s =>
      rw [bind_error hresult] at h
      cases h
      exact hf hm hresult
  | ok a s =>
      obtain ⟨b, s', hnext⟩ := hk a s
      rw [bind_ok hresult, hnext] at h
      cases h

theorem push (value : Word) : Atomic (Machine.push value) := by
  intro m e m' hm h
  rcases Nat.eq_zero_or_pos m.stackPointer.toNat with hzero | hpos
  · rw [push_full hzero] at h
    cases h
    rfl
  · rw [push_ok hm hpos] at h
    cases h

theorem pop : Atomic Machine.pop := by
  intro m e m' _ h
  rcases Nat.lt_or_ge m.stackPointer.toNat stackSize with hlt | hge
  · rw [pop_ok hlt] at h
    cases h
  · rw [pop_empty hge] at h
    cases h
    rfl

theorem shift (amount : Int32) : Atomic (Machine.shift amount) := by
  intro m e m' _ h
  simp only [Machine.shift] at h
  split at h
  · cases h
  · cases h
    rfl

theorem enterFrame (next : Word) : Atomic (Machine.enterFrame next) := by
  intro m e m' hm h
  rcases Nat.lt_or_ge m.stackPointer.toNat 2 with hlt | hge
  · rw [enterFrame_full hlt] at h
    cases h
    rfl
  · rw [enterFrame_ok hm hge] at h
    cases h

theorem leaveFrame : Atomic Machine.leaveFrame := by
  intro m e m' _ h
  rcases Nat.lt_or_ge stackSize (m.stackPointer.toNat + 2) with hlt | hge
  · rw [leaveFrame_short hlt] at h
    cases h
    rfl
  · rw [leaveFrame_ok hge] at h
    cases h

theorem leaveSubroutine : Atomic Machine.leaveSubroutine := by
  intro m e m' _ h
  rcases Nat.lt_or_ge stackSize (m.stackPointer.toNat + 2) with hlt | hge
  · rw [leaveSubroutine_short hlt] at h
    cases h
    rfl
  · rw [leaveSubroutine_ok hge] at h
    cases h

theorem pushSlot (slot : Slot) : Atomic (Machine.pushSlot slot) :=
  bind_read (endState_readSlot slot) push

theorem popSlot (slot : Slot) : Atomic (Machine.popSlot slot) := by
  intro m e m' _ h
  cases hslot : slotIndex? slot with
  | none =>
      rw [popSlot_outside hslot] at h
      cases h
      rfl
  | some i =>
      rcases Nat.lt_or_ge m.stackPointer.toNat stackSize with hlt | hge
      · rw [popSlot_ok hslot hlt] at h
        cases h
      · rw [popSlot_empty hslot hge] at h
        cases h
        rfl

theorem applyUnary (op : UnaryOp) : Atomic (Machine.applyUnary op) := by
  intro m e m' _ h
  rcases Nat.lt_or_ge m.stackPointer.toNat stackSize with hlt | hge
  · rw [applyUnary_ok op hlt] at h
    cases h
  · rw [applyUnary_empty op hge] at h
    cases h
    rfl

end Atomic

theorem applyBinary_error {op : BinaryOp} {m m' : Machine} {fault : Fault}
    (h : applyBinary op m = .error fault m') :
    fault = .divisionByZero ∧ m.stackPointer.toNat + 2 ≤ stackSize ∧ m' = m.popped 2 ∨ m' = m := by
  rcases Nat.lt_or_ge stackSize (m.stackPointer.toNat + 2) with hlt | hge
  · rw [applyBinary_short op hlt] at h
    cases h
    exact .inr rfl
  · rw [applyBinary_two op hge] at h
    cases hvalue : op.apply m.stack[m.stackPointer.toNat + 1] m.stack[m.stackPointer.toNat] with
    | ok value =>
        rw [hvalue] at h
        cases h
    | error e =>
        rw [hvalue] at h
        cases h
        exact .inl ⟨BinaryOp.eq_divisionByZero hvalue, hge, rfl⟩

theorem Atomic.execute {opcode : Opcode} (hbinary : opcode ≠ .binary) (parameter next : Word) :
    Atomic (execute opcode parameter next) := by
  have hinvalid : Atomic (throw (.invalidParameter opcode parameter) : Action Unit) :=
    of_endState fun _ => rfl
  have hget (k : Machine → Action Unit) (hk : ∀ m, Atomic (k m)) : Atomic (get >>= k) :=
    bind_read (fun _ => rfl) hk
  cases opcode with
  | jump => exact modify _
  | setResult => exact modify _
  | pushResultOrFrame =>
      simp only [Machine.execute]
      split
      · exact hget _ fun m => push _
      · exact enterFrame next
      · exact hinvalid
  | push => exact push parameter
  | push2 => exact push parameter
  | pushVariable =>
      simp only [Machine.execute]
      split
      · exact hget _ fun m => push _
      · exact hinvalid
  | pushLocal => exact hget _ fun m => pushSlot _
  | pushArgument => exact hget _ fun m => pushSlot _
  | popResultOrFrame =>
      simp only [Machine.execute]
      split
      · exact bind_total pop fun value m => ⟨_, _, rfl⟩
      · exact leaveFrame
      · exact hinvalid
  | popVariable =>
      simp only [Machine.execute]
      split
      · exact bind_total pop fun value m => ⟨_, _, rfl⟩
      · exact hinvalid
  | popLocal => exact hget _ fun m => popSlot _
  | popArgument => exact hget _ fun m => popSlot _
  | rewind => exact shift _
  | forward => exact shift _
  | function => exact of_endState fun _ => rfl
  | jumpIfZero =>
      refine bind_read (endState_peek 1) fun _ => bind_total pop fun value m => ?_
      split
      · exact ⟨_, _, rfl⟩
      · exact ⟨_, _, rfl⟩
  | unary =>
      simp only [Machine.execute]
      split
      · exact applyUnary _
      · exact hinvalid
  | binary => exact absurd rfl hbinary
  | ret => exact leaveSubroutine

theorem execute_error {opcode : Opcode} {parameter next : Word} {m m' : Machine} {fault : Fault}
    (hm : m.InBounds) (h : execute opcode parameter next m = .error fault m') :
    opcode = .binary ∧ fault = .divisionByZero ∧ m.stackPointer.toNat + 2 ≤ stackSize ∧
        m' = m.popped 2 ∨
      m' = m := by
  by_cases hbinary : opcode = .binary
  · subst opcode
    simp only [execute] at h
    cases hop : BinaryOp.ofSelector? parameter with
    | none =>
        rw [hop] at h
        cases h
        exact .inr rfl
    | some op =>
        rw [hop] at h
        rcases applyBinary_error h with hdivision | hsame
        · exact .inl ⟨rfl, hdivision⟩
        · exact .inr hsame
  · exact .inr (Atomic.execute hbinary parameter next hm h)

end Machine

namespace Actor

variable {ω : Type} [Owner ω] {a : Actor ω} {table : NativeTable ω} {fault : Fault}

/-- A fault finds the machine as the native function that raised it left it, or without the operands
of a division by zero, or unchanged. -/
theorem failed_step (hm : a.engine.machine.InBounds)
    (h : (a.step table).value = .error fault) :
    ((∃ parameter next native done,
        a.operation? = some (.function, parameter, next) ∧
        table.get? (parameter &&& 0xFF) = some native ∧
        native a.site (a.opened next) = .error fault done ∧
        (a.step table).after.engine.machine = { done.machine with ip := none } ∧
        (a.step table).after.owner = done.owner) ∨
      ((∃ parameter next, a.operation? = some (.binary, parameter, next)) ∧
        fault = .divisionByZero ∧
        a.engine.machine.stackPointer.toNat + 2 ≤ stackSize ∧
        (a.step table).after.engine.machine = { a.engine.machine.popped 2 with ip := none } ∧
        (a.step table).after.owner = a.owner) ∨
      ((a.step table).after.engine.machine = { a.engine.machine with ip := none } ∧
        (a.step table).after.owner = a.owner)) ∧
    (a.step table).after.engine.halted = true ∧
    (a.step table).after.engine.report.halts = a.engine.report.halts + 1 := by
  rcases step_error h with
    ⟨parameter, next, done, hoperation, hcall, hafter⟩ |
    ⟨opcode, parameter, next, m, hoperation, hrun, hafter⟩ | hafter
  · rw [hafter]
    refine ⟨?_, rfl, rfl⟩
    cases hnative : table.get? (parameter &&& 0xFF) with
    | none =>
        rw [call_unbound hnative] at hcall
        cases hcall
        exact .inr (.inr ⟨rfl, rfl⟩)
    | some native =>
        rw [call_bound hnative] at hcall
        exact .inl ⟨parameter, next, native, done, hoperation, hnative, hcall, rfl, rfl⟩
  · rw [hafter]
    refine ⟨?_, rfl, rfl⟩
    have hbegun : (a.begun next).InBounds := hm
    -- Halting clears the instruction pointer, which fetching had moved already.
    rcases Machine.execute_error hbegun hrun with ⟨rfl, hdivision, htwo, rfl⟩ | rfl
    · exact .inr (.inl ⟨⟨parameter, next, hoperation⟩, hdivision, htwo, rfl, rfl⟩)
    · exact .inr (.inr ⟨rfl, rfl⟩)
  · rw [hafter]
    exact ⟨.inr (.inr ⟨rfl, rfl⟩), rfl, rfl⟩

theorem failed_step_division :
    let m : Machine := { ip := some 0, stackPointer := 13, stack := .replicate stackSize 0 }
    let a : Actor Unit := ⟨{ program := { words := #[0x510B] }, machine := m }, ()⟩
    let after := (a.step (.empty .unknown)).after
    (after.engine.machine = { m.popped 2 with ip := none } ∨
        after.engine.machine = { m with ip := none }) ∧
      after.engine.halted = true ∧ after.engine.report.halts = 1 := by
  intro m a after
  have hvalue : (a.step (.empty .unknown)).value = .error .divisionByZero := by cbv
  obtain ⟨hmachine, hhalt⟩ :=
    failed_step (a := a) (by decide) hvalue
  refine ⟨?_, hhalt⟩
  rcases hmachine with ⟨_, _, _, _, hfunction, _⟩ | ⟨_, _, _, hpopped, _⟩ | ⟨hsame, _⟩
  · have hbinary : a.operation? = some (.binary, 11, 1) := by cbv
    rw [hbinary] at hfunction
    cases hfunction
  · exact .inl hpopped
  · exact .inr hsame

end Actor

end EntityScript

import EntityScript.Machine.Execute
import Mathlib

/-!
What the operations do while the stack pointer is in bounds: one lemma for success and one for
failure.  Later proofs open no operation.
-/

namespace EntityScript

namespace Slot

theorem ofByte_eq_ofInt (b : UInt8) : ofByte b = Int32.ofInt b.toNat := by
  rw [← toInt_ofByte, Int32.ofInt_toInt]

theorem ofWord_eq_ofInt (w : Word) : ofWord w = Int32.ofInt w.toNat := by
  rw [← toInt_ofWord, Int32.ofInt_toInt]

theorem toInt_ofInt {n : Int} (hlow : -2147483648 ≤ n) (hhigh : n < 2147483648) :
    (Int32.ofInt n : Slot).toInt = n :=
  Int32.toInt_ofInt_of_le (by simpa using hlow) (by simpa using hhigh)

end Slot

theorem BinaryOp.eq_divisionByZero {op : BinaryOp} {left right : Word} {fault : Fault}
    (h : op.apply left right = .error fault) : fault = .divisionByZero := by
  cases op with
  | divide | modulo =>
      simp only [apply] at h
      split at h
      · exact (Except.error.inj h).symm
      · cases h
  | _ => cases h

namespace Machine

/-- The stack pointer is at most that of an empty stack. -/
def InBounds (m : Machine) : Prop :=
  m.stackPointer.toNat ≤ stackSize

instance (m : Machine) : Decidable m.InBounds :=
  inferInstanceAs (Decidable (_ ≤ _))

/-- The machine after a value was pushed. -/
def pushed (m : Machine) (value : Word) : Machine :=
  { m with
    stackPointer := m.stackPointer - 1
    stack := m.stack.setIfInBounds (m.stackPointer.toNat - 1) value }

/-- The machine after values were popped. -/
def popped (m : Machine) (count : UInt8) : Machine :=
  { m with stackPointer := m.stackPointer + count }

def entered (m : Machine) (ip entry : Word) : Machine :=
  { (m.pushed ip).pushed m.result with inSubroutine := true, ip := some entry }

/-- The state that an operation leaves behind, whether or not it succeeds. -/
def endState {ε σ α : Type} : EStateM.Result ε σ α → σ
  | .ok _ s | .error _ s => s

section Byte

theorem ofInt_natCast (n : Nat) : UInt8.ofInt n = UInt8.ofNat n := by
  apply UInt8.toNat_inj.1
  simp [UInt8.ofInt]
  omega

theorem ofInt_toNat (b : UInt8) : UInt8.ofInt b.toNat = b := by
  rw [ofInt_natCast, UInt8.ofNat_toNat]

theorem ofInt_toNat_sub_one (b : UInt8) : UInt8.ofInt (b.toNat - 1) = b - 1 := by
  rw [Int.sub_eq_add_neg, UInt8.ofInt_add, ofInt_toNat, UInt8.sub_eq_add_neg]
  rfl

theorem toNat_ofInt {n : Int} (hlow : 0 ≤ n) (hhigh : n < 256) :
    ((UInt8.ofInt n).toNat : Int) = n := by
  lift n to Nat using hlow
  have hbyte : n < UInt8.size := Nat.lt_of_lt_of_le (m := 256) (by omega) (by decide)
  rw [ofInt_natCast, UInt8.toNat_ofNat_of_lt' hbyte]

end Byte

section Pointer

variable {m : Machine} {n : UInt8}

theorem stackPointer_pushed (value : Word) (h : 0 < m.stackPointer.toNat) :
    (m.pushed value).stackPointer.toNat = m.stackPointer.toNat - 1 := by
  have hle : (1 : UInt8) ≤ m.stackPointer := by
    rw [UInt8.le_iff_toNat_le]
    exact h
  exact UInt8.toNat_sub_of_le _ _ hle

theorem stackPointer_popped (h : m.stackPointer.toNat + n.toNat ≤ stackSize) :
    (m.popped n).stackPointer.toNat = m.stackPointer.toNat + n.toNat := by
  unfold stackSize at h
  rw [popped, UInt8.toNat_add]
  omega

theorem popped_popped (m : Machine) (first second : UInt8) :
    (m.popped first).popped second = m.popped (first + second) := by
  simp [popped, UInt8.add_assoc]

theorem InBounds.pushed (hm : m.InBounds) (value : Word) (h : 0 < m.stackPointer.toNat) :
    (m.pushed value).InBounds := by
  have := stackPointer_pushed value h
  unfold InBounds at *
  omega

end Pointer

section Pushed

variable {m : Machine}

theorem getElem?_stack_pushed (hm : m.InBounds) (h : 0 < m.stackPointer.toNat) (value : Word) :
    (m.pushed value).stack[m.stackPointer.toNat - 1]? = some value := by
  unfold InBounds at hm
  exact Vector.getElem?_setIfInBounds_self_of_lt (by omega)

theorem getElem?_stack_pushed_above (h : 0 < m.stackPointer.toNat) (value : Word) {i : Nat}
    (hi : m.stackPointer.toNat ≤ i) : (m.pushed value).stack[i]? = m.stack[i]? :=
  Vector.getElem?_setIfInBounds_ne (by omega)

theorem pushed_pushed (hm : m.InBounds) (h : 2 ≤ m.stackPointer.toNat) (first second : Word) :
    ((m.pushed first).pushed second).stackPointer.toNat = m.stackPointer.toNat - 2 ∧
      ((m.pushed first).pushed second).stack[m.stackPointer.toNat - 2]? = some second ∧
        ((m.pushed first).pushed second).stack[m.stackPointer.toNat - 1]? = some first ∧
          ∀ i, m.stackPointer.toNat ≤ i →
            ((m.pushed first).pushed second).stack[i]? = m.stack[i]? := by
  have hpos : 0 < m.stackPointer.toNat := by omega
  have htop := stackPointer_pushed first hpos
  have hm' := hm.pushed first hpos
  have hpos' : 0 < (m.pushed first).stackPointer.toNat := by omega
  refine ⟨?_, ?_, ?_, ?_⟩
  · rw [stackPointer_pushed second hpos', htop]
    rfl
  · have hsecond := getElem?_stack_pushed hm' hpos' second
    rwa [htop] at hsecond
  · rw [getElem?_stack_pushed_above hpos' second (by omega), getElem?_stack_pushed hm hpos]
  · intro i hi
    rw [getElem?_stack_pushed_above hpos' second (by omega),
      getElem?_stack_pushed_above hpos first hi]

end Pushed

section Values

variable {m : Machine}

theorem stackPointer_add_length (hm : m.InBounds) :
    m.stackPointer.toNat + m.values.length = stackSize := by
  rw [length_values, depth]
  exact Nat.add_sub_cancel' hm

theorem getElem?_values (k : Nat) : m.values[k]? = m.stack[m.stackPointer.toNat + k]? := by
  rw [values, List.getElem?_drop, Vector.getElem?_toList]

theorem values_pushed (hm : m.InBounds) (h : 0 < m.stackPointer.toNat) (value : Word) :
    (m.pushed value).values = value :: m.values := by
  have htop := stackPointer_pushed value h
  apply List.ext_getElem?
  intro k
  rw [getElem?_values, htop]
  cases k with
  | zero => exact getElem?_stack_pushed hm h value
  | succ k =>
      have hindex : m.stackPointer.toNat - 1 + (k + 1) = m.stackPointer.toNat + k := by omega
      rw [List.getElem?_cons_succ, getElem?_values, hindex]
      exact getElem?_stack_pushed_above h value (by omega)

theorem values_popped (h : m.stackPointer.toNat < stackSize) :
    m.values = m.stack[m.stackPointer.toNat] :: (m.popped 1).values := by
  have htop : (m.popped 1).stackPointer.toNat = m.stackPointer.toNat + 1 :=
    stackPointer_popped (n := 1) (by simp; omega)
  rw [values, List.drop_eq_getElem_cons (by simpa using h), values, htop]
  rfl

theorem values_moved {top : UInt8} {count : Nat} (h : top.toNat = m.stackPointer.toNat + count) :
    values { m with stackPointer := top } = m.values.drop count := by
  rw [values, values, List.drop_drop, h]

end Values

section Sequence

variable {ε σ α β : Type} {f : EStateM ε σ α} {g : α → EStateM ε σ β} {s s' : σ}

theorem bind_ok {a : α} (h : f s = .ok a s') : (f >>= g) s = g a s' := by
  change EStateM.bind f g s = _
  rw [EStateM.bind, h]

theorem bind_error {e : ε} (h : f s = .error e s') : (f >>= g) s = .error e s' := by
  change EStateM.bind f g s = _
  rw [EStateM.bind, h]

variable {m : Machine}

theorem get_bind (k : Machine → Action β) : (get >>= k) m = k m m :=
  rfl

theorem modify_bind (change : Machine → Machine) (k : PUnit → Action β) :
    (modify change >>= k) m = k () (change m) :=
  rfl

theorem modify_ok (change : Machine → Machine) :
    (modify change : Action Unit) m = .ok () (change m) :=
  rfl

end Sequence

theorem set_eq_setIfInBounds {n : Nat} (values : Vector Word n) {i : Nat} (h : i < n)
    (value : Word) : values.set i value h = values.setIfInBounds i value := by
  ext j hj
  simp [Vector.getElem_set, Vector.getElem_setIfInBounds]

theorem setVariable_eq (i : Fin variableCount) (value : Word) :
    setVariable i value = modify fun m => { m with vars := m.vars.setIfInBounds i value } := by
  simp only [setVariable, set_eq_setIfInBounds]

section Primitive

variable {m : Machine}

theorem push_ok (hm : m.InBounds) (h : 0 < m.stackPointer.toNat) (value : Word) :
    push value m = .ok () (m.pushed value) := by
  have hne : m.stackPointer ≠ 0 := by
    intro hzero
    simp [hzero] at h
  have htop : (m.stackPointer - 1).toNat = m.stackPointer.toNat - 1 := stackPointer_pushed value h
  have hlt : (m.stackPointer - 1).toNat < stackSize := by
    unfold InBounds at hm
    omega
  rw [push, if_neg hne, dif_pos hlt, pushed, set_eq_setIfInBounds]
  simp only [htop]

theorem push_full (h : m.stackPointer.toNat = 0) (value : Word) :
    push value m = .error (m.overflow (-1)) m := by
  have hzero : m.stackPointer = 0 := UInt8.toNat_inj.1 h
  rw [push, if_pos hzero]

theorem push_stray (h : stackSize < m.stackPointer.toNat) (value : Word) :
    push value m = .error (.strayPointer (m.stackPointer - 1)) m := by
  have hne : m.stackPointer ≠ 0 := by
    intro hzero
    simp [hzero] at h
  have htop : (m.stackPointer - 1).toNat = m.stackPointer.toNat - 1 :=
    stackPointer_pushed value (Nat.zero_lt_of_lt h)
  rw [push, if_neg hne, dif_neg (by omega)]

theorem pop_ok (h : m.stackPointer.toNat < stackSize) :
    pop m = .ok m.stack[m.stackPointer.toNat] (m.popped 1) := by
  rw [pop, dif_pos h, popped]

theorem pop_empty (h : stackSize ≤ m.stackPointer.toNat) :
    pop m = .error (m.overflow (.ofByte m.stackPointer)) m := by
  rw [pop, dif_neg (by omega)]

theorem slotIndex?_ok {slot : Slot} {i : Nat} (hslot : slot.toInt = i) (hi : i < stackSize) :
    slotIndex? slot = some ⟨i, hi⟩ := by
  rw [slotIndex?, dif_pos (by omega)]
  simp [hslot]

theorem slotIndex?_eq_none_iff {slot : Slot} :
    slotIndex? slot = none ↔ ¬(0 ≤ slot.toInt ∧ slot.toInt < stackSize) := by
  unfold slotIndex?
  split
  · simpa only [reduceCtorEq, false_iff, not_not]
  · simpa only [true_iff]

theorem readSlot_ok {slot : Slot} {i : Fin stackSize} (h : slotIndex? slot = some i) :
    readSlot slot m = .ok (m.stack.get i) m := by
  rw [readSlot, h]
  rfl

theorem readSlot_outside {slot : Slot} (h : slotIndex? slot = none) :
    readSlot slot m = .error (m.overflow slot) m := by
  rw [readSlot, h]

theorem writeSlot_ok {slot : Slot} {i : Fin stackSize} (h : slotIndex? slot = some i)
    (value : Word) :
    writeSlot slot value m = .ok () { m with stack := m.stack.setIfInBounds i value } := by
  rw [writeSlot, h]
  simp only [set_eq_setIfInBounds]

theorem peekSlot_eq (n : UInt8) :
    Slot.ofByte m.stackPointer + .ofByte n - 1 =
      Int32.ofInt (m.stackPointer.toNat + n.toNat - 1) := by
  rw [Int32.ofInt_sub, Int32.ofInt_add, ← Slot.ofByte_eq_ofInt, ← Slot.ofByte_eq_ofInt]
  rfl

theorem toInt_peekSlot (n : UInt8) :
    (Slot.ofByte m.stackPointer + .ofByte n - 1).toInt =
      m.stackPointer.toNat + n.toNat - 1 := by
  have hsp := m.stackPointer.toNat_lt
  have hn := n.toNat_lt
  rw [peekSlot_eq, Slot.toInt_ofInt (by omega) (by omega)]

theorem peek_ok {n : UInt8} (hn : 0 < n.toNat) (h : m.stackPointer.toNat + n.toNat ≤ stackSize) :
    peek n m = .ok m.stack[m.stackPointer.toNat + n.toNat - 1] m := by
  have hne : n ≠ 0 := by
    intro hzero
    simp [hzero] at hn
  have hindex : slotIndex? (Slot.ofByte m.stackPointer + .ofByte n - 1) =
      some ⟨m.stackPointer.toNat + n.toNat - 1, by omega⟩ := by
    apply slotIndex?_ok
    rw [toInt_peekSlot]
    omega
  simp only [peek, if_neg hne]
  exact readSlot_ok hindex

theorem peek_short {n : UInt8} (h : stackSize < m.stackPointer.toNat + n.toNat) :
    peek n m = .error (m.overflow (.ofByte m.stackPointer + .ofByte n - 1)) m := by
  have hindex : slotIndex? (Slot.ofByte m.stackPointer + .ofByte n - 1) = none := by
    rw [slotIndex?_eq_none_iff, toInt_peekSlot]
    omega
  simp only [peek]
  split
  · rfl
  · exact readSlot_outside hindex

theorem peek_zero : peek 0 m = .error (m.overflow (.ofByte m.stackPointer + .ofByte 0 - 1)) m :=
  rfl

theorem endState_readSlot (slot : Slot) (m : Machine) : endState (readSlot slot m) = m := by
  rw [readSlot]
  split <;> rfl

theorem endState_peek (n : UInt8) (m : Machine) : endState (peek n m) = m := by
  simp only [peek]
  split
  · rfl
  · exact endState_readSlot _ m

theorem requireTwoSlots_ok (h : 2 ≤ m.stackPointer.toNat) : requireTwoSlots m = .ok () m := by
  have hle : ¬m.stackPointer < 2 := by
    rw [UInt8.lt_iff_toNat_lt]
    exact Nat.not_lt.2 h
  rw [requireTwoSlots, if_neg hle]

theorem requireTwoSlots_full (h : m.stackPointer.toNat < 2) :
    requireTwoSlots m = .error (m.overflow (.ofByte m.stackPointer - 2)) m := by
  have hlt : m.stackPointer < 2 := by
    rw [UInt8.lt_iff_toNat_lt]
    exact h
  rw [requireTwoSlots, if_pos hlt]

end Primitive

section Shift

variable {m : Machine} {amount : Int32}

theorem signed_bounds (w : Word) : -32768 ≤ w.signed.toInt ∧ w.signed.toInt < 32768 := by
  rw [Word.signed, Int16.toInt_toInt32]
  exact ⟨w.toInt16.le_toInt, w.toInt16.toInt_lt⟩

theorem toInt_neg_signed (w : Word) : (-w.signed).toInt = -w.signed.toInt := by
  have hbounds := signed_bounds w
  conv_lhs => rw [← Int32.ofInt_toInt w.signed, ← Int32.ofInt_neg]
  exact Slot.toInt_ofInt (by omega) (by omega)

theorem shiftTarget_eq :
    Slot.ofByte m.stackPointer + amount = Int32.ofInt (m.stackPointer.toNat + amount.toInt) := by
  rw [Int32.ofInt_add, ← Slot.ofByte_eq_ofInt, Int32.ofInt_toInt]

theorem toInt_shiftTarget (hlow : -32768 ≤ amount.toInt) (hhigh : amount.toInt ≤ 32768) :
    (Slot.ofByte m.stackPointer + amount).toInt = m.stackPointer.toNat + amount.toInt := by
  have hsp := m.stackPointer.toNat_lt
  rw [shiftTarget_eq, Slot.toInt_ofInt (by omega) (by omega)]

theorem toUInt8_eq_ofInt {slot : Slot} (hlow : 0 ≤ slot.toInt) :
    slot.toUInt32.toUInt8 = UInt8.ofInt slot.toInt := by
  have hle : (0 : Int32) ≤ slot := Int32.le_iff_toInt_le.2 hlow
  rw [← Int32.cast_toNatClampNeg slot hle, ofInt_natCast]
  apply UInt8.toNat_inj.1
  rw [UInt32.toNat_toUInt8, Int32.toNat_toUInt32_of_le hle, UInt8.toNat_ofNat']

theorem shift_ok (hlow : -32768 ≤ amount.toInt) (hhigh : amount.toInt ≤ 32768)
    (hzero : 0 ≤ m.stackPointer.toNat + amount.toInt)
    (hsize : m.stackPointer.toNat + amount.toInt ≤ stackSize) :
    shift amount m =
      .ok () { m with stackPointer := .ofInt (m.stackPointer.toNat + amount.toInt) } := by
  have htarget := toInt_shiftTarget (m := m) hlow hhigh
  have hrange : 0 ≤ Slot.ofByte m.stackPointer + amount ∧
      Slot.ofByte m.stackPointer + amount ≤ 15 := by
    rw [Int32.le_iff_toInt_le, Int32.le_iff_toInt_le, htarget]
    exact ⟨hzero, hsize⟩
  simp only [shift]
  rw [if_pos hrange, toUInt8_eq_ofInt (by omega), htarget]

theorem shift_outside (hlow : -32768 ≤ amount.toInt) (hhigh : amount.toInt ≤ 32768)
    (h : ¬(0 ≤ m.stackPointer.toNat + amount.toInt ∧
      m.stackPointer.toNat + amount.toInt ≤ stackSize)) :
    shift amount m = .error (m.overflow (.ofByte m.stackPointer + amount)) m := by
  have htarget := toInt_shiftTarget (m := m) hlow hhigh
  have hrange : ¬(0 ≤ Slot.ofByte m.stackPointer + amount ∧
      Slot.ofByte m.stackPointer + amount ≤ 15) := by
    rw [Int32.le_iff_toInt_le, Int32.le_iff_toInt_le, htarget]
    exact h
  simp only [shift]
  rw [if_neg hrange]

end Shift

section Frame

variable {m : Machine}

theorem enterFrame_ok (hm : m.InBounds) (h : 2 ≤ m.stackPointer.toNat) (next : Word) :
    enterFrame next m = .ok ()
      { (m.pushed (next + 1)).pushed m.framePointer.toUInt16 with
        framePointer := m.stackPointer } := by
  have hfirst := stackPointer_pushed (m := m) (next + 1) (by omega)
  have hm' : (m.pushed (next + 1)).InBounds := hm.pushed (next + 1) (by omega)
  have hbase : m.stackPointer - 1 - 1 + 2 = m.stackPointer := by
    rw [show (2 : UInt8) = 1 + 1 from rfl, ← UInt8.add_assoc, UInt8.sub_add_cancel,
      UInt8.sub_add_cancel]
  rw [enterFrame, bind_ok (requireTwoSlots_ok h), bind_ok (push_ok hm (by omega) (next + 1)),
    get_bind, bind_ok (push_ok hm' (by omega) _), modify_ok]
  simp [pushed, hbase]

theorem enterFrame_full (h : m.stackPointer.toNat < 2) (next : Word) :
    enterFrame next m = .error (m.overflow (.ofByte m.stackPointer - 2)) m := by
  rw [enterFrame, bind_error (requireTwoSlots_full h)]

theorem enterFrame_stray (h : stackSize < m.stackPointer.toNat) (next : Word) :
    enterFrame next m = .error (.strayPointer (m.stackPointer - 1)) m := by
  have htwo : 2 ≤ m.stackPointer.toNat := Nat.le_trans (by decide) (Nat.le_of_lt h)
  rw [enterFrame, bind_ok (requireTwoSlots_ok htwo), bind_error (push_stray h _)]

theorem leaveFrame_ok (h : m.stackPointer.toNat + 2 ≤ stackSize) :
    leaveFrame m = .ok ()
      { m.popped 2 with
        framePointer := m.stack[m.stackPointer.toNat].toUInt8
        ip := some m.stack[m.stackPointer.toNat + 1] } := by
  have hfirst : (m.popped 1).stackPointer.toNat = m.stackPointer.toNat + 1 :=
    stackPointer_popped (n := 1) (by simp; omega)
  have hpeek := peek_ok (m := m) (n := 2) (by decide) h
  rw [leaveFrame, bind_ok hpeek, bind_ok (pop_ok (by omega)), modify_bind,
    bind_ok (pop_ok (by simp; omega)), jump, modify_ok]
  simp only [hfirst]
  simp [popped, UInt8.add_assoc]

theorem leaveFrame_short (h : stackSize < m.stackPointer.toNat + 2) :
    leaveFrame m = .error (m.overflow (.ofByte m.stackPointer + .ofByte 2 - 1)) m := by
  rw [leaveFrame, bind_error (peek_short h)]

theorem leaveSubroutine_ok (h : m.stackPointer.toNat + 2 ≤ stackSize) :
    leaveSubroutine m = .ok ()
      { m.popped 2 with
        result := m.stack[m.stackPointer.toNat]
        ip := some m.stack[m.stackPointer.toNat + 1]
        inSubroutine := false } := by
  have hfirst : (m.popped 1).stackPointer.toNat = m.stackPointer.toNat + 1 :=
    stackPointer_popped (n := 1) (by simp; omega)
  have hpeek := peek_ok (m := m) (n := 2) (by decide) h
  rw [leaveSubroutine, bind_ok hpeek, bind_ok (pop_ok (by omega)), setResult, modify_bind,
    bind_ok (pop_ok (by simp; omega)), jump, modify_bind, modify_ok]
  simp only [hfirst]
  simp [popped, UInt8.add_assoc]

theorem leaveSubroutine_short (h : stackSize < m.stackPointer.toNat + 2) :
    leaveSubroutine m = .error (m.overflow (.ofByte m.stackPointer + .ofByte 2 - 1)) m := by
  rw [leaveSubroutine, bind_error (peek_short h)]

theorem leaveFrame_linked {frame next : Word} (hframe : m.stack[m.stackPointer.toNat]? = some frame)
    (hnext : m.stack[m.stackPointer.toNat + 1]? = some next) :
    leaveFrame m = .ok ()
      { m.popped 2 with framePointer := frame.toUInt8, ip := some next } := by
  obtain ⟨_, hframe⟩ := Vector.getElem?_eq_some_iff.1 hframe
  obtain ⟨hlt, hnext⟩ := Vector.getElem?_eq_some_iff.1 hnext
  rw [leaveFrame_ok (by omega), hframe, hnext]

theorem leaveSubroutine_linked {result next : Word}
    (hresult : m.stack[m.stackPointer.toNat]? = some result)
    (hnext : m.stack[m.stackPointer.toNat + 1]? = some next) :
    leaveSubroutine m = .ok ()
      { m.popped 2 with result := result, ip := some next, inSubroutine := false } := by
  obtain ⟨_, hresult⟩ := Vector.getElem?_eq_some_iff.1 hresult
  obtain ⟨hlt, hnext⟩ := Vector.getElem?_eq_some_iff.1 hnext
  rw [leaveSubroutine_ok (by omega), hresult, hnext]

end Frame

section Subroutine

variable {m : Machine} {program : Program} {subtype ip entry : Word}

theorem enterSubroutine_idle (h : m.ip = none ∨ m.inSubroutine = true) :
    enterSubroutine program subtype m = .ok () m := by
  rw [enterSubroutine, get_bind]
  cases hip : m.ip with
  | none => rfl
  | some ip =>
      rw [hip] at h
      simp only [reduceCtorEq, false_or] at h
      simp only [h, if_true]
      rfl

theorem enterSubroutine_unknown (hip : m.ip = some ip) (hactive : m.inSubroutine = false)
    (hentry : program.entry? subtype = none) :
    enterSubroutine program subtype m = .error (.unknownEntry subtype) m := by
  rw [enterSubroutine, get_bind]
  simp only [hip, hactive, hentry]
  rfl

theorem enterSubroutine_full (hip : m.ip = some ip) (hactive : m.inSubroutine = false)
    (hentry : program.entry? subtype = some entry) (h : m.stackPointer.toNat < 2) :
    enterSubroutine program subtype m = .error (m.overflow (.ofByte m.stackPointer - 2)) m := by
  rw [enterSubroutine, get_bind]
  simp only [hip, hactive, hentry, Bool.false_eq_true, if_false]
  exact bind_error (requireTwoSlots_full h)

theorem enterSubroutine_ok (hip : m.ip = some ip) (hactive : m.inSubroutine = false)
    (hentry : program.entry? subtype = some entry) (hm : m.InBounds)
    (h : 2 ≤ m.stackPointer.toNat) :
    enterSubroutine program subtype m = .ok () (m.entered ip entry) := by
  have htop := stackPointer_pushed (m := m) ip (by omega)
  have hm' : (m.pushed ip).InBounds := hm.pushed ip (by omega)
  rw [enterSubroutine, get_bind]
  simp only [hip, hactive, hentry, Bool.false_eq_true, if_false]
  rw [bind_ok (requireTwoSlots_ok h), bind_ok (push_ok hm (by omega) ip),
    bind_ok (push_ok hm' (by omega) _), modify_ok]
  rfl

theorem enterSubroutine_cases (hm : m.InBounds) (program : Program) (subtype : Word) :
    enterSubroutine program subtype m = .ok () m ∨
      (∃ fault, enterSubroutine program subtype m = .error fault m) ∨
        ∃ ip entry, 2 ≤ m.stackPointer.toNat ∧
          enterSubroutine program subtype m = .ok () (m.entered ip entry) := by
  cases hip : m.ip with
  | none => exact .inl (enterSubroutine_idle (.inl hip))
  | some ip =>
      cases hactive : m.inSubroutine with
      | true => exact .inl (enterSubroutine_idle (.inr hactive))
      | false =>
          cases hentry : program.entry? subtype with
          | none => exact .inr (.inl ⟨_, enterSubroutine_unknown hip hactive hentry⟩)
          | some entry =>
              rcases Nat.lt_or_ge m.stackPointer.toNat 2 with hlt | hge
              · exact .inr (.inl ⟨_, enterSubroutine_full hip hactive hentry hlt⟩)
              · exact .inr (.inr ⟨ip, entry, hge, enterSubroutine_ok hip hactive hentry hm hge⟩)

end Subroutine

section Slot

variable {m : Machine} {slot : Slot}

theorem toInt_localSlot (framePointer : UInt8) (parameter : Word) :
    (localSlot framePointer parameter).toInt = framePointer.toNat - parameter.toNat - 2 := by
  have hframe := framePointer.toNat_lt
  have hparameter := parameter.toNat_lt
  rw [localSlot, Slot.ofByte_eq_ofInt, Slot.ofWord_eq_ofInt, ← Int32.ofInt_sub]
  change (Int32.ofInt _ - Int32.ofInt 2).toInt = _
  rw [← Int32.ofInt_sub, Slot.toInt_ofInt (by omega) (by omega)]

theorem toInt_argumentSlot (framePointer : UInt8) (parameter : Word) :
    (argumentSlot framePointer parameter).toInt = framePointer.toNat + parameter.toNat - 1 := by
  have hframe := framePointer.toNat_lt
  have hparameter := parameter.toNat_lt
  rw [argumentSlot, Slot.ofByte_eq_ofInt, Slot.ofWord_eq_ofInt, ← Int32.ofInt_add]
  change (Int32.ofInt _ - Int32.ofInt 1).toInt = _
  rw [← Int32.ofInt_sub, Slot.toInt_ofInt (by omega) (by omega)]

theorem popSlot_ok {i : Fin stackSize} (hslot : slotIndex? slot = some i)
    (h : m.stackPointer.toNat < stackSize) :
    popSlot slot m = .ok ()
      { m.popped 1 with stack := m.stack.setIfInBounds i m.stack[m.stackPointer.toNat] } := by
  rw [popSlot, bind_ok (readSlot_ok hslot), bind_ok (pop_ok h), writeSlot_ok hslot]
  rfl

theorem popSlot_empty {i : Fin stackSize} (hslot : slotIndex? slot = some i)
    (h : stackSize ≤ m.stackPointer.toNat) :
    popSlot slot m = .error (m.overflow (.ofByte m.stackPointer)) m := by
  rw [popSlot, bind_ok (readSlot_ok hslot), bind_error (pop_empty h)]

theorem popSlot_outside (hslot : slotIndex? slot = none) :
    popSlot slot m = .error (m.overflow slot) m := by
  rw [popSlot, bind_error (readSlot_outside hslot)]

end Slot

section Arithmetic

variable {m : Machine}

theorem push_popped (h : m.stackPointer.toNat < stackSize) (value : Word) :
    push value (m.popped 1) =
      .ok () { m with stack := m.stack.setIfInBounds m.stackPointer.toNat value } := by
  have hfirst : (m.popped 1).stackPointer.toNat = m.stackPointer.toNat + 1 :=
    stackPointer_popped (n := 1) (by simp; omega)
  have hm : (m.popped 1).InBounds := by
    unfold InBounds
    omega
  rw [push_ok hm (by omega), pushed, hfirst]
  simp [popped]

theorem applyUnary_ok (op : UnaryOp) (h : m.stackPointer.toNat < stackSize) :
    applyUnary op m = .ok ()
      { m with
        stack := m.stack.setIfInBounds m.stackPointer.toNat
          (op.apply m.stack[m.stackPointer.toNat]) } := by
  rw [applyUnary, bind_ok (pop_ok h), push_popped h]

theorem applyUnary_empty (op : UnaryOp) (h : stackSize ≤ m.stackPointer.toNat) :
    applyUnary op m = .error (m.overflow (.ofByte m.stackPointer)) m := by
  rw [applyUnary, bind_error (pop_empty h)]

theorem applyBinary_two (op : BinaryOp) (h : m.stackPointer.toNat + 2 ≤ stackSize) :
    applyBinary op m =
      match op.apply m.stack[m.stackPointer.toNat + 1] m.stack[m.stackPointer.toNat] with
      | .ok value =>
          .ok ()
            { m.popped 1 with
              stack := m.stack.setIfInBounds (m.stackPointer.toNat + 1) value }
      | .error fault => .error fault (m.popped 2) := by
  have hfirst : (m.popped 1).stackPointer.toNat = m.stackPointer.toNat + 1 :=
    stackPointer_popped (n := 1) (by simp; omega)
  have hlt : (m.popped 1).stackPointer.toNat < stackSize := by omega
  have hpeek := peek_ok (m := m) (n := 2) (by decide) h
  rw [applyBinary, bind_ok hpeek, bind_ok (pop_ok (by omega)), bind_ok (pop_ok hlt)]
  simp only [hfirst]
  change (match op.apply m.stack[m.stackPointer.toNat + 1] m.stack[m.stackPointer.toNat] with
    | .ok value => push value
    | .error fault => throw fault : Action Unit) ((m.popped 1).popped 1) = _
  cases op.apply m.stack[m.stackPointer.toNat + 1] m.stack[m.stackPointer.toNat] with
  | ok value =>
      simp only
      rw [push_popped hlt, hfirst]
      rfl
  | error fault =>
      simp only [popped_popped]
      rfl

theorem applyBinary_short (op : BinaryOp) (h : stackSize < m.stackPointer.toNat + 2) :
    applyBinary op m = .error (m.overflow (.ofByte m.stackPointer + .ofByte 2 - 1)) m := by
  rw [applyBinary, bind_error (peek_short h)]

end Arithmetic

end Machine

end EntityScript

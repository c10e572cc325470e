import EntityScript.Proofs.OperationTable

namespace EntityScript

namespace Machine

/-- The slots of a stack from the topmost value on. -/
def live (m : Machine) : List Int :=
  (List.range' m.stackPointer.toNat m.depth).map Nat.cast

theorem isSlot_of_mem_live {m : Machine} {i : Int} (h : i ∈ m.live) : IsSlot i := by
  obtain ⟨n, hn, rfl⟩ := List.mem_map.1 h
  have hbounds := List.mem_range'_1.1 hn
  unfold depth at hbounds
  constructor
  · omega
  · omega

theorem mem_live {m : Machine} {i : Nat} (hlow : m.stackPointer.toNat ≤ i) (hhigh : i < stackSize) :
    (i : Int) ∈ m.live := by
  refine List.mem_map_of_mem (List.mem_range'_1.2 ⟨hlow, ?_⟩)
  unfold depth
  omega

/-- The slots that an operation may read.  A native function may read every value on the stack. -/
def reads (opcode : Opcode) (parameter : Word) (m : Machine) : List Int :=
  let pointer : Int := m.stackPointer.toNat
  let slots : List Int :=
    match opcode with
    | .pushLocal => [m.localAt parameter]
    | .pushArgument => [m.argumentAt parameter]
    | .popResultOrFrame => if parameter = 0 then [pointer] else [pointer, pointer + 1]
    | .popVariable | .popLocal | .popArgument | .jumpIfZero | .unary => [pointer]
    | .binary | .ret => [pointer, pointer + 1]
    | .function => m.live
    | .jump | .setResult | .pushResultOrFrame | .push | .push2 | .pushVariable | .rewind
    | .forward => []
  slots.filter IsSlot

/-- Two stacks hold the same values in the known slots. -/
def Agree (known : List Int) (stack stack' : Vector Word stackSize) : Prop :=
  ∀ i : Nat, (i : Int) ∈ known → stack[i]? = stack'[i]?

def restacked (m : Machine) (stack : Vector Word stackSize) : Machine :=
  { m with stack := stack }

/-- Two outcomes of an operation that differ at most in slots that are not known. -/
inductive Alike {α : Type} (failed done : List Int) :
    EStateM.Result Fault Machine α → EStateM.Result Fault Machine α → Prop
  | ok {a : α} {m : Machine} {stack : Vector Word stackSize} :
      Agree done m.stack stack → Alike failed done (.ok a m) (.ok a (m.restacked stack))
  | error {fault : Fault} {m : Machine} {stack : Vector Word stackSize} :
      Agree failed m.stack stack → Alike failed done (.error fault m) (.error fault (m.restacked stack))

namespace Agree

variable {known known' : List Int} {stack stack' : Vector Word stackSize}

theorem mono (h : Agree known stack stack') (hsub : ∀ i ∈ known', i ∈ known) :
    Agree known' stack stack' :=
  fun i hi => h i (hsub i hi)

theorem getElem_eq (h : Agree known stack stack') {i : Nat} (hi : i < stackSize)
    (hknown : (i : Int) ∈ known) : stack[i] = stack'[i] := by
  have hvalue := h i hknown
  rw [Vector.getElem?_eq_getElem hi, Vector.getElem?_eq_getElem hi] at hvalue
  exact Option.some.inj hvalue

theorem set (h : Agree known stack stack') (slot : Nat) (value : Word) :
    Agree ((slot : Int) :: known) (stack.setIfInBounds slot value)
      (stack'.setIfInBounds slot value) := by
  intro i hi
  rw [Vector.getElem?_setIfInBounds, Vector.getElem?_setIfInBounds]
  split
  · rfl
  · rename_i hne
    refine h i ((List.mem_cons.1 hi).resolve_left fun heq => hne ?_)
    omega

end Agree

section Operation

variable {known : List Int} {m : Machine} {stack : Vector Word stackSize}
  (h : Agree known m.stack stack)

include h

theorem push_alike (value : Word) :
    Alike known (((m.stackPointer.toNat : Int) - 1) :: known) (push value m)
      (push value (m.restacked stack)) := by
  rcases Nat.eq_zero_or_pos m.stackPointer.toNat with hzero | hpos
  · rw [push_full hzero, push_full (m := m.restacked stack) hzero]
    exact .error h
  · rcases Nat.lt_or_ge stackSize m.stackPointer.toNat with hstray | hm
    · rw [push_stray hstray, push_stray (m := m.restacked stack) hstray]
      exact .error h
    · rw [push_ok hm hpos, push_ok (m := m.restacked stack) hm hpos]
      have hslot : (m.stackPointer.toNat : Int) - 1 = (m.stackPointer.toNat - 1 : Nat) := by omega
      rw [hslot]
      exact .ok (h.set _ value)

theorem pushSlot_alike (slot : Slot) (hknown : IsSlot slot.toInt → slot.toInt ∈ known) :
    Alike known (((m.stackPointer.toNat : Int) - 1) :: known) (pushSlot slot m)
      (pushSlot slot (m.restacked stack)) := by
  by_cases hslot : IsSlot slot.toInt
  · obtain ⟨i, hindex, hi⟩ := slotIndex?_of_isSlot hslot
    have hvalue : m.stack.get i = stack.get i := h.getElem_eq i.isLt (hi ▸ hknown hslot)
    rw [pushSlot, bind_ok (readSlot_ok hindex), bind_ok (readSlot_ok hindex), hvalue]
    exact push_alike h _
  · have hindex := slotIndex?_eq_none_iff.2 hslot
    rw [pushSlot, bind_error (readSlot_outside hindex), bind_error (readSlot_outside hindex)]
    exact .error h

theorem popSlot_alike (slot : Slot)
    (hknown : m.stackPointer.toNat < stackSize → (m.stackPointer.toNat : Int) ∈ known) :
    Alike known (slot.toInt :: known) (popSlot slot m) (popSlot slot (m.restacked stack)) := by
  by_cases hslot : IsSlot slot.toInt
  · obtain ⟨i, hindex, hi⟩ := slotIndex?_of_isSlot hslot
    rcases Nat.lt_or_ge m.stackPointer.toNat stackSize with hlt | hge
    · have hvalue := h.getElem_eq hlt (hknown hlt)
      have hother := popSlot_ok (m := m.restacked stack) hindex hlt
      rw [popSlot_ok hindex hlt, hother, hi, hvalue]
      exact .ok (h.set i _)
    · rw [popSlot_empty hindex hge, popSlot_empty (m := m.restacked stack) hindex hge]
      exact .error h
  · have hindex := slotIndex?_eq_none_iff.2 hslot
    rw [popSlot_outside hindex, popSlot_outside hindex]
    exact .error h

theorem pop_bind_alike {done : List Int} {k : Word → Action Unit}
    (hknown : m.stackPointer.toNat < stackSize → (m.stackPointer.toNat : Int) ∈ known)
    (hk : ∀ value, Alike known done (k value (m.popped 1)) (k value ((m.popped 1).restacked stack))) :
    Alike known done ((pop >>= k) m) ((pop >>= k) (m.restacked stack)) := by
  rcases Nat.lt_or_ge m.stackPointer.toNat stackSize with hlt | hge
  · have hvalue := h.getElem_eq hlt (hknown hlt)
    rw [bind_ok (pop_ok hlt), bind_ok (pop_ok (m := m.restacked stack) hlt), hvalue]
    exact hk _
  · rw [bind_error (pop_empty hge), bind_error (pop_empty (m := m.restacked stack) hge)]
    exact .error h

theorem enterFrame_alike (next : Word) :
    Alike known
      (((m.stackPointer.toNat : Int) - 1) :: ((m.stackPointer.toNat : Int) - 2) :: known)
      (enterFrame next m) (enterFrame next (m.restacked stack)) := by
  rcases Nat.lt_or_ge m.stackPointer.toNat 2 with hfull | htwo
  · rw [enterFrame_full hfull, enterFrame_full (m := m.restacked stack) hfull]
    exact .error h
  · rcases Nat.lt_or_ge stackSize m.stackPointer.toNat with hstray | hm
    · rw [enterFrame_stray hstray, enterFrame_stray (m := m.restacked stack) hstray]
      exact .error h
    · rw [enterFrame_ok hm htwo, enterFrame_ok (m := m.restacked stack) hm htwo]
      have hpointer := stackPointer_pushed (m := m) (next + 1) (by omega)
      have hboth := (h.set (m.stackPointer.toNat - 1) (next + 1)).set
        ((m.pushed (next + 1)).stackPointer.toNat - 1) m.framePointer.toUInt16
      refine .ok (hboth.mono fun i hi => ?_)
      rw [hpointer]
      rw [List.mem_cons, List.mem_cons] at hi ⊢
      rcases hi with hfirst | hsecond | hold
      · exact .inr (.inl (by omega))
      · exact .inl (by omega)
      · exact .inr (.inr hold)

theorem shift_alike {amount : Int32} (hlow : -32768 ≤ amount.toInt)
    (hhigh : amount.toInt ≤ 32768) :
    Alike known known (shift amount m) (shift amount (m.restacked stack)) := by
  by_cases hrange : 0 ≤ m.stackPointer.toNat + amount.toInt ∧
      m.stackPointer.toNat + amount.toInt ≤ stackSize
  · rw [shift_ok hlow hhigh hrange.1 hrange.2,
      shift_ok (m := m.restacked stack) hlow hhigh hrange.1 hrange.2]
    exact .ok h
  · rw [shift_outside hlow hhigh hrange, shift_outside (m := m.restacked stack) hlow hhigh hrange]
    exact .error h

theorem applyUnary_alike (op : UnaryOp)
    (hknown : m.stackPointer.toNat < stackSize → (m.stackPointer.toNat : Int) ∈ known) :
    Alike known ((m.stackPointer.toNat : Int) :: known) (applyUnary op m)
      (applyUnary op (m.restacked stack)) := by
  rcases Nat.lt_or_ge m.stackPointer.toNat stackSize with hlt | hge
  · have hvalue := h.getElem_eq hlt (hknown hlt)
    rw [applyUnary_ok op hlt, applyUnary_ok (m := m.restacked stack) op hlt, hvalue]
    exact .ok (h.set _ _)
  · rw [applyUnary_empty op hge, applyUnary_empty (m := m.restacked stack) op hge]
    exact .error h

section Two

variable (hknown : ∀ i : Nat, i < stackSize →
  i = m.stackPointer.toNat ∨ i = m.stackPointer.toNat + 1 → (i : Int) ∈ known)

include hknown

theorem two_eq (hfirst : m.stackPointer.toNat < stackSize)
    (hsecond : m.stackPointer.toNat + 1 < stackSize) :
    m.stack[m.stackPointer.toNat] = stack[m.stackPointer.toNat] ∧
      m.stack[m.stackPointer.toNat + 1] = stack[m.stackPointer.toNat + 1] :=
  ⟨h.getElem_eq hfirst (hknown _ hfirst (.inl rfl)),
    h.getElem_eq hsecond (hknown _ hsecond (.inr rfl))⟩

theorem leaveFrame_alike :
    Alike known known (leaveFrame m) (leaveFrame (m.restacked stack)) := by
  rcases Nat.lt_or_ge stackSize (m.stackPointer.toNat + 2) with hshort | htwo
  · rw [leaveFrame_short hshort, leaveFrame_short (m := m.restacked stack) hshort]
    exact .error h
  · obtain ⟨hfirst, hsecond⟩ := two_eq h hknown (by omega) (by omega)
    rw [leaveFrame_ok htwo, leaveFrame_ok (m := m.restacked stack) htwo, hfirst, hsecond]
    exact .ok h

theorem leaveSubroutine_alike :
    Alike known known (leaveSubroutine m) (leaveSubroutine (m.restacked stack)) := by
  rcases Nat.lt_or_ge stackSize (m.stackPointer.toNat + 2) with hshort | htwo
  · rw [leaveSubroutine_short hshort, leaveSubroutine_short (m := m.restacked stack) hshort]
    exact .error h
  · obtain ⟨hfirst, hsecond⟩ := two_eq h hknown (by omega) (by omega)
    rw [leaveSubroutine_ok htwo, leaveSubroutine_ok (m := m.restacked stack) htwo, hfirst, hsecond]
    exact .ok h

theorem applyBinary_alike (op : BinaryOp) :
    Alike known (((m.stackPointer.toNat : Int) + 1) :: known) (applyBinary op m)
      (applyBinary op (m.restacked stack)) := by
  rcases Nat.lt_or_ge stackSize (m.stackPointer.toNat + 2) with hshort | htwo
  · rw [applyBinary_short op hshort, applyBinary_short (m := m.restacked stack) op hshort]
    exact .error h
  · obtain ⟨hfirst, hsecond⟩ := two_eq h hknown (by omega) (by omega)
    rw [applyBinary_two op htwo, applyBinary_two (m := m.restacked stack) op htwo, hfirst, hsecond]
    simp only [restacked]
    cases op.apply stack[m.stackPointer.toNat + 1] stack[m.stackPointer.toNat] with
    | ok value => exact .ok (h.set (m.stackPointer.toNat + 1) value)
    | error fault => exact .error h

end Two

/-- An operation that finds the slots it reads known does the same on another stack, and the slots
that it writes are known afterwards. -/
theorem execute_alike {opcode : Opcode} {parameter : Word}
    (hreads : ∀ i ∈ reads opcode parameter m, i ∈ known) (next : Word) :
    Alike known (writes opcode parameter m ++ known) (execute opcode parameter next m)
      (execute opcode parameter next (m.restacked stack)) := by
  have hinvalid {done : List Int} : Alike known done
      ((throw (.invalidParameter opcode parameter) : Action Unit) m)
      ((throw (.invalidParameter opcode parameter) : Action Unit) (m.restacked stack)) :=
    .error h
  have hread {slots : List Int} (hslots : slots.filter IsSlot = reads opcode parameter m) {i : Int}
      (hi : i ∈ slots) (hslot : IsSlot i) : i ∈ known :=
    hreads i (hslots ▸ List.mem_filter.2 ⟨hi, decide_eq_true hslot⟩)
  have hone (hslots : [(m.stackPointer.toNat : Int)].filter IsSlot = reads opcode parameter m)
      (hlt : m.stackPointer.toNat < stackSize) : (m.stackPointer.toNat : Int) ∈ known :=
    hread hslots List.mem_cons_self ⟨by omega, by omega⟩
  have htwo (hslots : [(m.stackPointer.toNat : Int), m.stackPointer.toNat + 1].filter IsSlot =
      reads opcode parameter m) (i : Nat) (hlt : i < stackSize)
      (hi : i = m.stackPointer.toNat ∨ i = m.stackPointer.toNat + 1) : (i : Int) ∈ known := by
    refine hread hslots ?_ ⟨by omega, by omega⟩
    rw [List.mem_pair]
    omega
  cases opcode with
  | jump => exact .ok h
  | setResult => exact .ok h
  | pushResultOrFrame =>
      simp only [execute]
      split
      · exact push_alike h m.result
      · exact enterFrame_alike h next
      · exact hinvalid
  | push => exact push_alike h parameter
  | push2 => exact push_alike h parameter
  | pushVariable =>
      simp only [execute]
      cases variableIndex? parameter.toNat with
      | some i => exact push_alike h (m.vars.get i)
      | none => exact hinvalid
  | pushLocal =>
      refine pushSlot_alike h (localSlot m.framePointer parameter) ?_
      rw [toInt_localSlot]
      exact hread rfl List.mem_cons_self
  | pushArgument =>
      refine pushSlot_alike h (argumentSlot m.framePointer parameter) ?_
      rw [toInt_argumentSlot]
      exact hread rfl List.mem_cons_self
  | popResultOrFrame =>
      simp only [execute]
      split
      · exact pop_bind_alike h (hone rfl) fun value => .ok h
      · exact leaveFrame_alike h (htwo rfl)
      · exact hinvalid
  | popVariable =>
      simp only [execute]
      cases variableIndex? parameter.toNat with
      | some i => exact pop_bind_alike h (hone rfl) fun value => .ok h
      | none => exact hinvalid
  | popLocal =>
      have hlocal := popSlot_alike h (localSlot m.framePointer parameter) (hone rfl)
      rw [toInt_localSlot] at hlocal
      exact hlocal
  | popArgument =>
      have hargument := popSlot_alike h (argumentSlot m.framePointer parameter) (hone rfl)
      rw [toInt_argumentSlot] at hargument
      exact hargument
  | rewind =>
      have hbounds := signed_bounds parameter
      exact shift_alike h (by omega) (by omega)
  | forward =>
      have hbounds := signed_bounds parameter
      have hneg := toInt_neg_signed parameter
      exact shift_alike h (by omega) (by omega)
  | function => exact .ok h
  | jumpIfZero =>
      simp only [execute]
      rcases Nat.lt_or_ge m.stackPointer.toNat stackSize with hlt | hge
      · rw [bind_ok (peek_ok (n := 1) (by decide) hlt),
          bind_ok (peek_ok (m := m.restacked stack) (n := 1) (by decide) hlt)]
        refine pop_bind_alike h (hone rfl) fun value => ?_
        split
        · exact .ok h
        · exact .ok h
      · have hshort : stackSize < m.stackPointer.toNat + (1 : UInt8).toNat := Nat.lt_succ_of_le hge
        rw [bind_error (peek_short hshort), bind_error (peek_short (m := m.restacked stack) hshort)]
        exact .error h
  | unary =>
      simp only [execute]
      cases UnaryOp.ofSelector? parameter with
      | some op => exact applyUnary_alike h op (hone rfl)
      | none => exact hinvalid
  | binary =>
      simp only [execute]
      cases BinaryOp.ofSelector? parameter with
      | some op => exact applyBinary_alike h (htwo rfl) op
      | none => exact hinvalid
  | ret => exact leaveSubroutine_alike h (htwo rfl)

end Operation

end Machine

end EntityScript

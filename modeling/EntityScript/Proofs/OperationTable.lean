import EntityScript.Proofs.Dispatch

/-!
When an operation fails, and what it makes of the machine otherwise.  Positions are unbounded
integers here.
-/

namespace EntityScript

theorem UnaryOp.ofSelector?_eq_none_iff {selector : Word} :
    ofSelector? selector = none ↔ 3 ≤ selector.toNat := by
  constructor
  · intro h
    rw [← Nat.not_lt]
    intro hlt
    have hsome : ∀ n < 3, ofSelector? (UInt16.ofNat n) ≠ none := by decide
    exact hsome _ hlt (by rwa [UInt16.ofNat_toNat])
  · intro h
    unfold ofSelector?
    split
    all_goals first | rfl | simp at h

namespace BinaryOp

theorem ofSelector?_eq_none_iff {selector : Word} :
    ofSelector? selector = none ↔ 18 ≤ selector.toNat := by
  constructor
  · intro h
    rw [← Nat.not_lt]
    intro hlt
    have hsome : ∀ n < 18, ofSelector? (UInt16.ofNat n) ≠ none := by decide
    exact hsome _ hlt (by rwa [UInt16.ofNat_toNat])
  · intro h
    unfold ofSelector?
    split
    all_goals first | rfl | simp at h

theorem apply_eq_error_iff {op : BinaryOp} {selector left right : Word}
    (h : ofSelector? selector = some op) :
    (∃ fault, op.apply left right = .error fault) ↔
      (selector = 11 ∨ selector = 16) ∧ right = 0 := by
  unfold ofSelector? at h
  split at h
  all_goals cases h
  all_goals
    by_cases hright : right = 0 <;> simp [apply, Word.signed_eq_zero_iff, hright]

end BinaryOp

namespace Machine

/-- The value of a slot, and zero outside the stack. -/
def valueAt (m : Machine) (slot : Int) : Word :=
  m.stack[slot.toNat]?.getD 0

def top (m : Machine) : Word :=
  m.valueAt m.stackPointer.toNat

def second (m : Machine) : Word :=
  m.valueAt (m.stackPointer.toNat + 1)

def stored (m : Machine) (slot : Int) (value : Word) : Machine :=
  { m with stack := m.stack.setIfInBounds slot.toNat value }

def moved (m : Machine) (amount : Int) : Machine :=
  { m with stackPointer := .ofInt (m.stackPointer.toNat + amount) }

def localAt (m : Machine) (parameter : Word) : Int :=
  m.framePointer.toNat - parameter.toNat - 2

def argumentAt (m : Machine) (parameter : Word) : Int :=
  m.framePointer.toNat + parameter.toNat - 1

def IsSlot (slot : Int) : Prop :=
  0 ≤ slot ∧ slot < stackSize

instance (slot : Int) : Decidable (IsSlot slot) :=
  inferInstanceAs (Decidable (_ ∧ _))

/-- A position that the stack pointer can have. -/
def IsPointer (position : Int) : Prop :=
  0 ≤ position ∧ position ≤ stackSize

instance (position : Int) : Decidable (IsPointer position) :=
  inferInstanceAs (Decidable (_ ∧ _))

/-- When an operation fails.  What `function` does is not in the table. -/
def Refuses (opcode : Opcode) (parameter : Word) (m : Machine) : Prop :=
  let pointer := m.stackPointer.toNat
  match opcode with
  | .jump | .setResult | .function => False
  | .pushResultOrFrame =>
      parameter = 0 ∧ pointer = 0 ∨ parameter = 1 ∧ pointer < 2 ∨ 2 ≤ parameter.toNat
  | .push | .push2 => pointer = 0
  | .pushVariable => 5 ≤ parameter.toNat ∨ pointer = 0
  | .pushLocal => ¬IsSlot (m.localAt parameter) ∨ pointer = 0
  | .pushArgument => ¬IsSlot (m.argumentAt parameter) ∨ pointer = 0
  | .popResultOrFrame =>
      parameter = 0 ∧ m.depth = 0 ∨ parameter = 1 ∧ m.depth < 2 ∨ 2 ≤ parameter.toNat
  | .popVariable => 5 ≤ parameter.toNat ∨ m.depth = 0
  | .popLocal => ¬IsSlot (m.localAt parameter) ∨ m.depth = 0
  | .popArgument => ¬IsSlot (m.argumentAt parameter) ∨ m.depth = 0
  | .rewind => ¬IsPointer (pointer + parameter.signed.toInt)
  | .forward => ¬IsPointer (pointer - parameter.signed.toInt)
  | .jumpIfZero => m.depth = 0
  | .unary => 3 ≤ parameter.toNat ∨ m.depth = 0
  | .binary => 18 ≤ parameter.toNat ∨ m.depth < 2 ∨ (parameter = 11 ∨ parameter = 16) ∧ m.top = 0
  | .ret => m.depth < 2

instance (opcode : Opcode) (parameter : Word) (m : Machine) :
    Decidable (Refuses opcode parameter m) :=
  match opcode with
  | .jump | .setResult | .function => inferInstanceAs (Decidable False)
  | .push | .push2 | .jumpIfZero => inferInstanceAs (Decidable (_ = _))
  | .pushResultOrFrame | .pushVariable | .pushLocal | .pushArgument | .popResultOrFrame
  | .popVariable | .popLocal | .popArgument | .unary | .binary =>
      inferInstanceAs (Decidable (_ ∨ _))
  | .rewind | .forward => inferInstanceAs (Decidable (¬_))
  | .ret => inferInstanceAs (Decidable (_ < _))

/-- What `unary` makes of a value, and zero if the parameter selects no operation. -/
def unaryValue (parameter value : Word) : Word :=
  ((UnaryOp.ofSelector? parameter).map fun op => op.apply value).getD 0

/-- What `binary` makes of two values, and zero if it fails. -/
def binaryValue (parameter left right : Word) : Word :=
  ((BinaryOp.ofSelector? parameter).bind fun op => (op.apply left right).toOption).getD 0

/-- What an operation makes of a machine on which it does not fail. -/
def effect (opcode : Opcode) (parameter next : Word) (m : Machine) : Machine :=
  match opcode with
  | .jump => { m with ip := some parameter }
  | .setResult => { m with result := parameter }
  | .pushResultOrFrame =>
      if parameter = 0 then m.pushed m.result
      else
        let linked := (m.pushed (next + 1)).pushed m.framePointer.toUInt16
        { linked with framePointer := linked.stackPointer + 2 }
  | .push | .push2 => m.pushed parameter
  | .pushVariable => m.pushed (m.vars[parameter.toNat]?.getD 0)
  | .pushLocal => m.pushed (m.valueAt (m.localAt parameter))
  | .pushArgument => m.pushed (m.valueAt (m.argumentAt parameter))
  | .popResultOrFrame =>
      if parameter = 0 then { m.popped 1 with result := m.top }
      else { m.popped 2 with framePointer := m.top.toUInt8, ip := some m.second }
  | .popVariable => { m.popped 1 with vars := m.vars.setIfInBounds parameter.toNat m.top }
  | .popLocal => (m.popped 1).stored (m.localAt parameter) m.top
  | .popArgument => (m.popped 1).stored (m.argumentAt parameter) m.top
  | .rewind => m.moved parameter.signed.toInt
  | .forward => m.moved (-parameter.signed.toInt)
  | .function => m
  | .jumpIfZero =>
      if m.top = 0 then { m.popped 1 with ip := some (parameter &&& 0x7FFF) } else m.popped 1
  | .unary => (m.popped 1).pushed (unaryValue parameter m.top)
  | .binary => (m.popped 2).pushed (binaryValue parameter m.second m.top)
  | .ret => { m.popped 2 with result := m.top, ip := some m.second, inSubroutine := false }

/-- The slots that an operation writes. -/
def writes (opcode : Opcode) (parameter : Word) (m : Machine) : List Int :=
  let pointer : Int := m.stackPointer.toNat
  match opcode with
  | .pushResultOrFrame => if parameter = 0 then [pointer - 1] else [pointer - 1, pointer - 2]
  | .push | .push2 | .pushVariable | .pushLocal | .pushArgument => [pointer - 1]
  | .popLocal => [m.localAt parameter]
  | .popArgument => [m.argumentAt parameter]
  | .unary => [pointer]
  | .binary => [pointer + 1]
  | .jump | .setResult | .popResultOrFrame | .popVariable | .rewind | .forward | .function
  | .jumpIfZero | .ret => []

structure Framed (opcode : Opcode) (parameter : Word) (m m' : Machine) : Prop where
  ip : opcode ∉ [.jump, .popResultOrFrame, .jumpIfZero, .ret] → m'.ip = m.ip
  delay : m'.delay = m.delay
  result : opcode ∉ [.setResult, .popResultOrFrame, .ret] → m'.result = m.result
  framePointer : opcode ∉ [.pushResultOrFrame, .popResultOrFrame] →
    m'.framePointer = m.framePointer
  vars : ∀ i : Nat, opcode ≠ .popVariable ∨ i ≠ parameter.toNat → m'.vars[i]? = m.vars[i]?
  stack : ∀ i : Nat, (i : Int) ∉ writes opcode parameter m → m'.stack[i]? = m.stack[i]?
  inSubroutine : opcode ≠ .ret → m'.inSubroutine = m.inSubroutine

section Lookup

variable {m : Machine}

theorem depth_lt_iff (hm : m.InBounds) {n : Nat} :
    m.depth < n ↔ stackSize < m.stackPointer.toNat + n := by
  unfold InBounds at hm
  unfold depth
  omega

theorem depth_eq_zero_iff : m.depth = 0 ↔ stackSize ≤ m.stackPointer.toNat := by
  unfold depth
  omega

theorem valueAt_eq_getElem {i : Nat} (h : i < stackSize) : m.valueAt i = m.stack[i] := by
  simp [valueAt, h]

theorem top_eq (h : m.stackPointer.toNat < stackSize) : m.top = m.stack[m.stackPointer.toNat] :=
  valueAt_eq_getElem h

theorem second_eq (h : m.stackPointer.toNat + 1 < stackSize) :
    m.second = m.stack[m.stackPointer.toNat + 1] :=
  valueAt_eq_getElem h

theorem slotIndex?_of_isSlot {slot : Slot} (h : IsSlot slot.toInt) :
    ∃ i : Fin stackSize, slotIndex? slot = some i ∧ slot.toInt = i := by
  obtain ⟨hlow, hhigh⟩ := h
  have hslot : slot.toInt = slot.toInt.toNat := by omega
  exact ⟨⟨slot.toInt.toNat, by omega⟩, slotIndex?_ok hslot (by omega), hslot⟩

theorem pushed_popped (h : m.stackPointer.toNat < stackSize) (value : Word) :
    (m.popped 1).pushed value =
      { m with stack := m.stack.setIfInBounds m.stackPointer.toNat value } := by
  have hfirst : (m.popped 1).stackPointer.toNat = m.stackPointer.toNat + 1 :=
    stackPointer_popped (n := 1) (by simp; omega)
  rw [pushed, hfirst]
  simp [popped]

end Lookup

/-- An operation fails if it is refused, and otherwise has the result. -/
structure Follows (ended : EStateM.Result Fault Machine Unit) (refused : Prop)
    (result : Machine) : Prop where
  fails : refused → ∃ fault m, ended = .error fault m
  succeeds : ¬refused → ended = .ok () result

namespace Follows

variable {ended : EStateM.Result Fault Machine Unit} {m result : Machine} {refused : Prop}

theorem of_ok (h : ended = .ok () result) : Follows ended False result :=
  ⟨False.elim, fun _ => h⟩

theorem of_error {fault : Fault} (h : ended = .error fault m) (hrefused : refused) :
    Follows ended refused result :=
  ⟨fun _ => ⟨fault, m, h⟩, fun hnot => absurd hrefused hnot⟩

theorem congr {refused' : Prop} (h : Follows ended refused result)
    (hrefused : refused' ↔ refused) : Follows ended refused' result :=
  ⟨fun hfails => h.fails (hrefused.1 hfails), fun hnot => h.succeeds (mt hrefused.2 hnot)⟩

theorem push (hm : m.InBounds) (value : Word) :
    Follows (Machine.push value m) (m.stackPointer.toNat = 0) (m.pushed value) :=
  ⟨fun hzero => ⟨_, _, push_full hzero value⟩, fun hpos => push_ok hm (by omega) value⟩

theorem pop_bind {k : Word → Action Unit}
    (hk : m.stackPointer.toNat < stackSize → k m.top (m.popped 1) = .ok () result) :
    Follows ((Machine.pop >>= k) m) (m.depth = 0) result := by
  rw [depth_eq_zero_iff]
  constructor
  · intro hempty
    exact ⟨_, _, bind_error (pop_empty hempty)⟩
  · intro hfull
    have hlt : m.stackPointer.toNat < stackSize := Nat.lt_of_not_le hfull
    rw [bind_ok (pop_ok hlt), ← top_eq hlt]
    exact hk hlt

theorem pushSlot (hm : m.InBounds) (slot : Slot) :
    Follows (Machine.pushSlot slot m) (¬IsSlot slot.toInt ∨ m.stackPointer.toNat = 0)
      (m.pushed (m.valueAt slot.toInt)) := by
  by_cases hslot : IsSlot slot.toInt
  · obtain ⟨i, hindex, hi⟩ := slotIndex?_of_isSlot hslot
    rw [Machine.pushSlot, bind_ok (readSlot_ok hindex), hi, valueAt_eq_getElem i.isLt]
    refine (push hm _).congr ?_
    rw [← hi]
    simp only [hslot, not_true, false_or]
  · exact of_error (bind_error (readSlot_outside (slotIndex?_eq_none_iff.2 hslot))) (.inl hslot)

theorem popSlot (m : Machine) (slot : Slot) :
    Follows (Machine.popSlot slot m) (¬IsSlot slot.toInt ∨ m.depth = 0)
      ((m.popped 1).stored slot.toInt m.top) := by
  by_cases hslot : IsSlot slot.toInt
  · obtain ⟨i, hindex, hi⟩ := slotIndex?_of_isSlot hslot
    rw [depth_eq_zero_iff]
    constructor
    · intro hrefused
      exact ⟨_, _, popSlot_empty hindex (hrefused.resolve_left (not_not.2 hslot))⟩
    · intro hfull
      have hlt : m.stackPointer.toNat < stackSize := by omega
      rw [popSlot_ok hindex hlt, hi, top_eq hlt]
      rfl
  · exact of_error (popSlot_outside (slotIndex?_eq_none_iff.2 hslot)) (.inl hslot)

theorem enterFrame (hm : m.InBounds) (next : Word) :
    let linked := (m.pushed (next + 1)).pushed m.framePointer.toUInt16
    Follows (Machine.enterFrame next m) (m.stackPointer.toNat < 2)
      { linked with framePointer := linked.stackPointer + 2 } := by
  intro linked
  constructor
  · intro hfull
    exact ⟨_, _, enterFrame_full hfull next⟩
  · intro htwo
    have hbase : linked.stackPointer + 2 = m.stackPointer := by
      change m.stackPointer - 1 - 1 + (1 + 1) = _
      rw [← UInt8.add_assoc, UInt8.sub_add_cancel, UInt8.sub_add_cancel]
    rw [enterFrame_ok hm (by omega), hbase]

theorem leaveFrame (hm : m.InBounds) :
    Follows (Machine.leaveFrame m) (m.depth < 2)
      { m.popped 2 with framePointer := m.top.toUInt8, ip := some m.second } := by
  rw [depth_lt_iff hm]
  constructor
  · intro hshort
    exact ⟨_, _, leaveFrame_short hshort⟩
  · intro htwo
    rw [leaveFrame_ok (by omega), top_eq (by omega), second_eq (by omega)]

theorem leaveSubroutine (hm : m.InBounds) :
    Follows (Machine.leaveSubroutine m) (m.depth < 2)
      { m.popped 2 with result := m.top, ip := some m.second, inSubroutine := false } := by
  rw [depth_lt_iff hm]
  constructor
  · intro hshort
    exact ⟨_, _, leaveSubroutine_short hshort⟩
  · intro htwo
    rw [leaveSubroutine_ok (by omega), top_eq (by omega), second_eq (by omega)]

theorem shift {amount : Int32} (hlow : -32768 ≤ amount.toInt) (hhigh : amount.toInt ≤ 32768) :
    Follows (Machine.shift amount m) (¬IsPointer (m.stackPointer.toNat + amount.toInt))
      (m.moved amount.toInt) := by
  constructor
  · intro houtside
    exact ⟨_, _, shift_outside hlow hhigh houtside⟩
  · intro hinside
    obtain ⟨hzero, hsize⟩ := not_not.1 hinside
    exact shift_ok hlow hhigh hzero hsize

theorem jumpIfZero (m : Machine) (target : Word) :
    Follows ((do let _ ← peek 1; if (← Machine.pop) = 0 then jump target : Action Unit) m)
      (m.depth = 0)
      (if m.top = 0 then { m.popped 1 with ip := some target } else m.popped 1) := by
  rw [depth_eq_zero_iff]
  constructor
  · intro hempty
    exact ⟨_, _, bind_error (peek_short (n := 1) (by simp; omega))⟩
  · intro hfull
    have hlt : m.stackPointer.toNat < stackSize := by omega
    rw [bind_ok (peek_ok (n := 1) (by decide) hlt), bind_ok (pop_ok hlt), ← top_eq hlt]
    split <;> rfl

theorem applyUnary (m : Machine) (op : UnaryOp) :
    Follows (Machine.applyUnary op m) (m.depth = 0) ((m.popped 1).pushed (op.apply m.top)) := by
  refine pop_bind fun hlt => ?_
  rw [push_popped hlt, pushed_popped hlt]

theorem applyBinary (hm : m.InBounds) (op : BinaryOp) :
    Follows (Machine.applyBinary op m)
      (m.depth < 2 ∨ ∃ fault, op.apply m.second m.top = .error fault)
      ((m.popped 2).pushed ((op.apply m.second m.top).toOption.getD 0)) := by
  rw [depth_lt_iff hm]
  rcases Nat.lt_or_ge stackSize (m.stackPointer.toNat + 2) with hshort | htwo
  · exact of_error (applyBinary_short op hshort) (.inl hshort)
  · have hfirst : (m.popped 1).stackPointer.toNat = m.stackPointer.toNat + 1 :=
      stackPointer_popped (n := 1) (by simp; omega)
    have htwice : m.popped 2 = (m.popped 1).popped 1 := (popped_popped m 1 1).symm
    have happly := applyBinary_two op htwo
    rw [← second_eq htwo, ← top_eq (by omega)] at happly
    cases hvalue : op.apply m.second m.top with
    | error fault =>
        rw [hvalue] at happly
        exact of_error happly (.inr ⟨fault, rfl⟩)
    | ok value =>
        rw [hvalue] at happly
        rw [happly, htwice, pushed_popped (by omega), hfirst]
        refine (of_ok rfl).congr ?_
        simp only [reduceCtorEq, exists_false, or_false, iff_false]
        omega

end Follows

variable {m : Machine} {parameter : Word}

theorem two_le_iff : 2 ≤ parameter.toNat ↔ parameter ≠ 0 ∧ parameter ≠ 1 := by
  rw [← UInt16.toNat_inj.ne, ← UInt16.toNat_inj.ne]
  change _ ↔ parameter.toNat ≠ 0 ∧ parameter.toNat ≠ 1
  omega

theorem variableIndex?_cases (index : Nat) :
    5 ≤ index ∧ variableIndex? index = none ∨
      ∃ i : Fin variableCount, i = index ∧ variableIndex? index = some i := by
  unfold variableIndex?
  split
  · rename_i hlt
    exact .inr ⟨⟨index, hlt⟩, rfl, rfl⟩
  · rename_i hge
    exact .inl ⟨Nat.le_of_not_lt hge, rfl⟩

theorem execute_follows (hm : m.InBounds) (opcode : Opcode) (parameter next : Word) :
    Follows (execute opcode parameter next m) (Refuses opcode parameter m)
      (effect opcode parameter next m) := by
  cases opcode with
  | jump => exact .of_ok rfl
  | setResult => exact .of_ok rfl
  | pushResultOrFrame =>
      simp only [execute, Refuses, effect]
      split
      · refine (Follows.push hm m.result).congr ?_
        simp
      · refine (Follows.enterFrame hm next).congr ?_
        simp
      · rename_i hzero hone
        exact .of_error rfl (.inr (.inr (two_le_iff.2 ⟨hzero, hone⟩)))
  | push => exact .push hm parameter
  | push2 => exact .push hm parameter
  | pushVariable =>
      simp only [execute, Refuses, effect]
      rcases variableIndex?_cases parameter.toNat with ⟨hge, hnone⟩ | ⟨i, hi, hsome⟩
      · rw [hnone]
        exact .of_error rfl (.inl hge)
      · have hlt : ¬5 ≤ parameter.toNat := hi ▸ Nat.not_le.2 i.isLt
        have hvalue : m.vars[parameter.toNat]?.getD 0 = m.vars.get i := by
          rw [← hi, Vector.getElem?_eq_getElem i.isLt]
          rfl
        rw [hsome, hvalue]
        exact (Follows.push hm _).congr (or_iff_right hlt)
  | pushLocal =>
      have h := Follows.pushSlot hm (localSlot m.framePointer parameter)
      rw [toInt_localSlot] at h
      exact h
  | pushArgument =>
      have h := Follows.pushSlot hm (argumentSlot m.framePointer parameter)
      rw [toInt_argumentSlot] at h
      exact h
  | popResultOrFrame =>
      simp only [execute, Refuses, effect]
      split
      · refine (Follows.pop_bind fun _ => rfl).congr ?_
        simp
      · refine (Follows.leaveFrame hm).congr ?_
        simp
      · rename_i hzero hone
        exact .of_error rfl (.inr (.inr (two_le_iff.2 ⟨hzero, hone⟩)))
  | popVariable =>
      simp only [execute, Refuses, effect]
      rcases variableIndex?_cases parameter.toNat with ⟨hge, hnone⟩ | ⟨i, hi, hsome⟩
      · rw [hnone]
        exact .of_error rfl (.inl hge)
      · have hlt : ¬5 ≤ parameter.toNat := hi ▸ Nat.not_le.2 i.isLt
        rw [hsome, ← hi]
        simp only [setVariable_eq]
        exact (Follows.pop_bind fun _ => rfl).congr (or_iff_right (hi ▸ hlt))
  | popLocal =>
      have h := Follows.popSlot m (localSlot m.framePointer parameter)
      rw [toInt_localSlot] at h
      exact h
  | popArgument =>
      have h := Follows.popSlot m (argumentSlot m.framePointer parameter)
      rw [toInt_argumentSlot] at h
      exact h
  | rewind =>
      have hbounds := signed_bounds parameter
      exact .shift (by omega) (by omega)
  | forward =>
      have hbounds := signed_bounds parameter
      have hneg := toInt_neg_signed parameter
      have h : Follows (Machine.shift (-parameter.signed) m)
          (¬IsPointer (m.stackPointer.toNat + (-parameter.signed).toInt))
          (m.moved (-parameter.signed).toInt) :=
        .shift (by omega) (by omega)
      rw [hneg] at h
      exact h
  | function => exact .of_ok rfl
  | jumpIfZero => exact .jumpIfZero m _
  | unary =>
      simp only [execute, Refuses, effect, unaryValue]
      cases hop : UnaryOp.ofSelector? parameter with
      | none => exact .of_error rfl (.inl (UnaryOp.ofSelector?_eq_none_iff.1 hop))
      | some op =>
          have hknown : ¬3 ≤ parameter.toNat := by
            rw [← UnaryOp.ofSelector?_eq_none_iff, hop]
            exact Option.some_ne_none op
          refine (Follows.applyUnary m op).congr ?_
          simp only [hknown, false_or]
  | binary =>
      simp only [execute, Refuses, effect, binaryValue]
      cases hop : BinaryOp.ofSelector? parameter with
      | none => exact .of_error rfl (.inl (BinaryOp.ofSelector?_eq_none_iff.1 hop))
      | some op =>
          have hknown : ¬18 ≤ parameter.toNat := by
            rw [← BinaryOp.ofSelector?_eq_none_iff, hop]
            exact Option.some_ne_none op
          refine (Follows.applyBinary hm op).congr ?_
          rw [BinaryOp.apply_eq_error_iff hop]
          simp only [hknown, false_or]
  | ret => exact .leaveSubroutine hm

theorem getElem?_stack_pushed_of_ne (hpos : m.stackPointer.toNat ≠ 0) {value : Word} {i : Nat}
    (hi : (i : Int) ≠ m.stackPointer.toNat - 1) : (m.pushed value).stack[i]? = m.stack[i]? :=
  Vector.getElem?_setIfInBounds_ne (by omega)

theorem getElem?_stack_popped_pushed {n : UInt8} (hn : 0 < n.toNat)
    (h : m.stackPointer.toNat + n.toNat ≤ stackSize) {value : Word} {i : Nat}
    (hi : (i : Int) ≠ m.stackPointer.toNat + n.toNat - 1) :
    ((m.popped n).pushed value).stack[i]? = m.stack[i]? := by
  have hpointer := stackPointer_popped h
  exact getElem?_stack_pushed_of_ne (m := m.popped n) (by omega) (by omega)

theorem getElem?_stack_stored {slot : Int} (hslot : IsSlot slot) {value : Word} {i : Nat}
    (hi : (i : Int) ≠ slot) : (m.stored slot value).stack[i]? = m.stack[i]? := by
  obtain ⟨hlow, _⟩ := hslot
  exact Vector.getElem?_setIfInBounds_ne (by omega)

theorem stack_effect (hm : m.InBounds) {opcode : Opcode} {next : Word}
    (h : ¬Refuses opcode parameter m) {i : Nat} (hi : (i : Int) ∉ writes opcode parameter m) :
    (effect opcode parameter next m).stack[i]? = m.stack[i]? := by
  cases opcode with
  | jump => rfl
  | setResult => rfl
  | pushResultOrFrame =>
      obtain ⟨hzero, hone, hother⟩ := by simpa only [Refuses, not_or, not_and] using h
      simp only [effect]
      simp only [writes] at hi
      split
      · rename_i hresult
        rw [if_pos hresult] at hi
        exact getElem?_stack_pushed_of_ne (hzero hresult) (List.ne_of_not_mem_cons hi)
      · rename_i hframe
        rw [if_neg hframe] at hi
        have hsetup : parameter = 1 := by
          by_contra hne
          exact hother (two_le_iff.2 ⟨hframe, hne⟩)
        have htwo : 2 ≤ m.stackPointer.toNat := Nat.not_lt.1 (hone hsetup)
        -- A frame is two pushes, and the slot is neither of the two.
        have hpointer := stackPointer_pushed (m := m) (next + 1) (by omega)
        simp only [List.mem_cons, List.not_mem_nil, or_false, not_or] at hi
        change ((m.pushed (next + 1)).pushed m.framePointer.toUInt16).stack[i]? = _
        rw [getElem?_stack_pushed_of_ne (by omega) (by omega),
          getElem?_stack_pushed_of_ne (by omega) hi.1]
  | push => exact getElem?_stack_pushed_of_ne h (List.ne_of_not_mem_cons hi)
  | push2 => exact getElem?_stack_pushed_of_ne h (List.ne_of_not_mem_cons hi)
  | pushVariable => exact getElem?_stack_pushed_of_ne (not_or.1 h).2 (List.ne_of_not_mem_cons hi)
  | pushLocal => exact getElem?_stack_pushed_of_ne (not_or.1 h).2 (List.ne_of_not_mem_cons hi)
  | pushArgument => exact getElem?_stack_pushed_of_ne (not_or.1 h).2 (List.ne_of_not_mem_cons hi)
  | popResultOrFrame =>
      simp only [effect]
      split <;> rfl
  | popVariable => rfl
  | popLocal =>
      have hslot := not_not.1 (not_or.1 h).1
      exact getElem?_stack_stored (m := m.popped 1) hslot (List.ne_of_not_mem_cons hi)
  | popArgument =>
      have hslot := not_not.1 (not_or.1 h).1
      exact getElem?_stack_stored (m := m.popped 1) hslot (List.ne_of_not_mem_cons hi)
  | rewind => rfl
  | forward => rfl
  | function => rfl
  | jumpIfZero =>
      simp only [effect]
      split <;> rfl
  | unary =>
      have hdepth := mt depth_eq_zero_iff.2 (not_or.1 h).2
      have hne := List.ne_of_not_mem_cons hi
      exact getElem?_stack_popped_pushed (n := 1) (by decide) (by simp; omega) (by simp; omega)
  | binary =>
      have hdepth := mt (depth_lt_iff hm).2 (not_or.1 (not_or.1 h).2).1
      have hne := List.ne_of_not_mem_cons hi
      exact getElem?_stack_popped_pushed (n := 2) (by decide) (by simp; omega) (by simp; omega)
  | ret => rfl

theorem framed_effect (hm : m.InBounds) {opcode : Opcode} {next : Word}
    (h : ¬Refuses opcode parameter m) :
    Framed opcode parameter m (effect opcode parameter next m) where
  -- Only operations that choose between two effects have to be opened.
  ip := by
    intro hopcode
    cases opcode with
    | pushResultOrFrame =>
        simp only [effect]
        split <;> rfl
    | jump | popResultOrFrame | jumpIfZero | ret => exact absurd (by decide) hopcode
    | _ => rfl
  delay := by
    cases opcode with
    | pushResultOrFrame | popResultOrFrame | jumpIfZero =>
        simp only [effect]
        split <;> rfl
    | _ => rfl
  result := by
    intro hopcode
    cases opcode with
    | pushResultOrFrame | jumpIfZero =>
        simp only [effect]
        split <;> rfl
    | setResult | popResultOrFrame | ret => exact absurd (by decide) hopcode
    | _ => rfl
  framePointer := by
    intro hopcode
    cases opcode with
    | jumpIfZero =>
        simp only [effect]
        split <;> rfl
    | pushResultOrFrame | popResultOrFrame => exact absurd (by decide) hopcode
    | _ => rfl
  vars := by
    intro i hi
    cases opcode with
    | pushResultOrFrame | popResultOrFrame | jumpIfZero =>
        simp only [effect]
        split <;> rfl
    | popVariable =>
        have hne := hi.resolve_left (not_not.2 rfl)
        exact Vector.getElem?_setIfInBounds_ne (Ne.symm hne)
    | _ => rfl
  stack := fun i hi => stack_effect hm h hi
  inSubroutine := by
    intro hopcode
    cases opcode with
    | pushResultOrFrame | popResultOrFrame | jumpIfZero =>
        simp only [effect]
        split <;> rfl
    | ret => exact absurd rfl hopcode
    | _ => rfl

end Machine

namespace Actor

open Machine

variable {ω : Type} [Owner ω] {a : Actor ω} {opcode : Opcode} {parameter next : Word}

theorem step_admitted (table : NativeTable ω) (hm : a.engine.machine.InBounds)
    (h : a.operation? = some (opcode, parameter, next)) (hopcode : opcode ≠ .function)
    (hadmitted : ¬Refuses opcode parameter a.engine.machine) :
    (a.step table).value = .ok true ∧
      (a.step table).after = a.executed opcode (effect opcode parameter next (a.begun next)) :=
  have hfollows := execute_follows (m := a.begun next) hm opcode parameter next
  step_operation_ok table h hopcode (hfollows.succeeds hadmitted)

theorem not_refuses_of_step {table : NativeTable ω} (hm : a.engine.machine.InBounds)
    (h : a.operation? = some (opcode, parameter, next)) (hopcode : opcode ≠ .function)
    (hok : (a.step table).value = .ok true) : ¬Refuses opcode parameter a.engine.machine := by
  intro hrefused
  obtain ⟨fault, m, hrun⟩ :=
    (execute_follows (m := a.begun next) hm opcode parameter next).fails hrefused
  cases hok.symm.trans (step_operation_error table h hopcode hrun).1

/-- A step fails exactly when the table says so, and otherwise has the effect that the table gives;
nothing else of the machine, the engine or the owner changes. -/
theorem step_by_table (table : NativeTable ω) (hm : a.engine.machine.InBounds)
    (h : a.operation? = some (opcode, parameter, next)) (hopcode : opcode ≠ .function) :
    ((∃ fault, (a.step table).value = .error fault) ↔
      Refuses opcode parameter a.engine.machine) ∧
    (¬Refuses opcode parameter a.engine.machine →
      (a.step table).value = .ok true ∧
      (a.step table).after = a.executed opcode (effect opcode parameter next (a.begun next)) ∧
      Framed opcode parameter (a.begun next) (effect opcode parameter next (a.begun next))) := by
  have hbegun : (a.begun next).InBounds := hm
  have hfollows := execute_follows hbegun opcode parameter next
  have hsucceeds : ¬Refuses opcode parameter a.engine.machine →
      (a.step table).value = .ok true ∧
        (a.step table).after = a.executed opcode (effect opcode parameter next (a.begun next)) :=
    fun hadmitted => step_operation_ok table h hopcode (hfollows.succeeds hadmitted)
  refine ⟨⟨?_, ?_⟩, ?_⟩
  · rintro ⟨fault, hfault⟩
    by_contra hadmitted
    rw [(hsucceeds hadmitted).1] at hfault
    cases hfault
  · intro hrefused
    obtain ⟨fault, m, hrun⟩ := hfollows.fails hrefused
    exact ⟨fault, (step_operation_error table h hopcode hrun).1⟩
  · intro hadmitted
    obtain ⟨hvalue, hafter⟩ := hsucceeds hadmitted
    exact ⟨hvalue, hafter, framed_effect hbegun hadmitted⟩

/-- The first machine finds a local in a slot that its stack does not reach any more; the second
divides by zero with two values on the stack. -/
theorem step_by_table_local_and_remainder :
    let stack : Vector Word stackSize := #v[0, 0, 0, 0, 0, 0, 0, 0, 0, 0, 0, 0, 9, 0, 7]
    let a : Actor Unit :=
      ⟨{ program := { words := #[0x4603] }, machine := { ip := some 0, stack := stack } }, ()⟩
    let b : Actor Unit :=
      ⟨{ program := { words := #[0x5110] },
         machine := { ip := some 0, stack := stack, stackPointer := 13 } }, ()⟩
    let table : NativeTable Unit := .empty .unknown
    ((a.step table).value = .ok true ∧ (a.step table).after.engine.machine.values = [9]) ∧
      ∃ fault, (b.step table).value = .error fault := by
  intro stack a b table
  constructor
  · have hread : a.operation? = some (.pushLocal, 3, 1) := by decide
    have hadmitted : ¬Refuses .pushLocal 3 a.engine.machine := by decide
    obtain ⟨_, hsucceeds⟩ := step_by_table table (by decide) hread (by decide)
    obtain ⟨hvalue, hafter, _⟩ := hsucceeds hadmitted
    refine ⟨hvalue, ?_⟩
    rw [hafter]
    decide
  · have hread : b.operation? = some (.binary, 16, 1) := by decide
    have hrefused : Refuses .binary 16 b.engine.machine := by decide
    obtain ⟨hfails, _⟩ := step_by_table table (by decide) hread (by decide)
    exact hfails.2 hrefused

end Actor

end EntityScript

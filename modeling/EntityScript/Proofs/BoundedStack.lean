import EntityScript.Proofs.Operations

namespace EntityScript

inductive StackCall where
  | push (value : Word)
  | pop
  | peek (n : UInt8)
  | depth
  | rewind (count : Word)
  deriving DecidableEq

inductive StackReply where
  | done
  | value (value : Word)
  | count (n : Nat)
  deriving DecidableEq

abbrev StackAnswer := Except Fault StackReply

namespace StackCall

open Machine (Action)

def perform : StackCall → Action StackReply
  | push value => do
      Machine.push value
      return .done
  | pop => do
      let top ← Machine.pop
      return .value top
  | peek n => do
      let value ← Machine.peek n
      return .value value
  | depth => do
      let m ← get
      return .count m.depth
  | rewind count => do
      Machine.rewind count
      return .done

def onMachine (m : Machine) (call : StackCall) : StackAnswer × Machine :=
  match call.perform m with
  | .ok reply after => (.ok reply, after)
  | .error fault after => (.error fault, after)

/-- The list refuses a call that reaches for a slot outside the stack. -/
def refused (values : List Word) (slot : Int) : StackAnswer × List Word :=
  (.error (.stackOverflow (.ofNat (stackSize - values.length)) (.ofInt slot)), values)

/-- What a list of at most fifteen values answers to a call, and the list that it becomes. -/
def onList (values : List Word) : StackCall → StackAnswer × List Word
  | push value =>
      if values.length < stackSize then (.ok .done, value :: values) else refused values (-1)
  | pop =>
      match values with
      | [] => refused [] stackSize
      | top :: rest => (.ok (.value top), rest)
  | peek n =>
      if 0 < n.toNat ∧ n.toNat ≤ values.length then
        (.ok (.value (values.getD (n.toNat - 1) 0)), values)
      else refused values (stackSize - values.length + n.toNat - 1)
  | depth => (.ok (.count values.length), values)
  | rewind count =>
      if count.toNat ≤ values.length then (.ok .done, values.drop count.toNat)
      else refused values (stackSize - values.length + count.toNat)

/-- The answers to calls that come one after the other, and the state after them. -/
def serve {σ : Type} (answer : σ → StackCall → StackAnswer × σ) (s : σ) :
    List StackCall → List StackAnswer × σ
  | [] => ([], s)
  | call :: calls =>
      let next := answer s call
      let rest := serve answer next.2 calls
      (next.1 :: rest.1, rest.2)

theorem serve_append {σ : Type} (answer : σ → StackCall → StackAnswer × σ) (s : σ)
    (first second : List StackCall) :
    serve answer s (first ++ second) =
      ((serve answer s first).1 ++ (serve answer (serve answer s first).2 second).1,
        (serve answer (serve answer s first).2 second).2) := by
  induction first generalizing s with
  | nil => rfl
  | cons call first ih => simp only [List.cons_append, serve, ih]

variable {m : Machine} {call : StackCall}

theorem onMachine_ok {reply : StackReply} {after : Machine} (h : call.perform m = .ok reply after) :
    onMachine m call = (.ok reply, after) := by
  rw [onMachine, h]

theorem onMachine_error {fault : Fault} {after : Machine} (h : call.perform m = .error fault after) :
    onMachine m call = (.error fault, after) := by
  rw [onMachine, h]

theorem refused_values (hm : m.InBounds) (slot : Int) :
    refused m.values slot = (.error (m.overflow (.ofInt slot)), m.values) := by
  have hlength := Machine.stackPointer_add_length hm
  have htop : stackSize - m.values.length = m.stackPointer.toNat := by omega
  rw [refused, htop, UInt8.ofNat_toNat, Machine.overflow]

/-- The machine and the list give the same reply, and only the stack and its pointer change. -/
def Accepted (m : Machine) (call : StackCall) : Prop :=
  ∃ reply after, onMachine m call = (.ok reply, after) ∧
    onList m.values call = (.ok reply, after.values) ∧ after.InBounds ∧
      after = { m with stack := after.stack, stackPointer := after.stackPointer }

/-- The machine and the list refuse the call with the same fault and stay as they are. -/
def Refused (m : Machine) (call : StackCall) : Prop :=
  ∃ slot, onMachine m call = (.error (m.overflow slot), m) ∧
    onList m.values call = (.error (m.overflow slot), m.values)

theorem push_cases (hm : m.InBounds) (value : Word) :
    Accepted m (.push value) ∨ Refused m (.push value) := by
  have hlength := Machine.stackPointer_add_length hm
  rcases Nat.eq_zero_or_pos m.stackPointer.toNat with hfull | hroom
  · refine .inr ⟨-1, onMachine_error (Machine.bind_error (Machine.push_full hfull value)), ?_⟩
    rw [onList, if_neg (by omega), refused_values hm]
    rfl
  · refine .inl ⟨.done, m.pushed value,
      onMachine_ok (Machine.bind_ok (Machine.push_ok hm hroom value)), ?_,
      hm.pushed value hroom, rfl⟩
    rw [onList, if_pos (by omega), Machine.values_pushed hm hroom]

theorem pop_cases (hm : m.InBounds) : Accepted m .pop ∨ Refused m .pop := by
  rcases Nat.lt_or_ge m.stackPointer.toNat stackSize with hsome | hempty
  · have hvalues := Machine.values_popped hsome
    have htop : (m.popped 1).stackPointer.toNat = m.stackPointer.toNat + 1 :=
      Machine.stackPointer_popped (n := 1) (by simp; omega)
    refine .inl ⟨.value m.stack[m.stackPointer.toNat], m.popped 1,
      onMachine_ok (Machine.bind_ok (Machine.pop_ok hsome)), ?_, ?_, rfl⟩
    · rw [hvalues, onList]
    · rw [Machine.InBounds, htop]
      exact hsome
  · have hlength := Machine.stackPointer_add_length hm
    have hnil : m.values = [] := List.eq_nil_of_length_eq_zero (by omega)
    have htop : m.stackPointer.toNat = stackSize := Nat.le_antisymm hm hempty
    refine .inr ⟨.ofByte m.stackPointer,
      onMachine_error (Machine.bind_error (Machine.pop_empty hempty)), ?_⟩
    have hrefused := refused_values hm stackSize
    rw [hnil] at hrefused ⊢
    rw [onList, hrefused, Slot.ofByte_eq_ofInt, htop]

theorem peek_cases (hm : m.InBounds) (n : UInt8) :
    Accepted m (.peek n) ∨ Refused m (.peek n) := by
  have hlength := Machine.stackPointer_add_length hm
  by_cases h : 0 < n.toNat ∧ n.toNat ≤ m.values.length
  · have hslot : m.stackPointer.toNat + n.toNat ≤ stackSize := by omega
    refine .inl ⟨_, m, onMachine_ok (Machine.bind_ok (Machine.peek_ok h.1 hslot)), ?_, hm, rfl⟩
    rw [onList, if_pos h, List.getD_eq_getElem?_getD, Machine.getElem?_values,
      ← Nat.add_sub_assoc h.1, Vector.getElem?_eq_getElem, Option.getD_some]
  · have hpeek : Machine.peek n m =
        .error (m.overflow (.ofByte m.stackPointer + .ofByte n - 1)) m := by
      rcases Nat.eq_zero_or_pos n.toNat with hzero | hpos
      · obtain rfl : n = 0 := UInt8.toNat_inj.1 hzero
        exact Machine.peek_zero
      · exact Machine.peek_short (by omega)
    refine .inr ⟨_, onMachine_error (Machine.bind_error hpeek), ?_⟩
    have hslot : (stackSize - m.values.length + n.toNat - 1 : Int) =
        m.stackPointer.toNat + n.toNat - 1 := by omega
    rw [onList, if_neg h, refused_values hm, Machine.peekSlot_eq, hslot]

theorem rewind_cases (hm : m.InBounds) {count : Word} (hcount : count ≤ 0x7FFF) :
    Accepted m (.rewind count) ∨ Refused m (.rewind count) := by
  have hlength := Machine.stackPointer_add_length hm
  have hlt : count.toNat < 32768 := Nat.lt_succ_of_le (UInt16.le_iff_toNat_le.1 hcount)
  have hamount := Word.toInt_signed hlt
  by_cases h : count.toNat ≤ m.values.length
  · have hshift : Machine.rewind count m = .ok ()
        { m with stackPointer := .ofInt (m.stackPointer.toNat + count.signed.toInt) } :=
      Machine.shift_ok (by omega) (by omega) (by omega) (by omega)
    have htop : (UInt8.ofInt (m.stackPointer.toNat + count.signed.toInt)).toNat =
        m.stackPointer.toNat + count.toNat := by
      have := Machine.toNat_ofInt (n := m.stackPointer.toNat + count.signed.toInt)
        (by omega) (by unfold stackSize at hlength; omega)
      omega
    refine .inl ⟨.done, _, onMachine_ok (Machine.bind_ok hshift), ?_, ?_, rfl⟩
    · rw [onList, if_pos h, Machine.values_moved htop]
    · rw [Machine.InBounds, htop]
      omega
  · have hshift : Machine.rewind count m =
        .error (m.overflow (.ofByte m.stackPointer + count.signed)) m :=
      Machine.shift_outside (by omega) (by omega) (by omega)
    refine .inr ⟨_, onMachine_error (Machine.bind_error hshift), ?_⟩
    have hslot : (stackSize - m.values.length + count.toNat : Int) =
        m.stackPointer.toNat + count.signed.toInt := by omega
    rw [onList, if_neg h, refused_values hm, Machine.shiftTarget_eq, hslot]

theorem depth_accepted (hm : m.InBounds) : Accepted m .depth := by
  refine ⟨.count m.depth, m, rfl, ?_, hm, rfl⟩
  rw [onList, Machine.length_values]

theorem call_cases (hm : m.InBounds) (hcount : ∀ count, call = .rewind count → count ≤ 0x7FFF) :
    Accepted m call ∨ Refused m call := by
  cases call with
  | push value => exact push_cases hm value
  | pop => exact pop_cases hm
  | peek n => exact peek_cases hm n
  | depth => exact .inl (depth_accepted hm)
  | rewind count => exact rewind_cases hm (hcount count rfl)

theorem onList_values (h : Accepted m call ∨ Refused m call) :
    onList m.values call = ((onMachine m call).1, (onMachine m call).2.values) := by
  obtain ⟨reply, after, hmachine, hlist, -⟩ | ⟨slot, hmachine, hlist⟩ := h <;>
    rw [hmachine, hlist]

theorem inBounds_onMachine (hm : m.InBounds) (h : Accepted m call ∨ Refused m call) :
    (onMachine m call).2.InBounds := by
  obtain ⟨reply, after, hmachine, -, hafter, -⟩ | ⟨slot, hmachine, -⟩ := h
  · rwa [hmachine]
  · rwa [hmachine]

theorem onMachine_frame (h : Accepted m call ∨ Refused m call) :
    let after := (onMachine m call).2
    after = { m with stack := after.stack, stackPointer := after.stackPointer } ∧
      ∀ fault, (onMachine m call).1 = .error fault →
        after = m ∧ ∃ slot, fault = .stackOverflow m.stackPointer slot := by
  obtain ⟨reply, after, hmachine, -, -, hafter⟩ | ⟨slot, hmachine, -⟩ := h
  · rw [hmachine]
    exact ⟨hafter, fun fault hfault => nomatch hfault⟩
  · rw [hmachine]
    exact ⟨rfl, fun fault hfault => ⟨rfl, slot, (Except.error.inj hfault).symm⟩⟩

theorem serve_onList (hm : m.InBounds) {calls : List StackCall}
    (hcount : ∀ count, .rewind count ∈ calls → count ≤ 0x7FFF) :
    (serve onMachine m calls).2.InBounds ∧
      serve onList m.values calls =
        ((serve onMachine m calls).1, (serve onMachine m calls).2.values) := by
  -- A call leaves the machine in bounds, so the later calls start from another such machine.
  induction calls generalizing m with
  | nil => exact ⟨hm, rfl⟩
  | cons call calls ih =>
      have hcall : Accepted m call ∨ Refused m call :=
        call_cases hm fun count heq => hcount count (heq ▸ List.mem_cons_self)
      obtain ⟨hafter, hrest⟩ := ih (inBounds_onMachine hm hcall)
        fun count hmem => hcount count (List.mem_cons_of_mem _ hmem)
      refine ⟨hafter, ?_⟩
      simp only [serve, onList_values hcall, hrest]

theorem serve_push {pushed values : List Word} (h : pushed.length + values.length ≤ stackSize) :
    serve onList values (pushed.map push) =
      (List.replicate pushed.length (Except.ok StackReply.done), pushed.reverse ++ values) := by
  induction pushed generalizing values with
  | nil => rfl
  | cons value pushed ih =>
      rw [List.length_cons] at h
      have hroom : values.length < stackSize := by omega
      have hfits : pushed.length + (value :: values).length ≤ stackSize := by
        rw [List.length_cons]
        omega
      have hrest := ih hfits
      simp only [List.map_cons, serve, onList, if_pos hroom, hrest, List.length_cons,
        List.replicate_succ, List.reverse_cons, List.append_assoc, List.singleton_append]

theorem serve_pop (popped values : List Word) :
    serve onList (popped ++ values) (List.replicate popped.length pop) =
      (popped.map fun value => Except.ok (StackReply.value value), values) := by
  induction popped with
  | nil => rfl
  | cons value popped ih =>
      simp only [List.length_cons, List.replicate_succ, List.cons_append, serve, onList, ih,
        List.map_cons]

theorem serve_push_pop {pushed values : List Word}
    (h : pushed.length + values.length ≤ stackSize) :
    serve onList values (pushed.map push ++ List.replicate pushed.length pop) =
      (List.replicate pushed.length (Except.ok StackReply.done) ++
        pushed.reverse.map fun value => Except.ok (StackReply.value value), values) := by
  have hpops := serve_pop pushed.reverse values
  rw [List.length_reverse] at hpops
  simp only [serve_append, serve_push h, hpops]

/-- A machine answers calls on its stack as a list of at most fifteen values does.  A call changes
nothing but the stack and its pointer, and nothing if it is refused. -/
theorem bounded_stack (hm : m.InBounds) :
    (∀ calls : List StackCall, (∀ count, .rewind count ∈ calls → count ≤ 0x7FFF) →
      (serve onMachine m calls).2.InBounds ∧
        serve onList m.values calls =
          ((serve onMachine m calls).1, (serve onMachine m calls).2.values) ∧
        ∀ earlier call later, calls = earlier ++ call :: later →
          let before := (serve onMachine m earlier).2
          let after := (onMachine before call).2
          after = { before with stack := after.stack, stackPointer := after.stackPointer } ∧
            ∀ fault, (onMachine before call).1 = .error fault →
              after = before ∧ ∃ slot, fault = .stackOverflow before.stackPointer slot) ∧
    ∀ pushed : List Word, pushed.length + m.values.length ≤ stackSize →
      let calls := pushed.map push ++ List.replicate pushed.length pop
      (serve onMachine m calls).1 =
          List.replicate pushed.length (Except.ok StackReply.done) ++
            pushed.reverse.map (fun value => Except.ok (StackReply.value value)) ∧
        (serve onMachine m calls).2.values = m.values := by
  refine ⟨?_, ?_⟩
  · intro calls hcount
    obtain ⟨hafter, hlist⟩ := serve_onList hm hcount
    refine ⟨hafter, hlist, ?_⟩
    rintro earlier call later rfl before
    have hbefore : before.InBounds :=
      (serve_onList hm fun count hmem => hcount count (List.mem_append_left _ hmem)).1
    apply onMachine_frame
    apply call_cases hbefore
    rintro count rfl
    exact hcount count (List.mem_append_right _ List.mem_cons_self)
  · intro pushed hpushed calls
    have hcount : ∀ count, .rewind count ∈ calls → count ≤ 0x7FFF := by
      intro count hmem
      simp [calls] at hmem
    obtain ⟨-, hlist⟩ := serve_onList hm hcount
    rw [serve_push_pop hpushed] at hlist
    obtain ⟨hreplies, hvalues⟩ := Prod.mk.inj hlist
    exact ⟨hreplies.symm, hvalues.symm⟩

/-- A sixteenth push fails, and after it the first value is still the fifteenth from the top. -/
theorem bounded_stack_full :
    let pushed := (List.range 15).map UInt16.ofNat
    let last : List StackAnswer :=
      [.error (.stackOverflow 0 (-1)), .ok (.value 0), .error (.stackOverflow 0 15), .ok .done,
        .error (.stackOverflow 15 15)]
    let calls := pushed.map push ++ [push 15, peek 15, peek 16, rewind 15, pop]
    Machine.InBounds {} ∧ (∀ count, .rewind count ∈ calls → count ≤ 0x7FFF) ∧
      (serve onMachine {} calls).1 = List.replicate 15 (Except.ok StackReply.done) ++ last ∧
      (serve onMachine {} (pushed.map push ++ List.replicate 15 pop)).1 =
        List.replicate 15 (Except.ok StackReply.done) ++
          pushed.reverse.map fun value => Except.ok (StackReply.value value) := by
  intro pushed last calls
  have hm : Machine.InBounds {} := by decide
  have hcount : ∀ count, .rewind count ∈ calls → count ≤ 0x7FFF := by
    intro count hmem
    obtain rfl : count = 15 := by simpa [calls] using hmem
    decide
  obtain ⟨hcalls, hpushed⟩ := bounded_stack hm
  obtain ⟨-, hlist, -⟩ := hcalls calls hcount
  have hanswers : (serve onMachine {} calls).1 = (serve onList [] calls).1 :=
    (congrArg Prod.fst hlist).symm
  exact ⟨hm, hcount, hanswers.trans (by decide), (hpushed pushed (by decide)).1⟩

end StackCall

end EntityScript

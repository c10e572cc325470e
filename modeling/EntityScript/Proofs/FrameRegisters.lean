import EntityScript.Proofs.CallFrames
import EntityScript.Proofs.FailedSteps
import EntityScript.Proofs.OperationTable
import EntityScript.Proofs.Routine

/-!
The locals and arguments of a frame as registers.  They lie on the stack above everything that the
body of the frame pushes, so each of them holds what was stored in it last.
-/

namespace EntityScript

namespace Machine

variable {m : Machine} {base frame locals : Nat}

/-- The locals lie below the linkage, which lies below the base of the frame, and everything that
the body of the frame pushes lies below them. -/
structure HasFrame (frame locals : Nat) (m : Machine) : Prop where
  reserved : locals + 2 ≤ frame
  onStack : frame ≤ stackSize
  base : m.framePointer.toNat = frame
  below : m.stackPointer.toNat ≤ frame - 2 - locals

theorem HasFrame.body_le (hm : m.HasFrame frame locals) : frame - 2 - locals ≤ stackSize :=
  (Nat.sub_le _ _).trans ((Nat.sub_le _ _).trans hm.onStack)

theorem HasFrame.inBounds (hm : m.HasFrame frame locals) : m.InBounds :=
  hm.below.trans hm.body_le

/-- A request that touches the stack only by pushes, pops and peeks. -/
def Request.IsPlain : Request → Prop
  | push _ | pop | peek _ | enterSubroutine .. | readVariable _ | writeVariable ..
  | setDelay _ => True
  | readSlot _ | writeSlot .. | rewind _ | forward _ | reset => False

def Operation.IsPlain : Operation → Prop
  | instruction .. => False
  | request r => r.IsPlain

/-- A visit for a plain request that does not pop the value at `base`. -/
structure Visit.Spares (base : Nat) (v : Visit) : Prop where
  plain : v.operation.IsPlain
  unpopped : .pop base ∉ (endState (v.operation.recorded ⟨v.machine, []⟩)).log

theorem endState_bind_zero {f : Action Unit} :
    endState ((f >>= fun _ => pure (0 : Word)) m) = endState (f m) := by
  cases h : f m with
  | ok value m' => rw [bind_ok h]; rfl
  | error fault m' => rw [bind_error h]; rfl

theorem Request.perform_below {r : Request} (hbase : base ≤ stackSize)
    (hm : m.stackPointer.toNat ≤ base) (hplain : r.IsPlain)
    (hpop : .pop base ∉ (endState (r.recorded ⟨m, []⟩)).log) :
    (endState (r.perform m)).stackPointer.toNat ≤ base ∧
      ∀ i, base ≤ i → (endState (r.perform m)).stack[i]? = m.stack[i]? := by
  have hbounds : m.InBounds := Nat.le_trans hm hbase
  cases r with
  | push value =>
      rw [perform, endState_bind_zero]
      by_cases hzero : m.stackPointer.toNat = 0
      · rw [push_full hzero]
        exact ⟨hm, fun _ _ => rfl⟩
      · have hpos : 0 < m.stackPointer.toNat := Nat.pos_of_ne_zero hzero
        rw [push_ok hbounds hpos]
        refine ⟨?_, fun i hi => getElem?_stack_pushed_above hpos value (hm.trans hi)⟩
        exact (stackPointer_pushed value hpos).le.trans (Nat.le_trans (Nat.sub_le _ _) hm)
  | pop =>
      rw [perform]
      by_cases hempty : stackSize ≤ m.stackPointer.toNat
      · rw [pop_empty hempty]
        exact ⟨hm, fun _ _ => rfl⟩
      · have hlt : m.stackPointer.toNat < stackSize := Nat.lt_of_not_le hempty
        rw [pop_ok hlt]
        refine ⟨?_, fun _ _ => rfl⟩
        have hne : m.stackPointer.toNat ≠ base := by
          rintro rfl
          apply hpop
          rw [recorded, Recorded.pop, if_neg (Int.not_le.2 (Int.ofNat_lt.2 hlt))]
          simp [endState, Recording.note, Recording.movePointer]
        have hpopped := stackPointer_popped (m := m) (n := 1) (by simp; omega)
        change (m.popped 1).stackPointer.toNat ≤ base
        rw [hpopped]
        change m.stackPointer.toNat + 1 ≤ base
        omega
  | peek n =>
      rw [perform, endState_peek]
      exact ⟨hm, fun _ _ => rfl⟩
  | enterSubroutine program subtype =>
      rw [perform, endState_bind_zero]
      obtain ⟨hpointer, -, hstack⟩ := enterSubroutine_below hbase hm program subtype
      exact ⟨hpointer, hstack⟩
  | readVariable index | writeVariable index value =>
      simp only [perform]
      cases variableIndex? index with
      | none => exact ⟨hm, fun _ _ => rfl⟩
      | some i => exact ⟨hm, fun _ _ => rfl⟩
  | setDelay ticks => exact ⟨hm, fun _ _ => rfl⟩
  | readSlot slot | writeSlot slot value | rewind count | forward count | reset => exact hplain.elim

end Machine

open Machine

theorem Routine.run_below {ω : Type} {base : Nat} (hbase : base ≤ stackSize) (routine : Routine ω)
    (site : CallSite) (call : Call ω) (hcall : call.machine.stackPointer.toNat ≤ base)
    (h : ∀ v ∈ (routine.run site call).2, v.Spares base) :
    let done := (endState (routine.run site call).1).machine
    done.stackPointer.toNat ≤ base ∧
      ∀ i, base ≤ i → done.stack[i]? = call.machine.stack[i]? := by
  induction routine generalizing call with
  | finish value => exact ⟨hcall, fun _ _ => rfl⟩
  | fail fault => exact ⟨hcall, fun _ _ => rfl⟩
  | look next ih => exact ih site call call hcall h
  | modifyOwner change next ih => exact ih _ hcall h
  | report event next ih => exact ih _ hcall h
  | stop next ih => exact ih _ hcall h
  | request r next ih =>
      obtain ⟨hfirst, hlater⟩ := List.forall_mem_cons.1 h
      obtain ⟨hpointer, hstack⟩ :=
        r.perform_below hbase hcall hfirst.plain hfirst.unpopped
      obtain ⟨hpointer', hstack'⟩ := ih (answer (r.perform call.machine))
        { call with machine := endState (r.perform call.machine) } hpointer hlater
      exact ⟨hpointer', fun i hi => (hstack' i hi).trans (hstack i hi)⟩

/-- A local or an argument of a frame, by the parameter that selects it. -/
inductive Register where
  | ofLocal (index : Word)
  | ofArgument (index : Word)
  deriving DecidableEq

namespace Register

/-- The slot of a register of the frame with a given base. -/
def slot (frame : Nat) : Register → Nat
  | ofLocal index => frame - index.toNat - 2
  | ofArgument index => frame + index.toNat - 1

/-- The registers of a frame with so many locals.  Everything above its base is an argument. -/
def InFrame (frame locals : Nat) : Register → Prop
  | ofLocal index => 1 ≤ index.toNat ∧ index.toNat ≤ locals
  | ofArgument index => 1 ≤ index.toNat ∧ frame + index.toNat ≤ stackSize

instance (frame locals : Nat) (r : Register) : Decidable (r.InFrame frame locals) :=
  match r with
  | ofLocal _ => inferInstanceAs (Decidable (_ ∧ _))
  | ofArgument _ => inferInstanceAs (Decidable (_ ∧ _))

/-- The register that an operation pushes. -/
def pushedBy? : Opcode → Word → Option Register
  | .pushLocal, index => some (ofLocal index)
  | .pushArgument, index => some (ofArgument index)
  | _, _ => none

/-- The register that an operation pops into. -/
def poppedBy? : Opcode → Word → Option Register
  | .popLocal, index => some (ofLocal index)
  | .popArgument, index => some (ofArgument index)
  | _, _ => none

variable {frame locals : Nat} {r r' : Register} {m : Machine}

theorem InFrame.slot_bounds (h : r.InFrame frame locals) (hm : m.HasFrame frame locals) :
    frame - 2 - locals ≤ r.slot frame ∧ r.slot frame < stackSize ∧
      r.slot frame ≠ frame - 1 ∧ r.slot frame ≠ frame - 2 := by
  obtain ⟨hlocals, hsize, -, -⟩ := hm
  cases r with
  | ofLocal index =>
      obtain ⟨hlow, hhigh⟩ := h
      simp only [slot]
      omega
  | ofArgument index =>
      obtain ⟨hlow, hhigh⟩ := h
      simp only [slot]
      omega

theorem InFrame.slot_injective (h : r.InFrame frame locals) (h' : r'.InFrame frame locals)
    (hm : m.HasFrame frame locals) (heq : r.slot frame = r'.slot frame) : r = r' := by
  have hlocals := hm.reserved
  cases r with
  | ofLocal index =>
      obtain ⟨hlow, hhigh⟩ := h
      cases r' with
      | ofLocal index' =>
          obtain ⟨hlow', hhigh'⟩ := h'
          simp only [slot] at heq
          rw [UInt16.toNat_inj.1 (by omega : index.toNat = index'.toNat)]
      | ofArgument index' =>
          obtain ⟨hlow', hhigh'⟩ := h'
          simp only [slot] at heq
          omega
  | ofArgument index =>
      obtain ⟨hlow, hhigh⟩ := h
      cases r' with
      | ofLocal index' =>
          obtain ⟨hlow', hhigh'⟩ := h'
          simp only [slot] at heq
          omega
      | ofArgument index' =>
          obtain ⟨hlow', hhigh'⟩ := h'
          simp only [slot] at heq
          rw [UInt16.toNat_inj.1 (by omega : index.toNat = index'.toNat)]

/-- The slot of a register as the operations compute it. -/
def position (m : Machine) : Register → Int
  | ofLocal index => m.localAt index
  | ofArgument index => m.argumentAt index

variable {opcode : Opcode} {parameter : Word}

theorem InFrame.position_eq (h : r.InFrame frame locals) (hm : m.HasFrame frame locals) :
    r.position m = r.slot frame := by
  obtain ⟨hlocals, -, hbase, -⟩ := hm
  cases r with
  | ofLocal index =>
      obtain ⟨hlow, hhigh⟩ := h
      simp only [position, slot, localAt]
      omega
  | ofArgument index =>
      obtain ⟨hlow, hhigh⟩ := h
      simp only [position, slot, argumentAt]
      omega

theorem InFrame.isSlot (h : r.InFrame frame locals) (hm : m.HasFrame frame locals) :
    IsSlot (r.position m) := by
  obtain ⟨-, hlt, -, -⟩ := h.slot_bounds hm
  rw [h.position_eq hm]
  exact ⟨Int.natCast_nonneg _, Int.ofNat_lt.2 hlt⟩

theorem pushes (h : pushedBy? opcode parameter = some r) : opcode ≠ .function ∧
    (∀ m, Refuses opcode parameter m ↔ ¬IsSlot (r.position m) ∨ m.stackPointer.toNat = 0) ∧
      ∀ next m, effect opcode parameter next m = m.pushed (m.valueAt (r.position m)) := by
  cases opcode with
  | pushLocal | pushArgument =>
      cases h
      exact ⟨by decide, fun _ => Iff.rfl, fun _ _ => rfl⟩
  | _ => cases h

theorem pops (h : poppedBy? opcode parameter = some r) : opcode ≠ .function ∧
    (∀ m, Refuses opcode parameter m ↔ ¬IsSlot (r.position m) ∨ m.depth = 0) ∧
      ∀ next m, effect opcode parameter next m =
        (m.popped 1).stored (r.position m) m.top := by
  cases opcode with
  | popLocal | popArgument =>
      cases h
      exact ⟨by decide, fun _ => Iff.rfl, fun _ _ => rfl⟩
  | _ => cases h

end Register

namespace Machine

variable {m : Machine} {parameter : Word}

theorem recorded_pop {r : Recording} (h : r.machine.stackPointer.toNat < stackSize) :
    ∃ value r', Recorded.pop r = .ok value r' ∧
      .pop r.machine.stackPointer.toNat ∈ r'.log ∧
        r'.machine.stackPointer.toNat = r.machine.stackPointer.toNat + 1 := by
  refine ⟨_, _, if_neg (Int.not_le.2 (Int.ofNat_lt.2 h)), ?_, ?_⟩
  · simp [Recording.note, Recording.movePointer]
  · have hnext := toNat_ofInt (n := r.machine.stackPointer.toNat + 1) (by omega)
      (by unfold stackSize at h; omega)
    exact Int.ofNat.inj hnext

theorem pop_mem_unary (next : Word) (hm : ¬Refuses .unary parameter m) :
    .pop m.stackPointer.toNat ∈
      (endState (Recorded.execute .unary parameter next ⟨m, []⟩)).log := by
  obtain ⟨hselector, hdepth⟩ := not_or.1 hm
  obtain ⟨op, hop⟩ :=
    Option.ne_none_iff_exists'.1 (mt UnaryOp.ofSelector?_eq_none_iff.1 hselector)
  have hlt : m.stackPointer.toNat < stackSize := Nat.lt_of_not_le (mt depth_eq_zero_iff.2 hdepth)
  obtain ⟨value, r, hpop, hmem, -⟩ := recorded_pop (r := ⟨m, []⟩) hlt
  simp only [Recorded.execute, hop]
  rw [Recorded.applyUnary, bind_ok hpop]
  have hconfined : Confines 0 (Recorded.push _) := Confines.push (op.apply value)
  exact hconfined.log_subset _ hmem

theorem pop_mem_binary (next : Word) (hbounds : m.InBounds) (hm : ¬Refuses .binary parameter m) :
    .pop (m.stackPointer.toNat + 1) ∈
      (endState (Recorded.execute .binary parameter next ⟨m, []⟩)).log := by
  obtain ⟨hselector, hrest⟩ := not_or.1 hm
  obtain ⟨op, hop⟩ :=
    Option.ne_none_iff_exists'.1 (mt BinaryOp.ofSelector?_eq_none_iff.1 hselector)
  have htwo : m.stackPointer.toNat + 2 ≤ stackSize :=
    Nat.not_lt.1 (mt (depth_lt_iff hbounds).2 (not_or.1 hrest).1)
  have hpeek : ∃ value log, Recorded.peek 2 ⟨m, []⟩ = .ok value ⟨m, log⟩ := by
    rw [Recorded.peek, if_neg]
    · exact ⟨_, _, rfl⟩
    · simp
      omega
  obtain ⟨value, log, hpeek⟩ := hpeek
  obtain ⟨right, r, hpop, -, hnext⟩ :=
    recorded_pop (r := ⟨m, log⟩) (show m.stackPointer.toNat < stackSize by omega)
  obtain ⟨left, r', hpop', hmem, -⟩ := recorded_pop (r := r) (hnext ▸ htwo)
  rw [hnext] at hmem
  simp only [Recorded.execute, hop]
  rw [Recorded.applyBinary, bind_ok hpeek, bind_ok hpop, bind_ok hpop']
  cases op.apply left right with
  | ok value =>
      have hconfined : Confines 0 (Recorded.push value) := Confines.push value
      exact hconfined.log_subset _ hmem
  | error fault => exact hmem

end Machine

namespace Actor

variable {ω : Type} {a b c : Actor ω} {library : Library ω} {frame locals : Nat}
  {stores : List (Register × Word)} {r : Register} {opcode : Opcode} {parameter next : Word}

/-- The register that the next step pops into, and the value that it stores. -/
def stored? (a : Actor ω) : Option (Register × Word) :=
  match a.operation? with
  | none => none
  | some (opcode, parameter, _) =>
      (Register.poppedBy? opcode parameter).map fun r => (r, a.engine.machine.top)

variable [Owner ω]

/-- The next step keeps to the frame.  It pops nothing that was on the stack when the locals were
reserved, uses only registers of the frame and leaves the frame pointer alone. -/
structure Abides (library : Library ω) (frame locals : Nat) (a : Actor ω) : Prop where
  succeeds : (a.step library.table).value = .ok true
  sameFrame : (a.step library.table).after.engine.machine.framePointer =
    a.engine.machine.framePointer
  below : (a.step library.table).after.engine.machine.stackPointer.toNat ≤ frame - 2 - locals
  unpopped : .pop (frame - 2 - locals : Nat) ∉ a.accesses
  inFrame : ∀ opcode parameter next, a.operation? = some (opcode, parameter, next) →
    ∀ r, Register.pushedBy? opcode parameter = some r ∨
      Register.poppedBy? opcode parameter = some r → r.InFrame frame locals
  native : ∀ parameter next routine, a.operation? = some (.function, parameter, next) →
    library.get? (parameter &&& 0xFF) = some routine →
      ∀ v ∈ (routine.run a.site (a.opened next)).2, v.Spares (frame - 2 - locals)

/-- A run of the body of a frame, and what it has stored in the registers, the newest first. -/
inductive Body (frame locals : Nat) (a : Actor ω) : List (Register × Word) → Actor ω → Prop
  | start : Body frame locals a [] a
  | step {stores : List (Register × Word)} {b : Actor ω} (library : Library ω) :
      Body frame locals a stores b → b.Abides library frame locals →
        Body frame locals a (b.stored?.toList ++ stores) (b.step library.table).after
  | enter {stores : List (Register × Word)} {b : Actor ω} (subtype : Word) :
      Body frame locals a stores b → Body frame locals a stores (b.loadSubroutine subtype).after
  | wait {stores : List (Register × Word)} {b : Actor ω} (ticks : Word) :
      Body frame locals a stores b →
        Body frame locals a stores (b.withMachine { b.engine.machine with delay := ticks })

omit [Owner ω] in
theorem called_routine {value : Word} {done : Call ω}
    (hcall : a.call library.table parameter next = .ok value done) :
    ∃ routine, library.get? (parameter &&& 0xFF) = some routine ∧
      (routine.run a.site (a.opened next)).1 = .ok value done := by
  cases hroutine : library.get? (parameter &&& 0xFF) with
  | none =>
      rw [call_unbound (by rw [Library.get?_table, hroutine]; rfl)] at hcall
      cases hcall
  | some routine =>
      have hnative : library.table.get? (parameter &&& 0xFF) = some routine.native := by
        rw [Library.get?_table, hroutine]
        rfl
      rw [call_bound hnative] at hcall
      exact ⟨routine, rfl, hcall⟩

theorem Abides.stack_native (h : a.Abides library frame locals)
    (hm : a.engine.machine.HasFrame frame locals)
    (hoperation : a.operation? = some (.function, parameter, next)) {i : Nat}
    (hi : frame - 2 - locals ≤ i) :
    (a.step library.table).after.engine.machine.stack[i]? = a.engine.machine.stack[i]? := by
  cases hcall : a.call library.table parameter next with
  | error fault done => cases h.succeeds.symm.trans (step_call_error hoperation hcall).1
  | ok value done =>
      obtain ⟨routine, hroutine, hrun⟩ := called_routine hcall
      obtain ⟨-, hstack⟩ := routine.run_below hm.body_le a.site (a.opened next) hm.below
        (h.native _ _ routine hoperation hroutine)
      have hsame : done.machine.stack[i]? = a.engine.machine.stack[i]? := by
        rw [hrun] at hstack
        exact hstack i hi
      rw [(step_call_ok hoperation hcall).2, ← hsame]
      dsimp only
      split <;> rfl

theorem Abides.stack_executed (h : a.Abides library frame locals)
    (hframe : a.engine.machine.HasFrame frame locals)
    (hoperation : a.operation? = some (opcode, parameter, next)) (hopcode : opcode ≠ .function)
    (hstored : Register.poppedBy? opcode parameter = none) {i : Nat}
    (hi : frame - 2 - locals ≤ i) :
    (a.step library.table).after.engine.machine.stack[i]? = a.engine.machine.stack[i]? := by
  have hpointer : (a.begun next).stackPointer.toNat ≤ frame - 2 - locals := hframe.below
  have hm : (a.begun next).InBounds := hframe.inBounds
  have hadmitted : ¬Refuses opcode parameter (a.begun next) :=
    not_refuses_of_step hm hoperation hopcode h.succeeds
  obtain ⟨-, hafter⟩ := step_admitted library.table hm hoperation hopcode hadmitted
  have hbelow := h.below
  have hunpopped := h.unpopped
  rw [hafter] at hbelow ⊢
  simp only [accesses, hoperation] at hunpopped
  refine stack_effect (m := a.begun next) hm hadmitted ?_
  cases opcode with
  | popLocal | popArgument => cases hstored
  | function => exact absurd rfl hopcode
  | pushResultOrFrame =>
      simp only [writes]
      split <;> simp <;> omega
  | unary =>
      -- It writes the slot that it pops, and it does not pop the one at the base.
      have hne : (a.begun next).stackPointer.toNat ≠ frame - 2 - locals := by
        intro heq
        have hmem := pop_mem_unary next hadmitted
        exact hunpopped (heq ▸ hmem)
      simp only [writes, List.mem_singleton]
      omega
  | binary =>
      have htwo := mt (depth_lt_iff hm).2 (not_or.1 (not_or.1 hadmitted).2).1
      have hne : (a.begun next).stackPointer.toNat + 1 ≠ frame - 2 - locals := by
        intro heq
        have hmem := pop_mem_binary next hm hadmitted
        exact hunpopped (heq ▸ hmem)
      have hpopped := stackPointer_popped (m := a.begun next) (n := 2) (Nat.not_lt.1 htwo)
      have hpushed := stackPointer_pushed (m := (a.begun next).popped 2)
        (binaryValue parameter (a.begun next).second (a.begun next).top)
        (hpopped ▸ Nat.succ_pos _)
      change ((a.begun next).popped 2 |>.pushed _).stackPointer.toNat ≤ _ at hbelow
      rw [hpushed, hpopped] at hbelow
      change (a.begun next).stackPointer.toNat + 1 ≤ _ at hbelow
      simp only [writes, List.mem_singleton]
      omega
  | push | push2 | pushVariable | pushLocal | pushArgument => simp [writes]; omega
  | _ => exact List.not_mem_nil

omit [Owner ω] in
theorem hasFrame_begun (hm : a.engine.machine.HasFrame frame locals) :
    (a.begun next).HasFrame frame locals :=
  ⟨hm.reserved, hm.onStack, hm.base, hm.below⟩

theorem step_stored (table : NativeTable ω) (hm : a.engine.machine.HasFrame frame locals)
    (hoperation : a.operation? = some (opcode, parameter, next))
    (hstored : Register.poppedBy? opcode parameter = some r) (hr : r.InFrame frame locals)
    (hdepth : a.engine.machine.depth ≠ 0) :
    (a.step table).value = .ok true ∧
      ∀ i, (a.step table).after.engine.machine.stack[i]? =
        if i = r.slot frame then some a.engine.machine.top else a.engine.machine.stack[i]? := by
  obtain ⟨hopcode, hrefuses, heffect⟩ := Register.pops hstored
  have hadmitted : ¬Refuses opcode parameter a.engine.machine := by
    rw [hrefuses, not_or, not_not]
    exact ⟨hr.isSlot hm, hdepth⟩
  obtain ⟨hvalue, hafter⟩ := step_admitted table hm.inBounds hoperation hopcode hadmitted
  refine ⟨hvalue, fun i => ?_⟩
  obtain ⟨-, hlt, -, -⟩ := hr.slot_bounds hm
  have hposition : r.position (a.begun next) = r.slot frame := hr.position_eq (hasFrame_begun hm)
  rw [hafter, heffect, hposition]
  change (a.engine.machine.stack.setIfInBounds (r.slot frame) a.engine.machine.top)[i]? = _
  split
  · rename_i heq
    rw [heq]
    exact Vector.getElem?_setIfInBounds_self_of_lt hlt
  · rename_i hne
    exact Vector.getElem?_setIfInBounds_ne (Ne.symm hne)

theorem step_loaded (table : NativeTable ω) {value : Word}
    (hm : a.engine.machine.HasFrame frame locals)
    (hoperation : a.operation? = some (opcode, parameter, next))
    (hpushed : Register.pushedBy? opcode parameter = some r) (hr : r.InFrame frame locals)
    (hroom : 0 < a.engine.machine.stackPointer.toNat)
    (hvalue : a.engine.machine.stack[r.slot frame]? = some value) :
    (a.step table).value = .ok true ∧
      (a.step table).after = a.executed opcode ((a.begun next).pushed value) := by
  obtain ⟨hopcode, hrefuses, heffect⟩ := Register.pushes hpushed
  have hadmitted : ¬Refuses opcode parameter a.engine.machine := by
    rw [hrefuses, not_or, not_not]
    exact ⟨hr.isSlot hm, hroom.ne'⟩
  obtain ⟨hok, hafter⟩ := step_admitted table hm.inBounds hoperation hopcode hadmitted
  have hposition : r.position (a.begun next) = r.slot frame := hr.position_eq (hasFrame_begun hm)
  have hread : (a.begun next).valueAt (r.slot frame) = value := by
    change a.engine.machine.stack[r.slot frame]?.getD 0 = value
    rw [hvalue]
    rfl
  refine ⟨hok, ?_⟩
  rw [hafter, heffect, hposition, hread]

theorem Abides.stack_eq (h : a.Abides library frame locals)
    (hm : a.engine.machine.HasFrame frame locals) :
    ∀ i, frame - 2 - locals ≤ i →
      (a.step library.table).after.engine.machine.stack[i]? =
        match a.stored? with
        | none => a.engine.machine.stack[i]?
        | some (r, value) =>
            if i = r.slot frame then some value else a.engine.machine.stack[i]? := by
  intro i hi
  cases hoperation : a.operation? with
  | none =>
      simp only [stored?, hoperation]
      rw [step_no_operation_machine library.table hoperation]
  | some operation =>
      obtain ⟨opcode, parameter, next⟩ := operation
      simp only [stored?, hoperation]
      cases hstored : Register.poppedBy? opcode parameter with
      | some r =>
          have hr := h.inFrame _ _ _ hoperation r (.inr hstored)
          obtain ⟨hopcode, hrefuses, -⟩ := Register.pops hstored
          have hadmitted := not_refuses_of_step hm.inBounds hoperation hopcode h.succeeds
          rw [hrefuses] at hadmitted
          exact (step_stored library.table hm hoperation hstored hr (not_or.1 hadmitted).2).2 i
      | none =>
          by_cases hopcode : opcode = .function
          · subst opcode
            exact h.stack_native hm hoperation hi
          · exact h.stack_executed hm hoperation hopcode hstored hi

omit [Owner ω] in
theorem operation?_of_stored? {value : Word} (h : a.stored? = some (r, value)) :
    ∃ opcode parameter next, a.operation? = some (opcode, parameter, next) ∧
      Register.poppedBy? opcode parameter = some r := by
  unfold stored? at h
  split at h
  · cases h
  · rename_i opcode parameter next hoperation
    obtain ⟨found, hpopped, heq⟩ := Option.map_eq_some_iff.1 h
    cases heq
    exact ⟨opcode, parameter, next, hoperation, hpopped⟩

theorem Abides.hasFrame (h : a.Abides library frame locals)
    (hm : a.engine.machine.HasFrame frame locals) :
    (a.step library.table).after.engine.machine.HasFrame frame locals :=
  ⟨hm.reserved, hm.onStack, h.sameFrame ▸ hm.base, h.below⟩

theorem Body.registers_kept (h : Body frame locals a stores c)
    (ha : a.engine.machine.HasFrame frame locals) :
    c.engine.machine.HasFrame frame locals ∧
      (∀ r : Register, r.InFrame frame locals → c.engine.machine.stack[r.slot frame]? =
        (stores.lookup r).or a.engine.machine.stack[r.slot frame]?) ∧
      ∀ i, frame - 2 ≤ i → i < frame →
        c.engine.machine.stack[i]? = a.engine.machine.stack[i]? := by
  induction h with
  | start => exact ⟨ha, fun _ _ => rfl, fun _ _ _ => rfl⟩
  | @step stores b library _ habides ih =>
      obtain ⟨hb, hregisters, hlinkage⟩ := ih
      have hstack := habides.stack_eq hb
      refine ⟨habides.hasFrame hb, ?_⟩
      cases hstored : b.stored? with
      | none =>
          simp only [hstored] at hstack
          refine ⟨fun r hr => ?_, fun i hlow hhigh => ?_⟩
          · rw [hstack _ (hr.slot_bounds hb).1]
            exact hregisters r hr
          · rw [hstack i ((Nat.sub_le _ _).trans hlow), hlinkage i hlow hhigh]
      | some store =>
          obtain ⟨written, value⟩ := store
          simp only [hstored] at hstack
          obtain ⟨opcode, parameter, next, hoperation, hpopped⟩ := operation?_of_stored? hstored
          have hwritten := habides.inFrame _ _ _ hoperation written (.inr hpopped)
          obtain ⟨-, -, hne, hne'⟩ := hwritten.slot_bounds hb
          refine ⟨fun r hr => ?_, fun i hlow hhigh => ?_⟩
          · rw [hstack _ (hr.slot_bounds hb).1, Option.toList_some, List.singleton_append]
            by_cases heq : r = written
            · subst heq
              rw [if_pos rfl, List.lookup_cons_self]
              rfl
            · rw [if_neg (mt (hr.slot_injective hwritten hb) heq), hregisters r hr,
                List.lookup_cons, beq_false_of_ne heq]
          · rw [hstack i (by omega), if_neg (by omega), hlinkage i hlow hhigh]
  | enter subtype _ ih =>
      obtain ⟨hb, hregisters, hlinkage⟩ := ih
      obtain ⟨hbelow, hpointer, hstack⟩ := loadSubroutine_below hb.body_le hb.below subtype
      refine ⟨⟨hb.reserved, hb.onStack, hpointer ▸ hb.base, hbelow⟩, fun r hr => ?_,
        fun i hlow hhigh => ?_⟩
      · rw [hstack _ (hr.slot_bounds hb).1, hregisters r hr]
      · rw [hstack i ((Nat.sub_le _ _).trans hlow), hlinkage i hlow hhigh]
  | wait ticks _ ih =>
      obtain ⟨hb, hkept⟩ := ih
      exact ⟨⟨hb.reserved, hb.onStack, hb.base, hb.below⟩, hkept⟩

theorem Abides.of_operation (h : a.operation? = some (opcode, parameter, next))
    (hopcode : opcode ≠ .function) (hok : (a.step library.table).value = .ok true)
    (hframe : (a.step library.table).after.engine.machine.framePointer =
      a.engine.machine.framePointer)
    (hbelow : (a.step library.table).after.engine.machine.stackPointer.toNat ≤ frame - 2 - locals)
    (hpop : .pop (frame - 2 - locals : Nat) ∉ a.accesses)
    (hregisters : ∀ r, Register.pushedBy? opcode parameter = some r ∨
      Register.poppedBy? opcode parameter = some r → r.InFrame frame locals) :
    a.Abides library frame locals where
  succeeds := hok
  sameFrame := hframe
  below := hbelow
  unpopped := hpop
  inFrame _ _ _ h' := by
    cases h.symm.trans h'
    exact hregisters
  native _ _ _ h' := by
    cases h.symm.trans h'
    exact absurd rfl hopcode

/-- Jumps in a row. -/
inductive Jumps (a : Actor ω) : Actor ω → Prop
  | start : Jumps a a
  | step {b : Actor ω} {parameter next : Word} (table : NativeTable ω) :
      Jumps a b → b.operation? = some (.jump, parameter, next) → Jumps a (b.step table).after

theorem Jumps.machine_eq (h : Jumps a b) :
    ∃ ip, b.engine.machine = { a.engine.machine with ip := ip } := by
  induction h with
  | start => exact ⟨a.engine.machine.ip, rfl⟩
  | @step b parameter next table _ hoperation ih =>
      obtain ⟨ip, hmachine⟩ := ih
      obtain ⟨-, hafter⟩ := step_operation_ok table hoperation (by decide) rfl
      refine ⟨some parameter, ?_⟩
      rw [hafter]
      change { b.engine.machine with ip := some parameter } = _
      rw [hmachine]

theorem step_reserved (table : NativeTable ω) {count : Word}
    (h : a.operation? = some (.forward, count, next)) (hm : a.engine.machine.InBounds)
    (hcount : count.toNat ≤ a.engine.machine.stackPointer.toNat) :
    (a.step table).after.engine.machine.stackPointer.toNat =
        a.engine.machine.stackPointer.toNat - count.toNat ∧
      (a.step table).after.engine.machine.framePointer = a.engine.machine.framePointer ∧
      (a.step table).after.engine.machine.stack = a.engine.machine.stack := by
  have hsmall : count.toNat < 32768 := by
    unfold InBounds stackSize at hm
    omega
  have hsigned := Word.toInt_signed hsmall
  have hadmitted : ¬Refuses .forward count a.engine.machine := by
    simp only [Refuses, not_not, IsPointer, hsigned]
    unfold InBounds at hm
    omega
  obtain ⟨-, hafter⟩ := step_admitted table hm h (by decide) hadmitted
  rw [hafter]
  refine ⟨?_, rfl, rfl⟩
  have hbyte := a.engine.machine.stackPointer.toNat_lt
  have hmoved := toNat_ofInt (n := a.engine.machine.stackPointer.toNat + -count.signed.toInt)
    (by omega) (by omega)
  change (UInt8.ofInt (a.engine.machine.stackPointer.toNat + -count.signed.toInt)).toNat = _
  omega

theorem frame_reserved (table table' : NativeTable ω) {count after : Word}
    (henter : a.operation? = some (.pushResultOrFrame, 1, next))
    (hok : (a.step table).value = .ok true) (hjumps : Jumps (a.step table).after b)
    (hreserve : b.operation? = some (.forward, count, after))
    (hcount : count.toNat + 2 ≤ a.engine.machine.stackPointer.toNat) :
    let frame := a.engine.machine.stackPointer.toNat
    let m := (b.step table').after.engine.machine
    m.HasFrame frame count.toNat ∧ m.stack = b.engine.machine.stack ∧
      m.stack[frame - 1]? = some (next + 1) ∧
      m.stack[frame - 2]? = some a.engine.machine.framePointer.toUInt16 ∧
      ∀ i, frame ≤ i → m.stack[i]? = a.engine.machine.stack[i]? := by
  intro frame m
  have hm := inBounds_of_step_enterFrame henter hok
  obtain ⟨-, hentered⟩ := step_enterFrame table henter hm (by omega)
  obtain ⟨hpointer, hsecond, hfirst, habove⟩ :=
    pushed_pushed (m := a.begun next) hm (Nat.le_of_add_left_le hcount) (next + 1)
      a.engine.machine.framePointer.toUInt16
  obtain ⟨ip, hjumped⟩ := hjumps.machine_eq
  rw [hentered] at hjumped
  have hbelow : b.engine.machine.stackPointer.toNat = frame - 2 := by
    rw [hjumped]
    exact hpointer
  have hbounds : b.engine.machine.InBounds := by
    unfold InBounds at *
    omega
  obtain ⟨hreserved, hsame, hstack⟩ := step_reserved table' hreserve hbounds (by omega)
  have hbase : m.framePointer.toNat = frame := by
    rw [show m.framePointer = b.engine.machine.framePointer from hsame, hjumped]
    rfl
  rw [show m.stack = b.engine.machine.stack from hstack]
  refine ⟨⟨hcount, hm, hbase, ?_⟩, rfl, ?_, ?_, ?_⟩
  · exact (hreserved.trans (by rw [hbelow])).le
  · rw [hjumped]
    exact hfirst
  · rw [hjumped]
    exact hsecond
  · rw [hjumped]
    exact habove

/-- A body that keeps to its frame finds in each local and argument what it stored there last, or
what was there before. -/
theorem frame_registers (table table' : NativeTable ω) {count after : Word}
    (henter : a.operation? = some (.pushResultOrFrame, 1, next))
    (hok : (a.step table).value = .ok true)
    (hjumps : Jumps (a.step table).after b)
    (hreserve : b.operation? = some (.forward, count, after))
    (hcount : count.toNat + 2 ≤ a.engine.machine.stackPointer.toNat)
    (hbody : Body a.engine.machine.stackPointer.toNat count.toNat (b.step table').after stores c) :
    let frame := a.engine.machine.stackPointer.toNat
    let stack := c.engine.machine.stack
    ∃ initial : Register → Word,
      (∀ index, (Register.ofLocal index).InFrame frame count.toNat →
        b.engine.machine.stack[(Register.ofLocal index).slot frame]? =
          some (initial (.ofLocal index))) ∧
      (∀ index, (Register.ofArgument index).InFrame frame count.toNat →
        Machine.peek index.toUInt8 a.engine.machine =
          .ok (initial (.ofArgument index)) a.engine.machine) ∧
      (∀ r : Register, r.InFrame frame count.toNat →
        stack[r.slot frame]? = some ((stores.lookup r).getD (initial r))) ∧
      stack[frame - 1]? = some (next + 1) ∧
      stack[frame - 2]? = some a.engine.machine.framePointer.toUInt16 ∧
      ∀ (table'' : NativeTable ω) opcode parameter after' (r : Register),
        c.operation? = some (opcode, parameter, after') → r.InFrame frame count.toNat →
          (Register.pushedBy? opcode parameter = some r →
            0 < c.engine.machine.stackPointer.toNat →
              (c.step table'').value = .ok true ∧
                (c.step table'').after = c.executed opcode
                  ((c.begun after').pushed ((stores.lookup r).getD (initial r)))) ∧
          (Register.poppedBy? opcode parameter = some r →
            c.engine.machine.stackPointer.toNat < frame - 2 - count.toNat →
              let stack' := (c.step table'').after.engine.machine.stack
              (c.step table'').value = .ok true ∧
                stack'[r.slot frame]? = some c.engine.machine.top ∧
                (∀ r' : Register, r'.InFrame frame count.toNat → r' ≠ r →
                  stack'[r'.slot frame]? = stack[r'.slot frame]?) ∧
                stack'[frame - 1]? = stack[frame - 1]? ∧
                stack'[frame - 2]? = stack[frame - 2]?) := by
  intro frame stack
  obtain ⟨hreserved, hkept, hfirst, hsecond, habove⟩ :=
    frame_reserved table table' henter hok hjumps hreserve hcount
  obtain ⟨hc, hregisters, hlinkage⟩ := hbody.registers_kept hreserved
  let start := (b.step table').after.engine.machine.stack
  let initial (r : Register) : Word := start[r.slot frame]?.getD 0
  have hinitial (r : Register) (hr : r.InFrame frame count.toNat) :
      start[r.slot frame]? = some (initial r) := by
    obtain ⟨-, hlt, -, -⟩ := hr.slot_bounds hc
    simp only [initial, Vector.getElem?_eq_getElem hlt, Option.getD_some]
  have hvalue (r : Register) (hr : r.InFrame frame count.toNat) :
      stack[r.slot frame]? = some ((stores.lookup r).getD (initial r)) := by
    rw [hregisters r hr, hinitial r hr]
    cases stores.lookup r <;> rfl
  refine ⟨initial, ?_, ?_, hvalue, ?_, ?_, ?_⟩
  · intro index hr
    rw [← hkept]
    exact hinitial _ hr
  · intro index hr
    obtain ⟨hlow, hhigh⟩ := hr
    have hbyte : index.toUInt8.toNat = index.toNat := by
      rw [UInt16.toNat_toUInt8]
      unfold stackSize at hhigh
      omega
    have hfound : a.engine.machine.stack[frame + index.toNat - 1]? =
        some (initial (.ofArgument index)) := by
      rw [← habove (frame + index.toNat - 1) (by omega)]
      exact hinitial (.ofArgument index) ⟨hlow, hhigh⟩
    obtain ⟨hlt, hget⟩ := Vector.getElem?_eq_some_iff.1 hfound
    rw [peek_ok (hbyte ▸ hlow) (hbyte ▸ hhigh), ← hget]
    simp only [hbyte, frame]
  · rw [← hfirst]
    exact hlinkage (frame - 1) (by omega) (by omega)
  · rw [← hsecond]
    exact hlinkage (frame - 2) (by omega) (by omega)
  · intro table'' opcode parameter after' r hoperation hr
    constructor
    · intro hpushed hroom
      exact step_loaded table'' hc hoperation hpushed hr hroom (hvalue r hr)
    · intro hpopped hfull
      have hdepth : c.engine.machine.depth ≠ 0 := by
        rw [Ne, depth_eq_zero_iff, not_le]
        exact hfull.trans_le hc.body_le
      obtain ⟨hok', hstored⟩ := step_stored table'' hc hoperation hpopped hr hdepth
      obtain ⟨-, -, hne, hne'⟩ := hr.slot_bounds hc
      refine ⟨hok', ?_, fun r' hr' hother => ?_, ?_, ?_⟩
      · rw [hstored, if_pos rfl]
      · rw [hstored, if_neg (mt (hr'.slot_injective hr hc) hother)]
      · rw [hstored, if_neg hne.symm]
      · rw [hstored, if_neg hne'.symm]

/-- The second local holds the 5 that was stored in it, with a 9 pushed since. -/
theorem frame_registers_two :
    let a : Actor Unit :=
      ⟨{ program := { words := #[0x4201, 0x8002, 0x4D02, 0x4305, 0x4A02, 0x4309, 0x4602] },
         machine := { ip := some 0 } }, ()⟩
    let library : Library Unit := ⟨.unknown, .replicate nativeSlots none⟩
    let table := library.table
    let b := ((a.step table).after.step table).after
    let reserved := (b.step table).after
    let c := (((reserved.step table).after.step table).after.step table).after
    (c.step table).value = .ok true ∧
      (c.step table).after = c.executed .pushLocal ((c.begun 7).pushed 5) := by
  intro a library table b reserved c
  have henter : a.operation? = some (.pushResultOrFrame, 1, 1) := by decide
  have hjump : (a.step table).after.operation? = some (.jump, 2, 2) := by decide
  have hreserve : b.operation? = some (.forward, 2, 3) := by decide
  have hpush : reserved.operation? = some (.push, 5, 4) := by decide
  have hstore : (reserved.step table).after.operation? = some (.popLocal, 2, 5) := by decide
  have hpush' : ((reserved.step table).after.step table).after.operation? =
    some (.push, 9, 6) := by decide
  have hload : c.operation? = some (.pushLocal, 2, 7) := by decide
  have hpushed : Abides library 15 2 reserved :=
    .of_operation hpush (by decide) (by decide) (by decide) (by decide) (by decide)
      (by rintro r (h | h) <;> cases h)
  have hstored : Abides library 15 2 (reserved.step table).after :=
    .of_operation hstore (by decide) (by decide) (by decide) (by decide) (by decide)
      (by rintro r (h | h) <;> cases h; decide)
  have hpushed' : Abides library 15 2 ((reserved.step table).after.step table).after :=
    .of_operation hpush' (by decide) (by decide) (by decide) (by decide) (by decide)
      (by rintro r (h | h) <;> cases h)
  have hbody : Body 15 2 reserved (_ ++ (_ ++ (_ ++ []))) c :=
    .step library (.step library (.step library .start hpushed) hstored) hpushed'
  rw [show reserved.stored? = none by decide,
    show (reserved.step library.table).after.stored? = some (.ofLocal 2, 5) by decide,
    show ((reserved.step library.table).after.step library.table).after.stored? = none by decide]
    at hbody
  obtain ⟨initial, -, -, -, -, -, hregister⟩ :=
    frame_registers table table henter (by decide) (.step table .start hjump) hreserve (by decide)
      hbody
  exact (hregister table _ _ _ (.ofLocal 2) hload (by decide)).1 rfl (by decide)

end Actor

end EntityScript

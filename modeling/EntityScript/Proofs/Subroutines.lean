import EntityScript.Proofs.ConfinedRun
import EntityScript.Proofs.Routine

/-!
Entering a subroutine saves the instruction pointer and the result, and `ret` restores both,
whatever the body has done apart from the two slots that hold them.
-/

namespace EntityScript

namespace Machine

variable {α β : Type} {f : Action α} {m : Machine} {next result : Word}

/-- An operation that leaves alone all that entering a subroutine depends on or saves. -/
def Keeps (f : Action α) : Prop :=
  ∀ m, (endState (f m)).ip = m.ip ∧ (endState (f m)).result = m.result ∧
    (endState (f m)).inSubroutine = m.inSubroutine

namespace Keeps

theorem of_endState (h : ∀ m, endState (f m) = m) : Keeps f := by
  intro m
  rw [h]
  exact ⟨rfl, rfl, rfl⟩

theorem bind {k : α → Action β} (hf : Keeps f) (hk : ∀ a, Keeps (k a)) : Keeps (f >>= k) := by
  intro m
  have hfirst := hf m
  cases hresult : f m with
  | error e s =>
      rw [hresult] at hfirst
      rw [bind_error hresult]
      exact hfirst
  | ok a s =>
      rw [hresult] at hfirst
      rw [bind_ok hresult]
      obtain ⟨hip, hregister, hactive⟩ := hk a s
      exact ⟨hip.trans hfirst.1, hregister.trans hfirst.2.1, hactive.trans hfirst.2.2⟩

theorem push (value : Word) : Keeps (Machine.push value) := by
  intro m
  rw [Machine.push]
  split
  · exact ⟨rfl, rfl, rfl⟩
  · dsimp only
    split <;> exact ⟨rfl, rfl, rfl⟩

theorem pop : Keeps Machine.pop := by
  intro m
  rw [Machine.pop]
  split <;> exact ⟨rfl, rfl, rfl⟩

theorem readSlot (slot : Slot) : Keeps (Machine.readSlot slot) := by
  intro m
  rw [Machine.readSlot]
  split <;> exact ⟨rfl, rfl, rfl⟩

theorem writeSlot (slot : Slot) (value : Word) : Keeps (Machine.writeSlot slot value) := by
  intro m
  rw [Machine.writeSlot]
  split <;> exact ⟨rfl, rfl, rfl⟩

theorem peek (n : UInt8) : Keeps (Machine.peek n) := by
  intro m
  simp only [Machine.peek]
  split
  · exact ⟨rfl, rfl, rfl⟩
  · exact readSlot _ m

theorem shift (amount : Int32) : Keeps (Machine.shift amount) := by
  intro m
  simp only [Machine.shift]
  split <;> exact ⟨rfl, rfl, rfl⟩

end Keeps

/-- Entering a subroutine now would save these, or do nothing. -/
def Saves (next result : Word) (m : Machine) : Prop :=
  m.ip = none ∨ m.inSubroutine = true ∨ m.ip = some next ∧ m.result = result

theorem Keeps.saves (hf : Keeps f) (h : m.Saves next result) :
    (endState (f m)).Saves next result := by
  obtain ⟨hip, hregister, hactive⟩ := hf m
  rw [Saves, hip, hregister, hactive]
  exact h

theorem Request.saves (r : Request) (hm : m.InBounds) (h : m.Saves next result) :
    (endState (r.perform m)).Saves next result := by
  have hzero (f : Action Unit) (hf : Keeps f) : Keeps (f >>= fun _ => pure (0 : Word)) :=
    hf.bind fun _ => .of_endState fun _ => rfl
  -- Only entering a subroutine and a reset change what is saved, and then there is nothing to save.
  cases r with
  | push value => exact (hzero _ (.push value)).saves h
  | pop => exact Keeps.pop.saves h
  | peek n => exact (Keeps.peek n).saves h
  | readSlot slot => exact (Keeps.readSlot slot).saves h
  | writeSlot slot value => exact (hzero _ (.writeSlot slot value)).saves h
  | rewind count => exact (hzero _ (.shift _)).saves h
  | forward count => exact (hzero _ (.shift _)).saves h
  | enterSubroutine program subtype =>
      simp only [Request.perform]
      rcases enterSubroutine_cases hm program subtype with
        hsame | ⟨fault, hfail⟩ | ⟨ip, entry, _, hentered⟩
      · rw [bind_ok hsame]
        exact h
      · rw [bind_error hfail]
        exact h
      · rw [bind_ok hentered]
        exact .inr (.inl rfl)
  | reset => exact .inl rfl
  | readVariable index =>
      have hkeeps : Keeps (Request.readVariable index).perform := by
        simp only [Request.perform]
        split <;> exact .of_endState fun _ => rfl
      exact hkeeps.saves h
  | writeVariable index value =>
      have hkeeps : Keeps (Request.writeVariable index value).perform := by
        simp only [Request.perform]
        split
        · exact hzero _ fun _ => ⟨rfl, rfl, rfl⟩
        · exact .of_endState fun _ => rfl
      exact hkeeps.saves h
  | setDelay ticks => exact (hzero _ fun _ => ⟨rfl, rfl, rfl⟩).saves h

/-- What `m` saved when it entered a subroutine is on the stack of `k`, and the stack pointer of `k`
is not above it. -/
structure Linkage (m k : Machine) : Prop where
  pointer : k.stackPointer.toNat ≤ m.stackPointer.toNat - 2
  result : k.stack[m.stackPointer.toNat - 2]? = some m.result
  address : k.stack[m.stackPointer.toNat - 1]? = m.ip

theorem linkage_entered {ip : Word} (hm : m.InBounds) (htwo : 2 ≤ m.stackPointer.toNat)
    (hip : m.ip = some ip) (entry : Word) : m.Linkage (m.entered ip entry) := by
  obtain ⟨hpointer, hresult, haddress, _⟩ := pushed_pushed hm htwo ip m.result
  exact ⟨Nat.le_of_eq hpointer, hresult, haddress.trans hip.symm⟩

end Machine

open Machine

variable {ω : Type}

theorem Routine.Reaches.saves {site : CallSite} {routine rest : Routine ω} {call done : Call ω}
    {next result : Word} (h : Reaches site routine call rest done) (hm : call.machine.InBounds)
    (hsaves : call.machine.Saves next result) :
    done.machine.InBounds ∧ done.machine.Saves next result := by
  induction h with
  | start => exact ⟨hm, hsaves⟩
  | look _ ih => exact ih
  | modifyOwner _ ih => exact ih
  | report _ ih => exact ih
  | stop _ ih => exact ih
  | request _ ih =>
      obtain ⟨hbound, hsaved⟩ := ih
      exact ⟨(Request.records _).inBounds hbound, Request.saves _ hbound hsaved⟩

/-- A native function that enters a subroutine and goes on. -/
def Native.entering (subtype : Word) (post : Native ω) : NativeM ω Word := do
  Native.enterSubroutine subtype
  post

namespace Actor

variable [Owner ω] {table : NativeTable ω} {a b : Actor ω} {m : Machine}

/-- Any run from the actor that spares the two slots below the top of a machine, and executes `ret`
with the stack pointer at them, restores the registers and the stack pointer of that machine. -/
def ReturnsTo (m : Machine) (b : Actor ω) : Prop :=
  ∀ ⦃c : Actor ω⦄ ⦃kept : Nat → Prop⦄ ⦃parameter after : Word⦄ (table : NativeTable ω),
    Confined (m.stackPointer.toNat - 2) kept b c →
    kept (m.stackPointer.toNat - 2) → kept (m.stackPointer.toNat - 1) →
    c.operation? = some (.ret, parameter, after) →
    c.engine.machine.stackPointer.toNat = m.stackPointer.toNat - 2 →
      (c.step table).value = .ok true ∧
        (c.step table).after.engine.machine.ip = m.ip ∧
        (c.step table).after.engine.machine.result = m.result ∧
        (c.step table).after.engine.machine.stackPointer = m.stackPointer ∧
        (c.step table).after.engine.machine.inSubroutine = false

theorem Linkage.returnsTo {ip : Word} (h : Linkage m b.engine.machine) (hm : m.InBounds)
    (htwo : 2 ≤ m.stackPointer.toNat) (hip : m.ip = some ip) : b.ReturnsTo m := by
  intro c kept parameter after table hrun hkept hkept' hret hc
  obtain ⟨htop, hbottom, hpopped⟩ :=
    hrun.pair_kept hm htwo h.pointer h.result (h.address.trans hip) hkept hkept' hc
  have hleave := leaveSubroutine_linked (m := c.begun after) htop hbottom
  obtain ⟨hvalue, hleft⟩ := step_operation_ok table hret (by decide) hleave
  rw [hleft]
  exact ⟨hvalue, hip.symm, rfl, hpopped, rfl⟩

variable {program : Program} {subtype ip entry : Word}

theorem loadSubroutine_returnsTo (hm : m.InBounds) (htwo : 2 ≤ m.stackPointer.toNat)
    (hip : m.ip = some ip) (hactive : m.inSubroutine = false)
    (hentry : program.entry? subtype = some entry) (ha : a.engine.machine = m)
    (hprogram : a.engine.program = program) :
    (a.loadSubroutine subtype).value = .ok () ∧
      (a.loadSubroutine subtype).after = a.withMachine (m.entered ip entry) ∧
        (a.loadSubroutine subtype).after.ReturnsTo m := by
  subst ha hprogram
  obtain ⟨hvalue, hafter⟩ := loadSubroutine_ok (enterSubroutine_ok hip hactive hentry hm htwo)
  refine ⟨hvalue, hafter, ?_⟩
  rw [hafter]
  exact Linkage.returnsTo (linkage_entered hm htwo hip entry) hm htwo hip

theorem call_returnsTo {parameter next value : Word} {call done : Call ω} {post : Native ω}
    (hm : m.InBounds) (htwo : 2 ≤ m.stackPointer.toNat) (hip : m.ip = some ip)
    (hactive : m.inSubroutine = false) (hentry : a.engine.program.entry? subtype = some entry)
    (hoperation : a.operation? = some (.function, parameter, next)) (hcall : call.machine = m)
    (hnative : a.call table parameter next = Native.entering subtype post a.site call)
    (hpost : post a.site { call with machine := m.entered ip entry } = .ok value done)
    (hlinkage : m.Linkage done.machine) :
    (a.step table).value = .ok true ∧
      (done.stopped = false →
        (a.step table).after.engine.machine = { done.machine with result := value }) ∧
        (a.step table).after.ReturnsTo m := by
  subst hcall
  have hentered : Native.enterSubroutine subtype a.site call =
      .ok () { call with machine := call.machine.entered ip entry } :=
    Native.enterSubroutine_ok (enterSubroutine_ok hip hactive hentry hm htwo)
  rw [Native.entering, Native.bind_ok hentered, hpost] at hnative
  obtain ⟨hvalue, hafter⟩ := step_call_ok hoperation hnative
  rw [hafter]
  -- The value goes to the register, not to the slot that holds the result from before the call.
  refine ⟨hvalue, ?_, ?_⟩
  · intro hgoes
    simp only [hgoes, Bool.false_eq_true, if_false]
    rfl
  · dsimp only
    split
    · exact Linkage.returnsTo ⟨hlinkage.pointer, hlinkage.result, hlinkage.address⟩ hm htwo hip
    · exact Linkage.returnsTo ⟨hlinkage.pointer, hlinkage.result, hlinkage.address⟩ hm htwo hip

omit [Owner ω] in
theorem routine_enters {library : Library ω} {parameter next : Word} {routine : Routine ω}
    {rest : Except Fault Word → Routine ω} {call : Call ω} (ha : a.engine.machine.InBounds)
    (hm : m.InBounds) (htwo : 2 ≤ m.stackPointer.toNat) (hip : m.ip = some ip)
    (hactive : m.inSubroutine = false) (hentry : a.engine.program.entry? subtype = some entry)
    (hget : library.get? (parameter &&& 0xFF) = some routine) (hcall : call.machine = m)
    (hreaches : Routine.Reaches a.site routine (a.opened next)
      (.request (.enterSubroutine a.engine.program subtype) rest) call) :
    m.ip = some next ∧ m.result = a.engine.machine.result ∧
      a.call library.table parameter next =
        Native.entering subtype (rest (.ok 0)).native a.site call := by
  subst hcall
  have hbegun : (a.begun next).InBounds := ha
  have hsaves : (a.begun next).Saves next a.engine.machine.result := .inr (.inr ⟨rfl, rfl⟩)
  have henters := enterSubroutine_ok hip hactive hentry hm htwo
  -- With nothing loaded, or inside a subroutine, it would not have entered one.
  obtain ⟨_, hunloaded | hinside | ⟨hnext, hresult⟩⟩ := hreaches.saves hbegun hsaves
  · rw [hip] at hunloaded
    cases hunloaded
  · rw [hactive] at hinside
    cases hinside
  · have hbound : library.table.get? (parameter &&& 0xFF) = some routine.native := by
      rw [Library.get?_table, hget]
      rfl
    refine ⟨hnext, hresult, ?_⟩
    rw [call_bound hbound, hreaches.native_eq, Native.entering,
      Native.bind_ok (Native.enterSubroutine_ok henters)]
    simp only [Routine.native, Routine.run, Request.perform, bind_ok henters]
    rfl

/-- Entering a subroutine does nothing, fails and changes nothing, or is undone by `ret` after any
body.  The value of a native function that enters one does not outlive it. -/
theorem subroutine_roundtrip (hm : m.InBounds) (program : Program) (subtype : Word) :
    (m.ip = none ∨ m.inSubroutine = true → enterSubroutine program subtype m = .ok () m) ∧
    (∀ ip, m.ip = some ip → m.inSubroutine = false →
      (program.entry? subtype = none →
        enterSubroutine program subtype m = .error (.unknownEntry subtype) m) ∧
      ∀ entry, program.entry? subtype = some entry →
        (m.stackPointer.toNat < 2 →
          enterSubroutine program subtype m =
            .error (.stackOverflow m.stackPointer (.ofByte m.stackPointer - 2)) m) ∧
        (2 ≤ m.stackPointer.toNat →
          enterSubroutine program subtype m = .ok () (m.entered ip entry) ∧
          (m.entered ip entry).ip = some entry ∧
          (∀ a : Actor ω, a.engine.machine = m → a.engine.program = program →
            (a.loadSubroutine subtype).value = .ok () ∧
            (a.loadSubroutine subtype).after = a.withMachine (m.entered ip entry) ∧
            (a.loadSubroutine subtype).after.ReturnsTo m) ∧
          ∀ (a : Actor ω) (call : Call ω) (parameter next : Word),
            a.engine.program = program → call.machine = m →
            a.operation? = some (.function, parameter, next) →
            (∀ (table : NativeTable ω) (post : Native ω) (value : Word) (done : Call ω),
              a.call table parameter next = Native.entering subtype post a.site call →
              post a.site { call with machine := m.entered ip entry } = .ok value done →
              m.Linkage done.machine →
              (a.step table).value = .ok true ∧
              (done.stopped = false →
                (a.step table).after.engine.machine = { done.machine with result := value }) ∧
              (a.step table).after.ReturnsTo m) ∧
            ∀ (library : Library ω) (routine : Routine ω) (rest : Except Fault Word → Routine ω),
              a.engine.machine.InBounds → library.get? (parameter &&& 0xFF) = some routine →
              Routine.Reaches a.site routine (a.opened next)
                (.request (.enterSubroutine a.engine.program subtype) rest) call →
              m.ip = some next ∧ m.result = a.engine.machine.result ∧
              a.call library.table parameter next =
                Native.entering subtype (rest (.ok 0)).native a.site call)) := by
  refine ⟨enterSubroutine_idle, ?_⟩
  intro ip hip hactive
  refine ⟨enterSubroutine_unknown hip hactive, ?_⟩
  intro entry hentry
  refine ⟨enterSubroutine_full hip hactive hentry, ?_⟩
  intro htwo
  refine ⟨enterSubroutine_ok hip hactive hentry hm htwo, rfl, ?_, ?_⟩
  · intro a ha hprogram
    exact loadSubroutine_returnsTo hm htwo hip hactive hentry ha hprogram
  · intro a call parameter next hprogram hcall hoperation
    subst hprogram
    constructor
    · intro table post value done hnative hpost hlinkage
      exact call_returnsTo hm htwo hip hactive hentry hoperation hcall hnative hpost hlinkage
    · intro library routine rest ha hget hreaches
      exact routine_enters ha hm htwo hip hactive hentry hget hcall hreaches

/-- The routine returns 5 and the subroutine sets the result to 7, but the caller finds its 9. -/
theorem subroutine_roundtrip_call :
    let program : Program := { entries := #[3], words := #[0x0E00, 0, 0, 0x4107, 0x1200] }
    let routine : Routine Unit := .request (.enterSubroutine program 0) fun _ => .finish 5
    let library : Library Unit := ⟨.unknown, .replicate nativeSlots (some routine)⟩
    let a : Actor Unit := ⟨{ program := program, machine := { ip := some 0, result := 9 } }, ()⟩
    let c := ((a.step library.table).after.step library.table).after
    (c.step library.table).value = .ok true ∧
      (c.step library.table).after.engine.machine.ip = some 1 ∧
      (c.step library.table).after.engine.machine.result = 9 ∧
      (c.step library.table).after.engine.machine.stackPointer = 15 ∧
      (c.step library.table).after.engine.machine.inSubroutine = false := by
  intro program routine library a c
  have hm : (a.begun 1).InBounds := by decide
  have hcall : a.operation? = some (.function, 0, 1) := by decide
  have hbody : (a.step library.table).after.operation? = some (.setResult, 7, 4) := by
    decide +kernel
  have hret : c.operation? = some (.ret, 0, 5) := by decide +kernel
  have hrun : Confined 13 (13 ≤ ·) (a.step library.table).after c :=
    .step library.table .start
      (.of_unwritten hbody (by decide) (by decide +kernel) (by decide +kernel)
        (by decide +kernel))
  obtain ⟨_, hentry⟩ := subroutine_roundtrip (ω := Unit) hm program 0
  obtain ⟨_, hroom⟩ := (hentry 1 rfl rfl).2 3 rfl
  obtain ⟨_, _, _, hnative⟩ := hroom (by decide)
  obtain ⟨hpost, hroutine⟩ := hnative a (a.opened 1) 0 1 rfl rfl hcall
  obtain ⟨_, _, hentering⟩ := hroutine library routine (fun _ => .finish 5) hm rfl .start
  obtain ⟨_, _, hreturns⟩ :=
    hpost library.table _ 5 _ hentering rfl (linkage_entered hm (by decide) rfl 3)
  exact hreturns library.table hrun (by decide) (by decide) hret (by decide +kernel)

end Actor

end EntityScript

import EntityScript.Proofs.Confinement
import EntityScript.Proofs.Dispatch

/-!
Runs that stay below a slot of the stack, in nested frames and subroutines too.  The slots from
there on that they do not write keep their values.
-/

namespace EntityScript.Actor

open Machine

variable {ω : Type}

/-- What the operation of the next step notes.  What a native function does is not noted. -/
def accesses (a : Actor ω) : List Access :=
  match a.operation? with
  | none => []
  | some (opcode, parameter, next) =>
      (endState (Recorded.execute opcode parameter next ⟨a.begun next, []⟩)).log

variable [Owner ω] {table : NativeTable ω} {base : Nat} {kept : Nat → Prop} {a b : Actor ω}

/-- The next step stays at or below `base` and leaves the kept slots alone.  A native function may
use them in any way that leaves their values. -/
structure Spares (table : NativeTable ω) (base : Nat) (kept : Nat → Prop) (a : Actor ω) : Prop where
  below : (a.step table).after.engine.machine.stackPointer.toNat ≤ base
  unpopped : .pop base ∉ a.accesses
  unwritten : ∀ i : Nat, kept i → .write i ∉ a.accesses
  called : ∀ parameter next, a.operation? = some (.function, parameter, next) → ∀ i, kept i →
    (a.step table).after.engine.machine.stack[i]? = a.engine.machine.stack[i]?

theorem Spares.of_unwritten {operation : Opcode × Word × Word}
    (hoperation : a.operation? = some operation) (hopcode : operation.1 ≠ .function)
    (hwrite : ∀ access ∈ a.accesses, access.isWrite = false) (hpop : .pop base ∉ a.accesses)
    (hbelow : (a.step table).after.engine.machine.stackPointer.toNat ≤ base) :
    a.Spares table base kept := by
  refine ⟨hbelow, hpop, ?_, ?_⟩
  · intro i _ hmem
    cases hwrite _ hmem
  · rintro parameter next hfunction
    rw [hoperation] at hfunction
    cases hfunction
    exact absurd rfl hopcode

/-- A run of steps that each stay at or below `base` and leave the kept slots alone.  Between the
steps a delay may be set or counted down, and a subroutine may be started. -/
inductive Confined (base : Nat) (kept : Nat → Prop) (a : Actor ω) : Actor ω → Prop
  | start : Confined base kept a a
  | step {b : Actor ω} (table : NativeTable ω) :
      Confined base kept a b → b.Spares table base kept → Confined base kept a (b.step table).after
  | enter {b : Actor ω} (subtype : Word) :
      Confined base kept a b → Confined base kept a (b.loadSubroutine subtype).after
  | wait {b : Actor ω} (ticks : Word) :
      Confined base kept a b →
        Confined base kept a (b.withMachine { b.engine.machine with delay := ticks })

theorem Spares.getElem?_stack (h : a.Spares table base kept) (hbase : base ≤ stackSize)
    (ha : a.engine.machine.stackPointer.toNat ≤ base) {i : Nat} (hi : base ≤ i) (hkept : kept i) :
    (a.step table).after.engine.machine.stack[i]? = a.engine.machine.stack[i]? := by
  cases hoperation : a.operation? with
  | none =>
      rw [step_no_operation_machine table hoperation]
  | some operation =>
      obtain ⟨opcode, parameter, next⟩ := operation
      by_cases hopcode : opcode = .function
      · subst opcode
        exact h.called parameter next hoperation i hkept
      · have hm : (a.begun next).InBounds := Nat.le_trans ha hbase
        obtain ⟨hforget, _⟩ := Records.execute opcode parameter next _ hm.fits
        have hstack : (a.step table).after.engine.machine.stack =
            (endState (Machine.execute opcode parameter next (a.begun next))).stack := by
          rcases step_operation_machine table hoperation hopcode with h | h <;> rw [h]
        have hunpopped := h.unpopped
        have hunwritten := h.unwritten i hkept
        simp only [accesses, hoperation] at hunpopped hunwritten
        -- Only the recorded instruction says which slots it pops and writes.
        rw [hstack, ← hforget, endState_forget]
        exact getElem?_stack_execute ha hunpopped hi hunwritten

theorem loadSubroutine_below (hbase : base ≤ stackSize)
    (ha : a.engine.machine.stackPointer.toNat ≤ base) (subtype : Word) :
    let done := (a.loadSubroutine subtype).after.engine.machine
    done.stackPointer.toNat ≤ base ∧ done.framePointer = a.engine.machine.framePointer ∧
      ∀ i, base ≤ i → done.stack[i]? = a.engine.machine.stack[i]? := by
  have hbelow := enterSubroutine_below hbase ha a.engine.program subtype
  rcases loadSubroutine_machine a subtype with hdone | hdone
  · rw [hdone]
    exact hbelow
  · rw [hdone]
    exact hbelow

theorem Confined.stack_kept (h : Confined base kept a b) (hbase : base ≤ stackSize)
    (ha : a.engine.machine.stackPointer.toNat ≤ base) :
    b.engine.machine.stackPointer.toNat ≤ base ∧
      ∀ i, base ≤ i → kept i → b.engine.machine.stack[i]? = a.engine.machine.stack[i]? := by
  induction h with
  | start => exact ⟨ha, fun _ _ _ => rfl⟩
  | step table _ hspares ih =>
      obtain ⟨hpointer, hstack⟩ := ih
      refine ⟨hspares.below, ?_⟩
      intro i hi hkept
      rw [hspares.getElem?_stack hbase hpointer hi hkept, hstack i hi hkept]
  | enter subtype _ ih =>
      obtain ⟨hpointer, hstack⟩ := ih
      obtain ⟨hpointer', -, hstack'⟩ := loadSubroutine_below hbase hpointer subtype
      refine ⟨hpointer', ?_⟩
      intro i hi hkept
      rw [hstack' i hi, hstack i hi hkept]
  | wait ticks _ ih => exact ih

theorem Confined.pair_kept {m : Machine} {first second : Word}
    (h : Confined (m.stackPointer.toNat - 2) kept a b) (hm : m.InBounds)
    (htwo : 2 ≤ m.stackPointer.toNat)
    (ha : a.engine.machine.stackPointer.toNat ≤ m.stackPointer.toNat - 2)
    (hsecond : a.engine.machine.stack[m.stackPointer.toNat - 2]? = some second)
    (hfirst : a.engine.machine.stack[m.stackPointer.toNat - 1]? = some first)
    (hkept : kept (m.stackPointer.toNat - 2)) (hkept' : kept (m.stackPointer.toNat - 1))
    (hb : b.engine.machine.stackPointer.toNat = m.stackPointer.toNat - 2) :
    b.engine.machine.stack[b.engine.machine.stackPointer.toNat]? = some second ∧
      b.engine.machine.stack[b.engine.machine.stackPointer.toNat + 1]? = some first ∧
        (b.engine.machine.popped 2).stackPointer = m.stackPointer := by
  unfold InBounds at hm
  have hbase : m.stackPointer.toNat - 2 ≤ stackSize := by omega
  have habove : m.stackPointer.toNat - 2 + 1 = m.stackPointer.toNat - 1 := by omega
  obtain ⟨_, hstack⟩ := h.stack_kept hbase ha
  refine ⟨?_, ?_, ?_⟩
  · rw [hb, hstack _ (Nat.le_refl _) hkept, hsecond]
  · rw [hb, habove, hstack _ (by omega) hkept', hfirst]
  · apply UInt8.toNat_inj.1
    rw [stackPointer_popped (n := 2) (by simp; omega), hb]
    simp
    omega

end EntityScript.Actor

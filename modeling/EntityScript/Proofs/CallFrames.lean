import EntityScript.Proofs.ConfinedRun

namespace EntityScript

theorem Program.following_eq {p : Program} {offset next : Word} {instruction : Instruction}
    (h : p.fetch offset = .ok (instruction, next)) :
    next = offset + instruction.size.toUInt16 := by
  unfold fetch at h
  split at h
  · cases h
    rfl
  · cases h

namespace Actor

open Machine

variable {ω : Type} [Owner ω] {table : NativeTable ω} {a c : Actor ω} {next : Word}

theorem step_enterFrame (table : NativeTable ω)
    (h : a.operation? = some (.pushResultOrFrame, 1, next))
    (hm : a.engine.machine.InBounds) (htwo : 2 ≤ a.engine.machine.stackPointer.toNat) :
    (a.step table).value = .ok true ∧
      (a.step table).after = a.executed .pushResultOrFrame
        { ((a.begun next).pushed (next + 1)).pushed a.engine.machine.framePointer.toUInt16 with
          framePointer := a.engine.machine.stackPointer } := by
  have hrun := enterFrame_ok (m := a.begun next) hm htwo next
  exact step_operation_ok table h (by decide) hrun

theorem inBounds_of_step_enterFrame (h : a.operation? = some (.pushResultOrFrame, 1, next))
    (hok : (a.step table).value = .ok true) : a.engine.machine.InBounds := by
  rw [InBounds, ← Nat.not_lt]
  intro hstray
  have hrun := enterFrame_stray (m := a.begun next) hstray next
  have hvalue := (step_operation_error table h (by decide) hrun).1
  rw [hok] at hvalue
  cases hvalue

theorem step_leaveFrame (table : NativeTable ω) {frame address after : Word}
    (h : c.operation? = some (.popResultOrFrame, 1, after))
    (hframe : c.engine.machine.stack[c.engine.machine.stackPointer.toNat]? = some frame)
    (hreturn : c.engine.machine.stack[c.engine.machine.stackPointer.toNat + 1]? = some address) :
    (c.step table).value = .ok true ∧
      (c.step table).after = c.executed .popResultOrFrame
        { c.engine.machine.popped 2 with framePointer := frame.toUInt8, ip := some address } := by
  have hrun := leaveFrame_linked (m := c.begun after) hframe hreturn
  exact step_operation_ok table h (by decide) hrun

/-- A callee that spares the two slots of its frame returns past the jump after the instruction that
set the frame up, and its caller has its stack and its frame back. -/
theorem frame_roundtrip (table' : NativeTable ω) {after : Word} {kept : Nat → Prop}
    (henter : a.operation? = some (.pushResultOrFrame, 1, next))
    (htwo : 2 ≤ a.engine.machine.stackPointer.toNat)
    (hok : (a.step table).value = .ok true)
    (hrun : Confined (a.engine.machine.stackPointer.toNat - 2) kept (a.step table).after c)
    (hframe : kept (a.engine.machine.stackPointer.toNat - 2))
    (haddress : kept (a.engine.machine.stackPointer.toNat - 1))
    (hleave : c.operation? = some (.popResultOrFrame, 1, after))
    (hpointer : c.engine.machine.stackPointer.toNat =
      a.engine.machine.stackPointer.toNat - 2) :
    (c.step table').value = .ok true ∧
      (c.step table').after.engine.machine.framePointer = a.engine.machine.framePointer ∧
      (c.step table').after.engine.machine.stackPointer = a.engine.machine.stackPointer ∧
      (c.step table').after.engine.machine.ip = some (next + 1) ∧
      (∀ jump target, a.engine.program.fetch next = .ok (jump, target) →
        jump.opcode? = some .jump → jump.size = 1 → target = next + 1) ∧
      ∀ i, a.engine.machine.stackPointer.toNat ≤ i → kept i →
        (c.step table').after.engine.machine.stack[i]? = a.engine.machine.stack[i]? := by
  have hm := inBounds_of_step_enterFrame henter hok
  obtain ⟨_, hentered⟩ := step_enterFrame table henter hm htwo
  rw [hentered] at hrun
  obtain ⟨hbelow, hsecond, hfirst, habove⟩ :=
    pushed_pushed (m := a.begun next) hm htwo (next + 1) a.engine.machine.framePointer.toUInt16
  obtain ⟨htop, hbottom, hpopped⟩ :=
    hrun.pair_kept hm htwo (Nat.le_of_eq hbelow) hsecond hfirst hframe haddress hpointer
  obtain ⟨hvalue, hleft⟩ := step_leaveFrame table' hleave htop hbottom
  rw [hleft]
  -- A frame pointer is a byte, so it survives as a word on the stack.
  refine ⟨hvalue, ?_, hpopped, rfl, ?_, ?_⟩
  · exact UInt8.toUInt8_toUInt16 _
  · intro jump target hfetch _ hsize
    rw [Program.following_eq hfetch, hsize]
    rfl
  · intro i hi hkept
    obtain ⟨_, hstack⟩ := hrun.stack_kept (Nat.le_trans (Nat.sub_le _ _) hm) (Nat.le_of_eq hbelow)
    exact (hstack i (Nat.le_trans (Nat.sub_le _ _) hi) hkept).trans (habove i hi)

/-- The callee at offset 3 calls the one at offset 6, which sets the result; the outer return finds
the `push` at offset 2. -/
theorem frame_roundtrip_nested :
    let a : Actor Unit :=
      ⟨{ program := { words :=
           #[0x4201, 0x8003, 0x4305, 0x4201, 0x8006, 0x4801, 0x4107, 0x4801] },
         machine := { ip := some 0 } }, ()⟩
    let table : NativeTable Unit := .empty .unknown
    let called := ((a.step table).after.step table).after
    let nested := ((called.step table).after.step table).after
    let c := ((nested.step table).after.step table).after
    (c.step table).value = .ok true ∧
      (c.step table).after.engine.machine.framePointer = 17 ∧
      (c.step table).after.engine.machine.stackPointer = 15 ∧
      (c.step table).after.engine.machine.ip = some 2 := by
  intro a table called nested c
  have hjump : (a.step table).after.operation? = some (.jump, 3, 2) := by decide
  have hcall : called.operation? = some (.pushResultOrFrame, 1, 4) := by decide
  have hjump' : (called.step table).after.operation? = some (.jump, 6, 5) := by decide
  have hresult : nested.operation? = some (.setResult, 7, 7) := by decide
  have hreturn : (nested.step table).after.operation? = some (.popResultOrFrame, 1, 8) := by decide
  have hcalled : Confined 13 (13 ≤ ·) (a.step table).after (called.step table).after :=
    .step table
      (.step table .start (.of_unwritten hjump (by decide) (by decide) (by decide) (by decide)))
      (.of_unwritten hcall (by decide) (by decide) (by decide) (by decide))
  have hnested : Confined 13 (13 ≤ ·) (a.step table).after (nested.step table).after :=
    .step table
      (.step table hcalled (.of_unwritten hjump' (by decide) (by decide) (by decide) (by decide)))
      (.of_unwritten hresult (by decide) (by decide) (by decide) (by decide))
  have hrun : Confined 13 (13 ≤ ·) (a.step table).after c :=
    .step table hnested (.of_unwritten hreturn (by decide) (by decide) (by decide) (by decide))
  have henter : a.operation? = some (.pushResultOrFrame, 1, 1) := by decide
  have hleave : c.operation? = some (.popResultOrFrame, 1, 6) := by decide
  obtain ⟨hvalue, hframe, hpointer, hip, _⟩ :=
    frame_roundtrip table henter (by decide) (by cbv) hrun (by decide) (by decide) hleave
      (by decide)
  exact ⟨hvalue, hframe, hpointer, hip⟩

end Actor

end EntityScript

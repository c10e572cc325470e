import EntityScript.Proofs.Routine
import EntityScript.Proofs.Turns

namespace EntityScript

theorem Machine.getElem_of_head?_values {m : Machine} {v : Word} (h : m.values.head? = some v) :
    ∃ hlt : m.stackPointer.toNat < stackSize, m.stack[m.stackPointer.toNat] = v := by
  rw [List.head?_eq_getElem?, getElem?_values] at h
  exact Vector.getElem?_eq_some_iff.1 h

theorem Word.toNat_div_max_one (v unit : Word) :
    (v / max unit 1).toNat = v.toNat / max unit.toNat 1 := by
  have hmax : (max unit 1).toNat = max unit.toNat 1 := by
    change (if unit ≤ 1 then 1 else unit).toNat = _
    split
    · rename_i hle
      exact (max_eq_right (UInt16.le_iff_toNat_le.1 hle)).symm
    · rename_i hlt
      rw [UInt16.le_iff_toNat_le] at hlt
      exact (max_eq_left (Nat.le_of_not_le hlt)).symm
  rw [UInt16.toNat_div, hmax]

theorem Native.delay_ok {ω : Type} (site : CallSite) {call : Call ω} {v : Word}
    (h : call.machine.values.head? = some v) :
    let ticks := v / max site.settings.ticksPerDelayUnit 1
    delay site call = .ok ticks { call with machine := { call.machine with delay := ticks } } := by
  obtain ⟨hlt, rfl⟩ := Machine.getElem_of_head?_values h
  have hpeek := Machine.peek_ok (m := call.machine) (n := 1) (by decide) hlt
  rw [delay, peek, bind_ok (onMachine_ok hpeek)]
  rfl

namespace Actor

variable {ω : Type} [Owner ω] {table : NativeTable ω} {a b : Actor ω}

/-- The turn of an actor is a run that starts at an offset. -/
structure StartsAt (table : NativeTable ω) (a : Actor ω) (ip : Word) : Prop where
  loaded : a.engine.machine.ip = some ip
  runs : a.tick table = (a.run table).map Turn.ofRun
  first : ∃ later, (a.tick table).events = #[a.arrival ip] ++ later

/-- The actor waits for so many ticks, in which only its delay changes, and starts at an offset in
the tick after them. -/
structure Sleeps (table : NativeTable ω) (a : Actor ω) (ticks : Nat) (ip : Word) : Prop where
  waits : ∀ k < ticks, ((turned table)^[k] a).tick table =
    ⟨.waiting (.ofNat (ticks - 1 - k)), a.delayed (.ofNat (ticks - 1 - k)), #[]⟩
  wakes : (turned table)^[ticks] a = a.delayed 0
  starts : (a.delayed 0).StartsAt table ip

section Waiting

theorem startsAt {ip : Word} (hready : a.engine.isReady = true)
    (hip : a.engine.machine.ip = some ip) (hbudget : 0 < a.engine.settings.instructionBudget) :
    a.StartsAt table ip := by
  obtain ⟨budget, hsucc⟩ := Nat.exists_eq_succ_of_ne_zero hbudget.ne'
  obtain ⟨later, hlater⟩ := runFrom_arrival 0 #[] table budget hready hip
  refine ⟨hip, tick_ready table hready, later, ?_⟩
  rw [tick_ready table hready, run, hsucc]
  exact hlater

theorem tick_delayed (hloaded : a.engine.machine.ip ≠ none) {ticks : Nat} (h : ticks + 1 < 65536) :
    (a.delayed (.ofNat (ticks + 1))).tick table =
      ⟨.waiting (.ofNat ticks), a.delayed (.ofNat ticks), #[]⟩ := by
  have hne : (UInt16.ofNat (ticks + 1)) ≠ 0 := by
    intro hzero
    have hnat := congrArg UInt16.toNat hzero
    rw [UInt16.toNat_ofNat_of_lt' h] at hnat
    cases hnat
  have hsub : UInt16.ofNat (ticks + 1) - 1 = UInt16.ofNat ticks := by
    rw [UInt16.ofNat_add]
    exact UInt16.add_sub_cancel _ _
  rw [tick_waiting table (a := a.delayed (.ofNat (ticks + 1))) hloaded hne]
  simp only [delayed, withMachine, mapEngine, hsub]

theorem iterate_turned_delayed (hloaded : a.engine.machine.ip ≠ none) {ticks k : Nat}
    (h : ticks < 65536) (hk : k ≤ ticks) :
    (turned table)^[k] (a.delayed (.ofNat ticks)) = a.delayed (.ofNat (ticks - k)) := by
  induction k with
  | zero => rfl
  | succ k ih =>
      have hleft : ticks - k = ticks - (k + 1) + 1 := by omega
      rw [Function.iterate_succ_apply', ih (by omega), hleft, turned,
        tick_delayed hloaded (by omega)]

theorem sleeps (table : NativeTable ω) {ip : Word} (hip : a.engine.machine.ip = some ip)
    (hbudget : 0 < a.engine.settings.instructionBudget) :
    a.Sleeps table a.engine.machine.delay.toNat ip := by
  have hloaded : a.engine.machine.ip ≠ none := by simp [hip]
  have hdelay := a.engine.machine.delay.toNat_lt
  have ha : a.delayed (.ofNat a.engine.machine.delay.toNat) = a := by
    rw [UInt16.ofNat_toNat]
    rfl
  have hturned {k : Nat} (hk : k ≤ a.engine.machine.delay.toNat) :
      (turned table)^[k] a = a.delayed (.ofNat (a.engine.machine.delay.toNat - k)) := by
    rw [← iterate_turned_delayed hloaded hdelay hk, ha]
  refine ⟨?_, ?_, ?_⟩
  · intro k hk
    have hleft : a.engine.machine.delay.toNat - k = a.engine.machine.delay.toNat - 1 - k + 1 := by
      omega
    rw [hturned hk.le, hleft, tick_delayed hloaded (by omega)]
  · rw [hturned le_rfl, Nat.sub_self]
    rfl
  · exact startsAt (Engine.isReady_iff.2 ⟨⟨ip, hip⟩, rfl⟩) hip hbudget

end Waiting

/-- In its turn, after so many instructions, the script calls the delay function with a value on top
of the stack. -/
structure CallsDelay (table : NativeTable ω) (a : Actor ω) (count : Nat) (b : Actor ω)
    (parameter next v : Word) : Prop where
  advances : Advances table a count b
  within : count < a.engine.settings.instructionBudget
  ready : b.engine.isReady = true
  operation : b.operation? = some (.function, parameter, next)
  bound : table.get? (parameter &&& 0xFF) = some Native.delay
  top : b.engine.machine.values.head? = some v

/-- The actor after it called the delay function.  Its stack is as it was. -/
def calledDelay (b : Actor ω) (parameter next ticks : Word) : Actor ω :=
  b.called parameter { b.engine.machine with ip := some next, result := ticks, delay := ticks } b.owner

theorem CallsDelay.advances_succ {count : Nat} {parameter next v : Word}
    (h : a.CallsDelay table count b parameter next v) :
    Advances table a (count + 1)
      (b.calledDelay parameter next (v / max a.engine.settings.ticksPerDelayUnit 1)) := by
  have htop : (b.opened next).machine.values.head? = some v := h.top
  have hcall := Native.delay_ok b.site htop
  dsimp only at hcall
  rw [← call_bound h.bound] at hcall
  obtain ⟨hvalue, hafter⟩ := step_call_ok h.operation hcall
  have hnext := h.advances.step h.ready hvalue
  rw [hafter] at hnext
  rwa [← h.advances.settings_eq]

/-- A delay is slept through tick by tick, and the script starts again where it was.  A call of the
delay function ends the turn, unless the delay comes to nothing. -/
theorem delay_slept_through (table : NativeTable ω) (a : Actor ω) :
    (∀ ip, a.engine.machine.ip = some ip → 0 < a.engine.settings.instructionBudget →
        a.Sleeps table a.engine.machine.delay.toNat ip) ∧
      ∀ count b parameter next v, a.CallsDelay table count b parameter next v →
        let budget := a.engine.settings.instructionBudget
        ∃ ticks : Word, ticks.toNat = v.toNat / max a.engine.settings.ticksPerDelayUnit.toNat 1 ∧
          let c := b.calledDelay parameter next ticks
          (ticks ≠ 0 → (a.tick table).value = .ran (count + 1) ∧ (a.tick table).after = c ∧
            c.Sleeps table ticks.toNat next) ∧
          (ticks = 0 → c.engine.isReady = true ∧ ∃ earlier,
            a.tick table =
              (c.runFrom table (count + 1) earlier (budget - (count + 1))).map Turn.ofRun ∧
            (count + 1 < budget →
              ∃ later, (a.tick table).events = earlier ++ #[c.arrival next] ++ later)) := by
  refine ⟨fun ip => sleeps table, ?_⟩
  intro count b parameter next v h budget
  have hadvances := h.advances_succ
  have hsettings := hadvances.settings_eq
  obtain ⟨earlier, htick⟩ := hadvances.tick_eq (h.advances.isReady h.ready) h.within
  refine ⟨v / max a.engine.settings.ticksPerDelayUnit 1, Word.toNat_div_max_one _ _, ?_⟩
  generalize v / max a.engine.settings.ticksPerDelayUnit 1 = ticks at hsettings htick
  intro c
  refine ⟨?_, ?_⟩
  · intro hticks
    have hunready : c.engine.isReady = false := by
      rw [Bool.eq_false_iff, Ne, Engine.isReady_iff]
      exact fun hready => hticks hready.2
    rw [runFrom_unready (count + 1) earlier _ hunready] at htick
    rw [htick]
    refine ⟨rfl, rfl, sleeps table rfl ?_⟩
    rw [hsettings]
    exact Nat.zero_lt_of_lt h.within
  · rintro rfl
    have hready : c.engine.isReady = true := Engine.isReady_iff.2 ⟨⟨next, rfl⟩, rfl⟩
    refine ⟨hready, earlier, htick, ?_⟩
    intro hmore
    obtain ⟨rest, hrest⟩ := Nat.exists_eq_succ_of_ne_zero (Nat.sub_ne_zero_of_lt hmore)
    rw [htick, hrest]
    exact runFrom_arrival (count + 1) earlier table rest hready rfl

/-- A delay of 75 with 5 to a tick lasts 15 ticks.  Nothing is found at offset 7. -/
theorem delay_slept_through_fifteen :
    let table : NativeTable Unit := ⟨.team, .replicate nativeSlots (some .delay)⟩
    let program : Program := { words := #[0x434B, 0x0E00, 0x4C01, 0x8000] }
    let caller : Actor Unit := ⟨{ program := program, machine := { ip := some 0 } }, ()⟩
    let sleeper : Actor Unit := ⟨{ program := program, machine := { ip := some 7, delay := 3 } }, ()⟩
    ((caller.tick table).value = .ran 2 ∧ (caller.tick table).after.Sleeps table 15 2) ∧
      sleeper.Sleeps table 3 7 := by
  intro table program caller sleeper
  have hoperation : (caller.step table).after.operation? = some (.function, 0, 2) := by cbv
  have htop : (caller.step table).after.engine.machine.values.head? = some 75 := by decide
  have hcalls : caller.CallsDelay table 1 (caller.step table).after 0 2 75 :=
    ⟨.step .start rfl (by cbv), by decide, by decide, hoperation, rfl, htop⟩
  obtain ⟨ticks, hticks, hslept, -⟩ := (delay_slept_through table caller).2 _ _ _ _ _ hcalls
  obtain rfl : ticks = 15 := UInt16.toNat_inj.1 (hticks.trans (by decide))
  obtain ⟨hran, hafter, hsleeps⟩ := hslept (by decide)
  rw [hafter]
  exact ⟨⟨hran, hsleeps⟩, (delay_slept_through table sleeper).1 7 rfl (by decide)⟩

end Actor

end EntityScript

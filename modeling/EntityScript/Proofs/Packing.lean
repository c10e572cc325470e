import EntityScript.Packed.Values
import EntityScript.Proofs.Image

namespace EntityScript

namespace Packed

variable {α β : Type}

theorem Reader.bind_run_iff {f : Reader α} {g : α → Reader β} {bytes : Bytes} {done : β × Bytes} :
    (f >>= g).run bytes = some done ↔
      ∃ a rest, f.run bytes = some (a, rest) ∧ (g a).run rest = some done := by
  rw [StateT.run_bind]
  constructor
  · intro h
    obtain ⟨⟨a, rest⟩, hfirst, hsecond⟩ := Option.bind_eq_some_iff.1 h
    exact ⟨a, rest, hfirst, hsecond⟩
  · rintro ⟨a, rest, hfirst, hsecond⟩
    exact Option.bind_eq_some_iff.2 ⟨(a, rest), hfirst, hsecond⟩

theorem Reader.pure_run_iff {a b : α} {bytes rest : Bytes} :
    (pure a : Reader α).run bytes = some (b, rest) ↔ a = b ∧ bytes = rest := by
  rw [StateT.run_pure]
  change some (a, bytes) = some (b, rest) ↔ _
  simp

/-- A reader accepts a value as it is packed, whatever follows, and nothing else. -/
def Reads (read : Reader α) (pack : α → Bytes) : Prop :=
  ∀ bytes a rest, read.run bytes = some (a, rest) ↔ bytes = pack a ++ rest

namespace Reads

theorem byte : Reads Reader.byte Packed.byte := by
  intro bytes b rest
  cases bytes with
  | nil =>
      change none = some (b, rest) ↔ [] = [b] ++ rest
      simp
  | cons first others =>
      change some (first, others) = some (b, rest) ↔ first :: others = [b] ++ rest
      simp

theorem word : Reads Reader.word Packed.word := by
  intro bytes w rest
  have hpair (low high : UInt8) :
      Packed.word (Bytes.ofLittleEndian [low, high]).toUInt16 = [low, high] := by
    have hvalue := Bytes.toNat_ofBigEndian_pair high low
    exact (congrArg (Bytes.littleEndian 2) hvalue).trans
      (Bytes.littleEndian_ofLittleEndian [low, high])
  have hword : (Bytes.ofLittleEndian (Packed.word w)).toUInt16 = w := by
    have hvalue : Bytes.ofLittleEndian (Packed.word w) = w.toNat :=
      (Bytes.ofLittleEndian_littleEndian 2 w.toNat).trans (Nat.mod_eq_of_lt w.toNat_lt)
    rw [hvalue, Nat.toUInt16_eq, UInt16.ofNat_toNat]
  rw [Reader.word, Reader.bind_run_iff]
  simp only [Reader.bind_run_iff, Reader.pure_run_iff, byte _ _ _]
  constructor
  · rintro ⟨low, _, rfl, high, _, rfl, rfl, rfl⟩
    rw [hpair]
    rfl
  · rintro rfl
    exact ⟨_, _, rfl, _, _, rfl, hword, rfl⟩

theorem bool : Reads Reader.bool Packed.bool := by
  intro bytes b rest
  rw [Reader.bool, Reader.bind_run_iff]
  simp only [byte _ _ _]
  constructor
  · rintro ⟨flag, _, rfl, h⟩
    split at h
    · obtain ⟨rfl, rfl⟩ := Reader.pure_run_iff.1 h
      rfl
    · obtain ⟨rfl, rfl⟩ := Reader.pure_run_iff.1 h
      rfl
    · cases h
  · rintro rfl
    cases b with
    | false => exact ⟨0, rest, rfl, Reader.pure_run_iff.2 ⟨rfl, rfl⟩⟩
    | true => exact ⟨1, rest, rfl, Reader.pure_run_iff.2 ⟨rfl, rfl⟩⟩

variable {read : Reader α} {pack : α → Bytes}

theorem option (h : Reads read pack) : Reads (Reader.option read) (Packed.option pack) := by
  intro bytes found rest
  rw [Reader.option, Reader.bind_run_iff]
  simp only [byte _ _ _]
  constructor
  · rintro ⟨tag, _, rfl, htag⟩
    split at htag
    · obtain ⟨rfl, rfl⟩ := Reader.pure_run_iff.1 htag
      rfl
    · obtain ⟨a, _, hread, hdone⟩ := Reader.bind_run_iff.1 htag
      obtain ⟨rfl, rfl⟩ := Reader.pure_run_iff.1 hdone
      rw [(h _ _ _).1 hread]
      rfl
    · cases htag
  · rintro rfl
    cases found with
    | none => exact ⟨0, rest, rfl, Reader.pure_run_iff.2 ⟨rfl, rfl⟩⟩
    | some a =>
        refine ⟨1, pack a ++ rest, rfl, ?_⟩
        exact Reader.bind_run_iff.2 ⟨a, rest, (h _ _ _).2 rfl, Reader.pure_run_iff.2 ⟨rfl, rfl⟩⟩

theorem vector (h : Reads read pack) (count : Nat) :
    Reads (Reader.vector read count) fun items => items.toList.flatMap pack := by
  intro bytes items rest
  induction count generalizing bytes rest with
  | zero =>
      obtain rfl : items = #v[] := Vector.eq_empty
      rw [Reader.vector, Reader.pure_run_iff]
      simp
  | succ count ih =>
      rw [Reader.vector, Reader.bind_run_iff]
      simp only [Reader.bind_run_iff, Reader.pure_run_iff, ih, h _ _ _]
      constructor
      · rintro ⟨before, _, rfl, last, _, rfl, rfl, rfl⟩
        simp [Vector.toList_push]
      · rintro rfl
        have hitems : items.toList = items.pop.toList ++ [items.back] := by
          rw [← Vector.toList_push, Vector.push_pop_back]
        refine ⟨items.pop, pack items.back ++ rest, ?_, items.back, rest, rfl, ?_, rfl⟩
        · simp [hitems]
        · exact Vector.push_pop_back items

end Reads

end Packed

namespace Machine

open Packed

theorem unpack?_eq_some_iff {bytes rest : Bytes} {m : Machine} :
    unpack? bytes = some (m, rest) ↔ bytes = m.pack ++ rest := by
  rw [unpack?, unpackReader]
  simp only [Reader.bind_run_iff, Reader.pure_run_iff, Reads.option Reads.word _ _ _,
    Reads.word _ _ _, Reads.byte _ _ _, Reads.bool _ _ _, Reads.vector Reads.word _ _ _ _]
  constructor
  · rintro ⟨ip, _, rfl, delay, _, rfl, result, _, rfl, frame, _, rfl, pointer, _, rfl, vars, _, rfl,
      stack, _, rfl, flag, _, rfl, rfl, rfl⟩
    simp [pack]
  · rintro rfl
    simp only [pack, List.append_assoc]
    exact ⟨_, _, rfl, _, _, rfl, _, _, rfl, _, _, rfl, _, _, rfl, _, _, rfl, _, _, rfl, _, _, rfl,
      rfl, rfl⟩

/-- Machines are read back as they were packed, and from no other bytes.  A machine in bounds is
restored from both forms, and as the same one just if it does not stand at offset zero, which the
saved form takes for none. -/
theorem persisted_forms (m : Machine) :
    (∀ bytes rest, unpack? bytes = some (m, rest) ↔ bytes = m.pack ++ rest) ∧
      (m.InBounds → ∀ packedRest savedRest, ∃ packed saved,
        unpack? (m.pack ++ packedRest) = some (packed, packedRest) ∧
          load (m.save ++ savedRest) = .ok (saved, savedRest) ∧
          (packed = saved ↔ m.ip ≠ some 0)) := by
  refine ⟨fun _ _ => unpack?_eq_some_iff, ?_⟩
  intro hm packedRest savedRest
  refine ⟨m, { m with ip := m.ip.filter (· ≠ 0) }, unpack?_eq_some_iff.2 rfl,
    load_save hm savedRest, ?_⟩
  rw [← filter_ip_eq_iff]
  constructor
  · intro hsame
    exact (congrArg Machine.ip hsame).symm
  · intro hip
    rw [hip]

theorem persisted_forms_zero_offset :
    let started : Machine := { ip := some 0, delay := 3 }
    let moved : Machine := { started with ip := some 7 }
    (∃ packed saved, unpack? (started.pack ++ [8]) = some (packed, [8]) ∧
      load (started.save ++ [9]) = .ok (saved, [9]) ∧ packed ≠ saved) ∧
      ∃ both, unpack? (moved.pack ++ [8]) = some (both, [8]) ∧
        load (moved.save ++ [9]) = .ok (both, [9]) := by
  intro started moved
  constructor
  · obtain ⟨packed, saved, hpacked, hsaved, hsame⟩ :=
      (persisted_forms started).2 (by decide) [8] [9]
    exact ⟨packed, saved, hpacked, hsaved, fun h => hsame.1 h rfl⟩
  · obtain ⟨packed, saved, hpacked, hsaved, hsame⟩ := (persisted_forms moved).2 (by decide) [8] [9]
    obtain rfl := hsame.2 (by decide)
    exact ⟨packed, hpacked, hsaved⟩

/-- Where the stack pointer stands in a packed machine. -/
def packedPointerIndex (m : Machine) : Nat :=
  if m.ip.isSome then 8 else 6

theorem getElem?_pack_pointer (m : Machine) (rest : Bytes) :
    (m.pack ++ rest)[m.packedPointerIndex]? = some m.stackPointer := by
  rw [pack, packedPointerIndex]
  cases m.ip with
  | none => rfl
  | some ip => rfl

/-- A restored image has its stack pointer in bounds, and a packed machine just if its byte says so.
-/
theorem restored_pointer (bytes rest : Bytes) (m : Machine) :
    (load bytes = .ok (m, rest) → m.stackPointer.toNat ≤ stackSize) ∧
      (unpack? bytes = some (m, rest) →
        (m.stackPointer.toNat ≤ stackSize ↔
          ∃ pointer, bytes[m.packedPointerIndex]? = some pointer ∧ pointer.toNat ≤ stackSize)) ∧
      unpack? (m.pack ++ rest) = some (m, rest) := by
  refine ⟨inBounds_of_load, ?_, unpack?_eq_some_iff.2 rfl⟩
  intro h
  obtain rfl := unpack?_eq_some_iff.1 h
  rw [getElem?_pack_pointer]
  constructor
  · intro hpointer
    exact ⟨m.stackPointer, rfl, hpointer⟩
  · rintro ⟨pointer, hbyte, hpointer⟩
    cases hbyte
    exact hpointer

theorem restored_pointer_three :
    let image : Bytes := List.replicate 13 0 ++ 3 :: List.replicate 41 0
    let packed : Bytes := List.replicate 6 0 ++ 3 :: List.replicate 41 0
    (∃ m, load image = .ok (m, []) ∧ m.stackPointer.toNat ≤ stackSize) ∧
      ∃ m, unpack? packed = some (m, []) ∧ m.stackPointer.toNat ≤ stackSize := by
  intro image packed
  obtain ⟨m, hload⟩ : ∃ m, load image = .ok (m, []) := ⟨_, rfl⟩
  obtain ⟨p, hunpack⟩ : ∃ p, unpack? packed = some (p, []) := ⟨_, rfl⟩
  have hindex : p.packedPointerIndex = 6 := by
    cases hunpack
    rfl
  refine ⟨⟨m, hload, (restored_pointer image [] m).1 hload⟩, p, hunpack, ?_⟩
  refine ((restored_pointer packed [] p).2.1 hunpack).2 ⟨3, ?_, by decide⟩
  rw [hindex]
  rfl

/-- The packed stack pointer is 200. -/
theorem unpack?_stray_pointer :
    ∃ m, unpack? (List.replicate 6 0 ++ 200 :: List.replicate 41 0) = some (m, []) ∧
      ¬m.stackPointer.toNat ≤ stackSize :=
  ⟨_, rfl, by decide⟩

end Machine

end EntityScript

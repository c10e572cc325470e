import EntityScript.Bytes.Lemmas
import EntityScript.Machine.Image
import EntityScript.Proofs.Operations

namespace EntityScript.Machine

namespace Reader

variable {α β : Type} {bytes : Bytes} {done : β × Bytes}

theorem bind_eq_ok {f : Reader α} {g : α → Reader β} (h : (f >>= g).run bytes = .ok done) :
    ∃ a rest, f.run bytes = .ok (a, rest) ∧ (g a).run rest = .ok done := by
  rw [StateT.run_bind] at h
  cases hf : f.run bytes with
  | error e =>
      rw [hf] at h
      cases h
  | ok found =>
      rw [hf] at h
      exact ⟨found.1, found.2, rfl, h⟩

theorem guard_eq_ok {c : Prop} [Decidable c] {e : ImageError} {k : PUnit → Reader β}
    (h : StateT.run (if c then throw e >>= k else k ⟨⟩) bytes = .ok done) :
    ¬c ∧ (k ⟨⟩).run bytes = .ok done := by
  split at h
  · cases h
  · rename_i hc
    exact ⟨hc, h⟩

theorem bind_run {f : Reader α} {g : α → Reader β} {a : α} {rest : Bytes}
    (h : f.run bytes = .ok (a, rest)) : (f >>= g).run bytes = (g a).run rest := by
  rw [StateT.run_bind, h]
  rfl

theorem guard_run {c : Prop} [Decidable c] {e : ImageError} {k : PUnit → Reader β} (h : ¬c) :
    StateT.run (if c then throw e >>= k else k ⟨⟩) bytes = (k ⟨⟩).run bytes := by
  rw [if_neg h]

theorem bytes_append {count : Nat} {field : Bytes} (h : field.length = count) (rest : Bytes) :
    (Reader.bytes count).run (field ++ rest) = .ok (field, rest) := by
  subst h
  rw [Reader.bytes, bind_run rfl, guard_run (by simp), bind_run rfl, List.drop_left, List.take_left]
  rfl

theorem number_append (width n : Nat) (rest : Bytes) :
    (number width).run (Bytes.littleEndian width n ++ rest) = .ok (n % 256 ^ width, rest) := by
  rw [number, bind_run (bytes_append (Bytes.length_littleEndian width n) rest),
    Bytes.ofLittleEndian_littleEndian]
  rfl

theorem number_byte (b : UInt8) (rest : Bytes) :
    (number 1).run (b :: rest) = .ok (b.toNat, rest) := by
  have hbyte : (Reader.bytes 1).run ([b] ++ rest) = .ok ([b], rest) := bytes_append rfl rest
  rw [number, ← List.singleton_append, bind_run hbyte]
  simp [Bytes.ofLittleEndian, pure, StateT.run, StateT.pure, Except.pure]

theorem words_append {count : Nat} (ws : Vector Word count) (rest : Bytes) :
    (words count).run ((ws.toList.flatMap fun w => Bytes.littleEndian 2 w.toNat) ++ rest) =
      .ok (ws, rest) := by
  induction count generalizing rest with
  | zero =>
      obtain rfl : ws = #v[] := Vector.eq_empty
      rfl
  | succ count ih =>
      have hlast : ws.back.toNat % 256 ^ 2 = ws.back.toNat := Nat.mod_eq_of_lt ws.back.toNat_lt
      rw [← Vector.push_pop_back ws, Vector.toList_push, List.flatMap_append, List.append_assoc,
        words, bind_run (ih ws.pop _), bind_run (by
          rw [List.flatMap_singleton]
          exact number_append 2 _ rest), hlast]
      simp [pure, StateT.run, StateT.pure, Except.pure]

end Reader

theorem inBounds_of_load {bytes rest : Bytes} {m : Machine} (h : load bytes = .ok (m, rest)) :
    m.InBounds := by
  rw [load, Machine.read] at h
  obtain ⟨delay, _, -, h⟩ := Reader.bind_eq_ok h
  obtain ⟨offset, _, -, h⟩ := Reader.bind_eq_ok h
  obtain ⟨-, h⟩ := Reader.guard_eq_ok h
  obtain ⟨reserved, _, -, h⟩ := Reader.bind_eq_ok h
  obtain ⟨result, _, -, h⟩ := Reader.bind_eq_ok h
  obtain ⟨framePointer, _, -, h⟩ := Reader.bind_eq_ok h
  obtain ⟨stackPointer, _, -, h⟩ := Reader.bind_eq_ok h
  obtain ⟨hpointer, h⟩ := Reader.guard_eq_ok h
  obtain ⟨vars, _, -, h⟩ := Reader.bind_eq_ok h
  obtain ⟨stack, _, -, h⟩ := Reader.bind_eq_ok h
  obtain ⟨flag, _, -, h⟩ := Reader.bind_eq_ok h
  cases h
  have hle : stackPointer ≤ stackSize := Nat.le_of_not_lt hpointer
  change stackPointer.toUInt8.toNat ≤ stackSize
  rw [Nat.toUInt8_eq, UInt8.toNat_ofNat']
  exact Nat.le_trans (Nat.mod_le _ _) hle

theorem save_append (m : Machine) (rest : Bytes) :
    m.save ++ rest =
      Bytes.littleEndian 2 m.delay.toNat ++ (Bytes.littleEndian 4 (m.ip.getD 0).toNat ++
        (Bytes.littleEndian 4 0 ++ (Bytes.littleEndian 2 m.result.toNat ++
          (m.framePointer :: m.stackPointer ::
            ((m.vars.toList.flatMap fun w => Bytes.littleEndian 2 w.toNat) ++
              ((m.stack.toList.flatMap fun w => Bytes.littleEndian 2 w.toNat) ++
                ((if m.inSubroutine then 1 else 0) :: rest))))))) := by
  simp [save, imageFields, List.flatMap]

theorem filter_ip_eq_iff (m : Machine) : m.ip.filter (· ≠ 0) = m.ip ↔ m.ip ≠ some 0 := by
  cases m.ip with
  | none => simp
  | some ip => simp [Option.filter]

theorem load_save {m : Machine} (hm : m.InBounds) (rest : Bytes) :
    load (m.save ++ rest) = .ok ({ m with ip := m.ip.filter (· ≠ 0) }, rest) := by
  have hword (w : Word) : w.toNat % 256 ^ 2 = w.toNat := Nat.mod_eq_of_lt w.toNat_lt
  have hoffset (w : Word) : w.toNat % 256 ^ 4 = w.toNat :=
    Nat.mod_eq_of_lt (w.toNat_lt.trans (by norm_num))
  have hrange : ¬65536 ≤ (m.ip.getD 0).toNat := Nat.not_le.2 (m.ip.getD 0).toNat_lt
  have hpointer : ¬stackSize < m.stackPointer.toNat := Nat.not_lt.2 hm
  rw [load, Machine.read, save_append, Reader.bind_run (Reader.number_append 2 _ _),
    Reader.bind_run (Reader.number_append 4 _ _), hword, hoffset, Reader.guard_run hrange,
    Reader.bind_run (Reader.number_append 4 _ _), Reader.bind_run (Reader.number_append 2 _ _),
    hword, Reader.bind_run (Reader.number_byte _ _), Reader.bind_run (Reader.number_byte _ _),
    Reader.guard_run hpointer, Reader.bind_run (Reader.words_append _ _),
    Reader.bind_run (Reader.words_append _ _), Reader.bind_run (Reader.number_byte _ _)]
  have hip : (if (m.ip.getD 0).toNat = 0 then none else some (m.ip.getD 0)) =
      m.ip.filter (· ≠ 0) := by
    cases m.ip with
    | none => rfl
    | some ip => simp [Option.filter, ← UInt16.toNat_inj]
  have hflag : decide ((if m.inSubroutine then 1 else 0 : UInt8).toNat ≠ 0) = m.inSubroutine := by
    cases m.inSubroutine <;> rfl
  simp only [Nat.toUInt16_eq, Nat.toUInt8_eq, UInt16.ofNat_toNat, UInt8.ofNat_toNat, hip, hflag]
  rfl

end EntityScript.Machine

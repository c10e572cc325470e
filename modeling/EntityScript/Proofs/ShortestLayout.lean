import EntityScript.Proofs.InstructionFormat

namespace EntityScript

namespace Word

theorem signExtend_eq_self_iff {w : Word} :
    w.signExtend = w ↔ -128 ≤ w.toInt16 ∧ w.toInt16 ≤ 127 := by
  constructor
  · intro h
    have hbyte : w.toInt16 = w.toUInt8.toInt8.toInt16 := (congrArg UInt16.toInt16 h).symm
    have hvalue : w.toInt16.toInt = w.toUInt8.toInt8.toInt := by rw [hbyte, Int8.toInt_toInt16]
    have hlow := w.toUInt8.toInt8.le_toInt
    have hhigh := w.toUInt8.toInt8.toInt_lt
    rw [Int16.le_iff_toInt_le, Int16.le_iff_toInt_le, hvalue]
    exact ⟨hlow, Int.le_of_lt_add_one hhigh⟩
  · rintro ⟨hlow, hhigh⟩
    exact signExtend_eq_self hlow hhigh

theorem signExtend_eq_self_iff_of_lt {w : Word} (h : w < 0x8000) :
    w.signExtend = w ↔ w < 0x80 := by
  have hvalue := toInt_toInt16 (UInt16.lt_iff_toNat_lt.1 h)
  rw [signExtend_eq_self_iff, Int16.le_iff_toInt_le, Int16.le_iff_toInt_le, hvalue,
    UInt16.lt_iff_toNat_lt]
  change (-128 ≤ (w.toNat : Int) ∧ (w.toNat : Int) ≤ 127) ↔ w.toNat < 128
  omega

end Word

namespace Instruction

/-- The words of the instruction are read as an operation with a parameter. -/
def ReadAs (i : Instruction) (op : Opcode) (parameter : Word) : Prop :=
  ∃ read, ofWords? i.encode = some read ∧ read.opcode? = some op ∧ read.parameter = parameter

/-- A jump whose target fits the layout of a jump but not a signed byte. -/
def IsFarJump (op : Opcode) (parameter : Word) : Prop :=
  op = .jump ∧ 0x80 ≤ parameter ∧ parameter < 0x8000

instance (op : Opcode) (parameter : Word) : Decidable (IsFarJump op parameter) :=
  inferInstanceAs (Decidable (_ ∧ _))

variable {i : Instruction} {op : Opcode} {parameter : Word}

theorem readAs_iff :
    i.ReadAs op parameter ↔ i.held.opcode? = some op ∧ i.held.parameter = parameter := by
  have hread : ofWords? i.encode = some i.held := by
    have hencode := ofWords?_encode [] i
    rwa [List.append_nil] at hencode
  simp only [ReadAs, hread, Option.some_inj, exists_eq_left']

theorem readAs_shortest (op : Opcode) (parameter : Word) :
    (shortest op parameter).ReadAs op parameter := by
  rw [readAs_iff, held_eq_self_iff.2 (representable_shortest op parameter)]
  exact ⟨Opcode.ofCode?_code op, rfl⟩

theorem readAs_jumpTo (h : parameter < 0x8000) : (jumpTo parameter).ReadAs .jump parameter := by
  rw [readAs_iff, held_eq_self_iff.2 (representable_jumpTo parameter)]
  exact ⟨rfl, and_targetMask_eq_iff.2 h⟩

theorem size_shortest (op : Opcode) (parameter : Word) :
    (shortest op parameter).size = if parameter.signExtend = parameter then 1 else 2 := by
  simp only [shortest, size]
  by_cases hzero : parameter = 0
  · subst hzero
    rfl
  · simp only [if_neg hzero, Word.signExtend_eq_self_iff]
    by_cases hbyte : -128 ≤ parameter.toInt16 ∧ parameter.toInt16 ≤ 127
    · simp only [if_pos hbyte]
    · simp only [if_neg hbyte]

theorem isFarJump_of_size_lt (hread : i.ReadAs op parameter)
    (hlt : i.size < (shortest op parameter).size) :
    IsFarJump op parameter ∧ i.held = jumpTo parameter := by
  rw [size_shortest] at hlt
  have hwide : parameter.signExtend ≠ parameter := by
    intro hfits
    have hpos := i.size_pos
    rw [if_pos hfits] at hlt
    omega
  rw [if_neg hwide] at hlt
  obtain ⟨hop, hparameter⟩ := readAs_iff.1 hread
  obtain ⟨code, stored, encoding⟩ := i
  -- A byte and no operand are read as parameters that the chosen layout holds in one word as well.
  cases encoding with
  | jump =>
      obtain rfl : Opcode.jump = op := Option.some_inj.1 hop
      have htarget : stored &&& targetMask = parameter := hparameter
      have hlow : parameter < 0x8000 := by
        rw [← and_targetMask_eq_iff, ← htarget, UInt16.and_assoc, UInt16.and_self]
      have hfar : ¬parameter < 0x80 := by
        rwa [← Word.signExtend_eq_self_iff_of_lt hlow]
      have hheld : jumpTo stored = jumpTo parameter := by
        rw [jumpTo, jumpTo, htarget, and_targetMask_eq_iff.2 hlow]
      exact ⟨⟨rfl, UInt16.not_lt.1 hfar, hlow⟩, hheld⟩
  | byte =>
      have hbyte : stored.signExtend = parameter := hparameter
      rw [← hbyte, Word.signExtend_signExtend] at hwide
      exact (hwide rfl).elim
  | word => exact absurd hlt (Nat.lt_irrefl 2)
  | bare =>
      have hzero : (0 : Word) = parameter := hparameter
      rw [← hzero] at hwide
      exact (hwide rfl).elim

theorem size_shortest_far (h : IsFarJump op parameter) : (shortest op parameter).size = 2 := by
  obtain ⟨-, hfar, hlow⟩ := h
  have hwide : ¬parameter.signExtend = parameter := by
    rw [Word.signExtend_eq_self_iff_of_lt hlow]
    exact UInt16.not_lt.2 hfar
  rw [size_shortest, if_neg hwide]

/-- No instruction that is read as an operation with a parameter is shorter than the one in the
chosen layout, but for jumps to far targets. -/
theorem shortest_layout (op : Opcode) (parameter : Word) :
    (shortest op parameter).ReadAs op parameter ∧
      ((∀ i : Instruction, i.ReadAs op parameter → (shortest op parameter).size ≤ i.size) ↔
        ¬IsFarJump op parameter) ∧
      ∀ i : Instruction, i.ReadAs op parameter → i.size < (shortest op parameter).size →
        IsFarJump op parameter ∧ i.held = jumpTo parameter := by
  refine ⟨readAs_shortest op parameter, ⟨?_, ?_⟩, fun i => isFarJump_of_size_lt⟩
  · rintro hminimal hfar
    have hsize := size_shortest_far hfar
    obtain ⟨rfl, -, hlow⟩ := hfar
    have hle := hminimal (jumpTo parameter) (readAs_jumpTo hlow)
    rw [hsize] at hle
    exact absurd hle (by decide : ¬2 ≤ 1)
  · intro hnear i hread
    by_contra hle
    exact hnear (isFarJump_of_size_lt hread (Nat.lt_of_not_le hle)).1

/-- The first value that needs a second word, and the last target that does not. -/
theorem shortest_layout_bounds :
    (∀ i : Instruction, i.ReadAs .push 0x80 → 2 ≤ i.size) ∧
      (jumpTo 0x7FFF).ReadAs .jump 0x7FFF ∧
      (jumpTo 0x7FFF).size < (shortest .jump 0x7FFF).size ∧
      IsFarJump .jump 0x7FFF ∧ (jumpTo 0x7FFF).held = jumpTo 0x7FFF := by
  obtain ⟨-, hminimal, -⟩ := shortest_layout .push 0x80
  obtain ⟨-, -, hshorter⟩ := shortest_layout .jump 0x7FFF
  have hread : (jumpTo 0x7FFF).ReadAs .jump 0x7FFF := readAs_jumpTo (by decide)
  have hlt : (jumpTo 0x7FFF).size < (shortest .jump 0x7FFF).size := by decide
  exact ⟨hminimal.2 (by decide), hread, hlt, hshorter _ hread hlt⟩

/-- The chosen layout of a jump to 0x1234 has two words, and one word is read as the same jump. -/
theorem shortest_layout_far :
    (shortest .jump 0x1234).encode = [0x2000, 0x1234] ∧
      (jumpTo 0x1234).encode = [0x9234] ∧ (jumpTo 0x1234).ReadAs .jump 0x1234 ∧
        ¬(shortest .jump 0x1234).size ≤ (jumpTo 0x1234).size :=
  ⟨by decide, by decide, readAs_jumpTo (by decide), by decide⟩

end Instruction

end EntityScript

import EntityScript.Instruction
import Mathlib

namespace EntityScript

namespace Word

/-- The bit of a word at a place, counted from the lowest. -/
def bit (w : Word) (i : Nat) : Bool :=
  w.toNat.testBit i

theorem ext_bit {v w : Word} (h : ∀ i < 16, v.bit i = w.bit i) : v = w := by
  apply UInt16.toNat_inj.1
  apply Nat.eq_of_testBit_eq
  intro i
  rcases Nat.lt_or_ge i 16 with hlt | hge
  · exact h i hlt
  · have hbound (u : Word) : u.toNat < 2 ^ i :=
      u.toNat_lt.trans_le (Nat.pow_le_pow_right (by decide) hge)
    rw [Nat.testBit_lt_two_pow (hbound v), Nat.testBit_lt_two_pow (hbound w)]

section Bit

variable (v w : Word) (i : Nat)

theorem bit_zero : (0 : Word).bit i = false :=
  Nat.zero_testBit i

theorem bit_and : (v &&& w).bit i = (v.bit i && w.bit i) := by
  rw [bit, UInt16.toNat_and, Nat.testBit_and]
  rfl

theorem bit_or : (v ||| w).bit i = (v.bit i || w.bit i) := by
  rw [bit, UInt16.toNat_or, Nat.testBit_or]
  rfl

variable {i}

theorem bit_not (h : i < 16) : (~~~w).bit i = !w.bit i := by
  change (~~~w.toBitVec).toNat.testBit i = !w.toBitVec.toNat.testBit i
  rw [BitVec.testBit_toNat, BitVec.testBit_toNat, BitVec.getLsbD_not]
  simp [h]

theorem bit_signExtend (h : i < 16) : w.signExtend.bit i = w.bit (min i 7) := by
  change ((w.toBitVec.setWidth 8).signExtend 16).toNat.testBit i = w.toBitVec.toNat.testBit _
  rw [BitVec.testBit_toNat, BitVec.testBit_toNat, BitVec.getLsbD_signExtend]
  rcases Nat.lt_or_ge i 8 with hlt | hge
  · rw [Nat.min_eq_left (Nat.le_of_lt_succ hlt), if_pos hlt, BitVec.getLsbD_setWidth]
    simp [h, hlt]
  · rw [Nat.min_eq_right (Nat.le_of_succ_le hge), if_neg (Nat.not_lt.2 hge), BitVec.msb_setWidth]
    simp [h]

end Bit

theorem and_eq_zero_iff {w mask : Word} {place : Nat} (hplace : place < 16)
    (hmask : ∀ i < 16, mask.bit i = decide (i = place)) :
    w &&& mask = 0 ↔ w.bit place = false := by
  constructor
  · intro h
    have hbit := congrArg (bit · place) h
    simp only [bit_and, hmask place hplace, decide_true, Bool.and_true] at hbit
    rw [hbit, bit_zero]
  · intro h
    apply ext_bit
    intro i hi
    rw [bit_and, hmask i hi, bit_zero]
    by_cases hi' : i = place
    · simp [hi', h]
    · simp [hi']

theorem signExtend_congr {v w : Word} (h : ∀ i < 8, v.bit i = w.bit i) :
    v.signExtend = w.signExtend := by
  apply ext_bit
  intro i hi
  rw [bit_signExtend v hi, bit_signExtend w hi, h _ (by omega)]

theorem signExtend_signExtend (w : Word) : w.signExtend.signExtend = w.signExtend := by
  apply signExtend_congr
  intro i hi
  rw [bit_signExtend w (by omega), Nat.min_eq_left (Nat.le_of_lt_succ hi)]

theorem signExtend_eq_self {w : Word} (hlow : -128 ≤ w.toInt16) (hhigh : w.toInt16 ≤ 127) :
    w.signExtend = w := by
  have hlow : -128 ≤ w.toInt16.toInt := Int16.le_iff_toInt_le.1 hlow
  have hhigh : w.toInt16.toInt ≤ 127 := Int16.le_iff_toInt_le.1 hhigh
  have hbyte : w.toUInt8.toInt8 = w.toInt16.toInt8 := by
    apply Int8.toBitVec_inj.1
    change w.toBitVec.setWidth 8 = w.toBitVec.signExtend 8
    rw [BitVec.signExtend_eq_setWidth_of_le _ (by decide)]
  have hword : w.toInt16.toInt8.toInt16 = w.toInt16 := by
    apply Int16.toInt_inj.1
    rw [Int8.toInt_toInt16, Int16.toInt_toInt8]
    exact Int.bmod_eq_of_le (by omega) (by omega)
  rw [signExtend, hbyte, hword, UInt16.toUInt16_toInt16]

end Word

/-- The bits of a first word that its layout ignores. -/
def Encoding.ignored : Encoding → Word
  | jump => 0
  | byte => Instruction.wordFlag
  | word | bare => 0xFF

namespace Instruction

open Word

/-- The layout of an instruction holds all of it. -/
def Representable (i : Instruction) : Prop :=
  i.code < 32 ∧
    match i.encoding with
    | .jump => i.code = 0 ∧ i.parameter < 0x8000
    | .byte => i.parameter.signExtend = i.parameter
    | .word => True
    | .bare => i.parameter = 0

/-- What the layout of an instruction holds of it. -/
def held (i : Instruction) : Instruction :=
  match i.encoding with
  | .jump => jumpTo i.parameter
  | .byte => ⟨i.code &&& 0x1F, i.parameter.signExtend, .byte⟩
  | .word => ⟨i.code &&& 0x1F, i.parameter, .word⟩
  | .bare => ⟨i.code &&& 0x1F, 0, .bare⟩

section Held

theorem toNat_and_targetMask (target : Word) :
    (target &&& targetMask).toNat = target.toNat % 2 ^ 15 := by
  rw [UInt16.toNat_and]
  exact Nat.and_two_pow_sub_one_eq_mod target.toNat 15

theorem and_targetMask_eq_iff {target : Word} : target &&& targetMask = target ↔ target < 0x8000 := by
  rw [← UInt16.toNat_inj, toNat_and_targetMask, UInt16.lt_iff_toNat_lt]
  exact Nat.mod_eq_iff_lt (by decide)

theorem and_codeMask_eq_iff {code : UInt8} : code &&& 0x1F = code ↔ code < 32 := by
  rw [← UInt8.toNat_inj, UInt8.toNat_and, UInt8.lt_iff_toNat_lt]
  change code.toNat &&& (2 ^ 5 - 1) = code.toNat ↔ _
  rw [Nat.and_two_pow_sub_one_eq_mod]
  exact Nat.mod_eq_iff_lt (by decide)

theorem held_eq_self_iff {i : Instruction} : i.held = i ↔ i.Representable := by
  obtain ⟨code, parameter, encoding⟩ := i
  cases encoding with
  | jump =>
      simp only [held, Representable, jumpTo, mk.injEq, and_true, and_targetMask_eq_iff]
      constructor
      · rintro ⟨rfl, htarget⟩
        exact ⟨by decide, rfl, htarget⟩
      · rintro ⟨-, rfl, htarget⟩
        exact ⟨rfl, htarget⟩
  | byte => simp only [held, Representable, mk.injEq, and_true, and_codeMask_eq_iff]
  | word => simp only [held, Representable, mk.injEq, and_true, and_codeMask_eq_iff]
  | bare =>
      simp only [held, Representable, mk.injEq, and_true, and_codeMask_eq_iff]
      rw [@eq_comm _ 0 parameter]

instance (i : Instruction) : Decidable i.Representable :=
  decidable_of_iff (i.held = i) held_eq_self_iff

end Held

section Bits

theorem bit_jumpFlag : ∀ i < 16, jumpFlag.bit i = decide (i = 15) := by decide

theorem bit_byteFlag : ∀ i < 16, byteFlag.bit i = decide (i = 14) := by decide

theorem bit_wordFlag : ∀ i < 16, wordFlag.bit i = decide (i = 13) := by decide

theorem bit_targetMask : ∀ i < 16, targetMask.bit i = decide (i < 15) := by decide

theorem bit_lowByte : ∀ i < 16, (0xFF : Word).bit i = decide (i < 8) := by decide

theorem bit_codeMask : ∀ i < 16, (0x1F : Word).bit i = decide (i < 5) := by decide

theorem testBit_codeMask : ∀ i < 8, (0x1F : UInt8).toNat.testBit i = decide (i < 5) := by decide

/-- The code of an operation where it stands in a first word. -/
def codeBits (code : UInt8) : Word :=
  (code &&& 0x1F).toUInt16 <<< 8

/-- The code that a first word holds. -/
def codeOf (head : Word) : UInt8 :=
  ((head >>> 8) &&& 0x1F).toUInt8

theorem bit_codeBits (code : UInt8) {i : Nat} (h : i < 16) :
    (codeBits code).bit i = (decide (8 ≤ i ∧ i < 13) && code.toNat.testBit (i - 8)) := by
  rw [codeBits, bit, UInt16.toNat_shiftLeft, Nat.testBit_mod_two_pow, UInt8.toNat_toUInt16,
    UInt8.toNat_and]
  change (decide (i < 16) && (_ <<< 8).testBit i) = _
  rw [Nat.testBit_shiftLeft, Nat.testBit_and]
  rcases Nat.lt_or_ge i 8 with hlt | hge
  · simp [Nat.not_le.2 hlt]
  · have hplace : i - 8 < 5 ↔ i < 13 := by omega
    rw [testBit_codeMask _ (by omega)]
    simp [h, hge, hplace, Bool.and_comm]

theorem testBit_codeOf (head : Word) {i : Nat} (h : i < 8) :
    (codeOf head).toNat.testBit i = (decide (i < 5) && head.bit (i + 8)) := by
  have hmask := bit_codeMask i (by omega)
  rw [bit] at hmask
  rw [codeOf, UInt16.toNat_toUInt8, Nat.testBit_mod_two_pow, UInt16.toNat_and, Nat.testBit_and,
    UInt16.toNat_shiftRight, hmask, bit]
  simp [h, Nat.add_comm, Bool.and_comm]

theorem bit_codeBits_codeOf (head : Word) {i : Nat} (h : i < 16) :
    (codeBits (codeOf head)).bit i = (decide (8 ≤ i ∧ i < 13) && head.bit i) := by
  rw [bit_codeBits _ h]
  rcases Nat.lt_or_ge i 8 with hlt | hge
  · simp [Nat.not_le.2 hlt]
  · rw [testBit_codeOf _ (by omega), Nat.sub_add_cancel hge]
    grind

theorem codeOf_eq {head : Word} {code : UInt8}
    (h : ∀ i < 5, head.bit (i + 8) = code.toNat.testBit i) : codeOf head = code &&& 0x1F := by
  apply UInt8.toNat_inj.1
  apply Nat.eq_of_testBit_eq
  intro i
  rcases Nat.lt_or_ge i 8 with hlt | hge
  · rw [testBit_codeOf head hlt, UInt8.toNat_and, Nat.testBit_and, testBit_codeMask i hlt,
      Bool.and_comm]
    by_cases hi : i < 5
    · rw [h i hi]
    · simp [hi]
  · have hbound (b : UInt8) : b.toNat < 2 ^ i :=
      b.toNat_lt.trans_le (Nat.pow_le_pow_right (by decide) hge)
    rw [Nat.testBit_lt_two_pow (hbound _), Nat.testBit_lt_two_pow (hbound _)]

end Bits

section Decoding

variable {head : Word}

theorem ofHead?_jump (h : head.bit 15 = true) (operand : Option Word) :
    ofHead? head operand = some (jumpTo head) := by
  have hjump : head &&& jumpFlag ≠ 0 := by
    simp [and_eq_zero_iff (by decide) bit_jumpFlag, h]
  rw [ofHead?, if_pos hjump]

theorem ofHead?_byte (hjump : head.bit 15 = false) (h : head.bit 14 = true)
    (operand : Option Word) :
    ofHead? head operand = some ⟨codeOf head, head.signExtend, .byte⟩ := by
  have hjump : head &&& jumpFlag = 0 := (and_eq_zero_iff (by decide) bit_jumpFlag).2 hjump
  have hbyte : head &&& byteFlag ≠ 0 := by
    simp [and_eq_zero_iff (by decide) bit_byteFlag, h]
  simp only [ofHead?, hjump, ne_eq, not_true, if_false, hbyte, not_false_iff, if_true, codeOf]

theorem ofHead?_word (hjump : head.bit 15 = false) (hbyte : head.bit 14 = false)
    (h : head.bit 13 = true) (operand : Option Word) :
    ofHead? head operand = operand.map fun parameter => ⟨codeOf head, parameter, .word⟩ := by
  have hjump : head &&& jumpFlag = 0 := (and_eq_zero_iff (by decide) bit_jumpFlag).2 hjump
  have hbyte : head &&& byteFlag = 0 := (and_eq_zero_iff (by decide) bit_byteFlag).2 hbyte
  have hword : head &&& wordFlag ≠ 0 := by
    simp [and_eq_zero_iff (by decide) bit_wordFlag, h]
  simp only [ofHead?, hjump, hbyte, ne_eq, not_true, if_false, hword, not_false_iff, if_true, codeOf]

theorem ofHead?_bare (hjump : head.bit 15 = false) (hbyte : head.bit 14 = false)
    (h : head.bit 13 = false) (operand : Option Word) :
    ofHead? head operand = some ⟨codeOf head, 0, .bare⟩ := by
  have hjump : head &&& jumpFlag = 0 := (and_eq_zero_iff (by decide) bit_jumpFlag).2 hjump
  have hbyte : head &&& byteFlag = 0 := (and_eq_zero_iff (by decide) bit_byteFlag).2 hbyte
  have hword : head &&& wordFlag = 0 := (and_eq_zero_iff (by decide) bit_wordFlag).2 h
  simp only [ofHead?, hjump, hbyte, hword, ne_eq, not_true, if_false, codeOf]

theorem ofHead?_eq_none_iff {operand : Option Word} :
    ofHead? head operand = none ↔
      operand = none ∧ head.bit 15 = false ∧ head.bit 14 = false ∧ head.bit 13 = true := by
  cases hjump : head.bit 15 with
  | true => simp [ofHead?_jump hjump]
  | false =>
      cases hbyte : head.bit 14 with
      | true => simp [ofHead?_byte hjump hbyte]
      | false =>
          cases hword : head.bit 13 with
          | true => simp [ofHead?_word hjump hbyte hword]
          | false => simp [ofHead?_bare hjump hbyte hword]

end Decoding

section Reading

variable {head : Word}

theorem encode_jumpTo (h : head.bit 15 = true) : (jumpTo head).encode = [head] := by
  change [jumpFlag ||| (head &&& targetMask &&& targetMask)] = _
  congr 1
  apply ext_bit
  intro i hi
  simp only [bit_or, bit_and, bit_jumpFlag i hi, bit_targetMask i hi]
  grind

theorem encode_byte (hjump : head.bit 15 = false) (h : head.bit 14 = true) :
    (⟨codeOf head, head.signExtend, .byte⟩ : Instruction).encode = [head &&& ~~~wordFlag] := by
  change [byteFlag ||| codeBits (codeOf head) ||| (head.signExtend &&& 0xFF)] = _
  congr 1
  apply ext_bit
  intro i hi
  simp only [bit_or, bit_and, bit_not _ hi, bit_byteFlag i hi, bit_wordFlag i hi, bit_lowByte i hi,
    bit_codeBits_codeOf head hi, bit_signExtend _ hi]
  grind

theorem encode_word (hjump : head.bit 15 = false) (hbyte : head.bit 14 = false)
    (h : head.bit 13 = true) (parameter : Word) :
    (⟨codeOf head, parameter, .word⟩ : Instruction).encode = [head &&& ~~~0xFF, parameter] := by
  change [wordFlag ||| codeBits (codeOf head), parameter] = _
  congr 1
  apply ext_bit
  intro i hi
  simp only [bit_or, bit_and, bit_not _ hi, bit_wordFlag i hi, bit_lowByte i hi,
    bit_codeBits_codeOf head hi]
  grind

theorem encode_bare (hjump : head.bit 15 = false) (hbyte : head.bit 14 = false)
    (h : head.bit 13 = false) :
    (⟨codeOf head, 0, .bare⟩ : Instruction).encode = [head &&& ~~~0xFF] := by
  change [codeBits (codeOf head)] = _
  congr 1
  apply ext_bit
  intro i hi
  simp only [bit_and, bit_not _ hi, bit_lowByte i hi, bit_codeBits_codeOf head hi]
  grind

theorem codeOf_lt (head : Word) : codeOf head < 32 := by
  rw [← and_codeMask_eq_iff]
  apply (codeOf_eq fun i hi => ?_).symm
  rw [testBit_codeOf head (by omega)]
  simp [hi]

theorem representable_jumpTo (target : Word) : (jumpTo target).Representable := by
  have hcode : Opcode.jump.code < 32 := by decide
  refine ⟨hcode, rfl, and_targetMask_eq_iff.1 ?_⟩
  change target &&& targetMask &&& targetMask = target &&& targetMask
  rw [UInt16.and_assoc, UInt16.and_self]

theorem representable_shortest (op : Opcode) (parameter : Word) :
    (shortest op parameter).Representable := by
  have hcode : op.code < 32 := by cases op <;> decide
  refine ⟨hcode, ?_⟩
  simp only [shortest]
  by_cases hzero : parameter = 0
  · simp only [if_pos hzero]
    exact hzero
  · by_cases hbyte : -128 ≤ parameter.toInt16 ∧ parameter.toInt16 ≤ 127
    · simp only [if_neg hzero, if_pos hbyte]
      exact signExtend_eq_self hbyte.1 hbyte.2
    · simp only [if_neg hzero, if_neg hbyte]

theorem ofHead?_encodes {operand : Option Word} {i : Instruction}
    (h : ofHead? head operand = some i) :
    i.Representable ∧
      i.encode = (head &&& ~~~i.encoding.ignored) :: operand.toList.take (i.size - 1) := by
  have hcode := codeOf_lt head
  cases hjump : head.bit 15 with
  | true =>
      rw [ofHead?_jump hjump] at h
      cases h
      refine ⟨representable_jumpTo head, ?_⟩
      rw [encode_jumpTo hjump]
      simp [size, jumpTo, Encoding.ignored]
  | false =>
      cases hbyte : head.bit 14 with
      | true =>
          rw [ofHead?_byte hjump hbyte] at h
          cases h
          exact ⟨⟨hcode, signExtend_signExtend head⟩, encode_byte hjump hbyte⟩
      | false =>
          cases hword : head.bit 13 with
          | true =>
              rw [ofHead?_word hjump hbyte hword] at h
              obtain ⟨parameter, rfl, rfl⟩ := Option.map_eq_some_iff.1 h
              exact ⟨⟨hcode, trivial⟩, encode_word hjump hbyte hword parameter⟩
          | false =>
              rw [ofHead?_bare hjump hbyte hword] at h
              cases h
              exact ⟨⟨hcode, rfl⟩, encode_bare hjump hbyte hword⟩

end Reading

section Writing

variable (code : UInt8) (parameter : Word) (rest : List Word)

theorem bit_byteHead {i : Nat} (h : i < 16) :
    (byteFlag ||| codeBits code ||| (parameter &&& 0xFF)).bit i =
      if i < 8 then parameter.bit i
      else if i < 13 then code.toNat.testBit (i - 8)
      else decide (i = 14) := by
  simp only [bit_or, bit_and, bit_byteFlag i h, bit_codeBits code h, bit_lowByte i h]
  grind

theorem bit_wordHead {i : Nat} (h : i < 16) :
    (wordFlag ||| codeBits code).bit i =
      if i < 13 then decide (8 ≤ i) && code.toNat.testBit (i - 8) else decide (i = 13) := by
  simp only [bit_or, bit_wordFlag i h, bit_codeBits code h]
  grind

theorem codeOf_byteHead :
    codeOf (byteFlag ||| codeBits code ||| (parameter &&& 0xFF)) = code &&& 0x1F := by
  apply codeOf_eq
  intro i hi
  rw [bit_byteHead code parameter (by omega), if_neg (by omega), if_pos (by omega),
    Nat.add_sub_cancel]

theorem codeOf_wordHead : codeOf (wordFlag ||| codeBits code) = code &&& 0x1F := by
  apply codeOf_eq
  intro i hi
  rw [bit_wordHead code (by omega), if_pos (by omega), Nat.add_sub_cancel]
  simp

theorem codeOf_codeBits : codeOf (codeBits code) = code &&& 0x1F := by
  apply codeOf_eq
  intro i hi
  rw [bit_codeBits code (by omega), Nat.add_sub_cancel]
  simp
  omega

theorem signExtend_byteHead :
    (byteFlag ||| codeBits code ||| (parameter &&& 0xFF)).signExtend = parameter.signExtend := by
  apply signExtend_congr
  intro i hi
  rw [bit_byteHead code parameter (by omega), if_pos hi]

theorem jumpTo_jumpHead : jumpTo (jumpFlag ||| (parameter &&& targetMask)) = jumpTo parameter := by
  have htarget : (jumpFlag ||| (parameter &&& targetMask)) &&& targetMask =
      parameter &&& targetMask := by
    apply ext_bit
    intro i hi
    simp only [bit_or, bit_and, bit_jumpFlag i hi, bit_targetMask i hi]
    grind
  rw [jumpTo, htarget]
  rfl

theorem ofWords?_encode (i : Instruction) : ofWords? (i.encode ++ rest) = some i.held := by
  obtain ⟨code, parameter, encoding⟩ := i
  cases encoding with
  | jump =>
      change ofHead? (jumpFlag ||| (parameter &&& targetMask)) rest.head? = _
      have hjump : (jumpFlag ||| (parameter &&& targetMask)).bit 15 = true := by
        simp [bit_or, bit_jumpFlag]
      rw [ofHead?_jump hjump, jumpTo_jumpHead]
      rfl
  | byte =>
      change ofHead? (byteFlag ||| codeBits code ||| (parameter &&& 0xFF)) rest.head? = _
      have hjump := bit_byteHead code parameter (i := 15) (by decide)
      have hbyte := bit_byteHead code parameter (i := 14) (by decide)
      rw [ofHead?_byte hjump hbyte, codeOf_byteHead, signExtend_byteHead]
      rfl
  | word =>
      change ofHead? (wordFlag ||| codeBits code) (some parameter) = _
      have hjump := bit_wordHead code (i := 15) (by decide)
      have hbyte := bit_wordHead code (i := 14) (by decide)
      have hword := bit_wordHead code (i := 13) (by decide)
      rw [ofHead?_word hjump hbyte hword, codeOf_wordHead]
      rfl
  | bare =>
      change ofHead? (codeBits code) rest.head? = _
      have hjump := bit_codeBits code (i := 15) (by decide)
      have hbyte := bit_codeBits code (i := 14) (by decide)
      have hword := bit_codeBits code (i := 13) (by decide)
      rw [ofHead?_bare hjump hbyte hword, codeOf_codeBits]
      rfl

theorem ofWords?_encode_eq_self_iff (i : Instruction) :
    ofWords? (i.encode ++ rest) = some i ↔ i.Representable := by
  rw [ofWords?_encode, Option.some_inj, held_eq_self_iff]

end Writing

theorem ofWords?_eq_none_iff {words : List Word} :
    ofWords? words = none ↔
      words = [] ∨ ∃ head, words = [head] ∧
        head.bit 15 = false ∧ head.bit 14 = false ∧ head.bit 13 = true := by
  cases words with
  | nil => simp [ofWords?]
  | cons head rest => simp [ofWords?, ofHead?_eq_none_iff]

theorem ofWords?_encodes {words : List Word} {i : Instruction} (h : ofWords? words = some i) :
    i.Representable ∧ i.encode.length = i.size ∧ i.size ≤ words.length ∧
      i.encode = (words.take i.size).modifyHead (· &&& ~~~i.encoding.ignored) := by
  cases words with
  | nil => cases h
  | cons head rest =>
      obtain ⟨hrepresentable, hencode⟩ := ofHead?_encodes h
      obtain ⟨more, hsize, hmore⟩ : ∃ more, i.size = more + 1 ∧ more ≤ 1 := by
        unfold size
        cases i.encoding <;> simp
      have hwords : i.encode = ((head :: rest).take i.size).modifyHead
          (· &&& ~~~i.encoding.ignored) := by
        rw [hencode, ← List.take_one, List.take_take, hsize, Nat.add_sub_cancel,
          Nat.min_eq_left hmore, List.take_succ_cons, List.modifyHead_cons]
      refine ⟨hrepresentable, i.length_encode, ?_, hwords⟩
      have hlength := congrArg List.length hwords
      rw [i.length_encode, List.length_modifyHead, List.length_take] at hlength
      omega

/-- An instruction is read back from its words exactly if its layout holds all of it.  Whatever
words are read as an instruction are its words, but for the bits that its layout ignores. -/
theorem codec_laws :
    (∀ (i : Instruction) (rest : List Word),
      ofWords? (i.encode ++ rest) = some i ↔ i.Representable) ∧
    (∀ (op : Opcode) (parameter : Word),
      (shortest op parameter).Representable ∧
        (shortest op parameter).opcode? = some op ∧
          (shortest op parameter).parameter = parameter) ∧
    (∀ target : Word,
      (jumpTo target).Representable ∧ (jumpTo target).opcode? = some .jump ∧
        (jumpTo target).parameter.toNat = target.toNat % 2 ^ 15) ∧
    ∀ words : List Word,
      (ofWords? words = none ↔
        words = [] ∨ ∃ head, words = [head] ∧
          head.bit 15 = false ∧ head.bit 14 = false ∧ head.bit 13 = true) ∧
      ∀ i, ofWords? words = some i →
        i.Representable ∧ i.encode.length = i.size ∧ i.size ≤ words.length ∧
          i.encode = (words.take i.size).modifyHead (· &&& ~~~i.encoding.ignored) := by
  refine ⟨fun i rest => ofWords?_encode_eq_self_iff rest i, ?_, ?_, ?_⟩
  · intro op parameter
    exact ⟨representable_shortest op parameter, Opcode.ofCode?_code op, rfl⟩
  · intro target
    exact ⟨representable_jumpTo target, rfl, toNat_and_targetMask target⟩
  · intro words
    exact ⟨ofWords?_eq_none_iff, fun i => ofWords?_encodes⟩

/-- A byte parameter ignores bit 13, and a parameter in the next word ignores the low byte. -/
theorem codec_laws_ignored :
    let signed : Instruction := ⟨3, 0xFFFF, .byte⟩
    let wide : Instruction := ⟨3, 0x1234, .word⟩
    (ofWords? [0x63FF] = some signed ∧ signed.Representable ∧ signed.encode = [0x43FF]) ∧
      ofWords? [0x23AB, 0x1234, 7] = some wide ∧ wide.Representable ∧
        wide.encode = [0x2300, 0x1234] := by
  intro signed wide
  obtain ⟨-, -, -, hread⟩ := codec_laws
  have hsigned : ofWords? [0x63FF] = some signed := by decide
  have hwide : ofWords? [0x23AB, 0x1234, 7] = some wide := by decide
  obtain ⟨hsigned', -, -, hencode⟩ := (hread [0x63FF]).2 signed hsigned
  obtain ⟨hwide', -, -, hencode'⟩ := (hread [0x23AB, 0x1234, 7]).2 wide hwide
  exact ⟨⟨hsigned, hsigned', hencode.trans (by decide)⟩, hwide, hwide', hencode'.trans (by decide)⟩

end Instruction

end EntityScript

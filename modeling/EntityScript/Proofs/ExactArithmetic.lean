import EntityScript.Proofs.Operations

namespace EntityScript

namespace Word

/-- The integer that a word stands for in two's complement. -/
def integer (w : Word) : Int :=
  w.toInt16.toInt

variable (v w : Word)

theorem toInt_signed_eq_integer : w.signed.toInt = w.integer :=
  Int16.toInt_toInt32 w.toInt16

theorem integer_bounds : -32768 ≤ w.integer ∧ w.integer < 32768 :=
  ⟨w.toInt16.le_toInt, w.toInt16.toInt_lt⟩

theorem integer_emod : w.integer % 2 ^ 16 = w.toNat := by
  have hvalue : w.integer = _ := BitVec.toInt_eq_toNat_cond w.toBitVec
  have hsame : w.toBitVec.toNat = w.toNat := rfl
  have hlt := w.toNat_lt
  rw [hsame] at hvalue
  split at hvalue <;> omega

theorem toNat_ofSigned (n : Int32) : ((ofSigned n).toNat : Int) = n.toInt % 2 ^ 16 := by
  have hcut : (ofSigned n).integer = n.toInt.bmod 65536 := Int32.toInt_toInt16 n
  rw [← integer_emod, hcut]
  exact Int.bmod_emod

theorem signed_inj : v.signed = w.signed ↔ v.integer = w.integer := by
  rw [← Int32.toInt_inj, toInt_signed_eq_integer, toInt_signed_eq_integer]

theorem signed_eq_zero_iff_integer : w.signed = 0 ↔ w.integer = 0 := by
  rw [← Int32.toInt_inj, toInt_signed_eq_integer]
  rfl

theorem integer_eq_zero_iff : w.integer = 0 ↔ w = 0 := by
  rw [← signed_eq_zero_iff_integer, signed_eq_zero_iff]

theorem signed_and : (v &&& w).signed = v.signed &&& w.signed :=
  Int16.toInt32_and v.toInt16 w.toInt16

theorem signed_or : (v ||| w).signed = v.signed ||| w.signed :=
  Int16.toInt32_or v.toInt16 w.toInt16

theorem signed_xor : (v ^^^ w).signed = v.signed ^^^ w.signed :=
  Int16.toInt32_xor v.toInt16 w.toInt16

theorem shiftAmount : (w.signed.toBitVec.smod 32).toNat = (w.integer % 32).toNat := by
  have hamount : (w.signed.toBitVec.smod 32).toInt = w.integer % 32 := by
    rw [BitVec.toInt_smod, ← toInt_signed_eq_integer]
    exact Int.fmod_eq_emod_of_nonneg _ (by decide)
  have hvalue := BitVec.toInt_eq_toNat_cond (w.signed.toBitVec.smod 32)
  have hlt := (w.signed.toBitVec.smod 32).isLt
  rw [hamount] at hvalue
  split at hvalue <;> omega

end Word

namespace UnaryOp

/-- The integer that an operation yields before it is cut to a word. -/
def exactValue (value : Word) : UnaryOp → Int
  | not => if value.integer = 0 then 1 else 0
  | negate => -value.integer
  | complement => -value.integer - 1

end UnaryOp

namespace BinaryOp

def divides : BinaryOp → Bool
  | divide | modulo => true
  | _ => false

/-- What an operation computes in 32 bits. -/
def combine (l r : Int32) : BinaryOp → Int32
  | both => (l != 0 && r != 0).toInt32
  | either => (l != 0 || r != 0).toInt32
  | equal => (l == r).toInt32
  | different => (l != r).toInt32
  | less => (decide (l < r)).toInt32
  | lessEqual => (decide (l ≤ r)).toInt32
  | greater => (decide (r < l)).toInt32
  | greaterEqual => (decide (r ≤ l)).toInt32
  | add => l + r
  | subtract => l - r
  | multiply => l * r
  | divide => l / r
  | shiftRight => l >>> r
  | shiftLeft => l <<< r
  | bitAnd => l &&& r
  | bitOr => l ||| r
  | modulo => l % r
  | bitXor => l ^^^ r

/-- The integer that an operation yields before it is cut to a word.  Bits are combined as they
stand in the words. -/
def exactValue (left right : Word) : BinaryOp → Int
  | both => if left.integer ≠ 0 ∧ right.integer ≠ 0 then 1 else 0
  | either => if left.integer ≠ 0 ∨ right.integer ≠ 0 then 1 else 0
  | equal => if left.integer = right.integer then 1 else 0
  | different => if left.integer ≠ right.integer then 1 else 0
  | less => if left.integer < right.integer then 1 else 0
  | lessEqual => if left.integer ≤ right.integer then 1 else 0
  | greater => if right.integer < left.integer then 1 else 0
  | greaterEqual => if right.integer ≤ left.integer then 1 else 0
  | add => left.integer + right.integer
  | subtract => left.integer - right.integer
  | multiply => left.integer * right.integer
  | divide => left.integer.tdiv right.integer
  | shiftRight => left.integer.fdiv (2 ^ (right.integer % 32).toNat)
  | shiftLeft => left.integer * 2 ^ (right.integer % 32).toNat
  | bitAnd => (left &&& right).integer
  | bitOr => (left ||| right).integer
  | modulo => left.integer.tmod right.integer
  | bitXor => (left ^^^ right).integer

section Combine

variable (l r : Int32) (left right : Word)

theorem ofSigned_toInt32 (b : Bool) : Word.ofSigned b.toInt32 = .ofBool b := by
  cases b <;> decide

theorem toInt_toInt32 (b : Bool) (p : Prop) [Decidable p] (h : b = true ↔ p) :
    b.toInt32.toInt = if p then 1 else 0 := by
  cases b with
  | true => rw [if_pos (h.1 rfl)]; rfl
  | false => rw [if_neg fun hp => Bool.false_ne_true (h.2 hp)]; rfl

theorem apply_eq_combine (op : BinaryOp) :
    op.apply left right =
      if op.divides = true ∧ right.integer = 0 then .error .divisionByZero
      else .ok (.ofSigned (op.combine left.signed right.signed)) := by
  cases op with
  | divide | modulo =>
      simp only [apply, combine, divides, true_and, Word.signed_eq_zero_iff_integer]
  | both | either | equal | different | less | lessEqual | greater | greaterEqual =>
      simp only [apply, combine, divides, Bool.false_eq_true, false_and, if_false, ofSigned_toInt32]
  | _ => simp only [apply, combine, divides, Bool.false_eq_true, false_and, if_false]

theorem quotient_bounds : -32768 ≤ left.integer.tdiv right.integer ∧
    left.integer.tdiv right.integer ≤ 32768 := by
  have hleft := left.integer_bounds
  have habs := Int.natAbs_tdiv_le_natAbs left.integer right.integer
  omega

theorem product_bounds : -2147483648 ≤ left.integer * right.integer ∧
    left.integer * right.integer < 2147483648 := by
  have hleft := left.integer_bounds
  have hright := right.integer_bounds
  constructor <;> nlinarith

theorem toInt_shiftRight : (left.signed >>> right.signed).toInt =
    left.integer.fdiv (2 ^ (right.integer % 32).toNat) := by
  change (left.signed.toBitVec.sshiftRight' (right.signed.toBitVec.smod 32)).toInt = _
  rw [BitVec.toInt_sshiftRight', Word.shiftAmount, Int.shiftRight_eq_div_pow,
    Int.fdiv_eq_ediv_of_nonneg _ (by positivity), ← Word.toInt_signed_eq_integer left]
  push_cast
  rfl

theorem toInt_shiftLeft : (left.signed <<< right.signed).toInt =
    (left.integer * 2 ^ (right.integer % 32).toNat).bmod (2 ^ 32) := by
  change (left.signed.toBitVec <<< (right.signed.toBitVec.smod 32).toNat).toInt = _
  rw [BitVec.toInt_shiftLeft, Word.shiftAmount, ← Word.toInt_signed_eq_integer left]
  change _ = (left.signed.toBitVec.toInt * _).bmod _
  rw [BitVec.toInt_eq_toNat_bmod left.signed.toBitVec, Int.bmod_mul_bmod, Nat.shiftLeft_eq]
  push_cast
  rfl

end Combine

variable {op : BinaryOp} (left right : Word)

theorem toInt_combine (h : op ≠ .shiftLeft) :
    (op.combine left.signed right.signed).toInt = op.exactValue left right := by
  have hleft := left.integer_bounds
  have hright := right.integer_bounds
  -- Computed values are reduced modulo 2^32, which changes none that fits 32 bits.
  cases op with
  | both =>
      apply toInt_toInt32
      simp [Word.signed_eq_zero_iff_integer]
  | either =>
      apply toInt_toInt32
      simp [Word.signed_eq_zero_iff_integer]
  | equal =>
      apply toInt_toInt32
      simp [Word.signed_inj]
  | different =>
      apply toInt_toInt32
      simp [Word.signed_inj]
  | less | lessEqual | greater | greaterEqual =>
      apply toInt_toInt32
      simp [Int32.lt_iff_toInt_lt, Int32.le_iff_toInt_le, Word.toInt_signed_eq_integer]
  | add =>
      simp only [combine, exactValue, Int32.toInt_add, Word.toInt_signed_eq_integer]
      exact Int.bmod_eq_of_le (by omega) (by omega)
  | subtract =>
      simp only [combine, exactValue, Int32.toInt_sub, Word.toInt_signed_eq_integer]
      exact Int.bmod_eq_of_le (by omega) (by omega)
  | multiply =>
      obtain ⟨hlow, hhigh⟩ := product_bounds left right
      simp only [combine, exactValue, Int32.toInt_mul, Word.toInt_signed_eq_integer]
      exact Int.bmod_eq_of_le (by omega) (by omega)
  | divide =>
      obtain ⟨hlow, hhigh⟩ := quotient_bounds left right
      simp only [combine, exactValue, Int32.toInt_div, Word.toInt_signed_eq_integer]
      exact Int.bmod_eq_of_le (by omega) (by omega)
  | modulo => simp only [combine, exactValue, Int32.toInt_mod, Word.toInt_signed_eq_integer]
  | shiftRight => exact toInt_shiftRight left right
  | shiftLeft => exact (h rfl).elim
  | bitAnd =>
      rw [exactValue, ← Word.toInt_signed_eq_integer, Word.signed_and]
      rfl
  | bitOr =>
      rw [exactValue, ← Word.toInt_signed_eq_integer, Word.signed_or]
      rfl
  | bitXor =>
      rw [exactValue, ← Word.toInt_signed_eq_integer, Word.signed_xor]
      rfl

theorem toNat_ofSigned_combine (op : BinaryOp) :
    ((Word.ofSigned (op.combine left.signed right.signed)).toNat : Int) =
      op.exactValue left right % 2 ^ 16 := by
  rw [Word.toNat_ofSigned]
  by_cases h : op = .shiftLeft
  · subst h
    rw [combine, exactValue, toInt_shiftLeft]
    have hdvd : (2 ^ 16 : Int) ∣ 2 ^ 32 := by decide
    rw [← Int.emod_emod_of_dvd _ hdvd, ← Int.emod_emod_of_dvd (left.integer * _) hdvd]
    exact congrArg (· % (2 ^ 16 : Int)) Int.bmod_emod
  · rw [toInt_combine left right h]

end BinaryOp

theorem UnaryOp.toNat_apply (op : UnaryOp) (value : Word) :
    ((op.apply value).toNat : Int) = op.exactValue value % 2 ^ 16 := by
  have hvalue := value.integer_emod
  have hlt := value.toNat_lt
  cases op with
  | not =>
      simp only [apply, exactValue, value.integer_eq_zero_iff]
      by_cases hzero : value = 0
      · subst hzero
        decide
      · rw [if_neg hzero, beq_false_of_ne hzero]
        decide
  | negate =>
      rw [apply, exactValue, UInt16.toNat_sub]
      simp only [UInt16.toNat_zero]
      omega
  | complement =>
      rw [apply, exactValue, UInt16.toNat_not]
      simp only [UInt16.size]
      omega

/-- An operation fails only where it divides by zero, and otherwise keeps the exact result modulo
2^16, computed in 32 bits without a loss but for left shifts. -/
theorem arithmetic_exact :
    (∀ (op : BinaryOp) (left right : Word),
      let computed := op.combine left.signed right.signed
      if op.divides = true ∧ right.integer = 0 then
        op.apply left right = .error .divisionByZero
      else
        op.apply left right = .ok (.ofSigned computed) ∧
          ((Word.ofSigned computed).toNat : Int) = op.exactValue left right % 2 ^ 16 ∧
          (op ≠ .shiftLeft → computed.toInt = op.exactValue left right)) ∧
    (∀ left right : Word, right.integer ≠ 0 →
      let quotient := BinaryOp.divide.exactValue left right
      let remainder := BinaryOp.modulo.exactValue left right
      quotient * right.integer + remainder = left.integer ∧
        |remainder| < |right.integer| ∧
        (0 ≤ left.integer → 0 ≤ remainder) ∧ (left.integer ≤ 0 → remainder ≤ 0)) ∧
    ∀ (op : UnaryOp) (value : Word),
      ((op.apply value).toNat : Int) = op.exactValue value % 2 ^ 16 := by
  refine ⟨?_, ?_, UnaryOp.toNat_apply⟩
  · intro op left right computed
    have hvalue := BinaryOp.apply_eq_combine left right op
    split
    case isTrue hzero => rwa [if_pos hzero] at hvalue
    case isFalse hzero =>
      rw [if_neg hzero] at hvalue
      exact ⟨hvalue, BinaryOp.toNat_ofSigned_combine left right op,
        BinaryOp.toInt_combine left right⟩
  · intro left right hright quotient remainder
    refine ⟨Int.tdiv_mul_add_tmod _ _, ?_, fun h => Int.tmod_nonneg _ h, ?_⟩
    · rw [Int.abs_eq_natAbs, Int.abs_eq_natAbs, Int.ofNat_lt]
      change (left.integer.tmod right.integer).natAbs < _
      rw [Int.natAbs_tmod]
      exact Nat.mod_lt _ (Int.natAbs_pos.2 hright)
    · intro h
      have hnegated := Int.tmod_nonneg right.integer (Int.neg_nonneg_of_nonpos h)
      rw [Int.neg_tmod] at hnegated
      exact Int.nonpos_of_neg_nonneg hnegated

/-- The lowest word by -1: the quotient fits 32 bits but no word. -/
theorem arithmetic_exact_lowest :
    BinaryOp.divide.apply 0x8000 0xFFFF = .ok 0x8000 ∧
      (BinaryOp.divide.combine (Word.signed 0x8000) (Word.signed 0xFFFF)).toInt = 32768 ∧
      (0xFFFF : Word).integer ≠ 0 ∧
      BinaryOp.divide.exactValue 0x8000 0xFFFF * (0xFFFF : Word).integer +
        BinaryOp.modulo.exactValue 0x8000 0xFFFF = -32768 := by
  obtain ⟨hbinary, hdivision, -⟩ := arithmetic_exact
  have hright : (0xFFFF : Word).integer ≠ 0 := by decide
  obtain ⟨hvalue, -, hcomputed⟩ := hbinary .divide 0x8000 0xFFFF
  obtain ⟨hsum, -⟩ := hdivision 0x8000 0xFFFF hright
  exact ⟨hvalue, hcomputed (by decide), hright, hsum⟩

end EntityScript

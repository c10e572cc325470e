import EntityScript.Bytes
import Mathlib.Algebra.Group.Nat.Hom

namespace EntityScript.Bytes

theorem ofLittleEndian_littleEndian (width value : Nat) :
    ofLittleEndian (littleEndian width value) = value % 256 ^ width := by
  induction width generalizing value with
  | zero => simp [littleEndian, ofLittleEndian, Nat.mod_one]
  | succ width ih =>
      rw [littleEndian, ofLittleEndian, ih, Nat.pow_succ, Nat.mul_comm (256 ^ width),
        Nat.mod_mul]
      simp

theorem ofLittleEndian_lt (bytes : Bytes) : ofLittleEndian bytes < 256 ^ bytes.length := by
  have h := ofLittleEndian_littleEndian bytes.length (ofLittleEndian bytes)
  rw [littleEndian_ofLittleEndian] at h
  rw [h]
  exact Nat.mod_lt _ (Nat.pow_pos (by decide))

theorem ofBigEndian_bigEndian (width value : Nat) :
    ofBigEndian (bigEndian width value) = value % 256 ^ width := by
  simp [ofBigEndian, bigEndian, ofLittleEndian_littleEndian]

theorem bigEndian_ofBigEndian (bytes : Bytes) :
    bigEndian bytes.length (ofBigEndian bytes) = bytes := by
  rw [bigEndian, ofBigEndian, ← List.length_reverse, littleEndian_ofLittleEndian,
    List.reverse_reverse]

section Words

theorem toNat_ofBigEndian_pair (high low : UInt8) :
    (ofBigEndian [high, low]).toUInt16.toNat = ofBigEndian [high, low] := by
  have hhigh := high.toNat_lt
  have hlow := low.toNat_lt
  have hvalue : ofBigEndian [high, low] = low.toNat + 256 * high.toNat := by
    simp [ofBigEndian, ofLittleEndian]
  rw [Nat.toUInt16_eq, UInt16.toNat_ofNat', Nat.mod_eq_of_lt]
  omega

theorem ofWords_cons (w : Word) (words : List Word) :
    ofWords (w :: words) = bigEndian 2 w.toNat ++ ofWords words :=
  rfl

theorem ofWords_append (first second : List Word) :
    ofWords (first ++ second) = ofWords first ++ ofWords second :=
  List.flatMap_append

theorem length_ofWords (words : List Word) : (ofWords words).length = 2 * words.length := by
  induction words with
  | nil => rfl
  | cons w words ih =>
      rw [ofWords_cons, List.length_append, ih, length_bigEndian, List.length_cons]
      omega

theorem exists_pair (w : Word) :
    ∃ high low, bigEndian 2 w.toNat = [high, low] ∧ (ofBigEndian [high, low]).toUInt16 = w := by
  refine ⟨_, _, rfl, ?_⟩
  apply UInt16.toNat_inj.1
  rw [toNat_ofBigEndian_pair]
  exact (ofBigEndian_bigEndian 2 w.toNat).trans (Nat.mod_eq_of_lt w.toNat_lt)

theorem appendWords_ofWords (words : Array Word) (more : List Word) :
    appendWords words (ofWords more) = words ++ more := by
  induction more generalizing words with
  | nil => simp [ofWords, appendWords]
  | cons w more ih =>
      obtain ⟨high, low, hbytes, hw⟩ := exists_pair w
      rw [ofWords_cons, hbytes]
      change appendWords (words.push (ofBigEndian [high, low]).toUInt16) (ofWords more) = _
      rw [hw, ih]
      simp

theorem ofWords_appendWords (words : Array Word) {bytes : Bytes} (h : bytes.length % 2 = 0) :
    ofWords (appendWords words bytes).toList = ofWords words.toList ++ bytes := by
  induction words, bytes using appendWords.induct with
  | case1 words high low rest ih =>
      have hrest : rest.length % 2 = 0 := by
        simp at h
        omega
      have hpair : bigEndian 2 (ofBigEndian [high, low]) = [high, low] :=
        bigEndian_ofBigEndian [high, low]
      rw [appendWords, ih hrest, Array.toList_push, ofWords_append, ofWords_cons,
        toNat_ofBigEndian_pair, hpair, List.append_assoc]
      rfl
  | case2 bytes words hshort =>
      match bytes, h with
      | [], _ => simp [appendWords]
      | high :: low :: rest, _ => exact (hshort high low rest rfl).elim

end Words

end EntityScript.Bytes

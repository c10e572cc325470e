import EntityScript.Text.Utf8
import Mathlib

namespace EntityScript.Text.Utf8

section Bytes

variable {n : Nat}

theorem toNat_ofNat (h : n < 256) : (UInt8.ofNat n).toNat = n :=
  UInt8.toNat_ofNat_of_lt' h

theorem ofNat_lt_iff (h : n < 256) (b : UInt8) : UInt8.ofNat n < b ↔ n < b.toNat := by
  rw [UInt8.lt_iff_toNat_lt, toNat_ofNat h]

theorem ofNat_eq_iff (h : n < 256) (b : UInt8) : UInt8.ofNat n = b ↔ n = b.toNat := by
  rw [← UInt8.toNat_inj, toNat_ofNat h]

theorem start_ofNat (h : n < 256) :
    start (.ofNat n) =
      if n < 128 then .complete (Char.ofNat n)
      else if n < 194 then .invalid
      else if n < 224 then .pending ⟨n % 32, 0, 0x80, 0xBF⟩
      else if n = 224 then .pending ⟨0, 1, 0xA0, 0xBF⟩
      else if n = 237 then .pending ⟨13, 1, 0x80, 0x9F⟩
      else if n < 240 then .pending ⟨n % 16, 1, 0x80, 0xBF⟩
      else if n = 240 then .pending ⟨0, 2, 0x90, 0xBF⟩
      else if n < 244 then .pending ⟨n % 8, 2, 0x80, 0xBF⟩
      else if n = 244 then .pending ⟨4, 2, 0x80, 0x8F⟩
      else .invalid := by
  simp only [start, ofNat_lt_iff h, ofNat_eq_iff h, toNat_ofNat h, UInt8.toNat_ofNat]

variable (text : String) {bits afterNext : Nat} {low high : UInt8} (rest : Bytes)

theorem accepts_ofNat (h : n < 64) (hlow : low.toNat ≤ n + 128) (hhigh : n + 128 ≤ high.toNat) :
    (⟨bits, afterNext, low, high⟩ : Pending).accepts (.ofNat (n + 128)) = true := by
  rw [Pending.accepts, Bool.and_eq_true, decide_eq_true_eq, decide_eq_true_eq,
    UInt8.le_iff_toNat_le, UInt8.le_iff_toNat_le, toNat_ofNat (by omega)]
  exact ⟨hlow, hhigh⟩

theorem decodeFrom_accepted (h : n < 64) (hlow : low.toNat ≤ n + 128)
    (hhigh : n + 128 ≤ high.toNat) :
    decodeFrom text (some ⟨bits, afterNext + 1, low, high⟩) (.ofNat (n + 128) :: rest) =
      decodeFrom text (some ⟨bits * 64 + n, afterNext, 0x80, 0xBF⟩) rest := by
  have hbyte : n + 128 < 256 := by omega
  have hbits : (n + 128) % 64 = n := by omega
  simp only [decodeFrom, accepts_ofNat h hlow hhigh, if_true, Pending.next, toNat_ofNat hbyte,
    hbits]

theorem decodeFrom_more (h : n < 64) :
    decodeFrom text (some ⟨bits, afterNext + 1, 0x80, 0xBF⟩) (.ofNat (n + 128) :: rest) =
      decodeFrom text (some ⟨bits * 64 + n, afterNext, 0x80, 0xBF⟩) rest :=
  decodeFrom_accepted text rest h (Nat.le_add_left 128 n)
    (Nat.add_le_add_right (Nat.le_of_lt_succ h) 128)

theorem decodeFrom_last (h : n < 64) :
    decodeFrom text (some ⟨bits, 0, 0x80, 0xBF⟩) (.ofNat (n + 128) :: rest) =
      decodeFrom (text.push (Char.ofNat (bits * 64 + n))) none rest := by
  have hlow : (0x80 : UInt8).toNat ≤ n + 128 := Nat.le_add_left 128 n
  have hhigh : n + 128 ≤ (0xBF : UInt8).toNat := Nat.add_le_add_right (Nat.le_of_lt_succ h) 128
  have hbyte : n + 128 < 256 := by omega
  have hbits : (n + 128) % 64 = n := by omega
  simp only [decodeFrom, accepts_ofNat h hlow hhigh, if_true, Pending.next, toNat_ofNat hbyte,
    hbits]

theorem decodeFrom_one (h : n < 128) :
    decodeFrom text none (.ofNat n :: rest) = decodeFrom (text.push (Char.ofNat n)) none rest := by
  rw [decodeFrom, start_ofNat (by omega), if_pos h]

theorem decodeFrom_two (hlow : 2 ≤ n) (hhigh : n < 32) :
    decodeFrom text none (.ofNat (n + 192) :: rest) =
      decodeFrom text (some ⟨n, 0, 0x80, 0xBF⟩) rest := by
  have hbits : (n + 192) % 32 = n := by omega
  rw [decodeFrom, start_ofNat (by omega), if_neg (by omega), if_neg (by omega), if_pos (by omega),
    hbits]

variable {second : Nat}

/-- The second byte of three is bounded by the least character of three bytes and by the
surrogates. -/
theorem decodeFrom_three (h : n < 16) (hsecond : second < 64) (hleast : n = 0 → 32 ≤ second)
    (hsurrogate : n = 13 → second < 32) :
    decodeFrom text none (.ofNat (n + 224) :: .ofNat (second + 128) :: rest) =
      decodeFrom text (some ⟨n * 64 + second, 0, 0x80, 0xBF⟩) rest := by
  have hstart : decodeFrom text none (.ofNat (n + 224) :: .ofNat (second + 128) :: rest) =
      decodeFrom text (some ⟨n, 1, if n = 0 then 0xA0 else 0x80, if n = 13 then 0x9F else 0xBF⟩)
        (.ofNat (second + 128) :: rest) := by
    rw [decodeFrom, start_ofNat (by omega)]
    interval_cases n <;> rfl
  -- The bounds on the second byte are those of the first byte's kind, not of bytes that follow.
  rw [hstart, decodeFrom_accepted text rest hsecond]
  · rw [apply_ite UInt8.toNat]
    change (if n = 0 then 160 else 128) ≤ _
    split <;> omega
  · rw [apply_ite UInt8.toNat]
    change _ ≤ if n = 13 then 159 else 191
    split <;> omega

/-- The second byte of four is bounded by the least character of four bytes and by the greatest. -/
theorem decodeFrom_four (h : n < 5) (hsecond : second < 64) (hleast : n = 0 → 16 ≤ second)
    (hgreatest : n = 4 → second < 16) :
    decodeFrom text none (.ofNat (n + 240) :: .ofNat (second + 128) :: rest) =
      decodeFrom text (some ⟨n * 64 + second, 1, 0x80, 0xBF⟩) rest := by
  have hstart : decodeFrom text none (.ofNat (n + 240) :: .ofNat (second + 128) :: rest) =
      decodeFrom text (some ⟨n, 2, if n = 0 then 0x90 else 0x80, if n = 4 then 0x8F else 0xBF⟩)
        (.ofNat (second + 128) :: rest) := by
    rw [decodeFrom, start_ofNat (by omega)]
    interval_cases n <;> rfl
  rw [hstart, decodeFrom_accepted text rest hsecond]
  · rw [apply_ite UInt8.toNat]
    change (if n = 0 then 144 else 128) ≤ _
    split <;> omega
  · rw [apply_ite UInt8.toNat]
    change _ ≤ if n = 4 then 143 else 191
    split <;> omega

end Bytes

section Characters

variable (text : String) (c : Char) (rest : Bytes)

theorem decodeFrom_character :
    decodeFrom text none (String.utf8EncodeChar c ++ rest) =
      decodeFrom (text.push c) none rest := by
  have hvalid : c.toNat < 0xD800 ∨ 0xDFFF < c.toNat ∧ c.toNat < 0x110000 := c.valid
  have hc : Char.ofNat c.toNat = c := c.ofNat_toNat
  have hcode : c.val.toNat = c.toNat := rfl
  generalize c.toNat = v at hvalid hc hcode
  simp only [String.utf8EncodeChar, hcode]
  split_ifs
  · rw [List.singleton_append, decodeFrom_one _ _ (by omega), hc]
  · have hvalue : v / 64 % 32 * 64 + v % 64 = v := by omega
    simp only [List.cons_append, List.nil_append]
    rw [decodeFrom_two _ _ (by omega) (by omega), decodeFrom_last _ _ (by omega), hvalue, hc]
  · have hvalue : (v / 4096 % 16 * 64 + v / 64 % 64) * 64 + v % 64 = v := by omega
    simp only [List.cons_append, List.nil_append]
    rw [decodeFrom_three _ _ (by omega) (by omega) (by omega) (by omega),
      decodeFrom_last _ _ (by omega), hvalue, hc]
  · have hvalue :
        ((v / 262144 % 8 * 64 + v / 4096 % 64) * 64 + v / 64 % 64) * 64 + v % 64 = v := by omega
    simp only [List.cons_append, List.nil_append]
    rw [decodeFrom_four _ _ (by omega) (by omega) (by omega) (by omega),
      decodeFrom_more _ _ (by omega), decodeFrom_last _ _ (by omega), hvalue, hc]

end Characters

section Texts

theorem encode_ofList (characters : List Char) :
    encode (String.ofList characters) = characters.flatMap String.utf8EncodeChar := by
  change (characters.flatMap String.utf8EncodeChar).toByteArray.data.toList = _
  rw [List.data_toByteArray]

theorem encode_eq (text : String) : encode text = text.toList.flatMap String.utf8EncodeChar := by
  rw [← encode_ofList, String.ofList_toList]

theorem toList_decodeFrom (text : String) (characters : List Char) :
    (decodeFrom text none (characters.flatMap String.utf8EncodeChar)).toList =
      text.toList ++ characters := by
  induction characters generalizing text with
  | nil => simp [decodeFrom]
  | cons c rest ih =>
    rw [List.flatMap_cons, decodeFrom_character, ih, String.toList_push, List.append_assoc,
      List.singleton_append]

theorem decode_encode (text : String) : decode (encode text) = text := by
  apply String.toList_inj.1
  rw [decode, encode_eq, toList_decodeFrom]
  rfl

theorem byte_ne_zero {c : Char} (hc : c ≠ '\x00') {b : UInt8} (hb : b ∈ String.utf8EncodeChar c) :
    b ≠ 0 := by
  have hcode : c.val.toNat ≠ 0 := by
    intro hzero
    exact hc (Char.toNat_inj.1 hzero)
  have hbyte {n : Nat} (hpos : 0 < n) (hn : n < 256) : UInt8.ofNat n ≠ 0 := by
    rw [Ne, ofNat_eq_iff hn]
    exact hpos.ne'
  simp only [String.utf8EncodeChar] at hb
  split_ifs at hb
  · obtain rfl := List.mem_singleton.1 hb
    exact hbyte (by omega) (by omega)
  · simp only [List.mem_cons, List.not_mem_nil, or_false] at hb
    rcases hb with rfl | rfl <;> exact hbyte (by omega) (by omega)
  · simp only [List.mem_cons, List.not_mem_nil, or_false] at hb
    rcases hb with rfl | rfl | rfl <;> exact hbyte (by omega) (by omega)
  · simp only [List.mem_cons, List.not_mem_nil, or_false] at hb
    rcases hb with rfl | rfl | rfl | rfl <;> exact hbyte (by omega) (by omega)

/-- A text up to its first NUL. -/
def beforeNul (text : String) : String :=
  String.ofList (text.toList.takeWhile (· ≠ '\x00'))

theorem beforeNul_eq_self {text : String} (h : '\x00' ∉ text.toList) : beforeNul text = text := by
  have hall : ∀ c ∈ text.toList, decide (c ≠ '\x00') = true := by
    intro c hc
    exact decide_eq_true fun hnul => h (hnul ▸ hc)
  rw [beforeNul, List.takeWhile_eq_self_iff.2 hall, String.ofList_toList]

theorem takeWhile_encode (text : String) :
    (encode text).takeWhile (· ≠ 0) = encode (beforeNul text) := by
  rw [beforeNul, encode_ofList, encode_eq]
  induction text.toList with
  | nil => rfl
  | cons c rest ih =>
    by_cases hc : c = '\x00'
    · subst hc
      rfl
    · have hbytes : ∀ b ∈ String.utf8EncodeChar c, decide (b ≠ 0) = true :=
        fun b hb => decide_eq_true (byte_ne_zero hc hb)
      have hkept : (c :: rest).takeWhile (· ≠ '\x00') = c :: rest.takeWhile (· ≠ '\x00') :=
        List.takeWhile_cons_of_pos (decide_eq_true hc)
      rw [List.flatMap_cons, List.takeWhile_append_of_pos hbytes, ih, hkept, List.flatMap_cons]

end Texts

end EntityScript.Text.Utf8

import EntityScript.Word

namespace EntityScript

abbrev Bytes := List UInt8

namespace Bytes

/-- The `width` lowest bytes of a number, lowest first. -/
def littleEndian : (width : Nat) → (value : Nat) → Bytes
  | 0, _ => []
  | width + 1, value => UInt8.ofNat value :: littleEndian width (value / 256)

def bigEndian (width value : Nat) : Bytes :=
  (littleEndian width value).reverse

def ofLittleEndian : Bytes → Nat
  | [] => 0
  | b :: rest => b.toNat + 256 * ofLittleEndian rest

def ofBigEndian (bytes : Bytes) : Nat :=
  ofLittleEndian bytes.reverse

/-- Adds the words of a byte string, high byte first, to `words`.  A last odd byte is left out. -/
def appendWords (words : Array Word) : Bytes → Array Word
  | high :: low :: rest => appendWords (words.push (ofBigEndian [high, low]).toUInt16) rest
  | _ => words

def ofWords (words : List Word) : Bytes :=
  words.flatMap fun w => bigEndian 2 w.toNat

@[simp] theorem length_littleEndian (width value : Nat) :
    (littleEndian width value).length = width := by
  induction width generalizing value with
  | zero => rfl
  | succ width ih => simp [littleEndian, ih]

@[simp] theorem length_bigEndian (width value : Nat) :
    (bigEndian width value).length = width := by
  simp [bigEndian]

theorem littleEndian_ofLittleEndian (bytes : Bytes) :
    littleEndian bytes.length (ofLittleEndian bytes) = bytes := by
  induction bytes with
  | nil => rfl
  | cons b rest ih =>
      have hb := b.toNat_lt
      have hq : (b.toNat + 256 * ofLittleEndian rest) / 256 = ofLittleEndian rest := by omega
      simp only [List.length_cons, littleEndian, ofLittleEndian, hq, ih, List.cons.injEq, and_true]
      apply UInt8.toNat_inj.1
      simp

end Bytes

end EntityScript

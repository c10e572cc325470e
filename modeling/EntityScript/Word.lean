namespace EntityScript

/-- What an instruction word, a stack value, a variable or a program offset holds. -/
abbrev Word := UInt16

/-- A stack position as it is computed.  It may lie outside the stack. -/
abbrev Slot := Int32

namespace Word

/-- The two's complement reading. -/
def signed (w : Word) : Int32 :=
  w.toInt16.toInt32

def ofSigned (n : Int32) : Word :=
  n.toInt16.toUInt16

def ofBool (b : Bool) : Word :=
  if b then 1 else 0

/-- The low byte, read in two's complement. -/
def signExtend (w : Word) : Word :=
  w.toUInt8.toInt8.toInt16.toUInt16

theorem toInt_toInt16 {w : Word} (h : w.toNat < 32768) : w.toInt16.toInt = w.toNat :=
  BitVec.toInt_eq_toNat_of_lt (by change 2 * w.toNat < 65536; omega)

theorem toInt_signed {w : Word} (h : w.toNat < 32768) : w.signed.toInt = w.toNat := by
  rw [signed, Int16.toInt_toInt32, toInt_toInt16 h]

theorem toInt_signed_inj {v w : Word} (h : v.signed.toInt = w.signed.toInt) : v = w := by
  rw [signed, signed, Int16.toInt_toInt32, Int16.toInt_toInt32] at h
  exact congrArg Int16.toUInt16 (Int16.toInt.inj h)

theorem signed_eq_zero_iff {w : Word} : w.signed = 0 ↔ w = 0 := by
  constructor
  · exact fun h => toInt_signed_inj (congrArg Int32.toInt h)
  · rintro rfl
    rfl

end Word

namespace Slot

/-- The slot a stack or frame pointer names. -/
def ofByte (b : UInt8) : Slot :=
  b.toUInt32.toInt32

def ofWord (w : Word) : Slot :=
  w.toUInt32.toInt32

theorem toInt_ofByte (b : UInt8) : (ofByte b).toInt = b.toNat := by
  have := b.toNat_lt
  change b.toUInt32.toBitVec.toInt = _
  rw [BitVec.toInt_eq_toNat_of_lt] <;> simp
  omega

theorem toInt_ofWord (w : Word) : (ofWord w).toInt = w.toNat := by
  have := w.toNat_lt
  change w.toUInt32.toBitVec.toInt = _
  rw [BitVec.toInt_eq_toNat_of_lt] <;> simp
  omega

end Slot

end EntityScript

import EntityScript.Bytes

/-!
UTF-8 with replacement.  Bytes that form no character are cut into maximal beginnings of valid
sequences, or else single bytes, and each piece is read as U+FFFD.
-/

namespace EntityScript.Text.Utf8

def replacement : Char := '\uFFFD'

structure Pending where
  bits : Nat
  /-- How many bytes follow the next one. -/
  afterNext : Nat
  low : UInt8
  high : UInt8

inductive Progress where
  | complete (c : Char)
  | pending (p : Pending)
  | invalid

/-- Reads the first byte of a character.  The ranges leave out overlong forms, surrogates and
numbers beyond U+10FFFF, so a sequence that is read to its end is a character. -/
def start (b : UInt8) : Progress :=
  if b < 0x80 then .complete (Char.ofNat b.toNat)
  else if b < 0xC2 then .invalid
  else if b < 0xE0 then .pending ⟨b.toNat % 32, 0, 0x80, 0xBF⟩
  else if b = 0xE0 then .pending ⟨0, 1, 0xA0, 0xBF⟩
  else if b = 0xED then .pending ⟨13, 1, 0x80, 0x9F⟩
  else if b < 0xF0 then .pending ⟨b.toNat % 16, 1, 0x80, 0xBF⟩
  else if b = 0xF0 then .pending ⟨0, 2, 0x90, 0xBF⟩
  else if b < 0xF4 then .pending ⟨b.toNat % 8, 2, 0x80, 0xBF⟩
  else if b = 0xF4 then .pending ⟨4, 2, 0x80, 0x8F⟩
  else .invalid

namespace Pending

def accepts (p : Pending) (b : UInt8) : Bool :=
  p.low ≤ b && b ≤ p.high

def next (p : Pending) (b : UInt8) : Progress :=
  let bits := p.bits * 64 + b.toNat % 64
  match p.afterNext with
  | 0 => .complete (Char.ofNat bits)
  | n + 1 => .pending ⟨bits, n, 0x80, 0xBF⟩

end Pending

def decodeFrom (text : String) (pending : Option Pending) : Bytes → String
  | [] => if pending.isSome then text.push replacement else text
  | b :: rest =>
      let (text, progress) := match pending with
        | none => (text, start b)
        | some p => if p.accepts b then (text, p.next b) else (text.push replacement, start b)
      match progress with
      | .complete c => decodeFrom (text.push c) none rest
      | .pending p => decodeFrom text (some p) rest
      | .invalid => decodeFrom (text.push replacement) none rest

/-- The text that bytes stand for. -/
def decode (bytes : Bytes) : String :=
  decodeFrom "" none bytes

def encode (text : String) : Bytes :=
  text.toUTF8.data.toList

end EntityScript.Text.Utf8

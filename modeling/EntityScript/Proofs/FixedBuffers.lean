import EntityScript.Proofs.SavedForm

namespace EntityScript.Machine

namespace Buffer

def ofBytes (held : Bytes) : Buffer where
  room := held.length
  ahead := ⟨held.toArray, List.size_toArray⟩

def contents (b : Buffer) : Bytes :=
  b.written ++ b.ahead.toList

/-- Puts bytes at the start of the room, and leaves out those that it has no place for. -/
def fill (b : Buffer) (bytes : Bytes) : Buffer :=
  ⟨b.written ++ bytes.take b.room, b.room - bytes.length, b.ahead.drop bytes.length⟩

@[simp] theorem room_fill (b : Buffer) (bytes : Bytes) :
    (b.fill bytes).room = b.room - bytes.length :=
  rfl

theorem eq_of_bytes {b c : Buffer} (hwritten : b.written = c.written)
    (hahead : b.ahead.toList = c.ahead.toList) : b = c := by
  obtain ⟨written, room, ahead⟩ := b
  obtain ⟨written', room', ahead'⟩ := c
  have hroom : room = room' := by
    have hlength := congrArg List.length hahead
    rwa [Vector.length_toList, Vector.length_toList] at hlength
  subst hroom
  obtain rfl : written = written' := hwritten
  obtain rfl : ahead = ahead' := Vector.toList_inj.1 hahead
  rfl

theorem contents_fill (b : Buffer) (bytes : Bytes) :
    (b.fill bytes).contents =
      b.written ++ bytes.take b.room ++ b.ahead.toList.drop bytes.length := by
  rw [contents, fill, Vector.toList_drop]

/-- Cutting an image into pieces makes no difference to what is filled in, also where there is room
for a part of a piece only. -/
theorem fill_fill (b : Buffer) (first second : Bytes) :
    (b.fill first).fill second = b.fill (first ++ second) := by
  apply eq_of_bytes
  · simp only [fill, List.take_append, List.append_assoc]
  · simp only [fill, Vector.toList_drop, List.drop_drop, List.length_append]

theorem fill_nil (b : Buffer) : b.fill [] = b := by
  apply eq_of_bytes
  · simp [fill]
  · simp [fill]

theorem fill_of_full {b : Buffer} (h : b.room = 0) (bytes : Bytes) : b.fill bytes = b := by
  have hahead : b.ahead.toList = [] := List.eq_nil_of_length_eq_zero (by simp [h])
  apply eq_of_bytes
  · simp [fill, h]
  · rw [fill, Vector.toList_drop, hahead, List.drop_nil]

theorem write_fits {b : Buffer} {field : Bytes} (h : field.length ≤ b.room) :
    write field b = .ok () (b.fill field) := by
  rw [write, if_pos h, fill, List.take_of_length_le h]

theorem write_cut {b : Buffer} {field : Bytes} (h : b.room < field.length) :
    write field b = .error .noRoom (b.fill field) := by
  rw [write, if_neg (Nat.not_le.2 h)]
  congr 1
  apply eq_of_bytes
  · rfl
  · have hnone : b.ahead.toList.drop field.length = [] :=
      List.drop_eq_nil_of_le (by simpa using h.le)
    rw [fill, Vector.toList_drop, hnone]
    rfl

theorem writeAll_eq (fields : List Bytes) (b : Buffer) :
    writeAll fields b =
      if fields.flatten.length ≤ b.room then .ok () (b.fill fields.flatten)
      else .error .noRoom (b.fill fields.flatten) := by
  induction fields generalizing b with
  | nil =>
      rw [List.flatten_nil, fill_nil]
      exact (if_pos (Nat.zero_le b.room)).symm
  | cons field rest ih =>
      rw [List.flatten_cons, List.length_append, ← fill_fill]
      rcases Nat.lt_or_ge b.room field.length with hcut | hfits
      · -- The first field uses the room up, so the fields after it would add nothing.
        have hfull : (b.fill field).room = 0 := Nat.sub_eq_zero_of_le hcut.le
        rw [if_neg (by omega), fill_of_full hfull, writeAll, bind_error (write_cut hcut)]
      · have hroom : field.length + rest.flatten.length ≤ b.room ↔
            rest.flatten.length ≤ (b.fill field).room := by
          rw [room_fill]
          omega
        simp only [hroom]
        rw [← ih (b.fill field), writeAll, bind_ok (write_fits hfits)]

end Buffer

theorem saveInto_eq (m : Machine) (b : Buffer) :
    m.saveInto b =
      if 55 ≤ b.room then .ok () (b.fill m.save) else .error .noRoom (b.fill m.save) := by
  rw [saveInto, Buffer.writeAll_eq, ← save, length_save]

/-- Saving succeeds just if the buffer has room for the image.  However large it is, it then holds
as much of the image as fits, and behind the image what it held before. -/
theorem saveInto_fixed (m : Machine) (held : Bytes) :
    ∃ after : Buffer,
      m.saveInto (.ofBytes held) =
          (if 55 ≤ held.length then .ok () after else .error .noRoom after) ∧
        m.save.length = 55 ∧
        after.contents = m.save.take held.length ++ held.drop 55 ∧
        after.room = held.length - 55 := by
  refine ⟨(Buffer.ofBytes held).fill m.save, saveInto_eq m _, length_save m, ?_, ?_⟩
  · rw [Buffer.contents_fill, length_save]
    rfl
  · rw [Buffer.room_fill, length_save]
    rfl

/-- Five bytes end within the instruction pointer. -/
example :
    let m : Machine := { delay := 0x0102, ip := some 0x0304 }
    ∃ after, m.saveInto (.ofBytes (.replicate 5 0xFF)) = .error .noRoom after ∧
      after.contents = [2, 1, 4, 3, 0] :=
  ⟨_, rfl, rfl⟩

end EntityScript.Machine

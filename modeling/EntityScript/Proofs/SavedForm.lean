import EntityScript.Proofs.Image

namespace EntityScript.Machine

/-- So many bytes of an image from a position on. -/
def field (image : Bytes) (position width : Nat) : Bytes :=
  (image.drop position).take width

def numberAt (image : Bytes) (position width : Nat) : Nat :=
  Bytes.ofLittleEndian (field image position width)

def wordsAt (image : Bytes) (position count : Nat) : Vector Word count :=
  .ofFn fun i => (numberAt image (position + 2 * i) 2).toUInt16

/-- The machine whose fields are the numbers in an image. -/
def ofImage (image : Bytes) : Machine where
  ip := if numberAt image 2 4 = 0 then none else some (numberAt image 2 4).toUInt16
  delay := (numberAt image 0 2).toUInt16
  result := (numberAt image 10 2).toUInt16
  framePointer := (numberAt image 12 1).toUInt8
  stackPointer := (numberAt image 13 1).toUInt8
  vars := wordsAt image 14 variableCount
  stack := wordsAt image 24 stackSize
  inSubroutine := numberAt image 54 1 ≠ 0

/-- The first 55 bytes, with zero for the reserved bytes and 1 for any other flag than 0. -/
def canonical (image : Bytes) : Bytes :=
  field image 0 6 ++ [0, 0, 0, 0] ++ field image 10 44 ++
    [if numberAt image 54 1 = 0 then 0 else 1]

section Field

variable {image : Bytes} {position width : Nat}

theorem numberAt_drop (image : Bytes) (position width : Nat) :
    numberAt (image.drop position) 0 width = numberAt image position width := by
  rw [numberAt, numberAt, field, field, List.drop_drop, Nat.add_zero]

theorem wordsAt_drop (image : Bytes) (position count : Nat) :
    wordsAt (image.drop position) 0 count = wordsAt image position count := by
  simp only [wordsAt, numberAt, field, List.drop_drop, Nat.zero_add]

theorem field_append (image : Bytes) (position first second : Nat) :
    field image position first ++ field image (position + first) second =
      field image position (first + second) := by
  rw [field, field, field, ← List.drop_drop, List.take_add]

theorem length_field (h : position + width ≤ image.length) :
    (field image position width).length = width := by
  rw [field, List.length_take, List.length_drop]
  omega

theorem numberAt_lt (h : position + width ≤ image.length) :
    numberAt image position width < 256 ^ width := by
  have hlt := Bytes.ofLittleEndian_lt (field image position width)
  rwa [length_field h] at hlt

theorem littleEndian_numberAt (h : position + width ≤ image.length) :
    Bytes.littleEndian width (numberAt image position width) = field image position width := by
  have hfield := Bytes.littleEndian_ofLittleEndian (field image position width)
  rwa [length_field h] at hfield

theorem littleEndian_wordAt (h : position + 2 ≤ image.length) :
    Bytes.littleEndian 2 (numberAt image position 2).toUInt16.toNat = field image position 2 := by
  rw [Nat.toUInt16_eq, UInt16.toNat_ofNat_of_lt' (numberAt_lt h), littleEndian_numberAt h]

theorem byteAt (h : position + 1 ≤ image.length) :
    [(numberAt image position 1).toUInt8] = field image position 1 := by
  rw [← littleEndian_numberAt h]
  rfl

theorem toList_wordsAt_succ (image : Bytes) (position count : Nat) :
    (wordsAt image position (count + 1)).toList =
      (numberAt image position 2).toUInt16 :: (wordsAt image (position + 2) count).toList := by
  have hposition (i : Fin count) : position + 2 * (i + 1 : Nat) = position + 2 + 2 * i := by omega
  simp [wordsAt, Vector.toList_ofFn, hposition]

theorem flatMap_wordsAt {count : Nat} (h : position + 2 * count ≤ image.length) :
    ((wordsAt image position count).toList.flatMap fun w => Bytes.littleEndian 2 w.toNat) =
      field image position (2 * count) := by
  induction count generalizing position with
  | zero => simp [field, wordsAt]
  | succ count ih =>
      rw [toList_wordsAt_succ, List.flatMap_cons, littleEndian_wordAt (by omega), ih (by omega),
        field_append, Nat.mul_succ, Nat.add_comm 2]

theorem canonical_eq (image : Bytes) :
    canonical image =
      field image 0 2 ++ field image 2 4 ++ Bytes.littleEndian 4 0 ++ field image 10 2 ++
        field image 12 1 ++ field image 13 1 ++ field image 14 (2 * variableCount) ++
          field image 24 (2 * stackSize) ++ [if numberAt image 54 1 = 0 then 0 else 1] := by
  have hhead : field image 0 6 = field image 0 2 ++ field image 2 4 :=
    (field_append image 0 2 4).symm
  have hframe : field image 10 44 = field image 10 4 ++ field image 14 40 :=
    (field_append image 10 4 40).symm
  have hpointers : field image 10 4 = field image 10 2 ++ (field image 12 1 ++ field image 13 1) := by
    rw [field_append image 12 1 1]
    exact (field_append image 10 2 2).symm
  have hslots : field image 14 40 =
      field image 14 (2 * variableCount) ++ field image 24 (2 * stackSize) :=
    (field_append image 14 (2 * variableCount) (2 * stackSize)).symm
  rw [canonical, hhead, hframe, hpointers, hslots]
  simp only [List.append_assoc]
  rfl

theorem save_ofImage (h : 55 ≤ image.length) (hoffset : numberAt image 2 4 < 65536) :
    (ofImage image).save = canonical image := by
  have hip : ((ofImage image).ip.getD 0).toNat = numberAt image 2 4 := by
    simp only [ofImage]
    split
    · rename_i hzero
      rw [hzero]
      rfl
    · exact UInt16.toNat_ofNat_of_lt' hoffset
  have hflag : (if (ofImage image).inSubroutine then 1 else 0 : UInt8) =
      if numberAt image 54 1 = 0 then 0 else 1 := by
    simp [ofImage]
  have hvars : 14 + 2 * variableCount ≤ image.length := Nat.le_trans (by decide) h
  have hstack : 24 + 2 * stackSize ≤ image.length := Nat.le_trans (by decide) h
  have hbytes (first second : UInt8) (rest : Bytes) :
      first :: second :: rest = [first] ++ ([second] ++ rest) := rfl
  rw [← List.append_nil (save _), save_append, hip, hflag, hbytes, canonical_eq]
  simp only [ofImage]
  rw [littleEndian_wordAt (by omega), littleEndian_numberAt (by omega),
    littleEndian_wordAt (by omega), byteAt (by omega), byteAt (by omega), flatMap_wordsAt hvars,
    flatMap_wordsAt hstack]
  simp only [List.append_assoc]

end Field

namespace Reader

variable {α β : Type} {width rest : Nat} {f : Reader α} {value : Bytes → α} {k : α → Reader β}

/-- A reader fails on fewer bytes than so many. -/
def Needs (width : Nat) (r : Reader α) : Prop :=
  ∀ bytes, bytes.length < width → r.run bytes = .error .shortImage

/-- A reader takes just so many bytes and makes a value of them. -/
structure Takes (width : Nat) (r : Reader α) (value : Bytes → α) : Prop where
  needs : Needs width r
  takes : ∀ bytes, width ≤ bytes.length → r.run bytes = .ok (value bytes, bytes.drop width)

theorem bind_run_error {bytes : Bytes} {e : ImageError} (h : f.run bytes = .error e) :
    (f >>= k).run bytes = .error e := by
  rw [StateT.run_bind, h]
  rfl

theorem needs_zero (r : Reader α) : Needs 0 r :=
  fun _ h => (Nat.not_lt_zero _ h).elim

theorem Takes.needs_bind (hf : Takes width f value) (hk : ∀ a, Needs rest (k a)) :
    Needs (width + rest) (f >>= k) := by
  intro bytes hshort
  rcases Nat.lt_or_ge bytes.length width with hlt | hge
  · exact bind_run_error (hf.needs bytes hlt)
  · rw [bind_run (hf.takes bytes hge)]
    refine hk _ _ ?_
    rw [List.length_drop]
    omega

theorem Takes.needs_last (hf : Takes width f value) (k : α → Reader β) : Needs width (f >>= k) :=
  hf.needs_bind fun _ => needs_zero _

theorem takes_bytes (count : Nat) : Takes count (bytes count) fun image => field image 0 count := by
  constructor
  · intro image hshort
    change StateT.run (if image.length < count then _ else _) image = _
    rw [if_pos hshort]
    rfl
  · intro image hlong
    rw [bytes, bind_run rfl, guard_run (Nat.not_lt.2 hlong), bind_run rfl]
    rfl

theorem takes_number (width : Nat) :
    Takes width (number width) fun image => numberAt image 0 width := by
  have hbytes := takes_bytes width
  refine ⟨hbytes.needs_last _, ?_⟩
  intro image hlong
  rw [number, bind_run (hbytes.takes image hlong)]
  rfl

theorem takes_words (count : Nat) :
    Takes (2 * count) (words count) fun image => wordsAt image 0 count := by
  induction count with
  | zero =>
      refine ⟨needs_zero _, fun image _ => ?_⟩
      have hnone : wordsAt image 0 0 = #v[] := Vector.eq_empty
      rw [hnone]
      rfl
  | succ count ih =>
      refine ⟨ih.needs_bind fun _ => (takes_number 2).needs_last _, ?_⟩
      intro image hlong
      have hlast : 2 ≤ (image.drop (2 * count)).length := by
        rw [List.length_drop]
        omega
      have hwords : wordsAt image 0 (count + 1) =
          (wordsAt image 0 count).push (numberAt image (2 * count) 2).toUInt16 := by
        simp [wordsAt, Vector.ofFn_succ]
      rw [words, bind_run (ih.takes image (by omega)), bind_run ((takes_number 2).takes _ hlast),
        numberAt_drop, List.drop_drop, hwords]
      rfl

end Reader

open Reader

theorem load_eq (image : Bytes) :
    load image =
      if image.length < 6 then .error .shortImage
      else if 65536 ≤ numberAt image 2 4 then .error (.offset (numberAt image 2 4).toUInt32)
      else if image.length < 14 then .error .shortImage
      else if stackSize < numberAt image 13 1 then
        .error (.stackPointer (numberAt image 13 1).toUInt8)
      else if image.length < 55 then .error .shortImage
      else .ok (ofImage image, image.drop 55) := by
  have hrest {position width : Nat} (h : position + width ≤ image.length) :
      width ≤ (image.drop position).length := by
    rw [List.length_drop]
    omega
  have hlack {position width : Nat} (hposition : position ≤ image.length)
      (h : image.length < position + width) : (image.drop position).length < width := by
    rw [List.length_drop]
    omega
  -- The cases stand in the order in which the fields are read: first whether the bytes reach to the
  -- end of the next checked field, then the check.
  rw [load, Machine.read]
  rcases Nat.lt_or_ge image.length 6 with hshort | hhead
  · have hneeds (k : Nat → Nat → Reader Machine) :
        Needs 6 (number 2 >>= fun delay => number 4 >>= k delay) :=
      (takes_number 2).needs_bind fun _ => (takes_number 4).needs_bind fun _ => needs_zero _
    rw [if_pos hshort]
    exact hneeds _ _ hshort
  rw [if_neg (Nat.not_lt.2 hhead), bind_run ((takes_number 2).takes _ (by omega)),
    bind_run ((takes_number 4).takes _ (hrest hhead)), numberAt_drop, List.drop_drop]
  rcases Nat.lt_or_ge (numberAt image 2 4) 65536 with hoffset | hstray
  swap
  · rw [if_pos hstray, if_pos hstray]
    rfl
  rw [guard_run (Nat.not_le.2 hoffset), if_neg (Nat.not_le.2 hoffset)]
  rcases Nat.lt_or_ge image.length 14 with hshort | hpointers
  · have hneeds (k : Nat → Nat → Nat → Nat → Reader Machine) :
        Needs 8 (number 4 >>= fun reserved => number 2 >>= fun result => number 1 >>= fun frame =>
          number 1 >>= k reserved result frame) :=
      (takes_number 4).needs_bind fun _ => (takes_number 2).needs_bind fun _ =>
        (takes_number 1).needs_bind fun _ => (takes_number 1).needs_bind fun _ => needs_zero _
    rw [if_pos hshort]
    exact hneeds _ _ (hlack hhead hshort)
  rw [if_neg (Nat.not_lt.2 hpointers), bind_run ((takes_number 4).takes _ (hrest (by omega))),
    List.drop_drop, bind_run ((takes_number 2).takes _ (hrest (by omega))), numberAt_drop,
    List.drop_drop, bind_run ((takes_number 1).takes _ (hrest (by omega))), numberAt_drop,
    List.drop_drop, bind_run ((takes_number 1).takes _ (hrest (by omega))), numberAt_drop,
    List.drop_drop]
  rcases Nat.lt_or_ge stackSize (numberAt image 13 1) with hstray | hpointer
  · rw [if_pos hstray, if_pos hstray]
    rfl
  rw [guard_run (Nat.not_lt.2 hpointer), if_neg (Nat.not_lt.2 hpointer)]
  rcases Nat.lt_or_ge image.length 55 with hshort | hslots
  · have hneeds (k : Vector Word variableCount → Vector Word stackSize → Nat → Reader Machine) :
        Needs 41 (words variableCount >>= fun vars => words stackSize >>= fun stack =>
          number 1 >>= k vars stack) :=
      (takes_words variableCount).needs_bind fun _ => (takes_words stackSize).needs_bind fun _ =>
        (takes_number 1).needs_bind fun _ => needs_zero _
    rw [if_pos hshort]
    exact hneeds _ _ (hlack hpointers hshort)
  rw [if_neg (Nat.not_lt.2 hslots),
    bind_run ((takes_words variableCount).takes _ (hrest (Nat.le_trans (by decide) hslots))),
    wordsAt_drop, List.drop_drop,
    bind_run ((takes_words stackSize).takes _ (hrest (Nat.le_trans (by decide) hslots))),
    wordsAt_drop, List.drop_drop,
    bind_run ((takes_number 1).takes _ (hrest (Nat.le_trans (by decide) hslots))), numberAt_drop,
    List.drop_drop]
  rfl

theorem length_save (m : Machine) : m.save.length = 55 := by
  rw [← List.append_nil m.save, save_append]
  simp only [List.length_append, List.length_cons, List.length_nil, List.length_flatMap,
    Bytes.length_littleEndian, List.map_const', List.sum_replicate, Vector.length_toList]
  rfl

theorem load_eq_ok_iff {image rest : Bytes} {m : Machine} :
    load image = .ok (m, rest) ↔
      (55 ≤ image.length ∧ numberAt image 2 4 < 65536 ∧ numberAt image 13 1 ≤ stackSize) ∧
        ofImage image = m ∧ image.drop 55 = rest := by
  rw [load_eq]
  split_ifs
  case neg =>
    rw [Except.ok.injEq, Prod.mk.injEq]
    refine (and_iff_right ⟨?_, ?_, ?_⟩).symm <;> omega
  all_goals exact ⟨nofun, fun h => by omega⟩

/-- Loading restores a saved machine, whatever follows it, but takes an offset of zero for none.  It
accepts all bytes that are long enough and hold an offset and a stack pointer in range, and else
names the first of the two that it read out of range. -/
theorem load_exact :
    (∀ m : Machine, m.InBounds → ∀ rest, m.save.length = 55 ∧
      load (m.save ++ rest) = .ok ({ m with ip := m.ip.filter (· ≠ 0) }, rest)) ∧
    ∀ image : Bytes,
      let offset := numberAt image 2 4
      let pointer := numberAt image 13 1
      ((∃ m rest, load image = .ok (m, rest)) ↔
        55 ≤ image.length ∧ offset < 65536 ∧ pointer ≤ 15) ∧
      (∀ m rest, load image = .ok (m, rest) →
        rest = image.drop 55 ∧ m.save = canonical image) ∧
      (6 ≤ image.length → 65536 ≤ offset → load image = .error (.offset (.ofNat offset))) ∧
      (14 ≤ image.length → offset < 65536 → 15 < pointer →
        load image = .error (.stackPointer (.ofNat pointer))) ∧
      (image.length < 55 → (6 ≤ image.length → offset < 65536) →
        (14 ≤ image.length → pointer ≤ 15) → load image = .error .shortImage) := by
  refine ⟨fun m hm rest => ⟨length_save m, load_save hm rest⟩, fun image => ?_⟩
  intro offset pointer
  have hload := load_eq image
  refine ⟨⟨?_, ?_⟩, ?_, ?_, ?_, ?_⟩
  · rintro ⟨m, rest, h⟩
    exact (load_eq_ok_iff.1 h).1
  · intro hvalid
    exact ⟨ofImage image, image.drop 55, load_eq_ok_iff.2 ⟨hvalid, rfl, rfl⟩⟩
  · intro m rest h
    obtain ⟨⟨hlong, hoffset, -⟩, rfl, rfl⟩ := load_eq_ok_iff.1 h
    exact ⟨rfl, save_ofImage hlong hoffset⟩
  · intro hhead hstray
    rw [hload, if_neg (Nat.not_lt.2 hhead)]
    exact if_pos hstray
  · intro hpointers hoffset hstray
    have hhead : 6 ≤ image.length := Nat.le_trans (by decide) hpointers
    rw [hload, if_neg (Nat.not_lt.2 hhead), if_neg (Nat.not_le.2 hoffset),
      if_neg (Nat.not_lt.2 hpointers)]
    exact if_pos hstray
  · intro hshort hoffset hpointer
    rw [hload]
    split_ifs with hhead hstray hpointers hstray'
    · rfl
    · exact absurd (hoffset (Nat.le_of_not_lt hhead)) (Nat.not_lt.2 hstray)
    · rfl
    · exact absurd (hpointer (Nat.le_of_not_lt hpointers)) (Nat.not_le.2 hstray')
    · rfl

/-- An offset of zero is lost, reserved bytes and a stray flag do not matter, and a stray number is
named though the image ends early. -/
theorem load_exact_zero_offset :
    let m : Machine := { ip := some 0, delay := 3 }
    let loose : Bytes := .replicate 6 0 ++ [1, 2, 3, 4] ++ .replicate 44 0 ++ [9]
    load (m.save ++ [8]) = .ok ({ m with ip := none }, [8]) ∧
      (∃ k rest, load loose = .ok (k, rest) ∧ k.save = .replicate 54 0 ++ [1]) ∧
      load [0, 0, 0, 0, 1, 0] = .error (.offset 65536) ∧
      load (.replicate 13 0 ++ [16]) = .error (.stackPointer 16) ∧
      load [0, 0, 0, 0, 1] = .error .shortImage := by
  intro m loose
  obtain ⟨hsaved, himage⟩ := load_exact
  obtain ⟨haccepts, hsaves, -⟩ := himage loose
  obtain ⟨k, rest, hk⟩ := haccepts.2 (by decide)
  refine ⟨(hsaved m (by decide) [8]).2, ⟨k, rest, hk, ?_⟩, ?_, ?_, ?_⟩
  · rw [(hsaves k rest hk).2]
    decide
  · exact (himage _).2.2.1 (by decide) (by decide)
  · exact (himage _).2.2.2.1 (by decide) (by decide) (by decide)
  · exact (himage _).2.2.2.2 (by decide) (by decide) (by decide)

end EntityScript.Machine

import EntityScript.Proofs.ListingCoverage

namespace EntityScript

open Text

theorem ListingLine.text_eq_label_iff (line : ListingLine) (subtype : Word) :
    line.text = (label subtype).text ↔ line = label subtype := by
  constructor
  · intro h
    change line.text = "entry " ++ toString subtype ++ ":" at h
    have hstart := congrArg (·.toList.head?) h
    cases line with
    | label other =>
        change "entry " ++ toString other ++ ":" = _ at h
        have htext : toString other = toString subtype := by
          simpa only [String.append_left_inj, String.append_right_inj] using h
        rw [toString_word_inj htext]
    | instruction offset words decoded => simp [text] at hstart
    | dangling offset word => simp [text] at hstart
  · rintro rfl
    rfl

namespace Program

variable {p : Program} {offset : Nat} {starts : List Nat}

/-- The subtypes that start at an offset, in ascending order. -/
def subtypesAt (p : Program) (offset : Word) : List Word :=
  (p.entries.toList.zipIdx.filter (·.1 = offset)).map (·.2.toUInt16)

/-- The line that shows what stands at an offset. -/
def lineAt (p : Program) (offset : Nat) : ListingLine :=
  match Instruction.at? p.words offset with
  | some decoded => .instruction offset ((p.words.toList.drop offset).take decoded.size) decoded
  | none => .dangling offset (p.words.getD offset 0)

theorem isLabel_lineAt (p : Program) (offset : Nat) : (p.lineAt offset).isLabel = false := by
  rw [lineAt]
  split <;> rfl

/-- The labels and the line that a listing has for an offset. -/
def blockAt (p : Program) (offset : Nat) : List ListingLine :=
  (p.subtypesAt offset.toUInt16).map .label ++ [p.lineAt offset]

theorem getD_labelsFrom (labels : Labels) (subtype : Nat) (entries : List Word) (offset : Word) :
    ((labelsFrom labels subtype entries).getD offset #[]).toList =
      (labels.getD offset #[]).toList ++
        ((entries.zipIdx subtype).filter (·.1 = offset)).map (·.2.toUInt16) := by
  induction entries generalizing labels subtype with
  | nil => simp [labelsFrom]
  | cons entry entries ih =>
      rw [labelsFrom, ih, Std.HashMap.getD_insert, List.zipIdx_cons]
      by_cases hentry : entry = offset
      · subst hentry
        simp
      · simp [hentry]

theorem getD_labels (p : Program) (offset : Word) :
    (p.labels.getD offset #[]).toList = p.subtypesAt offset := by
  rw [labels, getD_labelsFrom, Std.HashMap.getD_empty]
  rfl

theorem mem_subtypesAt (hentries : p.entries.size ≤ 65536) {subtype offset : Word} :
    subtype ∈ p.subtypesAt offset ↔ p.entry? subtype = some offset := by
  rw [subtypesAt, List.mem_map, entry?, ← Array.getElem?_toList]
  constructor
  · rintro ⟨⟨entry, index⟩, hmem, rfl⟩
    obtain ⟨hmem, hentry⟩ := List.mem_filter.1 hmem
    have hget := List.mk_mem_zipIdx_iff_getElem?.1 hmem
    obtain rfl : entry = offset := of_decide_eq_true hentry
    obtain ⟨hindex, -⟩ := List.getElem?_eq_some_iff.1 hget
    rw [Array.length_toList] at hindex
    rwa [UInt16.toNat_ofNat_of_lt' (hindex.trans_le hentries)]
  · intro hget
    refine ⟨(offset, subtype.toNat), List.mem_filter.2 ⟨?_, decide_eq_true rfl⟩, ?_⟩
    · exact List.mk_mem_zipIdx_iff_getElem?.2 hget
    · exact UInt16.ofNat_toNat

theorem pairwise_subtypesAt (hentries : p.entries.size ≤ 65536) (offset : Word) :
    (p.subtypesAt offset).Pairwise (· < ·) := by
  rw [subtypesAt, List.pairwise_map]
  apply List.Pairwise.filter
  have hindices : (p.entries.toList.zipIdx.map Prod.snd).Pairwise (· < ·) := by
    rw [List.zipIdx_map_snd]
    exact List.pairwise_lt_range'
  refine (List.pairwise_map.1 hindices).imp_of_mem fun {x y} hx hy hlt => ?_
  have hbound := List.snd_lt_of_mem_zipIdx hy
  rw [Array.length_toList, Nat.add_zero] at hbound
  have hy : y.2 < 65536 := by omega
  rw [UInt16.lt_iff_toNat_lt, UInt16.toNat_ofNat_of_lt' (hlt.trans hy),
    UInt16.toNat_ofNat_of_lt' hy]
  exact hlt

theorem lt_size_of_at? {decoded : Instruction} (h : Instruction.at? p.words offset = some decoded) :
    offset < p.words.size := by
  by_contra houtside
  rw [Instruction.at?, Array.getElem?_eq_none (not_lt.1 houtside)] at h
  cases h

/-- The offsets at which the lines start that a listing has from an offset on. -/
inductive Walk (p : Program) : Nat → List Nat → Prop
  | done {offset : Nat} : p.words.size ≤ offset → Walk p offset []
  | instruction {offset : Nat} {decoded : Instruction} {starts : List Nat} :
      Instruction.at? p.words offset = some decoded → Walk p (offset + decoded.size) starts →
        Walk p offset (offset :: starts)
  | dangling {offset : Nat} :
      offset < p.words.size → Instruction.at? p.words offset = none → Walk p offset [offset]

namespace Walk

theorem bounds (h : p.Walk offset starts) : ∀ x ∈ starts, offset ≤ x ∧ x < p.words.size := by
  induction h with
  | done _ => simp
  | @instruction offset decoded starts hat _ ih =>
      intro x hx
      rcases List.mem_cons.1 hx with rfl | hx
      · exact ⟨Nat.le_refl x, lt_size_of_at? hat⟩
      · obtain ⟨hlow, hhigh⟩ := ih x hx
        exact ⟨Nat.le_of_add_right_le hlow, hhigh⟩
  | dangling hinside _ =>
      intro x hx
      obtain rfl := List.mem_singleton.1 hx
      exact ⟨Nat.le_refl x, hinside⟩

theorem pairwise (h : p.Walk offset starts) : starts.Pairwise (· < ·) := by
  induction h with
  | done _ => exact .nil
  | @instruction offset decoded starts _ hwalk ih =>
      refine List.pairwise_cons.2 ⟨fun x hx => ?_, ih⟩
      have hlow := (hwalk.bounds x hx).1
      have hpos := decoded.size_pos
      omega
  | dangling _ _ => exact List.pairwise_singleton _ _

theorem reaches (h : p.Walk offset starts) (hoffset : p.Reaches offset) :
    ∀ x ∈ starts, p.Reaches x := by
  induction h with
  | done _ => simp
  | instruction hat _ ih =>
      intro x hx
      rcases List.mem_cons.1 hx with rfl | hx
      · exact hoffset
      · exact ih (hoffset.step hat) x hx
  | dangling _ _ =>
      intro x hx
      obtain rfl := List.mem_singleton.1 hx
      exact hoffset

theorem start_mem (h : p.Walk offset starts) (hinside : offset < p.words.size) :
    offset ∈ starts := by
  cases h with
  | done houtside => exact absurd hinside (not_lt.2 houtside)
  | instruction _ _ => exact List.mem_cons_self
  | dangling _ _ => exact List.mem_cons_self

theorem next_mem (h : p.Walk offset starts) {x : Nat} {decoded : Instruction} (hx : x ∈ starts)
    (hat : Instruction.at? p.words x = some decoded) (hinside : x + decoded.size < p.words.size) :
    x + decoded.size ∈ starts := by
  induction h with
  | done _ => cases hx
  | instruction hfound hwalk ih =>
      refine List.mem_cons_of_mem _ ?_
      rcases List.mem_cons.1 hx with rfl | hx
      · obtain rfl := Option.some.inj (hat.symm.trans hfound)
        exact hwalk.start_mem hinside
      · exact ih hx
  | dangling _ hnone =>
      obtain rfl := List.mem_singleton.1 hx
      cases hat.symm.trans hnone

theorem mem_iff (h : p.Walk 0 starts) {x : Nat} :
    x ∈ starts ↔ p.Reaches x ∧ x < p.words.size := by
  constructor
  · intro hx
    exact ⟨h.reaches .start x hx, (h.bounds x hx).2⟩
  · rintro ⟨hreaches, hinside⟩
    induction hreaches with
    | start => exact h.start_mem hinside
    | step _ hat ih => exact h.next_mem (ih (lt_size_of_at? hat)) hat hinside

end Walk

theorem listFrom_blocks (p : Program) (offset : Nat) (lines : Array ListingLine) :
    ∃ starts, p.Walk offset starts ∧
      (listFrom p.labels offset lines (p.words.toList.drop offset)).toList =
        lines.toList ++ starts.flatMap p.blockAt := by
  generalize hwords : p.words.toList.drop offset = words
  induction offset, lines, words using listFrom.induct p.labels with
  | case1 offset lines =>
      have houtside := List.drop_eq_nil_iff.1 hwords
      rw [Array.length_toList] at houtside
      exact ⟨[], .done houtside, by simp [listFrom]⟩
  | case2 offset lines head rest hnone =>
      have hat : Instruction.at? p.words offset = none := by
        rw [Instruction.at?_eq_ofWords?, hwords]
        exact hnone
      have hhead : p.words[offset]? = some head := by
        rw [← Array.getElem?_toList, ← List.head?_drop, hwords, List.head?_cons]
      obtain ⟨hinside, -⟩ := Array.getElem?_eq_some_iff.1 hhead
      refine ⟨[offset], .dangling hinside hat, ?_⟩
      rw [listFrom, hnone]
      simp [blockAt, lineAt, hat, hhead, getD_labels]
  | case3 offset lines head rest lines' decoded hsome raw ih =>
      have hat : Instruction.at? p.words offset = some decoded := by
        rw [Instruction.at?_eq_ofWords?, hwords]
        exact hsome
      have hrest : p.words.toList.drop (offset + decoded.size) = rest.drop (decoded.size - 1) := by
        rw [← List.drop_drop, hwords, decoded.drop_size]
      obtain ⟨starts, hwalk, hlines⟩ := ih hrest
      refine ⟨offset :: starts, .instruction hat hwalk, ?_⟩
      rw [listFrom, hsome]
      dsimp only
      rw [hlines]
      simp [blockAt, lineAt, hat, hwords, getD_labels, lines', raw]

theorem listingLines_blocks (p : Program) :
    ∃ starts, p.Walk 0 starts ∧ p.listingLines.toList = starts.flatMap p.blockAt := by
  obtain ⟨starts, hwalk, hlines⟩ := p.listFrom_blocks 0 #[]
  exact ⟨starts, hwalk, hlines⟩

theorem count_blockAt (hentries : p.entries.size ≤ 65536) (subtype : Word) (offset : Nat) :
    (p.blockAt offset).count (.label subtype) =
      if p.entry? subtype = some offset.toUInt16 then 1 else 0 := by
  have hnodup : (p.subtypesAt offset.toUInt16).Nodup :=
    (pairwise_subtypesAt hentries _).imp UInt16.ne_of_lt
  have hline : p.lineAt offset ≠ .label subtype := by
    intro heq
    have hlabel := p.isLabel_lineAt offset
    rw [heq] at hlabel
    cases hlabel
  have hinjective : Function.Injective ListingLine.label := fun x y h => ListingLine.label.inj h
  rw [blockAt, List.count_append, List.count_map_of_injective _ _ hinjective,
    List.count_singleton, if_neg (by simpa using hline), Nat.add_zero, hnodup.count]
  simp only [mem_subtypesAt hentries]

theorem count_label (hentries : p.entries.size ≤ 65536) (subtype : Word) (starts : List Nat) :
    (starts.flatMap p.blockAt).count (.label subtype) =
      starts.countP fun offset => p.entry? subtype = some offset.toUInt16 := by
  induction starts with
  | nil => rfl
  | cons offset starts ih =>
      rw [List.flatMap_cons, List.count_append, count_blockAt hentries, ih, List.countP_cons,
        Nat.add_comm]
      simp only [decide_eq_true_eq]

theorem count_disassemble (p : Program) (subtype : Word) :
    p.disassemble.toList.count s!"entry {subtype}:" =
      p.listingLines.toList.count (.label subtype) := by
  rw [disassemble_eq, Array.toList_map, List.count, List.countP_map, List.count]
  apply List.countP_congr
  intro line _
  simpa [ListingLine.text] using line.text_eq_label_iff subtype

theorem eq_some_toUInt16_iff {entry : Option Word} (hoffset : offset < 65536) :
    entry = some offset.toUInt16 ↔ entry.map UInt16.toNat = some offset := by
  cases entry with
  | none => simp
  | some entry =>
      rw [Option.map_some, Option.some.injEq, Option.some.injEq, ← UInt16.toNat_inj,
        UInt16.toNat_ofNat_of_lt' hoffset]

theorem countP_eq_some (h : starts.Nodup) (start : Option Nat) :
    (starts.countP fun offset => start = some offset) =
      if ∃ offset ∈ starts, start = some offset then 1 else 0 := by
  cases start with
  | none => simp
  | some start =>
      calc
        _ = starts.count start := List.countP_congr fun offset _ => by
          rw [decide_eq_true_eq, Option.some.injEq, beq_iff_eq, eq_comm]
        _ = if start ∈ starts then 1 else 0 := h.count
        _ = _ := by simp only [Option.some.injEq, exists_eq_right']

/-- A listing has one block for each offset at which a line starts, with the labels of the subtypes
that start there, counted in words.  As long as every offset is a word, a subtype has at most one
label. -/
theorem listing_labels (hentries : p.entries.size ≤ 65536) :
    ∃ starts : List Nat, starts.Pairwise (· < ·) ∧
      (∀ offset, offset ∈ starts ↔ p.Reaches offset ∧ offset < p.words.size) ∧
      p.listingLines.toList = starts.flatMap (fun offset =>
        (p.subtypesAt offset.toUInt16).map .label ++ [p.lineAt offset]) ∧
      (∀ offset, (p.subtypesAt offset).Pairwise (· < ·) ∧
        ∀ subtype, subtype ∈ p.subtypesAt offset ↔ p.entry? subtype = some offset) ∧
      (∀ subtype : Word, p.disassemble.toList.count s!"entry {subtype}:" =
        starts.countP fun offset => p.entry? subtype = some offset.toUInt16) ∧
      (p.words.size ≤ 65536 →
        (∀ offset ∈ starts, ∀ subtype, subtype ∈ p.subtypesAt offset.toUInt16 ↔
          (p.entry? subtype).map UInt16.toNat = some offset) ∧
        ∀ subtype : Word, p.disassemble.toList.count s!"entry {subtype}:" =
          if ∃ offset ∈ starts, (p.entry? subtype).map UInt16.toNat = some offset
          then 1 else 0) := by
  obtain ⟨starts, hwalk, hlines⟩ := p.listingLines_blocks
  have hcount (subtype : Word) : p.disassemble.toList.count s!"entry {subtype}:" =
      starts.countP fun offset => p.entry? subtype = some offset.toUInt16 := by
    rw [count_disassemble, hlines, count_label hentries]
  refine ⟨starts, hwalk.pairwise, fun offset => hwalk.mem_iff, hlines, ?_, hcount, ?_⟩
  · intro offset
    exact ⟨pairwise_subtypesAt hentries offset, fun subtype => mem_subtypesAt hentries⟩
  · intro hwords
    have hentry : ∀ offset ∈ starts, ∀ subtype,
        p.entry? subtype = some offset.toUInt16 ↔
          (p.entry? subtype).map UInt16.toNat = some offset :=
      fun offset hoffset subtype =>
        eq_some_toUInt16_iff ((hwalk.bounds offset hoffset).2.trans_le hwords)
    refine ⟨fun offset hoffset subtype => ?_, fun subtype => ?_⟩
    · rw [mem_subtypesAt hentries, hentry offset hoffset subtype]
    · rw [hcount, ← countP_eq_some (hwalk.pairwise.imp Nat.ne_of_lt)]
      refine List.countP_congr fun offset hoffset => ?_
      simp only [decide_eq_true_eq, hentry offset hoffset subtype]

/-- Two subtypes start at offset 2, and one at the operand before it. -/
theorem listing_labels_shared :
    let p : Program := { entries := #[0, 2, 2, 1], words := #[0x2300, 0x1234, 0x5108, 0x8000] }
    p.disassemble.toList.count "entry 2:" = 1 ∧ p.disassemble.toList.count "entry 3:" = 0 := by
  intro p
  obtain ⟨starts, -, hstarts, -, -, -, hshort⟩ := listing_labels (p := p) (by decide)
  obtain ⟨-, hcount⟩ := hshort (by decide)
  have htwo : Instruction.at? p.words 0 = some ⟨3, 0x1234, .word⟩ := by decide
  have hsecond : p.Reaches 2 := .step .start htwo
  have hoperand (offset : Nat) (h : p.Reaches offset) : offset ≠ 1 := by
    cases h with
    | start => decide
    | @step offset decoded _ hat =>
        intro hone
        have hpos := decoded.size_pos
        obtain rfl : offset = 0 := by omega
        cases hat.symm.trans htwo
        exact absurd hone (by decide)
  constructor
  · exact (hcount 2).trans (if_pos ⟨2, (hstarts 2).2 ⟨hsecond, by decide⟩, by decide⟩)
  · refine (hcount 3).trans (if_neg ?_)
    rintro ⟨offset, hoffset, hentry⟩
    obtain rfl : 1 = offset := Option.some.inj hentry
    exact hoperand 1 ((hstarts 1).1 hoffset).1 rfl

/-- Behind 65536 words the labels of the first offsets appear again. -/
theorem listing_labels_repeated :
    let p : Program := { entries := #[0], words := .replicate 65537 0x0100 }
    p.entry? 0 = some 0 ∧ ∃ before raw decoded after,
      p.listingLines.toList = before ++ [.label 0, .instruction 65536 raw decoded] ++ after := by
  intro p
  have hat (offset : Nat) (h : offset < 65537) :
      Instruction.at? p.words offset = some ⟨1, 0, .bare⟩ := by
    have hword : p.words[offset]? = some 0x0100 :=
      (Array.getElem?_replicate ..).trans (if_pos h)
    rw [Instruction.at?, hword]
    rfl
  have hreaches (offset : Nat) (h : offset < 65537) : p.Reaches offset := by
    induction offset with
    | zero => exact .start
    | succ offset ih => exact (ih (by omega)).step (hat offset (by omega))
  obtain ⟨starts, hwalk, hlines⟩ := p.listingLines_blocks
  have hmem : 65536 ∈ starts :=
    hwalk.mem_iff.2 ⟨hreaches 65536 (by decide), by simp [p]⟩
  obtain ⟨before, after, rfl⟩ := List.append_of_mem hmem
  have hlabels : p.subtypesAt (Nat.toUInt16 65536) = [0] := by decide
  obtain ⟨raw, hline⟩ : ∃ raw, p.lineAt 65536 = .instruction 65536 raw ⟨1, 0, .bare⟩ :=
    ⟨_, by rw [lineAt, hat 65536 (by decide)]⟩
  refine ⟨rfl, before.flatMap p.blockAt, raw, ⟨1, 0, .bare⟩, after.flatMap p.blockAt, ?_⟩
  rw [hlines, List.flatMap_append, List.flatMap_cons, blockAt, hlabels, hline]
  exact (List.append_assoc ..).symm

end Program

end EntityScript

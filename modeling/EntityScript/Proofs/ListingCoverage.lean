import EntityScript.Proofs.InstructionFormat
import EntityScript.Proofs.PlainText

namespace EntityScript

open Text

theorem Opcode.isWord_mnemonic (opcode : Opcode) : IsWord opcode.mnemonic := by
  cases opcode <;> exact ⟨by decide, solid_of_all _ (by decide)⟩

theorem UnaryOp.isWord_mnemonic (op : UnaryOp) : IsWord op.mnemonic := by
  cases op <;> exact ⟨by decide, solid_of_all _ (by decide)⟩

theorem BinaryOp.isWord_mnemonic (op : BinaryOp) : IsWord op.mnemonic := by
  cases op <;> exact ⟨by decide, solid_of_all _ (by decide)⟩

namespace Instruction

theorem isWord_mnemonic (i : Instruction) : IsWord i.mnemonic := by
  rw [mnemonic]
  cases i.opcode? with
  | none => exact (isWord_nat i.code.toNat).append (solid_of_all "op" (by decide))
  | some opcode => exact opcode.isWord_mnemonic

theorem isWord_selectorText {name : Option String} (h : ∀ text, name = some text → IsWord text)
    (selector : Word) : IsWord (selectorText name selector) := by
  cases name with
  | none => exact (isWord_nat selector.toNat).append (solid_of_all "?" (by decide))
  | some text => exact h text rfl

theorem isWord_operandText (opcode : Opcode) (parameter : Word) :
    IsWord (operandText opcode parameter) := by
  have htarget (n : Nat) : IsWord ("0x" ++ hex4 n) :=
    (isWord_hex4 n).append (solid_of_all _ (by decide))
  cases opcode with
  | unary =>
      refine isWord_selectorText (fun text htext => ?_) parameter
      obtain ⟨op, -, rfl⟩ := Option.map_eq_some_iff.1 htext
      exact op.isWord_mnemonic
  | binary =>
      refine isWord_selectorText (fun text htext => ?_) parameter
      obtain ⟨op, -, rfl⟩ := Option.map_eq_some_iff.1 htext
      exact op.isWord_mnemonic
  | jump => exact htarget _
  | jumpIfZero => exact htarget _
  | function =>
      exact (isWord_nat (parameter &&& 0xFF).toNat).append (solid_of_all "#" (by decide))
  | _ => exact isWord_int parameter.signed.toInt

theorem isLine_text (i : Instruction) : IsLine i.text := by
  have hmnemonic : IsPrintable (padRight 10 i.mnemonic ++ " ") :=
    (isPrintable_padRight i.isWord_mnemonic.isPrintable 10).append (isPrintable_of_all _ (by decide))
  rw [text]
  cases i.opcode? with
  | none => exact (isWord_nat i.parameter.toNat).isLine.append hmnemonic
  | some opcode => exact (isWord_operandText opcode i.parameter).isLine.append hmnemonic

end Instruction

theorem ListingLine.isLine_text (line : ListingLine) : IsLine line.text := by
  have hoffset (offset : Nat) : IsPrintable ("  " ++ hex4 offset ++ ": ") :=
    ((isPrintable_of_all _ (by decide)).append (isWord_hex4 offset).isPrintable).append
      (isPrintable_of_all _ (by decide))
  cases line with
  | label subtype =>
      have hcolon : IsWord ":" := ⟨by decide, solid_of_all _ (by decide)⟩
      have hentry : IsPrintable "entry " := isPrintable_of_all _ (by decide)
      exact hcolon.isLine.append (hentry.append (isWord_nat subtype.toNat).isPrintable)
  | instruction offset words decoded =>
      have hraw : IsPrintable (" ".intercalate (words.map fun w => hex4 w.toNat)) := by
        refine IsPrintable.intercalate (isPrintable_of_all _ (by decide)) fun text htext => ?_
        obtain ⟨w, -, rfl⟩ := List.mem_map.1 htext
        exact (isWord_hex4 w.toNat).isPrintable
      have hfront := ((hoffset offset).append (isPrintable_padRight hraw 9)).append
        (isPrintable_of_all " " (by decide))
      exact decoded.isLine_text.append hfront
  | dangling offset word =>
      have hmark : IsLine "      .word" :=
        ⟨isPrintable_of_all _ (by decide), "      .wor".toList, 'd', by decide, by decide⟩
      exact hmark.append ((hoffset offset).append (isWord_hex4 word.toNat).isPrintable)

/-- The first word of an instruction of two words. -/
def Word.WantsOperand (head : Word) : Prop :=
  head.bit 15 = false ∧ head.bit 14 = false ∧ head.bit 13 = true

def ListingLine.words : ListingLine → List Word
  | label _ => []
  | instruction _ words _ => words
  | dangling _ word => [word]

def ListingLine.isLabel : ListingLine → Bool
  | label _ => true
  | instruction .. | dangling .. => false

namespace ListingLine

/-- The offset that the text of a line shows. -/
def shownOffset (text : String) : Nat :=
  hexValue ((text.toList.drop 2).takeWhile (· ≠ ':'))

/-- The words that the text of a line shows, in a column of nine behind the offset. -/
def shownWords (text : String) : List Nat :=
  (pieces (((text.toList.dropWhile (· ≠ ':')).drop 2).take 9)).map hexValue

theorem digitChar_ne_colon : ∀ digit < 16, digit.digitChar ≠ ':' := by
  decide

theorem hex4_ne_colon (n : Nat) : ∀ c ∈ (hex4 n).toList, decide (c ≠ ':') = true := by
  intro c hc
  obtain ⟨digit, hdigit, rfl⟩ := mem_hex4 hc
  exact decide_eq_true (digitChar_ne_colon digit hdigit)

theorem toString_ne_colon (n : Nat) : ∀ c ∈ (toString n).toList, decide (c ≠ ':') = true := by
  intro c hc
  rw [Nat.toString_eq_ofList_toDigits, String.toList_ofList] at hc
  obtain ⟨digit, hdigit, rfl⟩ := mem_toDigits (by decide) hc
  exact decide_eq_true (digitChar_ne_colon digit (hdigit.trans (by decide)))

section Columns

variable (offset : Nat) (rest : String)

theorem toList_columns :
    ("  " ++ hex4 offset ++ ": " ++ rest).toList =
      ' ' :: ' ' :: ((hex4 offset).toList ++ ':' :: ' ' :: rest.toList) := by
  simp

theorem shownOffset_columns : shownOffset ("  " ++ hex4 offset ++ ": " ++ rest) = offset := by
  rw [shownOffset, toList_columns, List.drop_succ_cons, List.drop_one, List.tail_cons,
    List.takeWhile_append_of_pos (hex4_ne_colon offset), List.takeWhile_cons_of_neg (by decide),
    List.append_nil, hexValue_hex4]

theorem drop_offset_columns :
    (("  " ++ hex4 offset ++ ": " ++ rest).toList.dropWhile (· ≠ ':')).drop 2 = rest.toList := by
  rw [toList_columns, List.dropWhile_cons_of_pos (by decide), List.dropWhile_cons_of_pos (by decide),
    List.dropWhile_append_of_pos (hex4_ne_colon offset), List.dropWhile_cons_of_neg (by decide),
    List.drop_succ_cons, List.drop_one, List.tail_cons]

theorem shownWords_columns {words : List Word} (h : words.length ≤ 2) :
    shownWords ("  " ++ hex4 offset ++ ": " ++
      (padRight 9 (" ".intercalate (words.map fun w => hex4 w.toNat)) ++ rest)) =
        words.map UInt16.toNat := by
  have hwords : ∀ word ∈ words.map fun w => hex4 w.toNat, IsWord word := by
    intro word hword
    obtain ⟨w, -, rfl⟩ := List.mem_map.1 hword
    exact isWord_hex4 w.toNat
  have hlength : (" ".intercalate (words.map fun w => hex4 w.toNat)).length ≤ 9 := by
    have hblank : " ".length = 1 := rfl
    match words, h with
    | [], _ => decide
    | [w], _ => simp [length_hex4]
    | [w, w'], _ => simp [length_hex4, hblank]
  rw [shownWords, drop_offset_columns, String.toList_append,
    List.take_left' (length_padRight hlength), toList_padRight, pieces_intercalate hwords]
  simp [hexValue_hex4]

end Columns

theorem shownWords_label (subtype : Word) : shownWords (label subtype).text = [] := by
  have htext : (label subtype).text.toList =
      "entry ".toList ++ ((toString subtype.toNat).toList ++ [':']) := by
    simp [text, toString]
  have hentry : ∀ c ∈ "entry ".toList, decide (c ≠ ':') = true := by simp
  rw [shownWords, htext, List.dropWhile_append_of_pos hentry,
    List.dropWhile_append_of_pos (toString_ne_colon subtype.toNat)]
  rfl

theorem shown_instruction (offset : Nat) {raw : List Word} (h : raw.length ≤ 2)
    (decoded : Instruction) :
    shownOffset (instruction offset raw decoded).text = offset ∧
      shownWords (instruction offset raw decoded).text = raw.map UInt16.toNat := by
  have htext : (instruction offset raw decoded).text = "  " ++ hex4 offset ++ ": " ++
      (padRight 9 (" ".intercalate (raw.map fun w => hex4 w.toNat)) ++ (" " ++ decoded.text)) := by
    simp only [text, String.append_assoc]
  rw [htext]
  exact ⟨shownOffset_columns offset _, shownWords_columns offset _ h⟩

theorem shown_dangling (offset : Nat) (word : Word) :
    shownOffset (dangling offset word).text = offset ∧
      shownWords (dangling offset word).text = [word.toNat] := by
  have hmark : "      .word" = blanks 9 (hex4 word.toNat) ++ " .word" := by
    rw [blanks, length_hex4]
    rfl
  have htext : (dangling offset word).text = "  " ++ hex4 offset ++ ": " ++
      (padRight 9 (" ".intercalate ([word].map fun w => hex4 w.toNat)) ++ " .word") := by
    simp only [text, hmark, padRight, List.map_singleton, String.intercalate_singleton,
      String.append_assoc]
  rw [htext]
  exact ⟨shownOffset_columns offset _, @shownWords_columns offset _ [word] (Nat.le_succ 1)⟩

end ListingLine

/-- Lines that take the words from an offset on one after another.  There may be labels in between. -/
inductive ListingLine.Cover : Nat → List Word → List ListingLine → Prop
  | done {offset : Nat} : Cover offset [] []
  | label {offset : Nat} {words : List Word} {lines : List ListingLine} (subtype : Word) :
      Cover offset words lines → Cover offset words (.label subtype :: lines)
  | instruction {offset : Nat} {raw rest : List Word} {decoded : Instruction}
      {lines : List ListingLine} :
      Instruction.ofWords? (raw ++ rest) = some decoded → raw.length = decoded.size →
        Cover (offset + decoded.size) rest lines →
          Cover offset (raw ++ rest) (.instruction offset raw decoded :: lines)
  | dangling {offset : Nat} {word : Word} :
      word.WantsOperand → Cover offset [word] [.dangling offset word]

namespace Instruction

theorem drop_size (i : Instruction) (head : Word) (rest : List Word) :
    (head :: rest).drop i.size = rest.drop (i.size - 1) := by
  conv_lhs => rw [← Nat.sub_add_cancel i.size_pos]
  rfl

theorem size_le (i : Instruction) : i.size ≤ 2 := by
  rw [size]
  split <;> decide

theorem size_le_of_ofWords? {words : List Word} {i : Instruction} (h : ofWords? words = some i) :
    i.size ≤ words.length :=
  (ofWords?_encodes h).2.2.1

end Instruction

namespace ListingLine.Cover

variable {offset : Nat} {words : List Word} {lines before after : List ListingLine}

theorem words_eq (h : Cover offset words lines) : lines.flatMap ListingLine.words = words := by
  induction h with
  | done => rfl
  | label _ _ ih => exact ih
  | instruction _ _ _ ih => rw [List.flatMap_cons, ih]; rfl
  | dangling _ => rfl

theorem shownWords_eq (h : Cover offset words lines) :
    lines.flatMap (shownWords ·.text) = words.map UInt16.toNat := by
  induction h with
  | done => rfl
  | label subtype _ ih => rwa [List.flatMap_cons, shownWords_label]
  | @instruction offset raw _ decoded _ _ hsize _ ih =>
      have hraw := (shown_instruction offset (hsize.trans_le decoded.size_le) decoded).2
      rw [List.flatMap_cons, hraw, ih, List.map_append]
  | @dangling offset word _ =>
      rw [List.flatMap_cons, (shown_dangling offset word).2]
      rfl

theorem drop (h : Cover offset words (before ++ after)) :
    Cover (offset + (before.flatMap ListingLine.words).length)
      (words.drop (before.flatMap ListingLine.words).length) after := by
  induction before generalizing offset words with
  | nil => exact h
  | cons line before ih =>
      rw [List.flatMap_cons, List.length_append, ← Nat.add_assoc, ← List.drop_drop]
      rw [List.cons_append] at h
      generalize hlines : before ++ after = lines at h
      cases h with
      | label subtype h =>
          subst hlines
          exact ih h
      | @instruction _ raw rest decoded _ hdecoded hsize h =>
          subst hlines
          change Cover (offset + raw.length + _) (((raw ++ rest).drop raw.length).drop _) after
          rw [List.drop_left, hsize]
          exact ih h
      | dangling hwants =>
          obtain ⟨rfl, rfl⟩ := List.append_eq_nil_iff.1 hlines
          exact .done

theorem first (h : Cover offset words lines) (hwords : words ≠ []) :
    ∃ front line back, lines = front ++ line :: back ∧ front.flatMap ListingLine.words = [] ∧
      ((∃ raw decoded, line = .instruction offset raw decoded ∧
          Instruction.ofWords? words = some decoded ∧ raw.length = decoded.size) ∨
        ∃ word, line = .dangling offset word ∧ words = [word] ∧ word.WantsOperand) := by
  induction h with
  | done => exact absurd rfl hwords
  | label subtype _ ih =>
      obtain ⟨front, line, back, rfl, hfront, hline⟩ := ih hwords
      exact ⟨.label subtype :: front, line, back, rfl, hfront, hline⟩
  | @instruction _ raw rest decoded lines hdecoded hsize _ _ =>
      exact ⟨[], _, lines, rfl, rfl, .inl ⟨raw, decoded, rfl, hdecoded, hsize⟩⟩
  | @dangling _ word hwants => exact ⟨[], _, [], rfl, rfl, .inr ⟨word, rfl, rfl, hwants⟩⟩

theorem countP_le (h : Cover offset words lines) :
    lines.countP (!·.isLabel) ≤ words.length := by
  induction h with
  | done => exact Nat.le_refl 0
  | label subtype _ ih => rwa [List.countP_cons_of_neg (by simp [isLabel])]
  | @instruction _ raw rest decoded _ _ hsize _ ih =>
      have hpos := decoded.size_pos
      rw [List.countP_cons_of_pos (by simp [isLabel]), List.length_append]
      omega
  | dangling _ => exact Nat.le_refl 1

end ListingLine.Cover

namespace Program

open ListingLine

theorem listFrom_cover (labels : Labels) (offset : Nat) (lines : Array ListingLine)
    (words : List Word) :
    ∃ later, (listFrom labels offset lines words).toList = lines.toList ++ later ∧
      Cover offset words later := by
  -- Labels take no words, so any number of them may stand in front.
  have hlabels {offset : Nat} {words : List Word} {later : List ListingLine}
      (found : List Word) (h : Cover offset words later) :
      Cover offset words (found.map .label ++ later) := by
    induction found with
    | nil => exact h
    | cons subtype found ih => exact .label subtype ih
  induction offset, lines, words using listFrom.induct labels with
  | case1 offset lines => exact ⟨[], by simp [listFrom], .done⟩
  | case2 offset lines head rest hnone =>
      obtain ⟨hrest, hwants⟩ := Instruction.ofHead?_eq_none_iff.1 hnone
      obtain rfl := List.head?_eq_none_iff.1 hrest
      refine ⟨(labels.getD offset.toUInt16 #[]).toList.map .label ++ [.dangling offset head], ?_,
        hlabels _ (.dangling hwants)⟩
      rw [listFrom, hnone]
      simp
  | case3 offset lines head rest lines' decoded hsome raw ih =>
      obtain ⟨later, hlater, hcover⟩ := ih
      have hwords : Instruction.ofWords? (head :: rest) = some decoded := hsome
      have hsize := Instruction.size_le_of_ofWords? hwords
      have hraw : raw.length = decoded.size := List.length_take_of_le hsize
      have hall : raw ++ rest.drop (decoded.size - 1) = head :: rest := by
        rw [← decoded.drop_size head]
        exact List.take_append_drop _ _
      refine ⟨(labels.getD offset.toUInt16 #[]).toList.map .label ++
        .instruction offset raw decoded :: later, ?_, hlabels _ ?_⟩
      · rw [listFrom, hsome]
        dsimp only
        rw [hlater]
        simp [lines', raw]
      · rw [← hall] at hwords ⊢
        exact .instruction hwords hraw hcover

theorem listingLines_cover (p : Program) : Cover 0 p.words.toList p.listingLines.toList := by
  obtain ⟨later, hlater, hcover⟩ := listFrom_cover p.labels 0 #[] p.words.toList
  rw [listingLines, hlater]
  exact hcover

/-- The offsets that are reached as instructions are decoded one after another from the start. -/
inductive Reaches (p : Program) : Nat → Prop
  | start : Reaches p 0
  | step {offset : Nat} {decoded : Instruction} :
      Reaches p offset → Instruction.at? p.words offset = some decoded →
        Reaches p (offset + decoded.size)

variable {p : Program} {offset : Nat}

theorem Reaches.of_cover (h : p.Reaches offset) {before after : List ListingLine} {line : ListingLine}
    (hcover : Cover offset (p.words.toList.drop offset) (before ++ line :: after)) :
    p.Reaches (offset + (before.flatMap ListingLine.words).length) := by
  induction before generalizing offset with
  | nil => exact h
  | cons first before ih =>
      rw [List.flatMap_cons, List.length_append, ← Nat.add_assoc]
      rw [List.cons_append] at hcover
      generalize hwords : p.words.toList.drop offset = words at hcover
      generalize hlines : before ++ line :: after = lines at hcover
      cases hcover with
      | label subtype hcover =>
          subst hlines hwords
          exact ih h hcover
      | @instruction _ raw rest decoded _ hdecoded hsize hcover =>
          subst hlines
          have hat : Instruction.at? p.words offset = some decoded := by
            rw [Instruction.at?_eq_ofWords?, hwords, hdecoded]
          have hrest : p.words.toList.drop (offset + decoded.size) = rest := by
            rw [← List.drop_drop, hwords, ← hsize, List.drop_left]
          change p.Reaches (offset + raw.length + _)
          rw [hsize]
          rw [← hrest] at hcover
          exact ih (h.step hat) hcover
      | dangling _ => exact absurd hlines (by simp)

theorem cover_behind {before after : List ListingLine}
    (h : p.listingLines.toList = before ++ after) :
    Cover (before.flatMap ListingLine.words).length
      (p.words.toList.drop (before.flatMap ListingLine.words).length) after := by
  have hcover := p.listingLines_cover
  rw [h] at hcover
  have hbehind := hcover.drop
  rwa [Nat.zero_add] at hbehind

theorem Reaches.split (h : p.Reaches offset) :
    ∃ before after, p.listingLines.toList = before ++ after ∧
      (before.flatMap ListingLine.words).length = offset := by
  induction h with
  | start => exact ⟨[], p.listingLines.toList, rfl, rfl⟩
  | @step offset decoded _ hat ih =>
      obtain ⟨before, after, hlines, rfl⟩ := ih
      rw [Instruction.at?_eq_ofWords?] at hat
      have hwords : p.words.toList.drop (before.flatMap ListingLine.words).length ≠ [] := by
        intro hnil
        rw [hnil] at hat
        cases hat
      obtain ⟨front, line, back, rfl, hfront, hline⟩ := (cover_behind hlines).first hwords
      rcases hline with ⟨raw, found, hline, hfound, hsize⟩ | ⟨word, rfl, hword, hwants⟩
      · obtain rfl := Option.some.inj (hat.symm.trans hfound)
        refine ⟨before ++ front ++ [line], back, ?_, ?_⟩
        · rw [hlines]
          simp
        · simp [hfront, hline, ListingLine.words, hsize]
      · rw [hword, Instruction.ofWords?_eq_none_iff.2 (.inr ⟨word, rfl, hwants⟩)] at hat
        cases hat

theorem dangling_mem_iff {word : Word} :
    .dangling offset word ∈ p.listingLines.toList ↔
      p.Reaches offset ∧ p.words.toList.drop offset = [word] ∧ word.WantsOperand := by
  constructor
  · intro hmem
    obtain ⟨before, after, hlines⟩ := List.append_of_mem hmem
    have hcover := p.listingLines_cover
    rw [hlines] at hcover
    have hreaches := Reaches.start.of_cover hcover
    have hbehind := cover_behind hlines
    generalize hwords : p.words.toList.drop (before.flatMap ListingLine.words).length = words
      at hbehind
    rw [Nat.zero_add] at hreaches
    cases hbehind with
    | dangling hwants => exact ⟨hreaches, hwords, hwants⟩
  · rintro ⟨hreaches, hword, hwants⟩
    obtain ⟨before, after, hlines, rfl⟩ := hreaches.split
    obtain ⟨front, line, back, rfl, -, hline⟩ :=
      (cover_behind hlines).first (by rw [hword]; exact List.cons_ne_nil _ _)
    rcases hline with ⟨raw, decoded, rfl, hdecoded, -⟩ | ⟨last, rfl, hlast, -⟩
    · rw [hword, Instruction.ofWords?_eq_none_iff.2 (.inr ⟨word, rfl, hwants⟩)] at hdecoded
      cases hdecoded
    · obtain rfl := List.singleton_inj.1 (hword.symm.trans hlast)
      rw [hlines]
      simp

theorem fetch_of_ofWords? {decoded : Instruction} (hoffset : offset < 65536)
    (h : Instruction.ofWords? (p.words.toList.drop offset) = some decoded) :
    p.fetch offset.toUInt16 = .ok (decoded, (offset + decoded.size).toUInt16) := by
  have hnat : offset.toUInt16.toNat = offset := UInt16.toNat_ofNat_of_lt' hoffset
  rw [fetch, hnat, Instruction.at?_eq_ofWords?, h]
  simp [UInt16.ofNat_add]

theorem ofWords?_of_fetch {offset next : Word} {i : Instruction}
    (h : p.fetch offset = .ok (i, next)) :
    Instruction.ofWords? (p.words.toList.drop offset.toNat) = some i := by
  rw [← Instruction.at?_eq_ofWords?]
  unfold fetch at h
  split at h
  · rename_i found hfound
    cases h
    exact hfound
  · cases h

theorem toList_listing (p : Program) :
    p.listing.toList = ended (p.listingLines.map ListingLine.text).toList := by
  rw [listing, ← Array.foldl_toList, Array.toList_map]
  have hfold := toList_foldl_ended (p.listingLines.toList.map ListingLine.text) ""
  rw [List.foldl_map] at hfold
  exact hfold

theorem isLine_of_mem {text : String} (h : text ∈ p.listingLines.map ListingLine.text) :
    IsLine text := by
  obtain ⟨line, -, rfl⟩ := Array.mem_map.1 h
  exact line.isLine_text

theorem lines_listing (p : Program) :
    Text.lines p.listing = p.listingLines.map ListingLine.text := by
  apply Array.toList_inj.1
  exact lines_of_ended p.toList_listing fun text htext =>
    (isLine_of_mem (Array.mem_toList_iff.1 htext)).not_mem_newline

theorem disassemble_eq (p : Program) : p.disassemble = p.listingLines.map ListingLine.text := by
  rw [disassemble, lines_listing]
  conv_rhs => rw [← Array.map_id (p.listingLines.map ListingLine.text)]
  exact Array.map_congr_left fun text htext => trimEnd_eq_self (isLine_of_mem htext)

/-- A listing shows the words of the stream one after another, each once, and what is fetched at
their offsets.  Only the first of two words with which decoding ends is left by itself, in the last
line.  Offsets and words can be read off the lines. -/
theorem listing_covers (p : Program) :
    let lines := p.listingLines.toList
    lines.flatMap ListingLine.words = p.words.toList ∧
      (∀ before line after, lines = before ++ line :: after → line.isLabel = false →
        let offset := (before.flatMap ListingLine.words).length
        ((∃ raw decoded, line = .instruction offset raw decoded ∧
            Instruction.ofWords? (p.words.toList.drop offset) = some decoded ∧
            raw.length = decoded.size ∧
            (offset < 65536 →
              p.fetch offset.toUInt16 = .ok (decoded, (offset + decoded.size).toUInt16)) ∧
            line.text = "  " ++ hex4 offset ++ ": " ++
              padRight 9 (" ".intercalate (raw.map fun w => hex4 w.toNat)) ++ " " ++ decoded.text) ∨
          ∃ word, line = .dangling offset word ∧ after = [] ∧
            line.text = "  " ++ hex4 offset ++ ": " ++ hex4 word.toNat ++ "      .word") ∧
          shownOffset line.text = offset ∧
          shownWords line.text = line.words.map UInt16.toNat) ∧
      (∀ offset word, .dangling offset word ∈ lines ↔
        p.Reaches offset ∧ p.words.toList.drop offset = [word] ∧ word.WantsOperand) ∧
      p.disassemble = p.listingLines.map ListingLine.text ∧
      p.disassemble.toList.flatMap shownWords = p.words.toList.map UInt16.toNat ∧
      p.disassemble = Text.lines p.listing ∧
      p.listing.toList = ended p.disassemble.toList ∧
      (∀ text ∈ p.disassemble, '\n' ∉ text.toList) ∧
      lines.countP (!·.isLabel) ≤ p.words.size := by
  intro lines
  have hcover := p.listingLines_cover
  refine ⟨hcover.words_eq, ?_, fun offset word => dangling_mem_iff, p.disassemble_eq, ?_,
    p.disassemble_eq.trans p.lines_listing.symm, ?_, ?_, hcover.countP_le⟩
  · intro before line after hlines hlabel offset
    have hbehind := cover_behind hlines
    generalize hwords : p.words.toList.drop (before.flatMap ListingLine.words).length = words
      at hbehind
    cases hbehind with
    | label subtype _ => cases hlabel
    | @instruction _ raw rest decoded _ hdecoded hsize _ =>
        refine ⟨.inl ⟨raw, decoded, rfl, hdecoded, hsize, fun hoffset => ?_, rfl⟩,
          shown_instruction offset (hsize.trans_le decoded.size_le) decoded⟩
        rw [← hwords] at hdecoded
        exact fetch_of_ofWords? hoffset hdecoded
    | @dangling _ word _ => exact ⟨.inr ⟨word, rfl, rfl, rfl⟩, shown_dangling offset word⟩
  · rw [disassemble_eq, Array.toList_map, List.flatMap_map]
    exact hcover.shownWords_eq
  · rw [disassemble_eq, toList_listing]
  · intro text htext
    rw [disassemble_eq] at htext
    exact (isLine_of_mem htext).not_mem_newline

/-- An instruction of one word, one of two words at which a subtype starts, and the first word of
another. -/
theorem listing_covers_dangling :
    let p : Program := { entries := #[1], words := #[0x430A, 0x2300, 0x1234, 0x2E00] }
    p.disassemble =
        #["  0000: 430a      push       10",
          "entry 0:",
          "  0001: 2300 1234 push       4660",
          "  0003: 2e00      .word"] ∧
      p.disassemble.toList.flatMap shownWords = [0x430A, 0x2300, 0x1234, 0x2E00] := by
  intro p
  obtain ⟨-, -, -, hlines, hwords, -⟩ := listing_covers p
  have hone : Instruction.ofHead? 0x430A (some 0x2300) = some ⟨3, 10, .byte⟩ := by decide
  have htwo : Instruction.ofHead? 0x2300 (some 0x1234) = some ⟨3, 0x1234, .word⟩ := by decide
  have hlast : Instruction.ofHead? 0x2E00 none = none := by decide
  have hlisting : p.listingLines =
      #[.instruction 0 [0x430A] ⟨3, 10, .byte⟩, .label 0,
        .instruction 1 [0x2300, 0x1234] ⟨3, 0x1234, .word⟩, .dangling 3 0x2E00] := by
    simp [p, listingLines, labels, labelsFrom, listFrom, hone, htwo, hlast, Instruction.size,
      Std.HashMap.getD_insert]
  rw [hlisting] at hlines
  exact ⟨hlines.trans (by decide +kernel), hwords⟩

end Program

end EntityScript

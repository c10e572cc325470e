import EntityScript.Program.Listing
import Mathlib

namespace EntityScript

namespace Text

def Solid (c : Char) : Prop :=
  '!' ≤ c ∧ c ≤ '~'

instance : DecidablePred Solid := fun _ => inferInstanceAs (Decidable (_ ∧ _))

def Printable (c : Char) : Prop :=
  ' ' ≤ c ∧ c ≤ '~'

instance : DecidablePred Printable := fun _ => inferInstanceAs (Decidable (_ ∧ _))

theorem Solid.printable {c : Char} (h : Solid c) : Printable c :=
  ⟨Char.le_trans (by decide) h.1, h.2⟩

theorem Solid.not_blank {c : Char} (h : Solid c) : c.isWhitespace = false := by
  have hlow := h.1
  rw [Char.le_def] at hlow
  simp only [Char.isWhitespace, Bool.or_eq_false_iff, decide_eq_false_iff_not]
  refine ⟨⟨⟨?_, ?_⟩, ?_⟩, ?_⟩ <;> rintro rfl <;> revert hlow <;> decide

theorem solid_of_all (text : String) (h : text.toList.all (decide <| Solid ·) = true) :
    ∀ c ∈ text.toList, Solid c :=
  fun c hc => of_decide_eq_true (List.all_eq_true.1 h c hc)

def IsPrintable (text : String) : Prop :=
  ∀ c ∈ text.toList, Printable c

theorem isPrintable_of_all (text : String)
    (h : text.toList.all (decide <| Printable ·) = true) : IsPrintable text :=
  fun c hc => of_decide_eq_true (List.all_eq_true.1 h c hc)

theorem IsPrintable.append {front text : String} (hfront : IsPrintable front)
    (h : IsPrintable text) : IsPrintable (front ++ text) := by
  intro c hc
  rw [String.toList_append, List.mem_append] at hc
  exact hc.elim (hfront c) (h c)

theorem IsPrintable.intercalate {separator : String} {texts : List String}
    (hseparator : IsPrintable separator) (h : ∀ text ∈ texts, IsPrintable text) :
    IsPrintable (separator.intercalate texts) := by
  induction texts with
  | nil =>
      rw [String.intercalate_nil]
      exact isPrintable_of_all _ (by decide)
  | cons text texts ih =>
      have htext := h text List.mem_cons_self
      have hrest := ih fun other hother => h other (List.mem_cons_of_mem _ hother)
      by_cases hnil : texts = []
      · subst hnil
        rwa [String.intercalate_singleton]
      · rw [String.intercalate_cons_of_ne_nil hnil]
        exact (htext.append hseparator).append hrest

/-- A word: solid characters, at least one. -/
structure IsWord (text : String) : Prop where
  ne_nil : text.toList ≠ []
  solid : ∀ c ∈ text.toList, Solid c

/-- Printable characters, of which the last one is solid. -/
structure IsLine (text : String) : Prop where
  printable : IsPrintable text
  solid_end : ∃ front last, text.toList = front ++ [last] ∧ Solid last

theorem IsWord.append {front text : String} (hfront : ∀ c ∈ front.toList, Solid c)
    (h : IsWord text) : IsWord (front ++ text) := by
  constructor
  · rw [String.toList_append]
    exact List.append_ne_nil_of_right_ne_nil _ h.ne_nil
  · intro c hc
    rw [String.toList_append, List.mem_append] at hc
    exact hc.elim (hfront c) (h.solid c)

theorem IsWord.ne_blank {text : String} (h : IsWord text) {c : Char} (hc : c ∈ text.toList) :
    c ≠ ' ' := by
  rintro rfl
  exact absurd (h.solid _ hc) (by decide)

theorem IsWord.isPrintable {text : String} (h : IsWord text) : IsPrintable text :=
  fun c hc => (h.solid c hc).printable

theorem IsWord.isLine {word : String} (h : IsWord word) : IsLine word :=
  ⟨h.isPrintable, word.toList.dropLast, word.toList.getLast h.ne_nil,
    (List.dropLast_concat_getLast h.ne_nil).symm, h.solid _ (List.getLast_mem h.ne_nil)⟩

theorem IsLine.append {front text : String} (hfront : IsPrintable front) (h : IsLine text) :
    IsLine (front ++ text) := by
  constructor
  · exact hfront.append h.printable
  · obtain ⟨before, last, htext, hlast⟩ := h.solid_end
    refine ⟨front.toList ++ before, last, ?_, hlast⟩
    rw [String.toList_append, htext, List.append_assoc]

theorem solid_digitChar {n : Nat} (h : n < 16) : Solid n.digitChar := by
  revert n
  decide

theorem mem_toDigits {base n : Nat} (hbase : 1 < base) {c : Char} (h : c ∈ Nat.toDigits base n) :
    ∃ digit < base, c = digit.digitChar := by
  -- The last digit is the remainder, and the others are those of the quotient.
  induction n using Nat.strongRecOn with
  | ind n ih =>
      rw [Nat.toDigits_eq_if hbase] at h
      split at h
      · rename_i hlt
        exact ⟨n, hlt, List.mem_singleton.1 h⟩
      · rcases List.mem_append.1 h with hrest | hlast
        · exact ih _ (Nat.div_lt_self (by omega) hbase) hrest
        · exact ⟨n % base, Nat.mod_lt n (by omega), List.mem_singleton.1 hlast⟩

theorem solid_of_mem_toDigits {base n : Nat} (hlow : 1 < base) (hhigh : base ≤ 16) {c : Char}
    (h : c ∈ Nat.toDigits base n) : Solid c := by
  obtain ⟨digit, hdigit, rfl⟩ := mem_toDigits hlow h
  exact solid_digitChar (hdigit.trans_le hhigh)

theorem mem_hex4 {n : Nat} {c : Char} (h : c ∈ (hex4 n).toList) :
    ∃ digit < 16, c = digit.digitChar := by
  rw [hex4, String.toList_ofList, List.mem_append] at h
  rcases h with hzero | hdigit
  · exact ⟨0, by decide, (List.mem_replicate.1 hzero).2⟩
  · exact mem_toDigits (by decide) hdigit

theorem isWord_hex4 (n : Nat) : IsWord (hex4 n) := by
  constructor
  · rw [hex4, String.toList_ofList]
    exact List.append_ne_nil_of_right_ne_nil _ Nat.toDigits_ne_nil
  · intro c hc
    obtain ⟨digit, hdigit, rfl⟩ := mem_hex4 hc
    exact solid_digitChar hdigit

theorem length_hex4 (w : Word) : (hex4 w.toNat).length = 4 := by
  have hdigits : (Nat.toDigits 16 w.toNat).length ≤ 4 :=
    (Nat.length_toDigits_le_iff (by decide) (by decide)).2 w.toNat_lt
  rw [hex4, String.length_ofList, List.length_append, List.length_replicate]
  omega

def digitValue (c : Char) : Nat :=
  if c.isDigit then c.toNat - '0'.toNat else c.toNat - 'a'.toNat + 10

/-- The value of a row of hexadecimal digits. -/
def hexValue (digits : List Char) : Nat :=
  digits.foldl (fun value c => 16 * value + digitValue c) 0

theorem digitValue_digitChar {n : Nat} (h : n < 16) : digitValue n.digitChar = n := by
  revert n
  decide

theorem hexValue_concat (digits : List Char) (c : Char) :
    hexValue (digits ++ [c]) = 16 * hexValue digits + digitValue c := by
  rw [hexValue, List.foldl_append]
  rfl

theorem hexValue_toDigits (n : Nat) : hexValue (Nat.toDigits 16 n) = n := by
  induction n using Nat.strongRecOn with
  | ind n ih =>
      rw [Nat.toDigits_eq_if (by decide)]
      split
      · rename_i hlt
        exact (Nat.zero_add _).trans (digitValue_digitChar hlt)
      · rw [hexValue_concat, ih _ (Nat.div_lt_self (by omega) (by decide)),
          digitValue_digitChar (Nat.mod_lt n (by decide)), Nat.div_add_mod]

theorem hexValue_hex4 (n : Nat) : hexValue (hex4 n).toList = n := by
  -- Zeros in front leave the value zero.
  have hzeros (count : Nat) (digits : List Char) :
      hexValue (List.replicate count '0' ++ digits) = hexValue digits := by
    induction count with
    | zero => rfl
    | succ count ih => exact ih
  rw [hex4, String.toList_ofList, hzeros, hexValue_toDigits]

theorem isWord_nat (n : Nat) : IsWord (toString n) := by
  rw [Nat.toString_eq_ofList_toDigits]
  constructor
  · rw [String.toList_ofList]
    exact Nat.toDigits_ne_nil
  · intro c hc
    rw [String.toList_ofList] at hc
    exact solid_of_mem_toDigits (by decide) (by decide) hc

theorem isWord_int (n : Int) : IsWord (toString n) := by
  cases n with
  | ofNat n => exact isWord_nat n
  | negSucc n => exact (isWord_nat (n + 1)).append (solid_of_all "-" (by decide))

theorem toString_word_inj {x y : Word} (h : toString x = toString y) : x = y :=
  UInt16.toNat_inj.1 (Nat.repr_injective h)

theorem toString_int_inj {x y : Int} (h : toString x = toString y) : x = y := by
  have hsign (n m : Nat) : toString (Int.ofNat n) ≠ toString (Int.negSucc m) := by
    intro heq
    change Nat.repr n = "-" ++ Nat.repr (m + 1) at heq
    have hminus : '-' ∈ (Nat.repr n).toList := by
      rw [heq, String.toList_append]
      exact List.mem_cons_self
    rw [Nat.toList_repr] at hminus
    exact absurd (Nat.isDigit_of_mem_toDigits (by decide) (by decide) hminus) (by decide)
  cases x with
  | ofNat n =>
      cases y with
      | ofNat m => exact congrArg Int.ofNat (Nat.repr_injective h)
      | negSucc m => exact absurd h (hsign n m)
  | negSucc n =>
      cases y with
      | ofNat m => exact absurd h.symm (hsign m n)
      | negSucc m =>
          have hsucc := Nat.repr_injective ((String.append_right_inj "-").1 h)
          exact congrArg Int.negSucc (Nat.succ.inj hsucc)

theorem isPrintable_blanks (width : Nat) (text : String) : IsPrintable (blanks width text) := by
  intro c hc
  rw [blanks, String.toList_ofList] at hc
  obtain ⟨-, rfl⟩ := List.mem_replicate.1 hc
  decide

theorem toList_padRight (width : Nat) (text : String) :
    (padRight width text).toList =
      text.toList ++ List.replicate (width - text.length) ' ' := by
  rw [padRight, blanks, String.toList_append, String.toList_ofList]

theorem length_padRight {width : Nat} {text : String} (h : text.length ≤ width) :
    (padRight width text).toList.length = width := by
  rw [toList_padRight, List.length_append, List.length_replicate, String.length_toList]
  omega

theorem isPrintable_padRight {text : String} (h : IsPrintable text) (width : Nat) :
    IsPrintable (padRight width text) :=
  h.append (isPrintable_blanks width text)

/-- The parts of a text, as blanks separate them. -/
def pieces (text : List Char) : List (List Char) :=
  (text.splitOnP (· = ' ')).filter (· ≠ [])

theorem pieces_blanks (count : Nat) : pieces (List.replicate count ' ') = [] := by
  induction count with
  | zero => rfl
  | succ count ih =>
      rw [List.replicate_succ, pieces, List.splitOnP_cons_eq_if_modifyHead]
      exact ih

section Pieces

variable {word : String} (h : IsWord word)

include h

theorem pieces_word : pieces word.toList = [word.toList] := by
  rw [pieces, List.splitOnP_eq_singleton fun c hc => decide_eq_false (h.ne_blank hc)]
  exact List.filter_cons_of_pos (decide_eq_true h.ne_nil)

theorem pieces_word_append (rest : List Char) :
    pieces (word.toList ++ ' ' :: rest) = word.toList :: pieces rest := by
  rw [pieces, List.splitOnP_append_cons_of_forall_mem
    (fun c hc => decide_eq_false (h.ne_blank hc)) ' ' rfl]
  exact List.filter_cons_of_pos (decide_eq_true h.ne_nil)

end Pieces

theorem pieces_intercalate {words : List String} (h : ∀ word ∈ words, IsWord word) (count : Nat) :
    pieces ((" ".intercalate words).toList ++ List.replicate count ' ') =
      words.map String.toList := by
  induction words with
  | nil => exact pieces_blanks count
  | cons word rest ih =>
      obtain ⟨hword, hrest⟩ := List.forall_mem_cons.1 h
      by_cases hnil : rest = []
      · subst hnil
        rw [String.intercalate_singleton]
        cases count with
        | zero =>
            rw [List.replicate_zero, List.append_nil]
            exact pieces_word hword
        | succ count =>
            rw [List.replicate_succ, pieces_word_append hword, pieces_blanks]
            rfl
      · rw [String.intercalate_cons_of_ne_nil hnil, String.toList_append, String.toList_append,
          List.append_assoc, List.append_assoc]
        exact (pieces_word_append hword _).trans (congrArg _ (ih hrest))

theorem trimEnd_eq_self {text : String} (h : IsLine text) : trimEnd text = text := by
  obtain ⟨front, last, htext, hlast⟩ := h.solid_end
  have hblank := hlast.not_blank
  rw [trimEnd, htext, List.reverse_append, List.reverse_singleton, List.singleton_append,
    List.dropWhile_cons_of_neg (by simp [hblank]), List.reverse_cons, List.reverse_reverse, ← htext,
    String.ofList_toList]

theorem linesFrom_append {text : List Char} (h : '\n' ∉ text) (finished : Array String)
    (line : String) (rest : List Char) :
    linesFrom finished line (text ++ '\n' :: rest) =
      linesFrom (finished.push (line ++ String.ofList text)) "" rest := by
  induction text generalizing line with
  | nil =>
      rw [List.nil_append, linesFrom, if_pos rfl]
      simp
  | cons c text ih =>
      obtain ⟨hc, htext⟩ := not_or.1 (List.mem_cons.not.1 h)
      rw [List.cons_append, linesFrom, if_neg (Ne.symm hc), ih htext]
      have hline : line.push c ++ String.ofList text = line ++ String.ofList (c :: text) := by
        apply String.toList_inj.1
        simp
      rw [hline]

/-- The text that is made of lines, each of them ended. -/
def ended (lines : List String) : List Char :=
  lines.flatMap fun line => line.toList ++ ['\n']

theorem ended_cons (line : String) (lines : List String) :
    ended (line :: lines) = line.toList ++ '\n' :: ended lines := by
  simp [ended]

theorem toList_foldl_ended (lines : List String) (text : String) :
    (lines.foldl (fun joined line => joined ++ line ++ "\n") text).toList =
      text.toList ++ ended lines := by
  induction lines generalizing text with
  | nil => simp [ended]
  | cons line lines ih =>
      rw [List.foldl_cons, ih, ended_cons]
      simp

theorem IsLine.not_mem_newline {text : String} (h : IsLine text) : '\n' ∉ text.toList := by
  intro hmem
  exact absurd (h.printable _ hmem) (by decide)

theorem ended_append (first second : List String) :
    ended (first ++ second) = ended first ++ ended second :=
  List.flatMap_append

theorem ended_singleton (line : String) : ended [line] = line.toList ++ ['\n'] := by
  simp [ended]

theorem linesFrom_ended {texts : List String} (h : ∀ text ∈ texts, '\n' ∉ text.toList)
    (finished : Array String) : linesFrom finished "" (ended texts) = finished ++ texts := by
  induction texts generalizing finished with
  | nil =>
      rw [ended, List.flatMap_nil, linesFrom, if_pos rfl]
      simp
  | cons text texts ih =>
      have hrest := ih fun other hother => h other (List.mem_cons_of_mem _ hother)
      rw [ended_cons, linesFrom_append (h text List.mem_cons_self), hrest]
      simp

theorem lines_of_ended {text : String} {texts : List String} (htext : text.toList = ended texts)
    (h : ∀ line ∈ texts, '\n' ∉ line.toList) : (lines text).toList = texts := by
  rw [lines, htext, linesFrom_ended h]
  simp

end Text

end EntityScript

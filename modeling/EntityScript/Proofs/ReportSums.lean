import EntityScript.Proofs.Counting
import EntityScript.Proofs.ListingCoverage

namespace EntityScript

namespace Tally

variable {κ : Type} [Ranked κ]

instance : Zero (Tally κ) := ⟨∅⟩

theorem sum_empty (t : Tally κ) : t + ∅ = t :=
  rfl

theorem sum_comm (s t : Tally κ) : s + t = t + s := by
  apply ext_count?
  intro key
  rw [count?_sum, count?_sum]
  exact Std.Commutative.comm _ _

theorem sum_assoc (s t u : Tally κ) : s + t + u = s + (t + u) := by
  apply ext_count?
  intro key
  rw [count?_sum, count?_sum, count?_sum, count?_sum]
  exact Std.Associative.assoc _ _ _

instance : AddCommMonoid (Tally κ) where
  add_assoc := sum_assoc
  zero_add t := (sum_comm ∅ t).trans (sum_empty t)
  add_zero := sum_empty
  add_comm := sum_comm
  nsmul := nsmulRec

/-- The keys that have a count, be it zero. -/
def keys (t : Tally κ) : List κ :=
  t.entries.map Prod.fst

theorem mem_keys_iff {t : Tally κ} {key : κ} : key ∈ t.keys ↔ t.count? key ≠ none := by
  rw [keys, List.mem_map, Option.ne_none_iff_exists']
  constructor
  · rintro ⟨⟨_, n⟩, hentry, rfl⟩
    exact ⟨n, mem_entries_iff.1 hentry⟩
  · rintro ⟨n, hcount⟩
    exact ⟨(key, n), mem_entries_iff.2 hcount, rfl⟩

theorem nodup_keys (t : Tally κ) : t.keys.Nodup :=
  List.pairwise_map.2 (t.ascending.imp fun hlt heq => hlt.ne (congrArg rank heq))

theorem mem_keys_sum (s t : Tally κ) (key : κ) :
    key ∈ (s + t).keys ↔ key ∈ s.keys ∨ key ∈ t.keys := by
  rw [mem_keys_iff, mem_keys_iff, mem_keys_iff, count?_sum]
  cases s.count? key <;> cases t.count? key <;> simp

theorem getD_count?_sum (s t : Tally κ) (key : κ) :
    ((s + t).count? key).getD 0 = (s.count? key).getD 0 + (t.count? key).getD 0 := by
  rw [count?_sum]
  cases s.count? key <;> cases t.count? key <;> simp

theorem total_eq_sum (t : Tally κ) : t.total = (t.entries.map Prod.snd).sum := by
  rw [total, List.sum_eq_foldr, List.foldr_map]

theorem total_foldl_add (t : Tally κ) (entries : List (κ × Nat)) :
    (entries.foldl (fun sum e => sum.add e.1 e.2) t).total =
      t.total + (entries.map Prod.snd).sum := by
  induction entries generalizing t with
  | nil => rfl
  | cons entry rest ih =>
    rw [List.foldl_cons, ih, total_add, List.map_cons, List.sum_cons, Nat.add_assoc]

theorem total_sum (s t : Tally κ) : (s + t).total = s.total + t.total := by
  rw [t.total_eq_sum]
  exact total_foldl_add s t.entries

theorem add_eq_sum (t : Tally κ) (key : κ) (n : Nat) :
    t.add key n = t + (∅ : Tally κ).add key n := by
  rw [sum_add, sum_empty]

theorem foldl_add_of_perm (s : Tally κ) {t : Tally κ} {entries : List (κ × Nat)}
    (h : entries.Perm t.entries) : entries.foldl (fun sum e => sum.add e.1 e.2) s = s + t := by
  have hswap : RightCommutative fun (sum : Tally κ) (e : κ × Nat) => sum.add e.1 e.2 := by
    constructor
    intro sum a b
    rw [add_eq_sum (sum.add _ _), add_eq_sum sum, add_right_comm, ← add_eq_sum sum, ← add_eq_sum]
  exact h.foldl_eq s

/-- A tally is what two others come to. -/
structure IsSum (s t u : Tally κ) : Prop where
  mem_keys : ∀ key, key ∈ u.keys ↔ key ∈ s.keys ∨ key ∈ t.keys
  count : ∀ key, (u.count? key).getD 0 = (s.count? key).getD 0 + (t.count? key).getD 0
  total : u.total = s.total + t.total
  /-- The entries may be added in any order. -/
  unordered : ∀ entries : List (κ × Nat), entries.Perm t.entries →
    entries.foldl (fun sum e => sum.add e.1 e.2) s = u

theorem isSum (s t : Tally κ) : IsSum s t (s + t) :=
  ⟨mem_keys_sum s t, getD_count?_sum s t, total_sum s t, fun _ => foldl_add_of_perm s⟩

section Listing

/-- The rows of a tally as they are shown: each key once, larger counts first, and equal ones in the
order of their keys. -/
structure Lists (t : Tally κ) (rows : List (κ × Nat)) : Prop where
  mem_iff : ∀ key n, (key, n) ∈ rows ↔ t.count? key = some n
  nodup : (rows.map Prod.fst).Nodup
  descending : rows.Pairwise fun a b => b.2 < a.2 ∨ a.2 = b.2 ∧ rank a.1 < rank b.1
  /-- The order in which the entries come does not show. -/
  unordered : ∀ entries : List (κ × Nat), entries.Perm t.entries → entries.mergeSort precedes = rows

variable {t : Tally κ} {a b c : κ × Nat}

theorem precedes_iff : precedes a b = true ↔ b.2 < a.2 ∨ a.2 = b.2 ∧ rank a.1 ≤ rank b.1 := by
  simp [precedes]

theorem precedes_trans (hab : precedes a b = true) (hbc : precedes b c = true) :
    precedes a c = true := by
  rw [precedes_iff] at *
  omega

theorem precedes_total (a b : κ × Nat) : (precedes a b || precedes b a) = true := by
  rw [Bool.or_eq_true, precedes_iff, precedes_iff]
  omega

theorem precedes_antisymm (hab : precedes a b = true) (hba : precedes b a = true) : a = b := by
  rw [precedes_iff] at *
  exact Prod.ext (rank_eq_iff.1 (by omega)) (by omega)

theorem pairwise_mergeSort_precedes (entries : List (κ × Nat)) :
    (entries.mergeSort precedes).Pairwise fun a b => precedes a b = true := by
  apply List.pairwise_mergeSort
  · intro a b c hab hbc
    exact precedes_trans hab hbc
  · exact precedes_total

theorem lists_byCount (t : Tally κ) : t.Lists t.byCount := by
  have hperm : t.byCount.Perm t.entries := List.mergeSort_perm _ _
  have hnodup : (t.byCount.map Prod.fst).Nodup := (hperm.map Prod.fst).nodup_iff.2 t.nodup_keys
  have hsorted := pairwise_mergeSort_precedes t.entries
  refine ⟨?_, hnodup, ?_, ?_⟩
  · intro key n
    rw [hperm.mem_iff, mem_entries_iff]
  · refine (hsorted.and (List.pairwise_map.1 hnodup)).imp ?_
    rintro a b ⟨hle, hne⟩
    have hrank : rank a.1 ≠ rank b.1 := fun hrank => hne (rank_eq_iff.1 hrank)
    rw [precedes_iff] at hle
    omega
  · intro entries hentries
    -- No two rows precede each other, so rows that are sorted have one order only.
    refine List.Perm.eq_of_pairwise (fun _ _ _ _ => precedes_antisymm)
      (pairwise_mergeSort_precedes entries) hsorted ?_
    exact ((List.mergeSort_perm _ _).trans hentries).trans hperm.symm

theorem Lists.total_eq {rows : List (κ × Nat)} (h : t.Lists rows) :
    t.total = (rows.map Prod.snd).sum := by
  obtain rfl := h.unordered t.entries (.refl _)
  rw [total_eq_sum]
  exact ((List.mergeSort_perm _ _).map Prod.snd).sum_eq.symm

end Listing

end Tally

namespace Report

theorem sum_comm (a b : Report) : a + b = b + a := by
  change mk (a.opcodes + b.opcodes) (a.calls + b.calls) (a.halts + b.halts) =
    mk (b.opcodes + a.opcodes) (b.calls + a.calls) (b.halts + a.halts)
  rw [add_comm a.opcodes, add_comm a.calls, Nat.add_comm]

theorem sum_assoc (a b c : Report) : a + b + c = a + (b + c) := by
  change mk (a.opcodes + b.opcodes + c.opcodes) (a.calls + b.calls + c.calls)
      (a.halts + b.halts + c.halts) =
    mk (a.opcodes + (b.opcodes + c.opcodes)) (a.calls + (b.calls + c.calls))
      (a.halts + (b.halts + c.halts))
  rw [add_assoc, add_assoc, Nat.add_assoc]

theorem sum_empty (a : Report) : a + {} = a :=
  rfl

instance : Zero Report := ⟨{}⟩

instance : AddCommMonoid Report where
  add_assoc := sum_assoc
  zero_add a := (sum_comm {} a).trans (sum_empty a)
  add_zero := sum_empty
  add_comm := sum_comm
  nsmul := nsmulRec

section Lines

open Text

/-- A line of a table whose keys are in a column of some width. -/
def countLine (width : Nat) (row : String × Nat) : String :=
  "  " ++ padRight width row.1 ++ " " ++ padLeft 8 (toString row.2)

/-- The lines of a table.  The widest key fills the column of the keys. -/
def tableLines (rows : List (String × Nat)) : List String :=
  rows.map (countLine ((rows.map fun row => row.1.length).foldl max 0))

/-- The lines that show rows of operations, rows of native slots and a number of halts. -/
def shownLines (opcodes : List (Opcode × Nat)) (calls : List (Word × Nat)) (halts : Nat) :
    List String :=
  [s!"opcode counts ({(opcodes.map Prod.snd).sum} total instructions):"] ++
    tableLines (opcodes.map fun e => (e.1.mnemonic, e.2)) ++
  [s!"function counts ({(calls.map Prod.snd).sum} total calls):"] ++
    tableLines (calls.map fun e => (toString e.1, e.2)) ++
  [s!"halts: {halts}"]

theorem isLine_countLine {row : String × Nat} (h : IsWord row.1) (width : Nat) :
    IsLine (countLine width row) := by
  have hfront := ((isPrintable_of_all "  " (by decide)).append
    (isPrintable_padRight h.isPrintable width)).append (isPrintable_of_all " " (by decide))
  exact .append hfront (.append (isPrintable_blanks 8 _) (isWord_nat row.2).isLine)

theorem isLine_of_mem_tableLines {rows : List (String × Nat)} (h : ∀ row ∈ rows, IsWord row.1)
    {line : String} (hline : line ∈ tableLines rows) : IsLine line := by
  obtain ⟨row, hrow, rfl⟩ := List.mem_map.1 hline
  exact isLine_countLine (h row hrow) _

theorem isLine_of_mem_shownLines {opcodes : List (Opcode × Nat)} {calls : List (Word × Nat)}
    {halts : Nat} {line : String} (h : line ∈ shownLines opcodes calls halts) : IsLine line := by
  have hheader (n : Nat) {front total last : String} (hfront : IsPrintable front)
      (htotal : IsPrintable total) (hlast : IsWord last) :
      IsLine (front ++ toString n ++ (total ++ last)) :=
    .append (hfront.append (isWord_nat n).isPrintable) (.append htotal hlast.isLine)
  have hinstructions : IsWord "instructions):" := ⟨by decide, solid_of_all _ (by decide)⟩
  have hcalls : IsWord "calls):" := ⟨by decide, solid_of_all _ (by decide)⟩
  have htotal : IsPrintable " total " := isPrintable_of_all _ (by decide)
  simp only [shownLines, List.mem_append, List.mem_singleton] at h
  rcases h with (((rfl | hopcode) | rfl) | hcall) | rfl
  · exact hheader _ (isPrintable_of_all _ (by decide)) htotal hinstructions
  · refine isLine_of_mem_tableLines ?_ hopcode
    intro row hrow
    obtain ⟨e, -, rfl⟩ := List.mem_map.1 hrow
    exact e.1.isWord_mnemonic
  · exact hheader _ (isPrintable_of_all _ (by decide)) htotal hcalls
  · refine isLine_of_mem_tableLines ?_ hcall
    intro row hrow
    obtain ⟨e, -, rfl⟩ := List.mem_map.1 hrow
    exact isWord_nat e.1.toNat
  · exact (isWord_nat halts).isLine.append (isPrintable_of_all _ (by decide))

theorem toList_tableText (rows : List (String × Nat)) :
    (tableText rows).toList = ended (tableLines rows) := by
  rw [tableText, String.toList_join, List.flatMap_map, tableLines, ended, List.flatMap_map]
  congr 1
  funext row
  exact String.toList_append

theorem toList_joined (opcodes calls halts : Nat) (first second : String) :
    (s!"opcode counts ({opcodes} total instructions):\n" ++ first ++
        s!"function counts ({calls} total calls):\n" ++ second ++ s!"halts: {halts}\n").toList =
      ended [s!"opcode counts ({opcodes} total instructions):"] ++ first.toList ++
        ended [s!"function counts ({calls} total calls):"] ++ second.toList ++
        ended [s!"halts: {halts}"] := by
  have hinstructions : toString " total instructions):\n" = " total instructions):" ++ "\n" := rfl
  have hcalls : toString " total calls):\n" = " total calls):" ++ "\n" := rfl
  have hend : "\n".toList = ['\n'] := rfl
  rw [hinstructions, hcalls]
  simp only [ended_singleton, toString, String.toList_append, List.append_assoc, hend]

theorem toList_text (r : Report) :
    r.text.toList = ended (shownLines r.opcodes.byCount r.calls.byCount r.halts) := by
  rw [shownLines, ended_append, ended_append, ended_append, ended_append, ← toList_tableText,
    ← toList_tableText, ← r.opcodes.lists_byCount.total_eq, ← r.calls.lists_byCount.total_eq]
  exact toList_joined _ _ _ _ _

theorem lines_text (r : Report) :
    (Text.lines r.text).toList = shownLines r.opcodes.byCount r.calls.byCount r.halts :=
  lines_of_ended r.toList_text fun _ hline => (isLine_of_mem_shownLines hline).not_mem_newline

end Lines

/-- Reports add up like their counts, in any order and grouping.  The text of a report lists each
key once, larger counts first and equal ones by operation code or slot, and shows nothing but the
counts. -/
theorem sums_shown :
    ((∀ a b c : Report, a + b + c = a + (b + c)) ∧ (∀ a b : Report, a + b = b + a) ∧
        ∀ a : Report, a + {} = a ∧ {} + a = a) ∧
      (∀ a b : Report, a.opcodes.IsSum b.opcodes (a + b).opcodes ∧
        a.calls.IsSum b.calls (a + b).calls ∧ (a + b).halts = a.halts + b.halts) ∧
      (∀ first second : List Report, first.Perm second →
        first.foldl (· + ·) ({} : Report) = second.foldl (· + ·) {}) ∧
      (∀ a b : Report, (∀ opcode, a.opcodes.count? opcode = b.opcodes.count? opcode) →
        (∀ slot, a.calls.count? slot = b.calls.count? slot) → a.halts = b.halts →
          a.text = b.text) ∧
      ∀ r : Report, ∃ opcodes calls, r.opcodes.Lists opcodes ∧ r.calls.Lists calls ∧
        (Text.lines r.text).toList = shownLines opcodes calls r.halts := by
  refine ⟨⟨add_assoc, add_comm, fun a => ⟨add_zero a, zero_add a⟩⟩, ?_, ?_, ?_, ?_⟩
  · intro a b
    exact ⟨a.opcodes.isSum b.opcodes, a.calls.isSum b.calls, rfl⟩
  · intro first second hperm
    exact hperm.foldl_op_eq
  · intro a b hopcodes hcalls hhalts
    have heq : a = b := by
      cases a
      cases b
      cases Tally.ext_count? hopcodes
      cases Tally.ext_count? hcalls
      cases hhalts
      rfl
    rw [heq]
  · intro r
    exact ⟨_, _, r.opcodes.lists_byCount, r.calls.lists_byCount, r.lines_text⟩

/-- An operation that two reports count, one counted with zero, and two with equal counts. -/
theorem sums_shown_ties :
    let first : Report := { opcodes := (∅ : Tally Opcode).add .ret 1 |>.add .push 1, halts := 1 }
    let second : Report :=
      { opcodes := (∅ : Tally Opcode).add .push 3 |>.add .binary 1 |>.add .unary 0 }
    (first + second).text = (second + first).text ∧
      (Text.lines (first + second).text).toList =
        ["opcode counts (6 total instructions):",
          "  push          4",
          "  binary        1",
          "  ret           1",
          "  unary         0",
          "function counts (0 total calls):",
          "halts: 1"] := by
  intro first second
  obtain ⟨⟨-, hcomm, -⟩, hsum, -, htext, hshown⟩ := sums_shown
  refine ⟨htext _ _ ?_ ?_ ?_, ?_⟩
  · intro opcode
    rw [hcomm]
  · intro slot
    rw [hcomm]
  · rw [hcomm]
  · obtain ⟨opcodes, calls, hopcodes, hcalls, hlines⟩ := hshown (first + second)
    have hrows := hopcodes.unordered [(.push, 4), (.binary, 1), (.ret, 1), (.unary, 0)] (by decide)
    rw [List.mergeSort_of_pairwise (by decide)] at hrows
    have hnone := hcalls.unordered [] (by decide)
    rw [List.mergeSort_nil] at hnone
    rw [hlines, ← hrows, ← hnone]
    decide +kernel

end Report

end EntityScript

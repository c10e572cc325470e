import EntityScript.Report
import Mathlib

namespace EntityScript

namespace Tally

variable {κ : Type} [Ranked κ] {key : κ} {entries : List (κ × Nat)}

theorem rank_eq_iff {a b : κ} : rank a = rank b ↔ a = b :=
  ⟨Ranked.eq_of_rank_eq, congrArg rank⟩

def countIn? (key : κ) (entries : List (κ × Nat)) : Option Nat :=
  (entries.find? fun e => rank e.1 = rank key).map Prod.snd

theorem countIn?_cons_self (n : Nat) : countIn? key ((key, n) :: entries) = some n := by
  simp [countIn?]

theorem countIn?_cons_ne {k : κ} (h : rank k ≠ rank key) (n : Nat) :
    countIn? key ((k, n) :: entries) = countIn? key entries := by
  simp [countIn?, h]

theorem countIn?_eq_none (h : ∀ e ∈ entries, rank key < rank e.1) : countIn? key entries = none := by
  rw [countIn?, Option.map_eq_none_iff, List.find?_eq_none]
  intro e he
  simpa using (h e he).ne'

theorem mem_of_countIn? {n : Nat} (h : countIn? key entries = some n) : (key, n) ∈ entries := by
  obtain ⟨⟨k, m⟩, hfind, rfl⟩ := Option.map_eq_some_iff.1 h
  have hkey : k = key := rank_eq_iff.1 (by simpa using List.find?_some hfind)
  subst hkey
  exact List.mem_of_find?_eq_some hfind

theorem countIn?_of_mem (hascending : entries.Pairwise fun a b => rank a.1 < rank b.1) {n : Nat}
    (h : (key, n) ∈ entries) : countIn? key entries = some n := by
  induction entries with
  | nil => cases h
  | cons entry rest ih =>
      obtain ⟨hfirst, hrest⟩ := List.pairwise_cons.1 hascending
      rcases List.mem_cons.1 h with rfl | hmem
      · exact countIn?_cons_self n
      · rw [countIn?_cons_ne (hfirst _ hmem).ne, ih hrest hmem]

theorem mem_entries_iff {t : Tally κ} {n : Nat} :
    (key, n) ∈ t.entries ↔ t.count? key = some n :=
  ⟨countIn?_of_mem t.ascending, mem_of_countIn?⟩

theorem ext_count? {s t : Tally κ} (h : ∀ key, s.count? key = t.count? key) : s = t := by
  have hnodup (u : Tally κ) : u.entries.Nodup := u.ascending.imp fun hlt heq => by
    rw [heq] at hlt
    exact lt_irrefl _ hlt
  have hperm : s.entries.Perm t.entries := by
    rw [List.perm_ext_iff_of_nodup (hnodup s) (hnodup t)]
    rintro ⟨key, n⟩
    rw [mem_entries_iff, mem_entries_iff, h]
  have hentries : s.entries = t.entries :=
    hperm.eq_of_pairwise (fun _ _ _ _ hlt hgt => (lt_asymm hlt hgt).elim) s.ascending t.ascending
  cases s
  cases t
  congr

theorem countIn?_cons {k : κ} {n : Nat}
    (hascending : ((k, n) :: entries).Pairwise fun a b => rank a.1 < rank b.1) (key : κ) :
    countIn? key ((k, n) :: entries) =
      (countIn? key [(k, n)]).merge (· + ·) (countIn? key entries) := by
  by_cases hkey : rank k = rank key
  · obtain rfl := rank_eq_iff.1 hkey
    rw [countIn?_cons_self, countIn?_cons_self,
      countIn?_eq_none (List.pairwise_cons.1 hascending).1, Option.merge_none_right]
  · rw [countIn?_cons_ne hkey, countIn?_cons_ne hkey]
    exact (Option.merge_none_left).symm

theorem countIn?_insertCount (hascending : entries.Pairwise fun a b => rank a.1 < rank b.1)
    (added : κ) (n : Nat) (key : κ) :
    countIn? key (insertCount added n entries) =
      (countIn? key entries).merge (· + ·) (countIn? key [(added, n)]) := by
  have hinserted := ascending_insertCount added n hascending
  induction entries with
  | nil => exact (Option.merge_none_left).symm
  | cons entry rest ih =>
      obtain ⟨k, m⟩ := entry
      rw [insertCount] at hinserted ⊢
      rcases lt_trichotomy (rank added) (rank k) with hlt | heq | hgt
      · rw [if_pos hlt] at hinserted ⊢
        rw [countIn?_cons hinserted]
        exact Std.Commutative.comm _ _
      · obtain rfl := rank_eq_iff.1 heq
        rw [if_neg (lt_irrefl _), if_pos rfl]
        by_cases hkey : rank added = rank key
        · obtain rfl := rank_eq_iff.1 hkey
          rw [countIn?_cons_self, countIn?_cons_self, countIn?_cons_self]
          rfl
        · rw [countIn?_cons_ne hkey, countIn?_cons_ne hkey, countIn?_cons_ne hkey]
          exact (Option.merge_none_right).symm
      · rw [if_neg hgt.not_gt, if_neg hgt.ne'] at hinserted ⊢
        rw [countIn?_cons hinserted, countIn?_cons hascending,
          ih (List.pairwise_cons.1 hascending).2 (List.pairwise_cons.1 hinserted).2]
        exact (Std.Associative.assoc _ _ _).symm

theorem count?_add (t : Tally κ) (added : κ) (n : Nat) (key : κ) :
    (t.add added n).count? key = (t.count? key).merge (· + ·) (countIn? key [(added, n)]) :=
  countIn?_insertCount t.ascending added n key

theorem count?_foldl_add (hascending : entries.Pairwise fun a b => rank a.1 < rank b.1)
    (t : Tally κ) (key : κ) :
    (entries.foldl (fun t e => t.add e.1 e.2) t).count? key =
      (t.count? key).merge (· + ·) (countIn? key entries) := by
  induction entries generalizing t with
  | nil => exact (Option.merge_none_right).symm
  | cons entry rest ih =>
      obtain ⟨k, n⟩ := entry
      rw [List.foldl_cons, ih (List.pairwise_cons.1 hascending).2, count?_add,
        countIn?_cons hascending]
      exact Std.Associative.assoc _ _ _

theorem count?_sum (s t : Tally κ) (key : κ) :
    (s + t).count? key = (s.count? key).merge (· + ·) (t.count? key) :=
  count?_foldl_add t.ascending s key

theorem sum_add (s t : Tally κ) (added : κ) (n : Nat) :
    s + t.add added n = (s + t).add added n := by
  apply ext_count?
  intro key
  rw [count?_sum, count?_add, count?_add, count?_sum]
  exact (Std.Associative.assoc _ _ _).symm

theorem total_add (t : Tally κ) (key : κ) (n : Nat) : (t.add key n).total = t.total + n := by
  simp only [total, add]
  induction t.entries with
  | nil => simp [insertCount]
  | cons entry rest ih =>
      obtain ⟨k, m⟩ := entry
      rw [insertCount]
      split
      · simp only [List.foldr_cons]
        omega
      · split
        · simp only [List.foldr_cons]
          omega
        · simp only [List.foldr_cons]
          omega

end Tally

namespace Report

variable (before r : Report)

theorem add_countOpcode (opcode : Opcode) :
    before + r.countOpcode opcode = (before + r).countOpcode opcode := by
  change mk (before.opcodes + r.opcodes.add opcode 1) _ _ = mk _ _ _
  rw [Tally.sum_add]
  rfl

theorem add_countCall (slot : Word) :
    before + r.countCall slot = (before + r).countCall slot := by
  change mk _ (before.calls + r.calls.add slot 1) _ = mk _ _ _
  rw [Tally.sum_add]
  rfl

end Report

end EntityScript

namespace EntityScript

class Ranked (κ : Type) where
  rank : κ → Nat
  eq_of_rank_eq {a b : κ} : rank a = rank b → a = b

export Ranked (rank)

/-- Counts by key, in the order of the keys and each key once, so that two tallies with the same
counts are equal.  A count of zero is an entry like any other. -/
structure Tally (κ : Type) [Ranked κ] where
  entries : List (κ × Nat)
  ascending : entries.Pairwise fun a b => rank a.1 < rank b.1
  deriving DecidableEq

namespace Tally

variable {κ : Type} [Ranked κ]

instance : EmptyCollection (Tally κ) := ⟨⟨[], .nil⟩⟩

def insertCount (key : κ) (count : Nat) : List (κ × Nat) → List (κ × Nat)
  | [] => [(key, count)]
  | (k, n) :: rest =>
      if rank key < rank k then (key, count) :: (k, n) :: rest
      else if rank key = rank k then (k, n + count) :: rest
      else (k, n) :: insertCount key count rest

theorem rank_lt_of_mem_insertCount {key : κ} {count bound : Nat} {entries : List (κ × Nat)}
    (hkey : bound < rank key) (hentries : ∀ e ∈ entries, bound < rank e.1) :
    ∀ e ∈ insertCount key count entries, bound < rank e.1 := by
  induction entries with
  | nil => simpa [insertCount] using hkey
  | cons entry rest ih =>
      obtain ⟨k, n⟩ := entry
      have hk := hentries (k, n) (by simp)
      have hrest : ∀ e ∈ rest, bound < rank e.1 := fun e he => hentries e (by simp [he])
      rw [insertCount]
      split
      · simp only [List.forall_mem_cons]
        exact ⟨hkey, hk, hrest⟩
      · split
        · simp only [List.forall_mem_cons]
          exact ⟨hk, hrest⟩
        · simp only [List.forall_mem_cons]
          exact ⟨hk, ih hrest⟩

theorem ascending_insertCount (key : κ) (count : Nat) {entries : List (κ × Nat)}
    (h : entries.Pairwise fun a b => rank a.1 < rank b.1) :
    (insertCount key count entries).Pairwise fun a b => rank a.1 < rank b.1 := by
  induction entries with
  | nil => simp [insertCount]
  | cons entry rest ih =>
      obtain ⟨k, n⟩ := entry
      obtain ⟨hfirst, hrest⟩ := List.pairwise_cons.1 h
      rw [insertCount]
      split
      · rename_i hlt
        refine List.pairwise_cons.2 ⟨?_, h⟩
        simp only [List.forall_mem_cons]
        exact ⟨hlt, fun e he => Nat.lt_trans hlt (hfirst e he)⟩
      · split
        · exact List.pairwise_cons.2 ⟨hfirst, hrest⟩
        · refine List.pairwise_cons.2 ⟨?_, ih hrest⟩
          exact rank_lt_of_mem_insertCount (show rank k < rank key by omega) hfirst

def add (t : Tally κ) (key : κ) (count : Nat) : Tally κ :=
  ⟨insertCount key count t.entries, ascending_insertCount key count t.ascending⟩

instance : Add (Tally κ) where
  add a b := b.entries.foldl (fun t e => t.add e.1 e.2) a

/-- The count of a key, if it has one. -/
def count? (t : Tally κ) (key : κ) : Option Nat :=
  (t.entries.find? fun e => rank e.1 = rank key).map Prod.snd

def total (t : Tally κ) : Nat :=
  t.entries.foldr (fun e sum => e.2 + sum) 0

/-- Larger counts come first, and equal ones in the order of their keys. -/
def precedes (a b : κ × Nat) : Bool :=
  b.2 < a.2 || (a.2 = b.2 && rank a.1 ≤ rank b.1)

def byCount (t : Tally κ) : List (κ × Nat) :=
  t.entries.mergeSort precedes

end Tally

end EntityScript

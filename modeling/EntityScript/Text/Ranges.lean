namespace EntityScript.Text

/-- Closed ranges of code points. -/
abbrev Ranges := List (Nat × Nat)

namespace Ranges

def contains : Ranges → Nat → Bool
  | [], _ => false
  | (first, last) :: rest, n =>
      if n < first then false else if n ≤ last then true else contains rest n

/-- Every range starts beyond `bound`, is not empty, and leaves a gap to the next one. -/
def ascendFrom (bound : Nat) : Ranges → Bool
  | [] => true
  | (first, last) :: rest => bound < first && first ≤ last && ascendFrom (last + 1) rest

theorem lt_of_ascendFrom {rs : Ranges} {bound : Nat} (h : rs.ascendFrom bound = true) :
    ∀ r ∈ rs, bound < r.1 := by
  induction rs generalizing bound with
  | nil => simp
  | cons r rest ih =>
      obtain ⟨first, last⟩ := r
      simp only [ascendFrom, Bool.and_eq_true, decide_eq_true_eq] at h
      obtain ⟨⟨hfirst, hlast⟩, hrest⟩ := h
      intro r hr
      rcases List.mem_cons.1 hr with rfl | hr
      · exact hfirst
      · have := ih hrest r hr
        omega

theorem contains_iff {rs : Ranges} {bound n : Nat} (h : rs.ascendFrom bound = true) :
    rs.contains n = true ↔ ∃ r ∈ rs, r.1 ≤ n ∧ n ≤ r.2 := by
  induction rs generalizing bound with
  | nil => simp [contains]
  | cons r rest ih =>
      obtain ⟨first, last⟩ := r
      simp only [ascendFrom, Bool.and_eq_true, decide_eq_true_eq] at h
      obtain ⟨⟨_, hlast⟩, hrest⟩ := h
      have hbeyond := lt_of_ascendFrom hrest
      rw [contains]
      split
      · rename_i hn
        constructor
        · intro hfalse
          cases hfalse
        · rintro ⟨r, hr, hlow, _⟩
          rcases List.mem_cons.1 hr with rfl | hr
          · have : first ≤ n := hlow
            omega
          · have := hbeyond r hr
            omega
      · rename_i hn
        split
        · rename_i hle
          exact iff_of_true rfl ⟨(first, last), by simp, Nat.le_of_not_lt hn, hle⟩
        · rename_i hgt
          rw [ih hrest]
          constructor
          · rintro ⟨r, hr, hin⟩
            exact ⟨r, List.mem_cons_of_mem _ hr, hin⟩
          · rintro ⟨r, hr, hin⟩
            rcases List.mem_cons.1 hr with rfl | hr
            · exact absurd hin.2 hgt
            · exact ⟨r, hr, hin⟩

end Ranges

end EntityScript.Text

import EntityScript.Settings
import Mathlib.Data.Nat.Digits.Lemmas

namespace EntityScript

namespace Text.Decimal

def digitValue (d : Char) : Nat :=
  d.toNat - '0'.toNat

/-- A text denotes a number if it is made of the number's digits in base ten, any zeros before them,
and at most one plus sign before these. -/
def Denotes (text : String) (n : Nat) : Prop :=
  ∃ digits : List Char, digits ≠ [] ∧ (∀ d ∈ digits, d.isDigit) ∧
    (text.toList = digits ∨ text.toList = '+' :: digits) ∧
    n = Nat.ofDigits 10 (digits.reverse.map digitValue)

theorem foldl_digits (digits : List Char) :
    digits.foldl (fun value d => 10 * value + digitValue d) 0 =
      Nat.ofDigits 10 (digits.reverse.map digitValue) := by
  induction digits using List.reverseRecOn with
  | nil => rfl
  | append_singleton digits d ih =>
      rw [List.foldl_append, ih, List.reverse_append, List.map_append, Nat.ofDigits_append]
      simp [Nat.add_comm]

theorem ofDigits?_eq_some_iff {digits : List Char} {n : Nat} :
    ofDigits? digits = some n ↔
      digits ≠ [] ∧ (∀ d ∈ digits, d.isDigit) ∧
        n = Nat.ofDigits 10 (digits.reverse.map digitValue) := by
  have hall : digits.all Char.isDigit = true ↔ ∀ d ∈ digits, d.isDigit := List.all_eq_true
  rw [ofDigits?, ← foldl_digits, ← hall, ← and_assoc]
  split
  · rename_i h
    rw [Option.some.injEq, and_iff_right h]
    exact eq_comm
  · rename_i h
    exact iff_of_false nofun fun hdigits => h hdigits.1

theorem unsigned?_eq_some_iff {text : String} {n : Nat} :
    unsigned? text = some n ↔ Denotes text n := by
  rw [unsigned?]
  split
  · rename_i digits htext
    rw [ofDigits?_eq_some_iff]
    constructor
    · rintro ⟨hsome, hdigits, hn⟩
      exact ⟨digits, hsome, hdigits, .inr htext, hn⟩
    · rintro ⟨digits', hsome, hdigits, hfound | hfound, hn⟩
      · -- A plus sign is no digit, so it must be the one before them.
        have hplus : '+' ∈ digits' := by
          rw [← hfound, htext]
          exact List.mem_cons_self
        exact absurd (hdigits _ hplus) (by decide)
      · obtain rfl := List.tail_eq_of_cons_eq (htext.symm.trans hfound)
        exact ⟨hsome, hdigits, hn⟩
  · rename_i hsign
    rw [ofDigits?_eq_some_iff]
    constructor
    · rintro ⟨hsome, hdigits, hn⟩
      exact ⟨text.toList, hsome, hdigits, .inl rfl, hn⟩
    · rintro ⟨digits, hsome, hdigits, hfound | hfound, hn⟩
      · subst hfound
        exact ⟨hsome, hdigits, hn⟩
      · exact (hsign digits hfound).elim

theorem Denotes.unique {text : String} {n k : Nat} (hn : Denotes text n) (hk : Denotes text k) :
    n = k :=
  Option.some.inj ((unsigned?_eq_some_iff.2 hn).symm.trans (unsigned?_eq_some_iff.2 hk))

end Text.Decimal

theorem Event.eq_valueIgnored {event : Event} {name text : String}
    (hlevel : event.level = .warning)
    (hfields : event.fields = [("name", name), ("value", text)]) :
    event = .valueIgnored name text := by
  cases event with
  | valueIgnored => simpa [Event.fields] using hfields
  | nativeReplaced => simp [Event.fields] at hfields
  | noEntry => simp [Event.fields] at hfields
  | _ => cases hlevel

namespace Settings

open Text.Decimal

/-- A positive number up to a bound is taken.  The default stays silently where the variable is
absent, and with one warning where it holds anything else. -/
inductive Decides (name : String) (bound default : Nat) : Option String → Nat → List Event → Prop
  | absent : Decides name bound default none default []
  | taken {text : String} {n : Nat} (denotes : Denotes text n) (positive : 1 ≤ n)
      (inRange : n ≤ bound) : Decides name bound default (some text) n []
  | ignored {text : String} {warning : Event}
      (strays : ∀ n, Denotes text n → ¬(1 ≤ n ∧ n ≤ bound)) (level : warning.level = .warning)
      (message : warning.message = "ignoring invalid value")
      (fields : warning.fields = [("name", name), ("value", text)]) :
      Decides name bound default (some text) default [warning]

theorem Decides.in_range {name : String} {bound default n : Nat} {value? : Option String}
    {events : List Event} (h : Decides name bound default value? n events)
    (hdefault : 1 ≤ default ∧ default ≤ bound) : 1 ≤ n ∧ n ≤ bound := by
  cases h with
  | absent => exact hdefault
  | taken _ hpositive hbound => exact ⟨hpositive, hbound⟩
  | ignored => exact hdefault

theorem Decides.unique {name : String} {bound default n k : Nat} {value? : Option String}
    {events more : List Event} (h : Decides name bound default value? n events)
    (h' : Decides name bound default value? k more) : n = k ∧ events = more := by
  cases h with
  | absent =>
      cases h'
      exact ⟨rfl, rfl⟩
  | taken hdenotes hpositive hbound =>
      cases h' with
      | taken hdenotes' _ _ => exact ⟨hdenotes.unique hdenotes', rfl⟩
      | ignored hstrays => exact (hstrays n hdenotes ⟨hpositive, hbound⟩).elim
  | ignored hstrays hlevel _ hfields =>
      cases h' with
      | taken hdenotes hpositive hbound => exact (hstrays k hdenotes ⟨hpositive, hbound⟩).elim
      | ignored _ hlevel' _ hfields' =>
          rw [Event.eq_valueIgnored hlevel hfields, Event.eq_valueIgnored hlevel' hfields']
          exact ⟨rfl, rfl⟩

theorem Decides.iff_eq {name : String} {bound default n : Nat} {value? : Option String}
    {events : List Event} (h : Decides name bound default value? n events) (k : Nat)
    (more : List Event) :
    Decides name bound default value? k more ↔ k = n ∧ more = events := by
  constructor
  · intro h'
    exact h'.unique h
  · rintro ⟨rfl, rfl⟩
    exact h

def eventsNaming (name : String) (events : Array Event) : List Event :=
  events.toList.filter fun event => ("name", name) ∈ event.fields

theorem positive?_eq_some_iff {bound n : Nat} {text : String} :
    positive? bound text = some n ↔ Denotes text n ∧ 1 ≤ n ∧ n ≤ bound := by
  rw [positive?, Option.filter_eq_some_iff, unsigned?_eq_some_iff, Bool.and_eq_true,
    decide_eq_true_eq, decide_eq_true_eq]
  rfl

section Variable

variable (environment : String → Option String) (name : String) (bound : Nat)

theorem readVariable_decides (default : Nat) :
    Decides name bound default (environment name)
      ((readVariable environment name bound).1.getD default)
      (readVariable environment name bound).2.toList := by
  rw [readVariable]
  cases environment name with
  | none => exact .absent
  | some text =>
      cases hnumber : positive? bound text with
      | some n =>
          obtain ⟨hdenotes, hpositive, hbound⟩ := positive?_eq_some_iff.1 hnumber
          simp only [hnumber]
          exact .taken hdenotes hpositive hbound
      | none =>
          simp only [hnumber]
          refine .ignored (fun n hdenotes hrange => ?_) rfl rfl rfl
          rw [positive?_eq_some_iff.2 ⟨hdenotes, hrange⟩] at hnumber
          cases hnumber

theorem readVariable_events :
    (readVariable environment name bound).2 = #[] ∨
      ∃ text, (readVariable environment name bound).2 = #[.valueIgnored name text] := by
  rw [readVariable]
  split
  · exact .inl rfl
  · split
    · exact .inl rfl
    · exact .inr ⟨_, rfl⟩

theorem eventsNaming_readVariable (other : String) :
    eventsNaming other (readVariable environment name bound).2 =
      if other = name then (readVariable environment name bound).2.toList else [] := by
  rcases readVariable_events environment name bound with h | ⟨text, h⟩
  · rw [h, ite_self]
    rfl
  · rw [h]
    simp [eventsNaming, Event.fields, List.filter_cons]

end Variable

theorem readVariable_congr {first second : String → Option String} {name : String} (bound : Nat)
    (h : first name = second name) :
    readVariable first name bound = readVariable second name bound := by
  rw [readVariable, readVariable, h]

theorem eventsNaming_append (name : String) (first second : Array Event) :
    eventsNaming name (first ++ second) = eventsNaming name first ++ eventsNaming name second := by
  rw [eventsNaming, Array.toList_append, List.filter_append]
  rfl

section Environment

variable (environment : String → Option String)

theorem ofEnvironment_eq :
    ofEnvironment environment =
      (⟨(readVariable environment budgetName maxBudget).1.getD 50,
          ((readVariable environment delayUnitName maxWord).1.map Nat.toUInt16).getD 5⟩,
        (readVariable environment budgetName maxBudget).2 ++
          (readVariable environment delayUnitName maxWord).2) :=
  rfl

theorem budget_decides :
    Decides budgetName maxBudget 50 (environment budgetName)
      (ofEnvironment environment).1.instructionBudget
      (readVariable environment budgetName maxBudget).2.toList :=
  readVariable_decides environment budgetName maxBudget 50

theorem unit_decides :
    Decides delayUnitName maxWord 5 (environment delayUnitName)
      (ofEnvironment environment).1.ticksPerDelayUnit.toNat
      (readVariable environment delayUnitName maxWord).2.toList := by
  have hdecides := readVariable_decides environment delayUnitName maxWord 5
  have hvalue : (ofEnvironment environment).1.ticksPerDelayUnit.toNat =
      (readVariable environment delayUnitName maxWord).1.getD 5 := by
    rw [ofEnvironment_eq]
    cases hunit : (readVariable environment delayUnitName maxWord).1 with
    | none => rfl
    | some n =>
        rw [hunit] at hdecides
        obtain ⟨-, hbound⟩ := hdecides.in_range (by decide)
        exact UInt16.toNat_ofNat_of_lt' (Nat.lt_succ_of_le hbound)
  rwa [hvalue]

theorem eventsNaming_budget :
    eventsNaming budgetName (ofEnvironment environment).2 =
      (readVariable environment budgetName maxBudget).2.toList := by
  rw [ofEnvironment_eq, eventsNaming_append, eventsNaming_readVariable, eventsNaming_readVariable,
    if_pos rfl, if_neg (by decide), List.append_nil]

theorem eventsNaming_unit :
    eventsNaming delayUnitName (ofEnvironment environment).2 =
      (readVariable environment delayUnitName maxWord).2.toList := by
  rw [ofEnvironment_eq, eventsNaming_append, eventsNaming_readVariable, eventsNaming_readVariable,
    if_neg (by decide), if_pos rfl, List.nil_append]

theorem events_eq :
    (ofEnvironment environment).2.toList =
      eventsNaming budgetName (ofEnvironment environment).2 ++
        eventsNaming delayUnitName (ofEnvironment environment).2 := by
  rw [eventsNaming_budget, eventsNaming_unit, ofEnvironment_eq, Array.toList_append]

theorem ofEnvironment_positive :
    (ofEnvironment environment).1.instructionBudget ≠ 0 ∧
      (ofEnvironment environment).1.ticksPerDelayUnit ≠ 0 := by
  obtain ⟨hbudget, -⟩ := (budget_decides environment).in_range (by decide)
  obtain ⟨hunit, -⟩ := (unit_decides environment).in_range (by decide)
  refine ⟨Nat.ne_zero_of_lt hbudget, fun hzero => ?_⟩
  rw [hzero] at hunit
  exact absurd hunit (by decide)

end Environment

theorem ofEnvironment_of_eq {environment first second : String → Option String}
    (hbudget : environment budgetName = first budgetName)
    (hunit : environment delayUnitName = second delayUnitName) :
    ofEnvironment environment =
      (⟨(ofEnvironment first).1.instructionBudget, (ofEnvironment second).1.ticksPerDelayUnit⟩,
        (eventsNaming budgetName (ofEnvironment first).2 ++
          eventsNaming delayUnitName (ofEnvironment second).2).toArray) := by
  rw [ofEnvironment_eq, readVariable_congr _ hbudget, readVariable_congr _ hunit,
    eventsNaming_budget, eventsNaming_unit, ← Array.toList_append, Array.toArray_toList]
  rfl

/-- Each variable decides one setting and the events that name it, whatever the other holds, and
there are no other events. -/
theorem ofEnvironment_exact (first second : String → Option String) :
    let budget := "EMC_INSTRUCTION_BUDGET"
    let unit := "EMC_TICKS_PER_DELAY_UNIT"
    let found := ofEnvironment first
    let other := ofEnvironment second
    (∀ value events, Decides budget 18446744073709551615 50 (first budget) value events ↔
        value = found.1.instructionBudget ∧ events = eventsNaming budget found.2) ∧
      (∀ value events, Decides unit 65535 5 (first unit) value events ↔
        value = found.1.ticksPerDelayUnit.toNat ∧ events = eventsNaming unit found.2) ∧
      found.2.toList = eventsNaming budget found.2 ++ eventsNaming unit found.2 ∧
      ofEnvironment (fun name => if name = budget then first name else second name) =
        (⟨found.1.instructionBudget, other.1.ticksPerDelayUnit⟩,
          (eventsNaming budget found.2 ++ eventsNaming unit other.2).toArray) := by
  intro budget unit found other
  have hbudget : eventsNaming budget found.2 = _ := eventsNaming_budget first
  have hunit : eventsNaming unit found.2 = _ := eventsNaming_unit first
  refine ⟨?_, ?_, events_eq first, ?_⟩
  · rw [hbudget]
    exact (budget_decides first).iff_eq
  · rw [hunit]
    exact (unit_decides first).iff_eq
  · exact ofEnvironment_of_eq (if_pos rfl) (if_neg (by decide))

/-- A sign and zeros before the digits do not matter, and a number that is out of range does. -/
example :
    ofEnvironment (fun name => if name = budgetName then some "+007" else some "65536") =
      (⟨7, 5⟩, #[.valueIgnored delayUnitName "65536"]) := by
  decide +kernel

end Settings

end EntityScript

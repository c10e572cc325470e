import EntityScript.Program.Assembly
import EntityScript.Proofs.InstructionFormat
import EntityScript.Proofs.ProgramImage

namespace EntityScript

namespace Program

/-- Fetching from an offset on, each time at the offset that was given back, comes by these offsets
and their instructions, and ends with a fault. -/
inductive Fetches (p : Program) : Word → List (Word × Instruction) → Fault → Prop
  | stop {offset : Word} {fault : Fault} :
      p.fetch offset = .error fault → Fetches p offset [] fault
  | next {offset following : Word} {i : Instruction} {later : List (Word × Instruction)}
      {fault : Fault} :
      p.fetch offset = .ok (i, following) → Fetches p following later fault →
        Fetches p offset ((offset, i) :: later) fault

variable {p : Program} {before : List Word}

theorem fetch_instruction {i : Instruction} {rest : List Word}
    (hwords : p.words.toList = before ++ (i.encode ++ rest)) (hbefore : before.length < 65536)
    (hi : i.Representable) :
    p.fetch (.ofNat before.length) = .ok (i, .ofNat (before.length + i.size)) := by
  have hoffset : (UInt16.ofNat before.length).toNat = before.length :=
    UInt16.toNat_ofNat_of_lt' hbefore
  have hat : Instruction.at? p.words before.length = some i := by
    rw [Instruction.at?_eq_ofWords?, hwords, List.drop_left]
    exact (Instruction.ofWords?_encode_eq_self_iff rest i).2 hi
  rw [fetch, hoffset, hat, UInt16.ofNat_add]

theorem fetch_end {offset : Word} (h : p.words.size ≤ offset.toNat) :
    p.fetch offset = .error (.invalidAddress offset) := by
  have hat : Instruction.at? p.words offset.toNat = none := by
    rw [Instruction.at?_eq_ofWords?, List.drop_eq_nil_of_le h]
    rfl
  rw [fetch, hat]

/-- At an offset there is the first of some instructions, or the end if there are none. -/
def Finds (p : Program) (offset : Word) : List Instruction → Prop
  | [] => p.fetch offset = .error (.invalidAddress offset) ∧ offset = .ofNat p.words.size
  | i :: _ => ∃ following, p.fetch offset = .ok (i, following)

theorem finds_append {earlier later : List Instruction}
    (hwords : p.words.toList = (earlier ++ later).flatMap Instruction.encode)
    (hsize : p.words.size ≤ 65535) (hlater : ∀ i ∈ later, i.Representable) :
    p.Finds (.ofNat (earlier.flatMap Instruction.encode).length) later := by
  have hlength := congrArg List.length hwords
  rw [List.flatMap_append, List.length_append, Array.length_toList] at hlength
  cases later with
  | nil =>
      rw [List.flatMap_nil, List.length_nil, Nat.add_zero] at hlength
      rw [← hlength]
      refine ⟨fetch_end ?_, rfl⟩
      rw [UInt16.toNat_ofNat_of_lt' (Nat.lt_succ_of_le hsize)]
  | cons i rest =>
      rw [List.flatMap_append, List.flatMap_cons] at hwords
      exact ⟨_, fetch_instruction hwords (by omega) (hlater i List.mem_cons_self)⟩

/-- Instructions and their offsets, if the first of them is at an offset. -/
def placed (offset : Nat) : List Instruction → List (Word × Instruction)
  | [] => []
  | i :: rest => (.ofNat offset, i) :: placed (offset + i.size) rest

theorem map_snd_placed (offset : Nat) (code : List Instruction) :
    (placed offset code).map Prod.snd = code := by
  induction code generalizing offset with
  | nil => rfl
  | cons i rest ih => exact congrArg (i :: ·) (ih _)

def stops (offset : Nat) (code : List Instruction) : List Word :=
  (placed offset code).map Prod.fst ++ [.ofNat (offset + (code.flatMap Instruction.encode).length)]

theorem getElem?_stops (offset : Nat) (earlier later : List Instruction) :
    (stops offset (earlier ++ later))[earlier.length]? =
      some (.ofNat (offset + (earlier.flatMap Instruction.encode).length)) := by
  induction earlier generalizing offset with
  | nil => cases later <;> rfl
  | cons i rest ih =>
      simpa [stops, placed, Instruction.length_encode, Nat.add_assoc] using ih (offset + i.size)

theorem fetches_placed {code : List Instruction}
    (hwords : p.words.toList = before ++ code.flatMap Instruction.encode)
    (hsize : p.words.size ≤ 65535) (hcode : ∀ i ∈ code, i.Representable) :
    p.Fetches (.ofNat before.length) (placed before.length code)
      (.invalidAddress (.ofNat p.words.size)) := by
  induction code generalizing before with
  | nil =>
      have hlength : before.length = p.words.size := by
        rw [← Array.length_toList, hwords]
        simp
      rw [hlength]
      refine .stop (fetch_end ?_)
      rw [UInt16.toNat_ofNat_of_lt' (Nat.lt_succ_of_le hsize)]
  | cons i rest ih =>
      obtain ⟨hi, hrest⟩ := List.forall_mem_cons.1 hcode
      have hlength := congrArg List.length hwords
      rw [Array.length_toList, List.length_append] at hlength
      rw [List.flatMap_cons] at hwords
      refine .next (fetch_instruction hwords (by omega) hi) ?_
      rw [← List.append_assoc] at hwords
      have hnext := ih hwords hrest
      rwa [List.length_append, Instruction.length_encode] at hnext

end Program

namespace Assembly

inductive Item where
  | op (opcode : Opcode) (parameter : Word)
  | jump (target : Word)
  | instruction (i : Instruction)
  | entry
  deriving DecidableEq

namespace Item

def add (a : Assembly) : Item → Assembly
  | op opcode parameter => a.op opcode parameter
  | jump target => a.jump target
  | instruction i => a.instruction i
  | entry => a.entry

def instruction? : Item → Option Instruction
  | op opcode parameter => some (.shortest opcode parameter)
  | jump target => some (.jumpTo target)
  | instruction i => some i
  | entry => none

end Item

/-- The assembly that items come to, added one after the other. -/
def ofItems (items : List Item) : Assembly :=
  items.foldl Item.add {}

def code (items : List Item) : List Instruction :=
  items.filterMap Item.instruction?

theorem toList_words_foldl (items : List Item) (a : Assembly) :
    (items.foldl Item.add a).words.toList =
      a.words.toList ++ (code items).flatMap Instruction.encode := by
  induction items generalizing a with
  | nil => simp [code]
  | cons item rest ih =>
      rw [List.foldl_cons, ih]
      cases item <;>
        simp [Item.add, op, jump, instruction, raw, entry, entryAt, code, Item.instruction?,
          List.filterMap_cons]

theorem toList_words_ofItems (items : List Item) :
    (ofItems items).words.toList = (code items).flatMap Instruction.encode :=
  toList_words_foldl items {}

theorem pool_foldl (items : List Item) (a : Assembly) : (items.foldl Item.add a).pool = a.pool := by
  induction items generalizing a with
  | nil => rfl
  | cons item rest ih =>
      rw [List.foldl_cons, ih]
      cases item <;> rfl

theorem toList_entries_foldl (items : List Item) (a : Assembly) :
    ∃ later, (items.foldl Item.add a).entries.toList = a.entries.toList ++ later ∧
      later.length = items.count .entry := by
  induction items generalizing a with
  | nil => exact ⟨[], by simp⟩
  | cons item rest ih =>
      obtain ⟨later, hlater, hlength⟩ := ih (item.add a)
      rw [List.foldl_cons, hlater]
      by_cases hitem : item = .entry
      · subst hitem
        exact ⟨a.offset :: later, by simp [Item.add, entry, entryAt], by simp [hlength]⟩
      · refine ⟨later, ?_, by rw [hlength, List.count_cons_of_ne hitem]⟩
        cases item with
        | entry => exact (hitem rfl).elim
        | _ => rfl

theorem toList_entries_ofItems (before after : List Item) :
    ∃ earlier later, earlier.length = before.count .entry ∧
      (ofItems (before ++ .entry :: after)).entries.toList =
        earlier ++ (ofItems before).offset :: later := by
  obtain ⟨earlier, hearlier, hlength⟩ := toList_entries_foldl before {}
  obtain ⟨later, hlater, -⟩ := toList_entries_foldl after (ofItems before).entry
  refine ⟨earlier, later, hlength, ?_⟩
  have hpushed : (ofItems before).entry.entries.toList = earlier ++ [(ofItems before).offset] := by
    rw [entry, entryAt, Array.toList_push]
    exact congrArg (· ++ [(ofItems before).offset]) hearlier
  rw [ofItems, List.foldl_append, List.foldl_cons]
  change (after.foldl Item.add (ofItems before).entry).entries.toList = _
  rw [hlater, hpushed, List.append_assoc, List.singleton_append]

theorem offset_ofItems (items : List Item) :
    (ofItems items).offset = .ofNat ((code items).flatMap Instruction.encode).length := by
  rw [← toList_words_ofItems, Array.length_toList]
  rfl

theorem getElem?_entries_ofItems (before after : List Item) :
    (ofItems (before ++ .entry :: after)).entries[before.count .entry]? =
      some (.ofNat ((code before).flatMap Instruction.encode).length) := by
  obtain ⟨earlier, later, hlength, hentries⟩ := toList_entries_ofItems before after
  rw [← Array.getElem?_toList, hentries, ← hlength, List.getElem?_append_right (Nat.le_refl _),
    Nat.sub_self, List.getElem?_cons_zero, offset_ofItems]

theorem representable_code {items : List Item}
    (hitems : ∀ i, Item.instruction i ∈ items → i.Representable) :
    ∀ i ∈ code items, i.Representable := by
  intro i hi
  obtain ⟨item, hitem, happends⟩ := List.mem_filterMap.1 hi
  cases item with
  | op opcode parameter =>
      cases happends
      exact Instruction.representable_shortest opcode parameter
  | jump target =>
      cases happends
      exact Instruction.representable_jumpTo target
  | instruction appended =>
      cases happends
      exact hitems _ hitem
  | entry => cases happends

theorem ofBytes_bytes_ofItems {items : List Item} (hwords : (ofItems items).words.size ≤ 65535)
    (hentries : (ofItems items).entries.size ≤ 65536) :
    Program.ofBytes (ofItems items).bytes = .ok (ofItems items).build := by
  have hpool : (ofItems items).pool = #[] := pool_foldl items {}
  have hsize : 28 + ((ofItems items).pool.size + (ofItems items).pool.size % 2) +
      2 * (ofItems items).entries.size + 2 * (ofItems items).words.size < 4294967296 := by
    rw [hpool, Array.size_empty]
    omega
  have himage := Program.ofBytes_toBytes (p := (ofItems items).build) hsize []
  rwa [List.append_nil] at himage

/-- What is assembled is fetched again, instruction by instruction, up to the end.  The entry of a
subtype is where the fetching comes by the instruction that was appended next. -/
theorem fetches_ofItems {items : List Item}
    (hitems : ∀ i, Item.instruction i ∈ items → i.Representable)
    (hwords : (ofItems items).words.size ≤ 65535)
    (hentries : (ofItems items).entries.size ≤ 65536) :
    let p := (ofItems items).build
    Program.ofBytes (ofItems items).bytes = .ok p ∧
      ∃ visited, p.Fetches 0 visited (.invalidAddress (.ofNat p.words.size)) ∧
        visited.map Prod.snd = code items ∧
        ∀ before after, items = before ++ .entry :: after →
          ∃ subtype offset : Word, subtype.toNat = before.count .entry ∧
            p.entry? subtype = some offset ∧
            (visited.map Prod.fst ++ [.ofNat p.words.size])[(code before).length]? = some offset ∧
            p.Finds offset (code after) := by
  intro p
  have hp : p.words.toList = (code items).flatMap Instruction.encode := toList_words_ofItems items
  have hcode := representable_code hitems
  have hstart : p.words.toList = [] ++ (code items).flatMap Instruction.encode := hp
  refine ⟨ofBytes_bytes_ofItems hwords hentries, Program.placed 0 (code items),
    Program.fetches_placed hstart hwords hcode, Program.map_snd_placed 0 _, ?_⟩
  rintro before after rfl
  have hsplit : code (before ++ .entry :: after) = code before ++ code after :=
    List.filterMap_append
  have hentry := getElem?_entries_ofItems before after
  rw [hsplit] at hp hcode ⊢
  have hlast : p.words.size = ((code before ++ code after).flatMap Instruction.encode).length := by
    rw [← Array.length_toList, hp]
  have hsubtype : (UInt16.ofNat (before.count .entry)).toNat = before.count .entry := by
    obtain ⟨hlt, -⟩ := Array.getElem?_eq_some_iff.1 hentry
    exact UInt16.toNat_ofNat_of_lt' (Nat.lt_of_lt_of_le hlt hentries)
  refine ⟨.ofNat (before.count .entry), _, hsubtype, ?_, ?_,
    Program.finds_append hp hwords fun i hi => hcode i (List.mem_append_right _ hi)⟩
  · rw [Program.entry?, hsubtype]
    exact hentry
  · have hstop := Program.getElem?_stops 0 (code before) (code after)
    rwa [Program.stops, Nat.zero_add, Nat.zero_add, ← hlast] at hstop

/-- The second entry is that of an instruction of two words, and the third is the end. -/
theorem fetches_ofItems_two_words :
    let last : Instruction := ⟨31, 7, .byte⟩
    let items : List Item :=
      [.entry, .jump 3, .entry, .op .push 0x1234, .instruction last, .entry]
    let p := (ofItems items).build
    Program.ofBytes (ofItems items).bytes = .ok p ∧
      (∃ visited, p.Fetches 0 visited (.invalidAddress 4) ∧
        visited.map Prod.snd = [.jumpTo 3, .shortest .push 0x1234, last]) ∧
      p.entry? 1 = some 1 ∧ p.Finds 1 [.shortest .push 0x1234, last] ∧
        p.entry? 2 = some 4 ∧ p.Finds 4 [] := by
  intro last items p
  have hitems (i : Instruction) (hi : Item.instruction i ∈ items) : i.Representable := by
    obtain rfl : i = last := by simpa [items] using hi
    decide
  obtain ⟨himage, visited, hfetches, hcode, hentries⟩ :=
    fetches_ofItems hitems (by decide) (by decide)
  have hsecond : p.entry? 1 = some 1 := by decide
  have hthird : p.entry? 2 = some 4 := by decide
  refine ⟨himage, ⟨visited, hfetches, hcode⟩, hsecond, ?_, hthird, ?_⟩
  · obtain ⟨subtype, offset, hsubtype, hentry, -, hfinds⟩ := hentries [.entry, .jump 3] _ rfl
    obtain rfl : subtype = 1 := UInt16.toNat_inj.1 hsubtype
    obtain rfl : 1 = offset := Option.some.inj (hsecond.symm.trans hentry)
    exact hfinds
  · obtain ⟨subtype, offset, hsubtype, hentry, -, hfinds⟩ :=
      hentries [.entry, .jump 3, .entry, .op .push 0x1234, .instruction last] [] rfl
    obtain rfl : subtype = 2 := UInt16.toNat_inj.1 hsubtype
    obtain rfl : 4 = offset := Option.some.inj (hthird.symm.trans hentry)
    exact hfinds

end Assembly

end EntityScript

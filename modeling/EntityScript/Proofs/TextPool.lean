import EntityScript.CommandLine.Execute
import EntityScript.Program.Assembly
import EntityScript.Proofs.ListingCoverage
import EntityScript.Proofs.ProgramImage
import EntityScript.Proofs.Utf8

namespace EntityScript

open Text

section Reading

variable {p : Program} {index start : Word} {front bytes rest : Bytes}

theorem Program.readText_eq (pool : Array UInt8) (position : Nat) (read : Array UInt8) :
    (Program.readText pool position read).toList =
      read.toList ++ (pool.toList.drop position).takeWhile (· ≠ 0) := by
  fun_induction Program.readText pool position read with
  | case1 position read hlt hzero =>
    rw [List.drop_eq_getElem_cons hlt, List.takeWhile_cons_of_neg (by simp [hzero]),
      List.append_nil]
  | case2 position read hlt hzero ih =>
    rw [ih, List.drop_eq_getElem_cons hlt, List.takeWhile_cons_of_pos (by simp [hzero])]
    simp
  | case3 position read hle =>
    rw [List.drop_eq_nil_of_le (Nat.le_of_not_lt hle), List.takeWhile_nil, List.append_nil]

theorem Program.textWord?_of_pool {w : Word}
    (hpool : p.pool.toList = front ++ (Bytes.bigEndian 2 w.toNat ++ rest))
    (hfront : front.length = 2 * index.toNat) : p.textWord? index = some w := by
  obtain ⟨high, low, hbytes, hw⟩ := Bytes.exists_pair w
  rw [hbytes] at hpool
  have hhigh : p.pool[2 * index.toNat]? = some high := by
    rw [← Array.getElem?_toList, hpool, ← hfront, List.getElem?_append_right (Nat.le_refl _)]
    simp
  have hlow : p.pool[2 * index.toNat + 1]? = some low := by
    rw [← Array.getElem?_toList, hpool, ← hfront, List.getElem?_append_right (Nat.le_succ _)]
    simp
  rw [Program.textWord?, hhigh, hlow, ← hw]

theorem takeWhile_terminated (bytes rest : Bytes) :
    (bytes ++ 0 :: rest).takeWhile (· ≠ 0) = bytes.takeWhile (· ≠ 0) := by
  induction bytes with
  | nil => rfl
  | cons b more ih => rw [List.cons_append, List.takeWhile_cons, ih, List.takeWhile_cons]

theorem Program.text?_of_pool (hstart : p.textWord? index = some start)
    (hpool : p.pool.toList = front ++ (bytes ++ 0 :: rest))
    (hfront : front.length = start.toNat) :
    p.text? index = some (bytes.takeWhile (· ≠ 0)) := by
  have hle : start.toNat ≤ p.pool.size := by
    rw [← Array.length_toList, hpool, List.length_append, hfront]
    exact Nat.le_add_right _ _
  rw [Program.text?, hstart]
  dsimp only
  rw [if_pos hle, Program.readText_eq, hpool, ← hfront, List.drop_left, takeWhile_terminated]
  rfl

end Reading

namespace Text

theorem newline_not_mem_escape (c : Char) : '\n' ∉ (escape c).toList := by
  rw [escape]
  split_ifs with _ _ _ hnewline
  · decide
  · decide
  · decide
  · decide
  · decide
  · decide
  · rw [Char.toString, String.toList_singleton, List.mem_singleton]
    exact Ne.symm hnewline
  · have hcode : '\n' ∉ Nat.toDigits 16 c.toNat := fun hmem =>
      absurd (solid_of_mem_toDigits (by decide) (by decide) hmem) (by decide)
    simp only [String.toList_append, List.mem_append, not_or, hex, String.toList_ofList]
    exact ⟨⟨by decide, hcode⟩, by decide⟩

theorem newline_not_mem_quote (text : String) : '\n' ∉ (quote text).toList := by
  rw [quote, String.toList_append, String.toList_append, String.toList_join, List.mem_append,
    List.mem_append, not_or, not_or]
  refine ⟨⟨by decide, ?_⟩, by decide⟩
  intro hmem
  obtain ⟨escaped, hescaped, hnewline⟩ := List.mem_flatMap.1 hmem
  obtain ⟨c, -, rfl⟩ := List.mem_map.1 hescaped
  exact newline_not_mem_escape c hnewline

end Text

namespace Assembly

section Layout

def terminated (text : String) : Bytes :=
  Utf8.encode text ++ [0]

/-- Strings one after another, each with its terminator. -/
def bodies (strings : List String) : Bytes :=
  strings.flatMap terminated

/-- Where strings start, the first of them at a position. -/
def startsFrom (position : Nat) : List String → List Nat
  | [] => []
  | text :: rest => position :: startsFrom (position + (terminated text).length) rest

/-- Where a string starts in the pool: behind the table and the strings before it. -/
def textStart (strings : List String) (index : Nat) : Nat :=
  2 * strings.length + (bodies (strings.take index)).length

theorem length_bodies_cons (text : String) (rest : List String) :
    (bodies (text :: rest)).length = (terminated text).length + (bodies rest).length := by
  rw [bodies, List.flatMap_cons, List.length_append, bodies]

theorem startsFrom_append (position : Nat) (first second : List String) :
    startsFrom position (first ++ second) =
      startsFrom position first ++ startsFrom (position + (bodies first).length) second := by
  induction first generalizing position with
  | nil => rfl
  | cons text rest ih =>
    rw [List.cons_append, startsFrom, ih, startsFrom, length_bodies_cons, Nat.add_assoc,
      List.cons_append]

theorem length_startsFrom (position : Nat) (strings : List String) :
    (startsFrom position strings).length = strings.length := by
  induction strings generalizing position with
  | nil => rfl
  | cons text rest ih => rw [startsFrom, List.length_cons, ih, List.length_cons]

def table (starts : List Nat) : Bytes :=
  starts.flatMap (Bytes.bigEndian 2)

theorem length_table (starts : List Nat) : (table starts).length = 2 * starts.length := by
  rw [table, List.length_flatMap]
  simp [Nat.mul_comm]

theorem toList_layText (base : Nat) (offsets pool : Array UInt8) (strings : List String) :
    (layText base offsets pool strings).toList =
      offsets.toList ++ table (startsFrom (base + pool.size) strings) ++
        (pool.toList ++ bodies strings) := by
  induction strings generalizing offsets pool with
  | nil => simp [layText, table, startsFrom, bodies]
  | cons text rest ih =>
    have hposition : base + ((pool ++ Utf8.encode text).push 0).size =
        base + pool.size + (terminated text).length := by
      rw [← Array.length_toList, ← pool.length_toList]
      simp [terminated, Nat.add_assoc]
    rw [layText, ih, hposition]
    simp [startsFrom, table, bodies, terminated]

variable (a : Assembly) {strings before after : List String} {text : String}

theorem toList_pool (strings : List String) :
    (a.text strings).build.pool.toList =
      table (startsFrom (2 * strings.length) strings) ++ bodies strings :=
  toList_layText (2 * strings.length) #[] #[] strings

theorem textStart_split :
    textStart (before ++ text :: after) before.length =
      2 * (before ++ text :: after).length + (bodies before).length := by
  rw [textStart, List.take_left]

theorem length_table_startsFrom (position : Nat) (strings : List String) :
    (table (startsFrom position strings)).length = 2 * strings.length := by
  rw [length_table, length_startsFrom]

theorem textWord?_build
    (hstart : textStart (before ++ text :: after) before.length < 65536) :
    (a.text (before ++ text :: after)).build.textWord? (.ofNat before.length) =
      some (.ofNat (textStart (before ++ text :: after) before.length)) := by
  have hindex : (UInt16.ofNat before.length).toNat = before.length := by
    apply UInt16.toNat_ofNat_of_lt'
    rw [textStart_split, List.length_append, List.length_cons] at hstart
    change before.length < 65536
    omega
  have hpool : (a.text (before ++ text :: after)).build.pool.toList =
      table (startsFrom (2 * (before ++ text :: after).length) before) ++
        (Bytes.bigEndian 2 (textStart (before ++ text :: after) before.length) ++
          (table (startsFrom (2 * (before ++ text :: after).length + (bodies before).length +
            (terminated text).length) after) ++ bodies (before ++ text :: after))) := by
    rw [toList_pool, startsFrom_append, table, List.flatMap_append, startsFrom, List.flatMap_cons,
      textStart_split, List.append_assoc, List.append_assoc]
    rfl
  apply Program.textWord?_of_pool
  · rw [UInt16.toNat_ofNat_of_lt' hstart]
    exact hpool
  · rw [length_table_startsFrom, hindex]

theorem text?_build (hstart : textStart (before ++ text :: after) before.length < 65536) :
    (a.text (before ++ text :: after)).build.text? (.ofNat before.length) =
      some ((Utf8.encode text).takeWhile (· ≠ 0)) := by
  have hpool : (a.text (before ++ text :: after)).build.pool.toList =
      (table (startsFrom (2 * (before ++ text :: after).length) (before ++ text :: after)) ++
        bodies before) ++ (Utf8.encode text ++ 0 :: bodies after) := by
    rw [toList_pool]
    simp [bodies, terminated]
  refine Program.text?_of_pool (a.textWord?_build hstart) hpool ?_
  rw [UInt16.toNat_ofNat_of_lt' hstart, textStart_split, List.length_append,
    length_table_startsFrom]

theorem textWord?_first (hstarts : ∀ i < strings.length, textStart strings i < 65536) :
    (((a.text strings).build.textWord? 0).getD 0).toNat / 2 = strings.length := by
  cases strings with
  -- Without strings there is no first word, and the default for it gives none.
  | nil => simp [Assembly.text, build, layText, Program.textWord?]
  | cons first rest =>
    have hstart : textStart ([] ++ first :: rest) 0 < 65536 := hstarts 0 (Nat.succ_pos _)
    have hword : (a.text (first :: rest)).build.textWord? 0 = some _ := a.textWord?_build hstart
    rw [hword, Option.getD_some, List.length_nil, UInt16.toNat_ofNat_of_lt' hstart]
    simp [textStart, bodies]

theorem text?_getElem (hstarts : ∀ i < strings.length, textStart strings i < 65536) (i : Nat)
    (h : i < strings.length) :
    (a.text strings).build.text? (.ofNat i) =
      some ((Utf8.encode strings[i]).takeWhile (· ≠ 0)) := by
  have hsplit : strings = strings.take i ++ strings[i] :: strings.drop (i + 1) := by
    rw [← List.drop_eq_getElem_cons h, List.take_append_drop]
  have hlength : (strings.take i).length = i := List.length_take_of_le (Nat.le_of_lt h)
  have hstart := hstarts i h
  generalize strings.take i = before at hsplit hlength
  generalize strings[i] = text at hsplit ⊢
  generalize strings.drop (i + 1) = after at hsplit
  subst hsplit hlength
  exact a.text?_build hstart

end Layout

section Shown

/-- The lines that show strings, numbered from zero. -/
def numbered (strings : List String) : List String :=
  strings.mapIdx fun index text => s!"text {index}: " ++ quote (Utf8.beforeNul text)

theorem newline_not_mem_numbered {strings : List String} {line : String}
    (h : line ∈ numbered strings) : '\n' ∉ line.toList := by
  obtain ⟨index, _, rfl⟩ := List.mem_mapIdx.1 h
  have hfront : IsPrintable s!"text {index}: " :=
    ((isPrintable_of_all "text " (by decide)).append (isWord_nat index).isPrintable).append
      (isPrintable_of_all ": " (by decide))
  rw [String.toList_append, List.mem_append, not_or]
  exact ⟨fun hmem => absurd (hfront _ hmem) (by decide), newline_not_mem_quote _⟩

variable (a : Assembly) {strings : List String}

theorem stringLines_eq (hstarts : ∀ i < strings.length, textStart strings i < 65536) :
    CommandLine.stringLines (a.text strings).build =
      String.join ((numbered strings).map (· ++ "\n")) := by
  simp only [CommandLine.stringLines, a.textWord?_first hstarts]
  congr 1
  apply List.ext_getElem
  · simp [numbered]
  · intro i hrange hline
    have hi : i < strings.length := by simpa using hrange
    have htext : (a.text strings).build.text? i.toUInt16 = _ := a.text?_getElem hstarts i hi
    simp only [List.getElem_map, List.getElem_range, htext, numbered, List.getElem_mapIdx,
      Utf8.takeWhile_encode, Utf8.decode_encode]

theorem toList_stringLines (hstarts : ∀ i < strings.length, textStart strings i < 65536) :
    (CommandLine.stringLines (a.text strings).build).toList = ended (numbered strings) := by
  rw [a.stringLines_eq hstarts, String.toList_join, List.flatMap_map, ended]
  congr 1
  funext line
  exact String.toList_append

/-- The strings of an assembly are read back from its program, which is read back from its bytes,
and the listing of the file begins with a line for each of them. -/
theorem strings_shown (strings : List String)
    (hstarts : ∀ i < strings.length, textStart strings i < 65536)
    (hsize : (a.text strings).bytes.length < 4294967296) :
    let p := (a.text strings).build
    Program.ofBytes (a.text strings).bytes = .ok p ∧
      (∀ (i : Nat) (h : i < strings.length),
        p.text? (.ofNat i) = some ((Utf8.encode strings[i]).takeWhile (· ≠ 0)) ∧
          ('\x00' ∉ strings[i].toList → p.text? (.ofNat i) = some (Utf8.encode strings[i]))) ∧
      ∀ world arguments path,
        CommandLine.Invocation.ofArguments arguments = .command (.disassemble path true) →
        world.contents path = .ok (a.text strings).bytes →
          ∃ output events, CommandLine.execute world arguments = .finished output none events ∧
            output.toList = ended (numbered strings) ++ p.listing.toList ∧
            (Text.lines output).toList = numbered strings ++ (Text.lines p.listing).toList := by
  intro p
  have hbytes : Program.ofBytes (a.text strings).bytes = .ok p := by
    have hbody : p.toForm.bodySize < 4294967296 := by
      have hlength : 8 + p.toForm.bodySize < 4294967296 := by rwa [← Form.length_write]
      omega
    rw [Program.bodySize_toForm] at hbody
    have hread := Program.ofBytes_toBytes hbody []
    rwa [List.append_nil] at hread
  refine ⟨hbytes, ?_, ?_⟩
  · intro i h
    have htext := a.text?_getElem hstarts i h
    refine ⟨htext, ?_⟩
    intro hnul
    rw [htext, Utf8.takeWhile_encode, Utf8.beforeNul_eq_self hnul]
  · intro world arguments path harguments hcontents
    obtain ⟨events, hload⟩ : ∃ events, Program.load (a.text strings).bytes = .ok (p, events) := by
      rw [Program.load, hbytes]
      exact ⟨_, rfl⟩
    have houtput : (CommandLine.stringLines p ++ p.listing).toList =
        ended (numbered strings) ++ p.listing.toList := by
      rw [String.toList_append, a.toList_stringLines hstarts]
    refine ⟨CommandLine.stringLines p ++ p.listing, events, ?_, houtput, ?_⟩
    · simp only [CommandLine.execute, harguments, CommandLine.disassemble, CommandLine.loadProgram,
        hcontents, hload, if_true]
    · rw [p.toList_listing, ← ended_append] at houtput
      rw [lines_of_ended houtput, p.lines_listing]
      intro line hline
      rcases List.mem_append.1 hline with hnumbered | hlisting
      · exact newline_not_mem_numbered hnumbered
      · exact (Program.isLine_of_mem (Array.mem_toList_iff.1 hlisting)).not_mem_newline

/-- An empty string, one that is cut at a NUL, and one of two bytes to a character. -/
theorem strings_shown_cut :
    let a : Assembly := ({ words := #[0x4E00] } : Assembly).text ["", "a\x00b", "é\n"]
    let world : CommandLine.World :=
      { environment := fun _ => none, contents := fun _ => .ok a.bytes }
    Program.ofBytes a.bytes = .ok a.build ∧ a.build.text? 0 = some [] ∧
      a.build.text? 1 = some [97] ∧ a.build.text? 2 = some [0xC3, 0xA9, 10] ∧
      ∃ output events,
        CommandLine.execute world ["disasm", "a.emc", "--text"] = .finished output none events ∧
          (Text.lines output).toList =
            ["text 0: \"\"", "text 1: \"a\"", "text 2: \"é\\n\"",
              "  0000: 4e00      call       #0"] := by
  intro a world
  obtain ⟨hbytes, htexts, hshown⟩ :=
    strings_shown { words := #[0x4E00] } ["", "a\x00b", "é\n"] (by decide) (by decide)
  obtain ⟨output, events, houtput, -, hlines⟩ :=
    hshown world ["disasm", "a.emc", "--text"] "a.emc" rfl rfl
  refine ⟨hbytes, (htexts 0 (by decide)).1, (htexts 1 (by decide)).1, (htexts 2 (by decide)).1,
    output, events, houtput, hlines.trans ?_⟩
  decide +kernel

end Shown

end Assembly

end EntityScript

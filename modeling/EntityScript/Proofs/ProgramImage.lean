import EntityScript.Bytes.Lemmas
import EntityScript.Program.Image
import EntityScript.Proofs.ChunkGrammar

namespace EntityScript

namespace Form

/-- The bytes that the size of a container counts: its kind, and the chunks filled up to even
lengths. -/
def bodySize (form : Form) : Nat :=
  4 + (form.chunks.map fun chunk => 8 + chunk.data.length + chunk.data.length % 2).sum

theorem length_writeChunk (chunk : Chunk) :
    (writeChunk chunk).length = 8 + chunk.data.length + chunk.data.length % 2 := by
  simp [writeChunk, padding]
  omega

theorem length_body (form : Form) :
    (form.kind.bytes ++ form.chunks.flatMap writeChunk).length = form.bodySize := by
  rw [List.length_append, Tag.length_bytes, List.length_flatMap, bodySize]
  simp only [length_writeChunk]

theorem length_write (form : Form) : form.write.length = 8 + form.bodySize := by
  rw [write, ← length_body form]
  simp
  omega

theorem ofBigEndian_size {n : Nat} (h : n < 4294967296) :
    Bytes.ofBigEndian (Bytes.bigEndian 4 n) = n := by
  rw [Bytes.ofBigEndian_bigEndian]
  exact Nat.mod_eq_of_lt h

theorem leads_writeChunk {chunk : Chunk} (h : chunk.data.length < 4294967296) (rest : Bytes) :
    Leads (writeChunk chunk ++ rest) chunk rest :=
  .intro (Bytes.length_bigEndian 4 _) (ofBigEndian_size h) (.inl List.length_replicate)

theorem spells_flatMap_writeChunk {chunks : List Chunk}
    (h : ∀ chunk ∈ chunks, chunk.data.length < 4294967296) :
    Spells (chunks.flatMap writeChunk) chunks := by
  induction chunks with
  | nil => exact .nil
  | cons chunk chunks ih =>
      obtain ⟨hchunk, hchunks⟩ := List.forall_mem_cons.1 h
      exact .cons (leads_writeChunk hchunk _) (ih hchunks)

theorem length_data_le_bodySize {form : Form} {chunk : Chunk} (h : chunk ∈ form.chunks) :
    chunk.data.length ≤ form.bodySize := by
  have hsum := List.single_le_sum (l := form.chunks.map fun chunk =>
    8 + chunk.data.length + chunk.data.length % 2) (fun _ _ => Nat.zero_le _) _
    (List.mem_map_of_mem h)
  rw [bodySize]
  omega

theorem encodes_write {form : Form} (h : form.bodySize < 4294967296) (trailing : Bytes) :
    Encodes (form.write ++ trailing) form := by
  have hbody := length_body form
  refine ⟨_, form.chunks.flatMap writeChunk, trailing, rfl, Bytes.length_bigEndian 4 _, ?_, ?_⟩
  · rw [hbody, ofBigEndian_size h, ← hbody, List.length_append, Tag.length_bytes]
  · apply spells_flatMap_writeChunk
    intro chunk hchunk
    exact Nat.lt_of_le_of_lt (length_data_le_bodySize hchunk) h

theorem read_write {form : Form} (h : form.bodySize < 4294967296) (trailing : Bytes) :
    read (form.write ++ trailing) = .ok form :=
  (encodes_write h trailing).read_eq

end Form

namespace Program

variable {form : Form}

/-- What may be wrong with a container, in the order of the checks. -/
def complaints (form : Form) : List (Bool × ImageError) :=
  let entries := (form.find? entriesTag).getD []
  let words := (form.find? wordsTag).getD []
  [ (form.kind ≠ kind, .wrongKind form.kind),
    (form.find? poolTag = none, .missingChunk poolTag),
    (form.find? entriesTag = none, .missingChunk entriesTag),
    (form.find? wordsTag = none, .missingChunk wordsTag),
    (entries.length % 2 ≠ 0, .oddLength entriesTag entries.length),
    (words.length % 2 ≠ 0, .oddLength wordsTag words.length) ]

def firstComplaint? (form : Form) : Option ImageError :=
  ((complaints form).find? (·.1)).map (·.2)

theorem ofForm_eq (form : Form) :
    ofForm form =
      match firstComplaint? form with
      | some e => .error e
      | none =>
          .ok {
            pool := ((form.find? poolTag).getD []).toArray
            entries := Bytes.appendWords #[] ((form.find? entriesTag).getD [])
            words := Bytes.appendWords #[] ((form.find? wordsTag).getD []) } := by
  unfold ofForm firstComplaint? complaints requireChunk readWords
  by_cases hkind : form.kind = kind
  · simp only [hkind]
    cases hpool : form.find? poolTag with
    | none => rfl
    | some pool =>
        cases hentries : form.find? entriesTag with
        | none => rfl
        | some entries =>
            cases hwords : form.find? wordsTag with
            | none => rfl
            | some words =>
                by_cases hodd : entries.length % 2 = 0
                · by_cases hodd' : words.length % 2 = 0
                  · simp [hodd, hodd', bind, Except.bind, pure, Except.pure]
                  · simp [hodd, hodd', bind, Except.bind]
                · simp [hodd, bind, Except.bind]
  · simp [hkind, bind, Except.bind, throw, throwThe, MonadExceptOf.throw]

theorem ofForm_eq_error_iff {e : ImageError} :
    ofForm form = .error e ↔ firstComplaint? form = some e := by
  rw [ofForm_eq]
  cases firstComplaint? form with
  | none => simp
  | some found => simp

theorem firstComplaint?_eq_none_iff :
    firstComplaint? form = none ↔
      form.kind = kind ∧ ∃ pool entries words,
        form.find? poolTag = some pool ∧ form.find? entriesTag = some entries ∧
          form.find? wordsTag = some words ∧ entries.length % 2 = 0 ∧ words.length % 2 = 0 := by
  simp only [firstComplaint?, Option.map_eq_none_iff, List.find?_eq_none, complaints,
    List.forall_mem_cons]
  constructor
  · rintro ⟨hkind, hpool, hentries, hwords, heven, heven', -⟩
    obtain ⟨pool, hpool⟩ := Option.ne_none_iff_exists'.1 (by simpa using hpool)
    obtain ⟨entries, hentries⟩ := Option.ne_none_iff_exists'.1 (by simpa using hentries)
    obtain ⟨words, hwords⟩ := Option.ne_none_iff_exists'.1 (by simpa using hwords)
    refine ⟨by simpa using hkind, pool, entries, words, hpool, hentries, hwords, ?_, ?_⟩
    · simpa [hentries] using heven
    · simpa [hwords] using heven'
  · rintro ⟨hkind, pool, entries, words, hpool, hentries, hwords, heven, heven'⟩
    simp [hkind, hpool, hentries, hwords, heven, heven']

theorem ofForm_eq_ok_iff {p : Program} :
    ofForm form = .ok p ↔
      form.kind = kind ∧ form.find? poolTag = some p.pool.toList ∧
        form.find? entriesTag = some (Bytes.ofWords p.entries.toList) ∧
          form.find? wordsTag = some (Bytes.ofWords p.words.toList) := by
  constructor
  · intro h
    have hnone : firstComplaint? form = none := by
      rw [Option.eq_none_iff_forall_ne_some]
      intro e he
      rw [ofForm_eq_error_iff.2 he] at h
      cases h
    obtain ⟨hkind, pool, entries, words, hpool, hentries, hwords, heven, heven'⟩ :=
      firstComplaint?_eq_none_iff.1 hnone
    rw [ofForm_eq, hnone] at h
    cases h
    refine ⟨hkind, ?_, ?_, ?_⟩
    · rw [hpool]
      rfl
    · rw [hentries]
      exact congrArg some (Bytes.ofWords_appendWords #[] heven).symm
    · rw [hwords]
      exact congrArg some (Bytes.ofWords_appendWords #[] heven').symm
  · rintro ⟨hkind, hpool, hentries, hwords⟩
    have hnone : firstComplaint? form = none := by
      refine firstComplaint?_eq_none_iff.2 ⟨hkind, _, _, _, hpool, hentries, hwords, ?_, ?_⟩
      · simp [Bytes.length_ofWords]
      · simp [Bytes.length_ofWords]
    rw [ofForm_eq, hnone, hpool, hentries, hwords]
    simp [Bytes.appendWords_ofWords]

theorem exists_ofForm_ok_iff :
    (∃ p, ofForm form = .ok p) ↔ firstComplaint? form = none := by
  rw [ofForm_eq]
  cases firstComplaint? form with
  | none => simp
  | some found => simp

/-- The chunks that a program is read from. -/
def tags : List Tag :=
  [poolTag, entriesTag, wordsTag]

theorem ofForm_congr {other : Form} (hkind : form.kind = other.kind)
    (hfind : ∀ id ∈ tags, form.find? id = other.find? id) : ofForm form = ofForm other := by
  simp only [tags, List.forall_mem_cons] at hfind
  obtain ⟨hpool, hentries, hwords, -⟩ := hfind
  unfold ofForm requireChunk
  rw [hkind, hpool, hentries, hwords]

theorem find?_append_cons {before after : List Chunk} {chunk : Chunk} {id : Tag}
    (h : chunk.id ≠ id ∨ ∃ earlier ∈ before, earlier.id = chunk.id) :
    Form.find? ⟨form.kind, before ++ chunk :: after⟩ id =
      Form.find? ⟨form.kind, before ++ after⟩ id := by
  simp only [Form.find?, List.find?_append]
  congr 1
  by_cases hid : chunk.id = id
  · obtain ⟨earlier, hmem, hearlier⟩ := h.resolve_left (not_not.2 hid)
    have hfound : (before.find? fun chunk => chunk.id = id).isSome :=
      List.find?_isSome.2 ⟨earlier, hmem, decide_eq_true (hearlier.trans hid)⟩
    obtain ⟨found, hfound⟩ := Option.isSome_iff_exists.1 hfound
    rw [hfound]
    rfl
  · rw [List.find?_cons_of_neg (by simpa using hid)]

theorem ofBytes_eq {input : Bytes} (h : Form.read input = .ok form) :
    ofBytes input = ofForm form := by
  rw [ofBytes, h]
  rfl

theorem bodySize_toForm (p : Program) :
    p.toForm.bodySize =
      28 + (p.pool.size + p.pool.size % 2) + 2 * p.entries.size + 2 * p.words.size := by
  simp [toForm, Form.bodySize, Bytes.length_ofWords]
  omega

theorem ofForm_toForm (p : Program) : ofForm p.toForm = .ok p :=
  ofForm_eq_ok_iff.2 ⟨rfl, rfl, rfl, rfl⟩

theorem ofBytes_toBytes {p : Program}
    (h : 28 + (p.pool.size + p.pool.size % 2) + 2 * p.entries.size + 2 * p.words.size < 4294967296)
    (trailing : Bytes) : ofBytes (p.toBytes ++ trailing) = .ok p := by
  rw [← bodySize_toForm] at h
  exact (ofBytes_eq (Form.read_write h trailing)).trans (ofForm_toForm p)

/-- What is written is read back.  What is read depends on the kind and on the first chunks of three
names alone, and if it cannot be read, the first complaint says why. -/
theorem image_laws :
    (∀ form : Form, form.bodySize < 4294967296 →
      ∀ trailing, Form.read (form.write ++ trailing) = .ok form) ∧
    (∀ p : Program,
      28 + (p.pool.size + p.pool.size % 2) + 2 * p.entries.size + 2 * p.words.size < 4294967296 →
        ∀ trailing, ofBytes (p.toBytes ++ trailing) = .ok p) ∧
    ∀ input form, Form.read input = .ok form →
      (∀ p, ofBytes input = .ok p ↔
        form.kind = kind ∧ form.find? poolTag = some p.pool.toList ∧
          form.find? entriesTag = some (Bytes.ofWords p.entries.toList) ∧
            form.find? wordsTag = some (Bytes.ofWords p.words.toList)) ∧
      ((∃ p, ofBytes input = .ok p) ↔
        form.kind = kind ∧ ∃ pool entries words,
          form.find? poolTag = some pool ∧ form.find? entriesTag = some entries ∧
            form.find? wordsTag = some words ∧ entries.length % 2 = 0 ∧ words.length % 2 = 0) ∧
      (∀ e, ofBytes input = .error e ↔ firstComplaint? form = some e) ∧
      (∀ other otherForm, Form.read other = .ok otherForm → form.kind = otherForm.kind →
        (∀ id ∈ tags, form.find? id = otherForm.find? id) → ofBytes input = ofBytes other) ∧
      ∀ before chunk after, form.chunks = before ++ chunk :: after →
        (chunk.id ∉ tags ∨ ∃ earlier ∈ before, earlier.id = chunk.id) →
          ∀ other, Form.read other = .ok ⟨form.kind, before ++ after⟩ →
            ofBytes input = ofBytes other := by
  refine ⟨fun form h trailing => Form.read_write h trailing,
    fun p h trailing => ofBytes_toBytes h trailing, fun input form hread => ?_⟩
  rw [ofBytes_eq hread]
  refine ⟨fun p => ofForm_eq_ok_iff, exists_ofForm_ok_iff.trans firstComplaint?_eq_none_iff,
    fun e => ofForm_eq_error_iff, ?_, ?_⟩
  · intro other otherForm hother hkind hfind
    rw [ofBytes_eq hother]
    exact ofForm_congr hkind hfind
  · intro before chunk after hchunks hlater other hother
    rw [ofBytes_eq hother]
    refine ofForm_congr rfl fun id hid => ?_
    have hform : form = ⟨form.kind, before ++ chunk :: after⟩ := by rw [← hchunks]
    rw [hform]
    apply find?_append_cons
    rcases hlater with hforeign | hearlier
    · exact .inl fun heq => hforeign (heq ▸ hid)
    · exact .inr hearlier

theorem image_laws_duplicate :
    let p : Program := { pool := #[0, 2, 65], entries := #[0], words := #[0x4E00] }
    let form : Form := ⟨kind, p.toForm.chunks ++ [⟨wordsTag, [7]⟩]⟩
    ofBytes (p.toBytes ++ [9]) = .ok p ∧ Form.read form.write = .ok form ∧
      ofBytes form.write = .ok p := by
  intro p form
  obtain ⟨hforms, hprograms, hinputs⟩ := image_laws
  have hplain : ofBytes (p.toBytes ++ [9]) = .ok p := hprograms p (by decide) [9]
  have hread : Form.read form.write = .ok form := by
    have hwritten := hforms form (by decide) []
    rwa [List.append_nil] at hwritten
  obtain ⟨-, -, -, -, hlater⟩ := hinputs _ _ hread
  refine ⟨hplain, hread, ?_⟩
  rw [← hplain]
  exact hlater p.toForm.chunks _ [] rfl (.inr ⟨⟨wordsTag, Bytes.ofWords [0x4E00]⟩, by decide, rfl⟩) _
    (hforms p.toForm (by decide) [9])

end Program

end EntityScript

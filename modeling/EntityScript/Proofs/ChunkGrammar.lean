import EntityScript.Container
import Mathlib

namespace EntityScript

@[simp] theorem Tag.length_bytes (tag : Tag) : tag.bytes.length = 4 :=
  rfl

theorem exists_tag {bytes : Bytes} (h : bytes.length = 4) : ∃ tag : Tag, bytes = tag.bytes := by
  match bytes, h with
  | [a, b, c, d], _ => exact ⟨⟨a, b, c, d⟩, rfl⟩

namespace Form

/-- The bytes begin with a chunk, and the rest follows it.  The pad byte of a chunk of odd length may
have any value, and may be missing where nothing follows. -/
inductive Leads : Bytes → Chunk → Bytes → Prop
  | intro {chunk : Chunk} {size pad rest : Bytes} :
      size.length = 4 → Bytes.ofBigEndian size = chunk.data.length →
      pad.length = chunk.data.length % 2 ∨ pad = [] ∧ rest = [] →
      Leads (chunk.id.bytes ++ size ++ chunk.data ++ pad ++ rest) chunk rest

inductive Spells : Bytes → List Chunk → Prop
  | nil : Spells [] []
  | cons {bytes rest : Bytes} {chunk : Chunk} {chunks : List Chunk} :
      Leads bytes chunk rest → Spells rest chunks → Spells bytes (chunk :: chunks)

/-- The first chunk that does not fit has a name: what is left if that is no whole header, and the
tag of a header whose data is cut short. -/
inductive Breaks : Bytes → Bytes → Prop
  | header {bytes : Bytes} : bytes ≠ [] → bytes.length < 8 → Breaks bytes bytes
  | data {id : Tag} {size rest : Bytes} :
      size.length = 4 → rest.length < Bytes.ofBigEndian size →
      Breaks (id.bytes ++ size ++ rest) id.bytes
  | later {bytes rest name : Bytes} {chunk : Chunk} :
      Leads bytes chunk rest → Breaks rest name → Breaks bytes name

/-- The bytes begin with a container.  Its size counts the four bytes of the kind. -/
def Encodes (input : Bytes) (form : Form) : Prop :=
  ∃ size body trailing : Bytes,
    input = Tag.form.bytes ++ size ++ (form.kind.bytes ++ body) ++ trailing ∧
      size.length = 4 ∧ Bytes.ofBigEndian size = 4 + body.length ∧ Spells body form.chunks

/-- The bytes are too short for a container, or do not begin like one. -/
def Foreign (input : Bytes) : Prop :=
  input.length < 12 ∨ ¬Tag.form.bytes <+: input

/-- The piece that does not fit is the container itself, if its size leaves no room for a kind or
runs past the end, and otherwise a chunk. -/
inductive Cut : Bytes → Bytes → Prop
  | form {size rest : Bytes} :
      size.length = 4 → 4 ≤ rest.length →
      Bytes.ofBigEndian size < 4 ∨ rest.length < Bytes.ofBigEndian size →
      Cut (Tag.form.bytes ++ size ++ rest) Tag.form.bytes
  | chunk {size body trailing name : Bytes} {kind : Tag} :
      size.length = 4 → Bytes.ofBigEndian size = 4 + body.length → Breaks body name →
      Cut (Tag.form.bytes ++ size ++ (kind.bytes ++ body) ++ trailing) name

theorem exists_header {bytes : Bytes} (h : 8 ≤ bytes.length) :
    ∃ (id : Tag) (size rest : Bytes), size.length = 4 ∧ bytes = id.bytes ++ size ++ rest := by
  have hfour : (bytes.take 4).length = 4 := by
    simp
    omega
  obtain ⟨id, hid⟩ := exists_tag hfour
  refine ⟨id, (bytes.drop 4).take 4, (bytes.drop 4).drop 4, by simp; omega, ?_⟩
  rw [List.append_assoc, List.take_append_drop, ← hid, List.take_append_drop]

theorem exists_body {bytes : Bytes} {n : Nat} (hfour : 4 ≤ n) (h : n ≤ bytes.length) :
    ∃ (kind : Tag) (body trailing : Bytes),
      bytes = kind.bytes ++ body ++ trailing ∧ n = 4 + body.length := by
  have htake : (bytes.take 4).length = 4 := by
    simp
    omega
  obtain ⟨kind, hkind⟩ := exists_tag htake
  refine ⟨kind, (bytes.drop 4).take (n - 4), (bytes.drop 4).drop (n - 4), ?_, by simp; omega⟩
  rw [List.append_assoc, List.take_append_drop, ← hkind, List.take_append_drop]

theorem Leads.length_le {bytes rest : Bytes} {chunk : Chunk} (h : Leads bytes chunk rest) :
    rest.length + 8 ≤ bytes.length := by
  cases h
  simp
  omega

section Chunks

variable {id : Tag} {bytes size rest name : Bytes} {chunk : Chunk} {chunks : List Chunk}

theorem readChunks_header (hsize : size.length = 4) :
    readChunks (id.bytes ++ size ++ rest) =
      if Bytes.ofBigEndian size ≤ rest.length then
        (readChunks (rest.drop (Bytes.ofBigEndian size + Bytes.ofBigEndian size % 2))).map
          (⟨id, rest.take (Bytes.ofBigEndian size)⟩ :: ·)
      else
        .error (.truncated id.bytes) := by
  obtain ⟨tag, rfl⟩ := exists_tag hsize
  change readChunks (id.first :: id.second :: id.third :: id.fourth ::
    tag.first :: tag.second :: tag.third :: tag.fourth :: rest) = _
  rw [readChunks]
  simp only [List.length_take, min_eq_left_iff]
  rfl

theorem readChunks_short (hne : bytes ≠ []) (h : bytes.length < 8) :
    readChunks bytes = .error (.truncated bytes) := by
  unfold readChunks
  split
  · exact absurd rfl hne
  · simp at h
    omega
  · rfl

theorem Leads.readChunks_eq (h : Leads bytes chunk rest) :
    readChunks bytes = (readChunks rest).map (chunk :: ·) := by
  cases h with
  | @intro _ size pad _ hsize hlength hpad =>
      have hdrop : (chunk.data ++ (pad ++ rest)).drop
          (chunk.data.length + chunk.data.length % 2) = rest := by
        rcases hpad with hpad | ⟨rfl, rfl⟩
        · rw [← hpad, ← List.append_assoc, ← List.length_append, List.drop_left]
        · simp
      rw [List.append_assoc, List.append_assoc, readChunks_header hsize, hlength, hdrop,
        List.take_left, if_pos (by simp)]

theorem Spells.readChunks_eq (h : Spells bytes chunks) : readChunks bytes = .ok chunks := by
  induction h with
  | nil => rw [readChunks]
  | cons hleads _ ih =>
      rw [hleads.readChunks_eq, ih]
      rfl

theorem Breaks.readChunks_eq (h : Breaks bytes name) :
    readChunks bytes = .error (.truncated name) := by
  induction h with
  | header hne hshort => exact readChunks_short hne hshort
  | data hsize hcut => rw [readChunks_header hsize, if_neg (Nat.not_le.2 hcut)]
  | later hleads _ ih =>
      rw [hleads.readChunks_eq, ih]
      rfl

theorem leads_of_le (id : Tag) (hsize : size.length = 4)
    (hfits : Bytes.ofBigEndian size ≤ rest.length) :
    ∃ chunk left, Leads (id.bytes ++ size ++ rest) chunk left := by
  have hdata : (rest.take (Bytes.ofBigEndian size)).length = Bytes.ofBigEndian size := by
    simp [hfits]
  have hsplit : rest = rest.take (Bytes.ofBigEndian size) ++ rest.drop (Bytes.ofBigEndian size) :=
    (List.take_append_drop _ _).symm
  generalize rest.take (Bytes.ofBigEndian size) = data at hdata hsplit
  generalize rest.drop (Bytes.ofBigEndian size) = tail at hsplit
  subst hsplit
  have hpad : ∃ pad left : Bytes, tail = pad ++ left ∧
      (pad.length = data.length % 2 ∨ pad = [] ∧ left = []) := by
    refine ⟨tail.take (data.length % 2), tail.drop (data.length % 2),
      (List.take_append_drop _ _).symm, ?_⟩
    cases tail with
    | nil => exact .inr ⟨by simp, by simp⟩
    | cons b tail =>
        left
        have := Nat.mod_lt data.length (y := 2) (by decide)
        simp
        omega
  obtain ⟨pad, left, rfl, hpad⟩ := hpad
  refine ⟨⟨id, data⟩, left, ?_⟩
  have h := @Leads.intro ⟨id, data⟩ size pad left hsize hdata.symm hpad
  simpa using h

theorem leads_cases (bytes : Bytes) :
    bytes = [] ∨ (∃ name, Breaks bytes name) ∨ ∃ chunk rest, Leads bytes chunk rest := by
  by_cases hnil : bytes = []
  · exact .inl hnil
  · rcases Nat.lt_or_ge bytes.length 8 with hshort | hheader
    · exact .inr (.inl ⟨bytes, .header hnil hshort⟩)
    · obtain ⟨id, size, rest, hsize, rfl⟩ := exists_header hheader
      rcases Nat.lt_or_ge rest.length (Bytes.ofBigEndian size) with hcut | hfits
      · exact .inr (.inl ⟨id.bytes, .data hsize hcut⟩)
      · exact .inr (.inr (leads_of_le id hsize hfits))

theorem wellFounded_leads : WellFounded fun rest bytes : Bytes => ∃ chunk, Leads bytes chunk rest := by
  refine Subrelation.wf ?_ (measure List.length).wf
  rintro rest bytes ⟨chunk, hleads⟩
  have := hleads.length_le
  change rest.length < bytes.length
  omega

theorem spells_or_breaks (bytes : Bytes) :
    (∃ chunks, Spells bytes chunks) ∨ ∃ name, Breaks bytes name := by
  induction bytes using wellFounded_leads.induction with
  | _ bytes ih =>
      rcases leads_cases bytes with rfl | hbreaks | ⟨chunk, rest, hleads⟩
      · exact .inl ⟨[], .nil⟩
      · exact .inr hbreaks
      · rcases ih rest ⟨chunk, hleads⟩ with ⟨chunks, hspells⟩ | ⟨name, hbreaks⟩
        · exact .inl ⟨chunk :: chunks, .cons hleads hspells⟩
        · exact .inr ⟨name, .later hleads hbreaks⟩

end Chunks

section Container

variable {input size rest name : Bytes} {form : Form}

theorem read_foreign (h : Foreign input) : read input = .error .notAForm := by
  have hforeign : input.length < 12 ∨ input.take 4 ≠ Tag.form.bytes := by
    refine h.imp_right fun hnot htake => hnot ?_
    rw [← htake]
    exact List.take_prefix 4 input
  rw [read, if_pos hforeign]

theorem read_framed (hsize : size.length = 4) (hrest : 4 ≤ rest.length) :
    read (Tag.form.bytes ++ size ++ rest) =
      if Bytes.ofBigEndian size ≤ rest.length then readBody (rest.take (Bytes.ofBigEndian size))
      else .error (.truncated Tag.form.bytes) := by
  obtain ⟨tag, rfl⟩ := exists_tag hsize
  have hknown : ¬((Tag.form.bytes ++ tag.bytes ++ rest).length < 12 ∨
      (Tag.form.bytes ++ tag.bytes ++ rest).take 4 ≠ Tag.form.bytes) := by
    rintro (hlength | htake)
    · simp at hlength
      omega
    · exact htake rfl
  rw [read, if_neg hknown]
  rfl

theorem readBody_short {body : Bytes} (h : body.length < 4) :
    readBody body = .error (.truncated Tag.form.bytes) := by
  unfold readBody
  split
  · simp at h
    omega
  · rfl

theorem readBody_kind (kind : Tag) (body : Bytes) :
    readBody (kind.bytes ++ body) = (readChunks body).map fun chunks => ⟨kind, chunks⟩ :=
  rfl

theorem read_body {body trailing : Bytes} {kind : Tag} (hsize : size.length = 4)
    (hbody : Bytes.ofBigEndian size = 4 + body.length) :
    read (Tag.form.bytes ++ size ++ (kind.bytes ++ body) ++ trailing) =
      (readChunks body).map fun chunks => ⟨kind, chunks⟩ := by
  have hlength : Bytes.ofBigEndian size = (kind.bytes ++ body).length := by
    rw [hbody, List.length_append, Tag.length_bytes]
  rw [List.append_assoc, read_framed hsize (by simp), if_pos (by simp [hlength]), hlength,
    List.take_left, readBody_kind]

theorem Encodes.read_eq (h : Encodes input form) : read input = .ok form := by
  obtain ⟨size, body, trailing, rfl, hsize, hbody, hspells⟩ := h
  rw [read_body hsize hbody, hspells.readChunks_eq]
  rfl

theorem Cut.read_eq (h : Cut input name) : read input = .error (.truncated name) := by
  cases h with
  | @form size rest hsize hrest hbad =>
      rw [read_framed hsize hrest]
      split
      · rw [readBody_short]
        simp
        omega
      · rfl
  | chunk hsize hbody hbreaks =>
      rw [read_body hsize hbody, hbreaks.readChunks_eq]
      rfl

theorem read_cases (input : Bytes) :
    Foreign input ∨ (∃ form, Encodes input form) ∨ ∃ name, Cut input name := by
  by_cases hforeign : Foreign input
  · exact .inl hforeign
  · right
    obtain ⟨hlength, hprefix⟩ := not_or.1 hforeign
    obtain ⟨rest, rfl⟩ := not_not.1 hprefix
    have hsize : (rest.take 4).length = 4 := by
      simp at hlength ⊢
      omega
    have hrest : 4 ≤ (rest.drop 4).length := by
      simp at hlength ⊢
      omega
    rw [← List.take_append_drop 4 rest, ← List.append_assoc]
    generalize rest.take 4 = size at hsize
    generalize rest.drop 4 = rest at hrest
    by_cases hbad : Bytes.ofBigEndian size < 4 ∨ rest.length < Bytes.ofBigEndian size
    · exact .inr ⟨_, .form hsize hrest hbad⟩
    · obtain ⟨hfour, hfits⟩ := not_or.1 hbad
      obtain ⟨kind, body, trailing, rfl, hbody⟩ :=
        exists_body (Nat.not_lt.1 hfour) (Nat.not_lt.1 hfits)
      rw [← List.append_assoc]
      rcases spells_or_breaks body with ⟨chunks, hspells⟩ | ⟨name, hbreaks⟩
      · exact .inl ⟨⟨kind, chunks⟩, size, body, trailing, rfl, hsize, hbody, hspells⟩
      · exact .inr ⟨name, .chunk hsize hbody hbreaks⟩

theorem read_verdict (input : Bytes) :
    (Foreign input ∧ read input = .error .notAForm) ∨
      (∃ form, Encodes input form ∧ read input = .ok form) ∨
        ∃ name, Cut input name ∧ read input = .error (.truncated name) := by
  rcases read_cases input with hforeign | ⟨form, hencodes⟩ | ⟨name, hcut⟩
  · exact .inl ⟨hforeign, read_foreign hforeign⟩
  · exact .inr (.inl ⟨form, hencodes, hencodes.read_eq⟩)
  · exact .inr (.inr ⟨name, hcut, hcut.read_eq⟩)

theorem encodes_of_read (h : read input = .ok form) : Encodes input form := by
  rcases read_verdict input with ⟨-, hread⟩ | ⟨found, hencodes, hread⟩ | ⟨name, -, hread⟩
  · simp [hread] at h
  · obtain rfl : found = form := by simpa [hread] using h
    exact hencodes
  · simp [hread] at h

theorem foreign_of_read (h : read input = .error .notAForm) : Foreign input := by
  rcases read_verdict input with ⟨hforeign, -⟩ | ⟨found, -, hread⟩ | ⟨name, -, hread⟩
  · exact hforeign
  · simp [hread] at h
  · simp [hread] at h

theorem cut_of_read (h : read input = .error (.truncated name)) : Cut input name := by
  rcases read_verdict input with ⟨-, hread⟩ | ⟨found, -, hread⟩ | ⟨found, hcut, hread⟩
  · simp [hread] at h
  · simp [hread] at h
  · obtain rfl : found = name := by simpa [hread] using h
    exact hcut

end Container

/-- Reading gives a container exactly where the grammar finds one, and says otherwise what is wrong.
Each round takes a chunk off the bytes, which cannot go on for ever. -/
theorem read_grammar (input : Bytes) :
    (∀ form, read input = .ok form ↔ Encodes input form) ∧
    (read input = .error .notAForm ↔ Foreign input) ∧
    (∀ name, read input = .error (.truncated name) ↔ Cut input name) ∧
    (∀ bytes chunk rest, Leads bytes chunk rest →
      readChunks bytes = (readChunks rest).map (chunk :: ·)) ∧
    WellFounded fun rest bytes : Bytes => ∃ chunk, Leads bytes chunk rest := by
  exact ⟨fun form => ⟨encodes_of_read, Encodes.read_eq⟩, ⟨foreign_of_read, read_foreign⟩,
    fun name => ⟨cut_of_read, Cut.read_eq⟩, fun _ _ _ => Leads.readChunks_eq, wellFounded_leads⟩

end Form

end EntityScript

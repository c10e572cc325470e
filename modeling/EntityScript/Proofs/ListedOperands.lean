import EntityScript.Proofs.ListingCoverage
import EntityScript.Proofs.OperationFaults
import EntityScript.Proofs.OperationTable

/-!
What a listing shows of an instruction is what a step makes of it, but for the target of a jump: the
listing cuts it to 15 bits, and a jump takes all of it.
-/

namespace EntityScript

namespace Text

/-- A mnemonic in its column, and an operand. -/
def row (mnemonic operand : String) : String :=
  padRight 10 mnemonic ++ " " ++ operand

theorem takeWhile_row {mnemonic : String} (h : IsWord mnemonic) (operand : String) :
    (row mnemonic operand).toList.takeWhile (· ≠ ' ') = mnemonic.toList := by
  have hsolid : ∀ c ∈ mnemonic.toList, decide (c ≠ ' ') = true :=
    fun c hc => decide_eq_true (h.ne_blank hc)
  have hblanks (count : Nat) :
      (List.replicate count ' ' ++ ' ' :: operand.toList).takeWhile (· ≠ ' ') = [] := by
    cases count <;> rfl
  have hlist : (row mnemonic operand).toList = mnemonic.toList ++
      (List.replicate (10 - mnemonic.length) ' ' ++ ' ' :: operand.toList) := by
    simp [row, toList_padRight]
  rw [hlist, List.takeWhile_append_of_pos hsolid, hblanks, List.append_nil]

theorem row_inj {mnemonic mnemonic' operand operand' : String} (h : IsWord mnemonic)
    (h' : IsWord mnemonic') :
    row mnemonic operand = row mnemonic' operand' ↔ mnemonic = mnemonic' ∧ operand = operand' := by
  constructor
  · intro heq
    have hlists : mnemonic.toList = mnemonic'.toList := by
      rw [← takeWhile_row h operand, heq, takeWhile_row h']
    obtain rfl := String.toList_inj.1 hlists
    exact ⟨rfl, String.append_right_inj _ |>.1 heq⟩
  · rintro ⟨rfl, rfl⟩
    rfl

/-- The target of a jump, as it is shown. -/
def target (offset : Word) : String :=
  "0x" ++ hex4 offset.toNat

theorem target_inj {x y : Word} : target x = target y ↔ x = y := by
  constructor
  · intro h
    have hdigits : hex4 x.toNat = hex4 y.toNat := (String.append_right_inj _).1 h
    have hvalue := congrArg (fun digits => hexValue digits.toList) hdigits
    rw [hexValue_hex4, hexValue_hex4] at hvalue
    exact UInt16.toNat_inj.1 hvalue
  · rintro rfl
    rfl

end Text

open Text

theorem UnaryOp.mnemonic_injective : Function.Injective UnaryOp.mnemonic := by
  intro first second h
  cases first <;> cases second <;> first | rfl | exact absurd h (by decide)

theorem UnaryOp.head?_mnemonic (op : UnaryOp) : op.mnemonic.toList.head? ≠ some '?' := by
  cases op <;> decide

theorem BinaryOp.head?_mnemonic (op : BinaryOp) : op.mnemonic.toList.head? ≠ some '?' := by
  cases op <;> decide

theorem BinaryOp.mnemonic_injective : Function.Injective BinaryOp.mnemonic := by
  intro first second h
  cases first <;> cases second <;> first | rfl | exact absurd h (by decide)

theorem Program.target_lt_of_fetch {p : Program} {offset next : Word} {i : Instruction}
    (h : p.fetch offset = .ok (i, next)) (hencoding : i.encoding = .jump) :
    i.parameter < 0x8000 := by
  have hfields := (Instruction.ofWords?_encodes (ofWords?_of_fetch h)).1.2
  rw [hencoding] at hfields
  exact hfields.2

namespace Instruction

variable {i : Instruction} {opcode : Opcode} {operand : String}

theorem text_eq_row_iff (h : i.opcode? = some opcode) :
    i.text = row opcode.mnemonic operand ↔ operandText opcode i.parameter = operand := by
  have htext : i.text = row opcode.mnemonic (operandText opcode i.parameter) := by
    simp only [text, mnemonic, h, row]
  rw [htext, row_inj opcode.isWord_mnemonic opcode.isWord_mnemonic, eq_self, true_and]

theorem text_eq_undefined_iff {code : UInt8} :
    (∃ operand, i.text = row s!"op{code}" operand) ↔ i.opcode? = none ∧ i.code = code := by
  have hword (code : UInt8) : IsWord s!"op{code}" :=
    (isWord_nat code.toNat).append (solid_of_all "op" (by decide))
  have htext (operand : String) :
      i.text = row s!"op{code}" operand → i.mnemonic = s!"op{code}" :=
    fun h => ((row_inj i.isWord_mnemonic (hword code)).1 h).1
  constructor
  · rintro ⟨operand, h⟩
    have hmnemonic := htext operand h
    cases hopcode : i.opcode? with
    | none =>
        rw [mnemonic, hopcode] at hmnemonic
        have hcode : toString i.code = toString code := by
          simpa using hmnemonic
        exact ⟨rfl, UInt8.toNat_inj.1 (Nat.repr_injective hcode)⟩
    | some opcode =>
        -- No mnemonic starts like a code does.
        have hno : opcode.mnemonic.toList.take 2 ≠ "op".toList := by
          cases opcode <;> decide
        rw [mnemonic, hopcode] at hmnemonic
        change opcode.mnemonic = "op" ++ toString code at hmnemonic
        rw [hmnemonic, String.toList_append] at hno
        exact absurd rfl hno
  · rintro ⟨hopcode, rfl⟩
    refine ⟨toString i.parameter, ?_⟩
    simp only [text, mnemonic, hopcode, row]

theorem selectorText_eq_iff {κ : Type} {name : κ → String} (hname : Function.Injective name)
    (hmark : ∀ x, (name x).toList.head? ≠ some '?') {found : Option κ} {selector : Word} {x : κ} :
    selectorText (found.map name) selector = name x ↔ found = some x := by
  cases found with
  | none =>
      have hne : selectorText (Option.map name none) selector ≠ name x := by
        intro h
        change "?" ++ toString selector = name x at h
        apply hmark x
        rw [← h, String.toList_append]
        rfl
      simpa using hne
  | some y =>
      rw [Option.some.injEq]
      exact hname.eq_iff

end Instruction

namespace Actor

open Machine

variable {ω : Type} [Owner ω] {a : Actor ω} {i : Instruction} {ip next : Word} {opcode : Opcode}

/-- The text of an instruction, beside what the step does that executes it. -/
structure Shown (table : NativeTable ω) (a : Actor ω) (i : Instruction) (next : Word) : Prop where
  jump : i.opcode? = some .jump →
    (a.step table).value = .ok true ∧
      (a.step table).after.engine.machine.ip = some i.parameter ∧
      (∀ offset, i.text = row "jump" (target offset) ↔
        offset = i.parameter &&& Instruction.targetMask) ∧
      (i.text = row "jump" (target i.parameter) ↔ i.parameter < 0x8000) ∧
      (i.encoding = .jump → i.parameter < 0x8000)
  jumpIfZero : i.opcode? = some .jumpIfZero →
    a.engine.machine.depth ≠ 0 → a.engine.machine.top = 0 →
      (a.step table).value = .ok true ∧ ∀ offset,
        (a.step table).after.engine.machine.ip = some offset ↔
          i.text = row "jumpz" (target offset)
  function : i.opcode? = some .function → ∃ slot : Word,
    (∀ other : Word, i.text = row "call" s!"#{other}" ↔ other = slot) ∧
      (∀ value done, table.invoke slot a.site (a.opened next) = .ok value done →
        (a.step table).value = .ok true ∧
          (a.step table).after =
            let b := a.called slot { done.machine with result := value } done.owner
            if done.stopped then b.mapEngine Engine.halt else b) ∧
      ∀ fault done, table.invoke slot a.site (a.opened next) = .error fault done →
        (a.step table).value = .error fault ∧
          (a.step table).after = (a.called slot done.machine done.owner).mapEngine Engine.halt
  unary : i.opcode? = some .unary →
    ((∃ op : UnaryOp, i.text = row "unary" op.mnemonic) ↔
      (a.step table).value ≠ .error (.invalidParameter .unary i.parameter)) ∧
    ∀ op : UnaryOp, i.text = row "unary" op.mnemonic → a.engine.machine.depth ≠ 0 →
      (a.step table).value = .ok true ∧
        (a.step table).after = a.executed .unary
          (((a.begun next).popped 1).pushed (op.apply a.engine.machine.top))
  binary : i.opcode? = some .binary →
    ((∃ op : BinaryOp, i.text = row "binary" op.mnemonic) ↔
      (a.step table).value ≠ .error (.invalidParameter .binary i.parameter)) ∧
    ∀ op : BinaryOp, i.text = row "binary" op.mnemonic → 2 ≤ a.engine.machine.depth →
      (∀ value, op.apply a.engine.machine.second a.engine.machine.top = .ok value →
        (a.step table).value = .ok true ∧
          (a.step table).after = a.executed .binary (((a.begun next).popped 2).pushed value)) ∧
      ∀ fault, op.apply a.engine.machine.second a.engine.machine.top = .error fault →
        (a.step table).value = .error fault
  undefined : ∀ code : UInt8, (∃ operand, i.text = row s!"op{code}" operand) ↔
    i.opcode? ≠ some .function ∧ (a.step table).value = .error (.unknownOpcode code)
  other : ∀ opcode ∉ [.jump, .jumpIfZero, .function, .unary, .binary], i.opcode? = some opcode →
    ∀ parameter : Word, i.text = row opcode.mnemonic (toString parameter.signed.toInt) ↔
      a.operation? = some (opcode, parameter, next)

omit [Owner ω] in
theorem called_mask (a : Actor ω) (parameter : Word) (machine : Machine) (owner : ω) :
    a.called (parameter &&& 0xFF) machine owner = a.called parameter machine owner := by
  rw [called, UInt16.and_assoc, UInt16.and_self]
  rfl

section Step

variable (table : NativeTable ω) (hip : a.engine.machine.ip = some ip)
  (hfetch : a.engine.program.fetch ip = .ok (i, next))

include hip hfetch

omit [Owner ω] in
theorem operation?_of_fetch (h : i.opcode? = some opcode) :
    a.operation? = some (opcode, i.parameter, next) :=
  operation?_eq_some_iff.2 ⟨ip, i, hip, hfetch, h, rfl⟩

theorem step_undefined (h : i.opcode? = none) :
    (a.step table).value = .error (.unknownOpcode i.code) := by
  simp only [step, hip, hfetch, execute, h]
  rfl

theorem raised_of_step {P : Fault → Prop} {fault : Fault} (h : i.opcode? = some opcode)
    (hopcode : opcode ≠ .function) (hraises : Raises P (Machine.execute opcode i.parameter next))
    (hvalue : (a.step table).value = .error fault) : P fault := by
  have hoperation := operation?_of_fetch hip hfetch h
  cases hrun : Machine.execute opcode i.parameter next (a.begun next) with
  | ok value m =>
      rw [(step_operation_ok table hoperation hopcode hrun).1] at hvalue
      cases hvalue
  | error fault' m =>
      rw [(step_operation_error table hoperation hopcode hrun).1] at hvalue
      cases hvalue
      exact hraises _ _ _ hrun

theorem step_jump (h : i.opcode? = some .jump) :
    (a.step table).value = .ok true ∧
      (a.step table).after.engine.machine.ip = some i.parameter := by
  have hoperation := operation?_of_fetch hip hfetch h
  obtain ⟨hvalue, hafter⟩ := step_operation_ok table hoperation (by decide) rfl
  refine ⟨hvalue, ?_⟩
  rw [hafter]
  rfl

theorem step_jumpIfZero (h : i.opcode? = some .jumpIfZero) (hdepth : a.engine.machine.depth ≠ 0)
    (hzero : a.engine.machine.top = 0) :
    (a.step table).value = .ok true ∧
      (a.step table).after.engine.machine.ip =
        some (i.parameter &&& Instruction.targetMask) := by
  have hoperation := operation?_of_fetch hip hfetch h
  have hrun := (Follows.jumpIfZero (a.begun next) (i.parameter &&& Instruction.targetMask)).succeeds
    hdepth
  have htop : (a.begun next).top = 0 := hzero
  rw [if_pos htop] at hrun
  obtain ⟨hvalue, hafter⟩ := step_operation_ok table hoperation (by decide) hrun
  refine ⟨hvalue, ?_⟩
  rw [hafter]
  rfl

/-- A step refuses a selector exactly if there is no operation that it selects. -/
theorem step_ne_invalid_iff {κ : Type} {found : Option κ} (h : i.opcode? = some opcode)
    (hopcode : opcode ≠ .function)
    (hnone : found = none → ∀ m, Machine.execute opcode i.parameter next m =
      .error (.invalidParameter opcode i.parameter) m)
    (hsome : ∀ op, found = some op →
      Raises (· ≠ .invalidParameter opcode i.parameter) (Machine.execute opcode i.parameter next)) :
    (a.step table).value ≠ .error (.invalidParameter opcode i.parameter) ↔
      ∃ op, found = some op := by
  have hoperation := operation?_of_fetch hip hfetch h
  rw [← Option.ne_none_iff_exists']
  constructor
  · intro hvalue hrefused
    exact hvalue (step_operation_error table hoperation hopcode (hnone hrefused _)).1
  · intro hfound hvalue
    obtain ⟨op, hop⟩ := Option.ne_none_iff_exists'.1 hfound
    exact raised_of_step table hip hfetch h hopcode (hsome op hop) hvalue rfl

theorem unary_ne_invalid_iff (h : i.opcode? = some .unary) :
    (a.step table).value ≠ .error (.invalidParameter .unary i.parameter) ↔
      ∃ op, UnaryOp.ofSelector? i.parameter = some op := by
  refine step_ne_invalid_iff table hip hfetch h (by decide) ?_ ?_
  · intro hop m
    simp only [Machine.execute, hop]
    rfl
  · intro op hop
    simp only [Machine.execute, hop]
    refine (Raises.applyUnary op).mono ?_
    rintro _ hstack rfl
    exact hstack

theorem binary_ne_invalid_iff (h : i.opcode? = some .binary) :
    (a.step table).value ≠ .error (.invalidParameter .binary i.parameter) ↔
      ∃ op, BinaryOp.ofSelector? i.parameter = some op := by
  refine step_ne_invalid_iff table hip hfetch h (by decide) ?_ ?_
  · intro hop m
    simp only [Machine.execute, hop]
    rfl
  · intro op hop
    simp only [Machine.execute, hop]
    refine (Raises.applyBinary op).mono ?_
    rintro _ (hstack | hzero) rfl
    · exact hstack
    · cases hzero

theorem step_unary {op : UnaryOp} (h : i.opcode? = some .unary)
    (hop : UnaryOp.ofSelector? i.parameter = some op) (hdepth : a.engine.machine.depth ≠ 0) :
    (a.step table).value = .ok true ∧
      (a.step table).after = a.executed .unary
        (((a.begun next).popped 1).pushed (op.apply a.engine.machine.top)) := by
  refine step_operation_ok table (operation?_of_fetch hip hfetch h) (by decide) ?_
  simp only [Machine.execute, hop]
  exact (Follows.applyUnary (a.begun next) op).succeeds hdepth

theorem step_binary {op : BinaryOp} (h : i.opcode? = some .binary)
    (hop : BinaryOp.ofSelector? i.parameter = some op) (hdepth : 2 ≤ a.engine.machine.depth) :
    (∀ value, op.apply a.engine.machine.second a.engine.machine.top = .ok value →
      (a.step table).value = .ok true ∧
        (a.step table).after = a.executed .binary (((a.begun next).popped 2).pushed value)) ∧
    ∀ fault, op.apply a.engine.machine.second a.engine.machine.top = .error fault →
      (a.step table).value = .error fault := by
  have hoperation := operation?_of_fetch hip hfetch h
  have htwo : (a.begun next).stackPointer.toNat + 2 ≤ stackSize := by
    change 2 ≤ stackSize - (a.begun next).stackPointer.toNat at hdepth
    omega
  have happly := applyBinary_two op htwo
  rw [← second_eq htwo, ← top_eq (by omega)] at happly
  constructor
  · intro value hvalue
    have hdefined : ¬((a.begun next).depth < 2 ∨
        ∃ fault, op.apply (a.begun next).second (a.begun next).top = .error fault) := by
      rintro (hshort | ⟨fault, hfault⟩)
      · exact Nat.not_lt.2 hdepth hshort
      · cases hvalue.symm.trans hfault
    have hrun := (Follows.applyBinary (m := a.begun next) (by unfold InBounds; omega) op).succeeds
      hdefined
    refine step_operation_ok table hoperation (by decide) ?_
    simp only [Machine.execute, hop]
    rw [hrun, show op.apply (a.begun next).second (a.begun next).top = .ok value from hvalue]
    rfl
  · intro fault hfault
    refine (step_operation_error table hoperation (by decide) (m := (a.begun next).popped 2) ?_).1
    simp only [Machine.execute, hop]
    rw [happly, show op.apply (a.begun next).second (a.begun next).top = .error fault from hfault]

end Step

/-- What a listing shows of an instruction is what the engine does as it executes it, but for a jump
of which the target takes 16 bits. -/
theorem shown_as_executed (table : NativeTable ω) (hip : a.engine.machine.ip = some ip)
    (hfetch : a.engine.program.fetch ip = .ok (i, next)) : Shown table a i next where
  jump h := by
    obtain ⟨hvalue, hafter⟩ := step_jump table hip hfetch h
    have htext (offset : Word) : i.text = row "jump" (target offset) ↔
        offset = i.parameter &&& Instruction.targetMask :=
      (Instruction.text_eq_row_iff h).trans (target_inj.trans eq_comm)
    refine ⟨hvalue, hafter, htext, ?_, Program.target_lt_of_fetch hfetch⟩
    rw [htext, eq_comm, Instruction.and_targetMask_eq_iff]
  jumpIfZero h hdepth hzero := by
    obtain ⟨hvalue, hafter⟩ := step_jumpIfZero table hip hfetch h hdepth hzero
    refine ⟨hvalue, fun offset => ?_⟩
    rw [hafter, Option.some.injEq]
    exact ((Instruction.text_eq_row_iff h).trans target_inj).symm
  function h := by
    have hoperation := operation?_of_fetch hip hfetch h
    have htext (other : Word) :
        i.text = row "call" s!"#{other}" ↔ other = i.parameter &&& 0xFF := by
      refine (Instruction.text_eq_row_iff h).trans ⟨fun heq => ?_, ?_⟩
      · exact (toString_word_inj ((String.append_right_inj "#").1 heq)).symm
      · rintro rfl
        rfl
    refine ⟨i.parameter &&& 0xFF, htext, fun value done hcall => ?_, fun fault done hcall => ?_⟩
    · rw [called_mask]
      exact step_call_ok hoperation hcall
    · rw [called_mask]
      exact step_call_error hoperation hcall
  unary h := by
    have htext (op : UnaryOp) :
        i.text = row "unary" op.mnemonic ↔ UnaryOp.ofSelector? i.parameter = some op :=
      (Instruction.text_eq_row_iff h).trans
        (Instruction.selectorText_eq_iff UnaryOp.mnemonic_injective UnaryOp.head?_mnemonic)
    refine ⟨?_, fun op hop => step_unary table hip hfetch h ((htext op).1 hop)⟩
    rw [unary_ne_invalid_iff table hip hfetch h]
    exact exists_congr htext
  binary h := by
    have htext (op : BinaryOp) :
        i.text = row "binary" op.mnemonic ↔ BinaryOp.ofSelector? i.parameter = some op :=
      (Instruction.text_eq_row_iff h).trans
        (Instruction.selectorText_eq_iff BinaryOp.mnemonic_injective BinaryOp.head?_mnemonic)
    refine ⟨?_, fun op hop => step_binary table hip hfetch h ((htext op).1 hop)⟩
    rw [binary_ne_invalid_iff table hip hfetch h]
    exact exists_congr htext
  undefined code := by
    rw [Instruction.text_eq_undefined_iff]
    constructor
    · rintro ⟨hopcode, rfl⟩
      rw [hopcode]
      exact ⟨Option.some_ne_none _ |>.symm, step_undefined table hip hfetch hopcode⟩
    · rintro ⟨hfunction, hvalue⟩
      cases hopcode : i.opcode? with
      | none =>
          rw [step_undefined table hip hfetch hopcode] at hvalue
          cases hvalue
          exact ⟨rfl, rfl⟩
      | some opcode =>
          have hraised := raised_of_step table hip hfetch hopcode
            (fun h => hfunction (h ▸ hopcode)) (.execute opcode i.parameter next) hvalue
          cases hraised with
          | stack hstack => exact hstack.elim
  other opcode hopcode h parameter := by
    have hoperand : Instruction.operandText opcode i.parameter =
        toString i.parameter.signed.toInt := by
      cases opcode with
      | jump | jumpIfZero | function | unary | binary => exact absurd (by decide) hopcode
      | _ => rfl
    rw [Instruction.text_eq_row_iff h, hoperand, operation?_of_fetch hip hfetch h]
    simp only [Option.some.injEq, Prod.mk.injEq, true_and, and_true]
    constructor
    · exact fun heq => Word.toInt_signed_inj (toString_int_inj heq)
    · rintro rfl
      rfl

theorem shown_as_executed_sum :
    let a : Actor Unit :=
      ⟨{ program := { words := #[0x4302, 0x4303, 0x5108] }, machine := { ip := some 0 } }, ()⟩
    let table : NativeTable Unit := .empty .unknown
    let b := ((a.step table).after.step table).after
    (b.step table).value = .ok true ∧ (b.step table).after.engine.machine.values = [5] := by
  intro a table b
  have hip : b.engine.machine.ip = some 2 := by decide
  have hshown : Shown table b ⟨17, 8, .byte⟩ 3 := shown_as_executed table hip (by decide)
  obtain ⟨-, happlied⟩ := hshown.binary (by decide)
  obtain ⟨hvalue, hafter⟩ := (happlied .add (by decide) (by decide)).1 5 (by decide)
  refine ⟨hvalue, ?_⟩
  rw [hafter]
  decide

/-- A jump with a negative parameter goes to the end of the addresses and shows their middle. -/
theorem shown_as_executed_cut :
    let a : Actor Unit := ⟨{ program := { words := #[0x40FF] }, machine := { ip := some 0 } }, ()⟩
    let table : NativeTable Unit := .empty .unknown
    a.engine.program.fetch 0 = .ok (⟨0, 0xFFFF, .byte⟩, 1) ∧
      Instruction.text ⟨0, 0xFFFF, .byte⟩ = "jump       0x7fff" ∧
      (a.step table).value = .ok true ∧ (a.step table).after.engine.machine.ip = some 0xFFFF := by
  decide

end Actor

end EntityScript

import EntityScript.Proofs.CallFrames
import EntityScript.Proofs.ListingCoverage
import EntityScript.Proofs.OperationTable
import EntityScript.Proofs.StayingLoaded

namespace EntityScript

namespace Program

variable {p : Program} {offset next : Word} {i : Instruction}

theorem ends_of_fetch (h : p.fetch offset = .ok (i, next)) :
    offset.toNat + i.size ≤ p.words.size := by
  have hsize := Instruction.size_le_of_ofWords? (ofWords?_of_fetch h)
  have hpos := i.size_pos
  rw [List.length_drop, Array.length_toList] at hsize
  omega

theorem toNat_following (h : p.fetch offset = .ok (i, next)) :
    next.toNat = (offset.toNat + i.size) % 65536 := by
  rw [following_eq h, UInt16.toNat_add, UInt16.toNat_ofNat', Nat.add_mod_mod]

theorem fetch_outside (h : p.words.size ≤ offset.toNat) :
    p.fetch offset = .error (.invalidAddress offset) := by
  rw [fetch, Instruction.at?, Array.getElem?_eq_none h]

/-- The instruction at an offset takes the last of the addresses. -/
def WrapsAt (p : Program) (offset : Word) : Prop :=
  ∃ i next, p.fetch offset = .ok (i, next) ∧ 65536 ≤ offset.toNat + i.size

theorem not_wrapsAt (h : p.words.size < 65536) (offset : Word) : ¬p.WrapsAt offset := by
  rintro ⟨i, next, hfetch, hwraps⟩
  have hends := ends_of_fetch hfetch
  omega

theorem toNat_following_of_not_wrapsAt (hwraps : ¬p.WrapsAt offset)
    (h : p.fetch offset = .ok (i, next)) : next.toNat = offset.toNat + i.size := by
  have hsmall : offset.toNat + i.size < 65536 := by
    by_contra hlarge
    exact hwraps ⟨i, next, h, not_lt.1 hlarge⟩
  rw [toNat_following h, Nat.mod_eq_of_lt hsmall]

theorem length_le_of_fetch {offsets : List Word} (hsorted : offsets.Pairwise (· < ·))
    (hfetch : ∀ x ∈ offsets, ∃ i next, p.fetch x = .ok (i, next)) :
    offsets.length ≤ p.words.size := by
  have hnodup : (offsets.map UInt16.toNat).Nodup := by
    refine List.pairwise_map.2 (hsorted.imp fun {x y} hlt => ?_)
    exact (UInt16.lt_iff_toNat_lt.1 hlt).ne
  have hsubset : offsets.map UInt16.toNat ⊆ List.range p.words.size := by
    rintro n hn
    obtain ⟨x, hx, rfl⟩ := List.mem_map.1 hn
    obtain ⟨i, next, hx⟩ := hfetch x hx
    have hends := ends_of_fetch hx
    have hpos := i.size_pos
    rw [List.mem_range]
    omega
  have hlength := (hnodup.subperm hsubset).length_le
  rwa [List.length_map, List.length_range] at hlength

end Program

namespace Actor

open Machine

variable {ω : Type}

/-- The next step transfers control.  A native function does if it changes the instruction pointer
or stops the engine. -/
def Transfers (table : NativeTable ω) (a : Actor ω) : Prop :=
  match a.operation? with
  | none => False
  | some (.jump, _, _) => True
  | some (.ret, _, _) => True
  | some (.jumpIfZero, _, _) => a.engine.machine.top = 0
  | some (.popResultOrFrame, parameter, _) => parameter = 1
  | some (.function, parameter, next) =>
      let done := endState (a.call table parameter next)
      done.machine.ip ≠ some next ∨ done.stopped = true
  | some _ => False

variable {a b : Actor ω} {table : NativeTable ω} {opcode : Opcode} {parameter next : Word}

theorem execute_stays {m : Machine} (h : a.operation? = some (opcode, parameter, next))
    (hstays : ¬a.Transfers table)
    (hrun : Machine.execute opcode parameter next (a.begun next) = .ok () m) :
    m.ip = some next := by
  have hkept (hopcode : opcode ∉ [.jump, .jumpIfZero, .ret])
      (hframe : opcode = .popResultOrFrame → parameter ≠ 1) : m.ip = some next := by
    have hip := StaysAt.execute hopcode hframe next (a.begun next)
    rwa [hrun] at hip
  rw [Transfers, h] at hstays
  cases opcode with
  | jump | ret => exact absurd trivial hstays
  | jumpIfZero =>
      have hfollows := Follows.jumpIfZero (a.begun next) (parameter &&& Instruction.targetMask)
      by_cases hempty : (a.begun next).depth = 0
      · obtain ⟨fault, m', hfail⟩ := hfollows.fails hempty
        cases hrun.symm.trans hfail
      · have hvalue : (a.begun next).top ≠ 0 := hstays
        have hpopped := hfollows.succeeds hempty
        rw [if_neg hvalue] at hpopped
        cases hrun.symm.trans hpopped
        rfl
  | popResultOrFrame => exact hkept (by decide) fun _ => hstays
  | _ =>
      apply hkept
      · decide
      · rintro ⟨⟩

theorem not_transfers (h : a.operation? = some (opcode, parameter, next))
    (hopcode : opcode ∉ [.jump, .ret, .jumpIfZero, .popResultOrFrame, .function]) :
    ¬a.Transfers table := by
  rw [Transfers, h]
  cases opcode with
  | jump | ret | jumpIfZero | popResultOrFrame | function => exact absurd (by decide) hopcode
  | _ => exact id

variable [Owner ω]

theorem step_behind {ip : Word} (hip : a.engine.machine.ip = some ip)
    (hok : (a.step table).value = .ok true) (hstays : ¬a.Transfers table) :
    ∃ i next, a.engine.program.fetch ip = .ok (i, next) ∧
      (a.step table).after.engine.machine.ip = some next := by
  have hfetched {opcode : Opcode} {parameter next : Word}
      (h : a.operation? = some (opcode, parameter, next)) :
      ∃ i, a.engine.program.fetch ip = .ok (i, next) := by
    obtain ⟨ip', i, hip', hfetch, -⟩ := operation?_eq_some_iff.1 h
    cases hip.symm.trans hip'
    exact ⟨i, hfetch⟩
  cases a.stepCase table with
  | unloaded _ hvalue => cases hok.symm.trans hvalue
  | stray _ _ hvalue => cases hok.symm.trans hvalue
  | executed hoperation _ hrun _ hafter =>
      obtain ⟨i, hfetch⟩ := hfetched hoperation
      refine ⟨i, _, hfetch, ?_⟩
      rw [hafter]
      exact execute_stays hoperation hstays hrun
  | refused _ _ _ hvalue => cases hok.symm.trans hvalue
  | returned hoperation hcall _ _ hafter =>
      obtain ⟨i, hfetch⟩ := hfetched hoperation
      refine ⟨i, _, hfetch, ?_⟩
      rw [Transfers, hoperation] at hstays
      simp only [hcall, endState] at hstays
      rw [hafter]
      exact not_not.1 (not_or.1 hstays).1
  | stopped hoperation hcall hstopped =>
      rw [Transfers, hoperation] at hstays
      simp only [hcall, endState] at hstays
      exact absurd hstopped (not_or.1 hstays).2
  | raised _ _ hvalue => cases hok.symm.trans hvalue

theorem step_outside {ip : Word} (hip : a.engine.machine.ip = some ip)
    (h : a.engine.program.words.size ≤ ip.toNat) (table : NativeTable ω) :
    (a.step table).value = .error (.invalidAddress ip) ∧
      (a.step table).after.engine.status = .halted := by
  simp only [step, hip, Program.fetch_outside h]
  exact ⟨rfl, rfl⟩

/-- Steps in a row that succeed and transfer no control, from the offsets in a list. -/
inductive Straight (a : Actor ω) : List Word → Actor ω → Prop
  | start : Straight a [] a
  | step {offsets : List Word} {b : Actor ω} {ip : Word} (table : NativeTable ω) :
      Straight a offsets b → b.engine.machine.ip = some ip → (b.step table).value = .ok true →
        ¬b.Transfers table → Straight a (offsets ++ [ip]) (b.step table).after

namespace Straight

variable {offsets : List Word} {first last : Word}

theorem program_eq (h : Straight a offsets b) : b.engine.program = a.engine.program := by
  induction h with
  | start => rfl
  | step table _ _ _ _ ih => rw [(step_fixed table _).1, ih]

theorem fetched (h : Straight a offsets b) :
    ∀ x ∈ offsets, ∃ i next, a.engine.program.fetch x = .ok (i, next) := by
  induction h with
  | start => simp
  | @step offsets b ip table hrun hip hok hstays ih =>
      intro x hx
      rcases List.mem_append.1 hx with hx | hx
      · exact ih x hx
      · cases List.mem_singleton.1 hx
        obtain ⟨i, next, hfetch, -⟩ := step_behind hip hok hstays
        rw [hrun.program_eq] at hfetch
        exact ⟨i, next, hfetch⟩

theorem ip_of_getLast? {x : Word} (h : Straight a offsets b) (hx : offsets.getLast? = some x) :
    ∃ i next, a.engine.program.fetch x = .ok (i, next) ∧ b.engine.machine.ip = some next := by
  cases h with
  | start => cases hx
  | step table hrun hip hok hstays =>
      rw [List.getLast?_concat] at hx
      cases hx
      obtain ⟨i, next, hfetch, hnext⟩ := step_behind hip hok hstays
      rw [hrun.program_eq] at hfetch
      exact ⟨i, next, hfetch, hnext⟩

theorem isChain {R : Word → Word → Prop} (h : Straight a offsets b)
    (hfirst : a.engine.machine.ip = some first)
    (hR : ∀ x ∈ offsets, ∀ i y, a.engine.program.fetch x = .ok (i, y) → R x y) :
    ∃ last, b.engine.machine.ip = some last ∧ (offsets ++ [last]).head? = some first ∧
      (offsets ++ [last]).IsChain R := by
  induction h with
  | start => exact ⟨first, hfirst, rfl, .singleton first⟩
  | @step offsets b ip table hrun hip hok hstays ih =>
      obtain ⟨last, hlast, hhead, hchain⟩ := ih fun x hx => hR x (List.mem_append_left _ hx)
      cases hip.symm.trans hlast
      obtain ⟨i, next, hfetch, hnext⟩ := step_behind hip hok hstays
      rw [hrun.program_eq] at hfetch
      have hlink : R ip next := hR ip (List.mem_append_right _ List.mem_cons_self) i next hfetch
      refine ⟨next, hnext, ?_, ?_⟩
      · rw [List.head?_append_of_ne_nil _ (by simp), hhead]
      · rw [List.isChain_append]
        refine ⟨hchain, .singleton next, ?_⟩
        simpa using hlink

/-- A straight run ascends and halts the engine at the end of the program, as long as no instruction
takes the last address.  One that does, which needs at least 65536 words, is followed by the first
address. -/
theorem ascends (h : Straight a offsets b) (hfirst : a.engine.machine.ip = some first) :
    let p := a.engine.program
    ∃ last, b.engine.machine.ip = some last ∧ (offsets ++ [last]).head? = some first ∧
      (offsets ++ [last]).IsChain
        (fun x y => ∃ i, p.fetch x = .ok (i, y) ∧ y.toNat = (x.toNat + i.size) % 65536) ∧
      (p.words.size < 65536 → ∀ x, ¬p.WrapsAt x) ∧
      ((∀ x ∈ offsets, ¬p.WrapsAt x) →
        (offsets ++ [last]).IsChain
          (fun x y => ∃ i, p.fetch x = .ok (i, y) ∧ y.toNat = x.toNat + i.size) ∧
        (offsets ++ [last]).Pairwise (· < ·) ∧ 0 ∉ (offsets ++ [last]).tail ∧
        offsets.length ≤ p.words.size ∧
        ∀ x i y, offsets.getLast? = some x → p.fetch x = .ok (i, y) →
          x.toNat + i.size = p.words.size → ∀ table : NativeTable ω,
            (b.step table).value = .error (.invalidAddress last) ∧
              (b.step table).after.engine.status = .halted) := by
  intro p
  obtain ⟨last, hlast, hhead, hchain⟩ := h.isChain hfirst
    (R := fun x y => ∃ i, p.fetch x = .ok (i, y) ∧ y.toNat = (x.toNat + i.size) % 65536)
    fun x _ i y hfetch => ⟨i, hfetch, Program.toNat_following hfetch⟩
  refine ⟨last, hlast, hhead, hchain, Program.not_wrapsAt, fun hwraps => ?_⟩
  obtain ⟨last', hlast', -, hascends⟩ := h.isChain hfirst
    (R := fun x y => ∃ i, p.fetch x = .ok (i, y) ∧ y.toNat = x.toNat + i.size)
    fun x hx i y hfetch =>
      ⟨i, hfetch, Program.toNat_following_of_not_wrapsAt (hwraps x hx) hfetch⟩
  cases hlast.symm.trans hlast'
  have hsorted : (offsets ++ [last]).Pairwise (· < ·) := by
    apply List.IsChain.pairwise
    refine hascends.imp ?_
    rintro x y ⟨i, -, hy⟩
    have hpos := i.size_pos
    rw [UInt16.lt_iff_toNat_lt]
    omega
  refine ⟨hascends, hsorted, ?_, ?_, ?_⟩
  · -- An offset behind the first is larger than the first.
    cases hlist : offsets ++ [last] with
    | nil => exact List.not_mem_nil
    | cons head tail =>
        rw [hlist] at hsorted
        intro hzero
        have hlt := (List.pairwise_cons.1 hsorted).1 0 hzero
        exact absurd (UInt16.lt_iff_toNat_lt.1 hlt) (Nat.not_lt_zero _)
  · exact Program.length_le_of_fetch (List.pairwise_append.1 hsorted).1 h.fetched
  · intro x i y hx hfetch hends table
    obtain ⟨i', next, hfetch', hip⟩ := h.ip_of_getLast? hx
    cases hfetch.symm.trans hfetch'
    cases hlast.symm.trans hip
    have hnext := Program.toNat_following_of_not_wrapsAt (hwraps x (List.mem_of_getLast? hx)) hfetch
    refine step_outside hlast ?_ table
    rw [h.program_eq, hnext]
    exact hends.ge

/-- Two instructions, one of them in two words, and the end of the program. -/
theorem ascends_two_words :
    let a : Actor Unit :=
      ⟨{ program := { words := #[0x4105, 0x2100, 0x0007] }, machine := { ip := some 0 } }, ()⟩
    let table : NativeTable Unit := .empty .unknown
    let b := ((a.step table).after.step table).after
    b.engine.machine.ip = some 3 ∧ [(0 : Word), 1, 3].Pairwise (· < ·) ∧
      (b.step table).value = .error (.invalidAddress 3) ∧
      (b.step table).after.engine.status = .halted := by
  intro a table b
  have hfirst : a.operation? = some (.setResult, 5, 1) := by decide
  have hsecond : (a.step table).after.operation? = some (.setResult, 7, 3) := by decide
  have hrun : Straight a [0, 1] b :=
    .step table (.step table .start rfl (by decide) (not_transfers hfirst (by decide))) (by decide)
      (by decide) (not_transfers hsecond (by decide))
  obtain ⟨last, hlast, -, -, hshort, hascends⟩ := hrun.ascends rfl
  obtain ⟨-, hsorted, -, -, hends⟩ := hascends fun x _ => hshort (by decide) x
  have hthree : b.engine.machine.ip = some 3 := by decide
  cases hthree.symm.trans hlast
  exact ⟨hthree, hsorted, hends 1 ⟨1, 7, .word⟩ 3 rfl (by decide) (by decide) table⟩

/-- With an instruction at every address, the step at the last one succeeds, ends with the program
and leads to the first. -/
theorem ascends_wrapped :
    let program : Program := { entries := #[65535], words := .replicate 65536 0x0100 }
    let a : Actor Unit := ⟨(Engine.load { program := program } 0).after, ()⟩
    let table : NativeTable Unit := .empty .unknown
    a.engine.machine.ip = some 65535 ∧ Straight a [65535] (a.step table).after ∧
      (∃ i next, program.fetch 65535 = .ok (i, next) ∧ 65535 + i.size = program.words.size) ∧
      (a.step table).after.engine.machine.ip = some 0 ∧
      ((a.step table).after.step table).value = .ok true := by
  intro program a table
  have hfetch (offset : Word) : program.fetch offset = .ok (⟨1, 0, .bare⟩, offset + 1) := by
    have hword : program.words[offset.toNat]? = some 0x0100 :=
      (Array.getElem?_replicate ..).trans (if_pos offset.toNat_lt)
    rw [Program.fetch, Instruction.at?, hword]
    rfl
  have hoperation (c : Actor Unit) (ip : Word) (hprogram : c.engine.program = program)
      (hip : c.engine.machine.ip = some ip) :
      c.operation? = some (.setResult, 0, ip + 1) :=
    operation?_eq_some_iff.2 ⟨ip, _, hip, hprogram ▸ hfetch ip, by decide, rfl⟩
  have hprogram : a.engine.program = program := rfl
  have hip : a.engine.machine.ip = some 65535 := rfl
  have hlast := hoperation a 65535 hprogram hip
  obtain ⟨hok, hafter⟩ := step_operation_ok table hlast (by decide) rfl
  have hzero : (a.step table).after.engine.machine.ip = some 0 := by
    rw [hafter]
    rfl
  have hbehind := hoperation (a.step table).after 0 ((step_fixed table a).1.trans hprogram) hzero
  have hrun := Straight.start.step table hip hok (not_transfers hlast (by decide))
  refine ⟨hip, hrun, ⟨_, _, hfetch 65535, ?_⟩, hzero, ?_⟩
  · exact Array.size_replicate.symm
  · exact (step_operation_ok table hbehind (by decide) rfl).1

end Straight

end Actor

end EntityScript

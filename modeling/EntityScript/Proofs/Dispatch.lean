import EntityScript.Engine.Step
import EntityScript.Proofs.Operations

namespace EntityScript.Actor

variable {ω : Type} {a : Actor ω} {opcode : Opcode} {parameter next : Word}

/-- The operation that the next step executes, its parameter, and the offset that follows it. -/
def operation? (a : Actor ω) : Option (Opcode × Word × Word) :=
  match a.engine.machine.ip with
  | none => none
  | some ip =>
      match a.engine.program.fetch ip with
      | .error _ => none
      | .ok (instruction, next) =>
          instruction.opcode?.map fun opcode => (opcode, instruction.parameter, next)

/-- The machine when an operation starts: the instruction pointer is past the instruction. -/
def begun (a : Actor ω) (next : Word) : Machine :=
  { a.engine.machine with ip := some next }

/-- The actor after an operation that left a machine. -/
def executed (a : Actor ω) (opcode : Opcode) (machine : Machine) : Actor ω :=
  ⟨{ a.engine with machine := machine, report := a.engine.report.countOpcode opcode }, a.owner⟩

/-- The actor after a native function that left a machine and an owner. -/
def called (a : Actor ω) (parameter : Word) (machine : Machine) (owner : ω) : Actor ω :=
  ⟨{ a.engine with
      machine := machine
      report := (a.engine.report.countOpcode .function).countCall (parameter &&& 0xFF) }, owner⟩

def site (a : Actor ω) : CallSite :=
  ⟨a.engine.program, a.engine.settings⟩

def opened (a : Actor ω) (next : Word) : Call ω :=
  { machine := a.begun next, owner := a.owner }

/-- The call of the native function of a slot that the next step makes. -/
def call (table : NativeTable ω) (a : Actor ω) (parameter next : Word) :
    EStateM.Result Fault (Call ω) Word :=
  table.invoke (parameter &&& 0xFF) a.site (a.opened next)

theorem operation?_eq_some_iff :
    a.operation? = some (opcode, parameter, next) ↔
      ∃ ip instruction, a.engine.machine.ip = some ip ∧
        a.engine.program.fetch ip = .ok (instruction, next) ∧
          instruction.opcode? = some opcode ∧ instruction.parameter = parameter := by
  unfold operation?
  constructor
  · intro h
    split at h
    · simp at h
    · rename_i ip hip
      split at h
      · simp at h
      · rename_i instruction after hfetch
        obtain ⟨found, hopcode, heq⟩ := Option.map_eq_some_iff.1 h
        obtain ⟨rfl, rfl, rfl⟩ := heq
        exact ⟨ip, instruction, hip, hfetch, hopcode, rfl⟩
  · rintro ⟨ip, instruction, hip, hfetch, hopcode, rfl⟩
    simp only [hip, hfetch, hopcode, Option.map_some]

variable {table : NativeTable ω}

theorem call_bound {native : Native ω}
    (h : table.get? (parameter &&& 0xFF) = some native) :
    a.call table parameter next = native a.site (a.opened next) := by
  rw [call, NativeTable.invoke, h]

theorem call_unbound (h : table.get? (parameter &&& 0xFF) = none) :
    a.call table parameter next =
      .error (.unknownFunction (parameter &&& 0xFF)) (a.opened next) := by
  rw [call, NativeTable.invoke, h]
  rfl

variable [Owner ω] (table)

theorem step_unloaded (h : a.engine.machine.ip = none) :
    (a.step table).value = .ok false ∧ (a.step table).after = a := by
  simp only [step, h, and_self]

theorem step_no_operation (hloaded : a.engine.machine.ip ≠ none) (h : a.operation? = none) :
    (∃ fault, (a.step table).value = .error fault) ∧
      (a.step table).after = a.mapEngine Engine.halt := by
  obtain ⟨ip, hip⟩ := Option.ne_none_iff_exists'.1 hloaded
  unfold operation? at h
  simp only [hip] at h
  cases hfetch : a.engine.program.fetch ip with
  | error fault =>
      simp only [step, hip, hfetch]
      exact ⟨⟨fault, rfl⟩, rfl⟩
  | ok found =>
      obtain ⟨instruction, after⟩ := found
      simp only [hfetch, Option.map_eq_none_iff] at h
      simp only [step, hip, hfetch, execute, h]
      exact ⟨⟨_, rfl⟩, rfl⟩

theorem step_no_operation_machine (h : a.operation? = none) :
    (a.step table).after.engine.machine = { a.engine.machine with ip := none } := by
  by_cases hloaded : a.engine.machine.ip = none
  · rw [(step_unloaded table hloaded).2, ← hloaded]
  · rw [(step_no_operation table hloaded h).2]
    rfl

section Instruction

variable {ip : Word} {instruction : Instruction}

theorem step_instruction_ok (hip : a.engine.machine.ip = some ip)
    (hfetch : a.engine.program.fetch ip = .ok (instruction, next))
    (hvalue : ((a.withMachine (a.begun next)).execute table instruction next).value = .ok ()) :
    (a.step table).value = .ok true ∧
      (a.step table).after =
        ((a.withMachine (a.begun next)).execute table instruction next).after := by
  have hbegun : { a.engine.machine with ip := some next } = a.begun next := rfl
  simp only [step, hip, hfetch, hbegun, hvalue, and_self]

theorem step_instruction_error {fault : Fault} (hip : a.engine.machine.ip = some ip)
    (hfetch : a.engine.program.fetch ip = .ok (instruction, next))
    (hvalue : ((a.withMachine (a.begun next)).execute table instruction next).value =
      .error fault) :
    (a.step table).value = .error fault ∧
      (a.step table).after =
        ((a.withMachine (a.begun next)).execute table instruction next).after.mapEngine
          Engine.halt := by
  have hbegun : { a.engine.machine with ip := some next } = a.begun next := rfl
  simp only [step, hip, hfetch, hbegun, hvalue, fail, and_self]

omit [Owner ω] in
theorem execute_operation {instruction : Instruction} (hcode : instruction.opcode? = some opcode)
    (hopcode : opcode ≠ .function) :
    a.execute table instruction next =
      (a.mapEngine fun e => { e with report := e.report.countOpcode opcode }).onMachine
        (Machine.execute opcode instruction.parameter next) := by
  simp only [execute, hcode]

end Instruction

theorem step_operation_ok {m : Machine} (h : a.operation? = some (opcode, parameter, next))
    (hopcode : opcode ≠ .function)
    (hrun : Machine.execute opcode parameter next (a.begun next) = .ok () m) :
    (a.step table).value = .ok true ∧ (a.step table).after = a.executed opcode m := by
  obtain ⟨ip, instruction, hip, hfetch, hcode, rfl⟩ := operation?_eq_some_iff.1 h
  have hdone : (a.withMachine (a.begun next)).execute table instruction next =
      { value := .ok (), after := a.executed opcode m } := by
    rw [execute_operation table hcode hopcode]
    simp only [onMachine, mapEngine, withMachine, hrun, executed]
  have hstep := step_instruction_ok table hip hfetch (by rw [hdone])
  rwa [hdone] at hstep

theorem step_operation_error {fault : Fault} {m : Machine}
    (h : a.operation? = some (opcode, parameter, next)) (hopcode : opcode ≠ .function)
    (hrun : Machine.execute opcode parameter next (a.begun next) = .error fault m) :
    (a.step table).value = .error fault ∧
      (a.step table).after = (a.executed opcode m).mapEngine Engine.halt := by
  obtain ⟨ip, instruction, hip, hfetch, hcode, rfl⟩ := operation?_eq_some_iff.1 h
  have hdone : (a.withMachine (a.begun next)).execute table instruction next =
      { value := .error fault, after := a.executed opcode m } := by
    rw [execute_operation table hcode hopcode]
    simp only [onMachine, mapEngine, withMachine, hrun, executed]
  have hstep := step_instruction_error table hip hfetch (by rw [hdone])
  rwa [hdone] at hstep

theorem step_operation_machine (h : a.operation? = some (opcode, parameter, next))
    (hopcode : opcode ≠ .function) :
    (a.step table).after.engine.machine =
        Machine.endState (Machine.execute opcode parameter next (a.begun next)) ∨
      (a.step table).after.engine.machine =
        { Machine.endState (Machine.execute opcode parameter next (a.begun next)) with
          ip := none } := by
  cases hrun : Machine.execute opcode parameter next (a.begun next) with
  | ok value m =>
      rw [(step_operation_ok table h hopcode hrun).2]
      exact .inl rfl
  | error fault m =>
      rw [(step_operation_error table h hopcode hrun).2]
      exact .inr rfl

variable {table}

omit [Owner ω] in
theorem execute_call_ok {instruction : Instruction} {value : Word} {done : Call ω}
    (hcode : instruction.opcode? = some .function)
    (hcall : a.call table instruction.parameter next = .ok value done) :
    ((a.withMachine (a.begun next)).execute table instruction next).value = .ok () ∧
      ((a.withMachine (a.begun next)).execute table instruction next).after =
        let b := a.called instruction.parameter { done.machine with result := value } done.owner
        if done.stopped then b.mapEngine Engine.halt else b := by
  simp only [call, site, opened] at hcall
  simp only [execute, hcode, callNative, mapEngine, withMachine, hcall]
  constructor
  · split <;> rfl
  · split <;> rfl

omit [Owner ω] in
theorem execute_call_error {instruction : Instruction} {fault : Fault} {done : Call ω}
    (hcode : instruction.opcode? = some .function)
    (hcall : a.call table instruction.parameter next = .error fault done) :
    ((a.withMachine (a.begun next)).execute table instruction next).value = .error fault ∧
      ((a.withMachine (a.begun next)).execute table instruction next).after =
        a.called instruction.parameter done.machine done.owner := by
  simp only [call, site, opened] at hcall
  simp only [execute, hcode, callNative, mapEngine, withMachine, hcall, true_and]
  rfl

theorem step_call_ok {value : Word} {done : Call ω}
    (h : a.operation? = some (.function, parameter, next))
    (hcall : a.call table parameter next = .ok value done) :
    (a.step table).value = .ok true ∧
      (a.step table).after =
        let b := a.called parameter { done.machine with result := value } done.owner
        if done.stopped then b.mapEngine Engine.halt else b := by
  obtain ⟨ip, instruction, hip, hfetch, hcode, rfl⟩ := operation?_eq_some_iff.1 h
  have hdone := execute_call_ok hcode hcall
  have hstep := step_instruction_ok table hip hfetch hdone.1
  exact ⟨hstep.1, hstep.2.trans hdone.2⟩

theorem step_call_error {fault : Fault} {done : Call ω}
    (h : a.operation? = some (.function, parameter, next))
    (hcall : a.call table parameter next = .error fault done) :
    (a.step table).value = .error fault ∧
      (a.step table).after =
        (a.called parameter done.machine done.owner).mapEngine Engine.halt := by
  obtain ⟨ip, instruction, hip, hfetch, hcode, rfl⟩ := operation?_eq_some_iff.1 h
  have hdone := execute_call_error hcode hcall
  have hstep := step_instruction_error table hip hfetch hdone.1
  rwa [hdone.2] at hstep

/-- All that a step can do. -/
inductive StepCase (table : NativeTable ω) (a : Actor ω) : Prop
  | unloaded (hloaded : a.engine.machine.ip = none)
      (hvalue : (a.step table).value = .ok false) (hafter : (a.step table).after = a)
  | stray {fault : Fault} (hloaded : a.engine.machine.ip ≠ none) (hoperation : a.operation? = none)
      (hvalue : (a.step table).value = .error fault)
      (hafter : (a.step table).after = a.mapEngine Engine.halt)
  | executed {opcode : Opcode} {parameter next : Word} {m : Machine}
      (hoperation : a.operation? = some (opcode, parameter, next)) (hopcode : opcode ≠ .function)
      (hrun : Machine.execute opcode parameter next (a.begun next) = .ok () m)
      (hvalue : (a.step table).value = .ok true)
      (hafter : (a.step table).after = a.executed opcode m)
  | refused {opcode : Opcode} {parameter next : Word} {fault : Fault} {m : Machine}
      (hoperation : a.operation? = some (opcode, parameter, next)) (hopcode : opcode ≠ .function)
      (hrun : Machine.execute opcode parameter next (a.begun next) = .error fault m)
      (hvalue : (a.step table).value = .error fault)
      (hafter : (a.step table).after = (a.executed opcode m).mapEngine Engine.halt)
  | returned {parameter next value : Word} {done : Call ω}
      (hoperation : a.operation? = some (.function, parameter, next))
      (hcall : a.call table parameter next = .ok value done) (hstopped : done.stopped = false)
      (hvalue : (a.step table).value = .ok true)
      (hafter : (a.step table).after =
        a.called parameter { done.machine with result := value } done.owner)
  | stopped {parameter next value : Word} {done : Call ω}
      (hoperation : a.operation? = some (.function, parameter, next))
      (hcall : a.call table parameter next = .ok value done) (hstopped : done.stopped = true)
      (hvalue : (a.step table).value = .ok true)
      (hafter : (a.step table).after =
        (a.called parameter { done.machine with result := value } done.owner).mapEngine Engine.halt)
  | raised {parameter next : Word} {fault : Fault} {done : Call ω}
      (hoperation : a.operation? = some (.function, parameter, next))
      (hcall : a.call table parameter next = .error fault done)
      (hvalue : (a.step table).value = .error fault)
      (hafter : (a.step table).after =
        (a.called parameter done.machine done.owner).mapEngine Engine.halt)

theorem stepCase (table : NativeTable ω) (a : Actor ω) : StepCase table a := by
  cases hoperation : a.operation? with
  | none =>
      by_cases hloaded : a.engine.machine.ip = none
      · obtain ⟨hvalue, hafter⟩ := step_unloaded table hloaded
        exact .unloaded hloaded hvalue hafter
      · obtain ⟨⟨fault, hvalue⟩, hafter⟩ := step_no_operation table hloaded hoperation
        exact .stray hloaded hoperation hvalue hafter
  | some operation =>
      obtain ⟨opcode, parameter, next⟩ := operation
      by_cases hopcode : opcode = .function
      · subst opcode
        cases hcall : a.call table parameter next with
        | ok value done =>
            obtain ⟨hvalue, hafter⟩ := step_call_ok hoperation hcall
            cases hstopped : done.stopped with
            | true => exact .stopped hoperation hcall hstopped hvalue (hafter.trans (if_pos hstopped))
            | false =>
                have hgoes : ¬done.stopped = true := by simp [hstopped]
                exact .returned hoperation hcall hstopped hvalue (hafter.trans (if_neg hgoes))
        | error fault done =>
            obtain ⟨hvalue, hafter⟩ := step_call_error hoperation hcall
            exact .raised hoperation hcall hvalue hafter
      · cases hrun : Machine.execute opcode parameter next (a.begun next) with
        | ok value m =>
            obtain ⟨hvalue, hafter⟩ := step_operation_ok table hoperation hopcode hrun
            exact .executed hoperation hopcode hrun hvalue hafter
        | error fault m =>
            obtain ⟨hvalue, hafter⟩ := step_operation_error table hoperation hopcode hrun
            exact .refused hoperation hopcode hrun hvalue hafter

theorem step_loaded_after (table : NativeTable ω) (h : a.engine.machine.ip ≠ none) :
    ∃ machine report owner,
      let b : Actor ω := ⟨{ a.engine with machine := machine, report := report }, owner⟩
      (a.step table).after = b ∨ (a.step table).after = b.mapEngine Engine.halt := by
  cases a.stepCase table with
  | unloaded hloaded => exact (h hloaded).elim
  | stray _ _ _ hafter => exact ⟨_, _, _, .inr hafter⟩
  | executed _ _ _ _ hafter => exact ⟨_, _, _, .inl hafter⟩
  | refused _ _ _ _ hafter => exact ⟨_, _, _, .inr hafter⟩
  | returned _ _ _ _ hafter => exact ⟨_, _, _, .inl hafter⟩
  | stopped _ _ _ _ hafter => exact ⟨_, _, _, .inr hafter⟩
  | raised _ _ _ hafter => exact ⟨_, _, _, .inr hafter⟩

theorem step_fixed (table : NativeTable ω) (a : Actor ω) :
    (a.step table).after.engine.program = a.engine.program ∧
      (a.step table).after.engine.settings = a.engine.settings := by
  by_cases hloaded : a.engine.machine.ip = none
  · rw [(step_unloaded table hloaded).2]
    exact ⟨rfl, rfl⟩
  · obtain ⟨machine, report, owner, hafter | hafter⟩ := step_loaded_after table hloaded
    · rw [hafter]
      exact ⟨rfl, rfl⟩
    · rw [hafter]
      exact ⟨rfl, rfl⟩

theorem step_error {fault : Fault} (h : (a.step table).value = .error fault) :
    (∃ parameter next done, a.operation? = some (.function, parameter, next) ∧
        a.call table parameter next = .error fault done ∧
        (a.step table).after =
          (a.called parameter done.machine done.owner).mapEngine Engine.halt) ∨
      (∃ opcode parameter next m, a.operation? = some (opcode, parameter, next) ∧
        Machine.execute opcode parameter next (a.begun next) = .error fault m ∧
        (a.step table).after = (a.executed opcode m).mapEngine Engine.halt) ∨
      (a.step table).after = a.mapEngine Engine.halt := by
  cases a.stepCase table with
  | unloaded _ hvalue => cases hvalue.symm.trans h
  | stray _ _ _ hafter => exact .inr (.inr hafter)
  | executed _ _ _ hvalue => cases hvalue.symm.trans h
  | refused hoperation _ hrun hvalue hafter =>
      cases hvalue.symm.trans h
      exact .inr (.inl ⟨_, _, _, _, hoperation, hrun, hafter⟩)
  | returned _ _ _ hvalue => cases hvalue.symm.trans h
  | stopped _ _ _ hvalue => cases hvalue.symm.trans h
  | raised hoperation hcall hvalue hafter =>
      cases hvalue.symm.trans h
      exact .inl ⟨_, _, _, hoperation, hcall, hafter⟩

theorem step_error_unloaded {fault : Fault} (h : (a.step table).value = .error fault) :
    (a.step table).after.engine.machine.ip = none := by
  rcases step_error h with ⟨_, _, _, _, _, hafter⟩ | ⟨_, _, _, _, _, _, hafter⟩ | hafter
  · rw [hafter]
    rfl
  · rw [hafter]
    rfl
  · rw [hafter]
    rfl

section Subroutine

variable {subtype : Word} {m : Machine}

theorem loadSubroutine_ok
    (h : Machine.enterSubroutine a.engine.program subtype a.engine.machine = .ok () m) :
    (a.loadSubroutine subtype).value = .ok () ∧
      (a.loadSubroutine subtype).after = a.withMachine m := by
  simp only [loadSubroutine, onMachine, h, and_self]

theorem loadSubroutine_error {fault : Fault}
    (h : Machine.enterSubroutine a.engine.program subtype a.engine.machine = .error fault m) :
    (a.loadSubroutine subtype).value = .error fault ∧
      (a.loadSubroutine subtype).after = (a.withMachine m).mapEngine Engine.halt := by
  simp only [loadSubroutine, onMachine, h, fail, and_self]

theorem loadSubroutine_machine (a : Actor ω) (subtype : Word) :
    (a.loadSubroutine subtype).after.engine.machine =
        Machine.endState (Machine.enterSubroutine a.engine.program subtype a.engine.machine) ∨
      (a.loadSubroutine subtype).after.engine.machine =
        { Machine.endState (Machine.enterSubroutine a.engine.program subtype a.engine.machine) with
          ip := none } := by
  cases hentered : Machine.enterSubroutine a.engine.program subtype a.engine.machine with
  | ok value m =>
      rw [(loadSubroutine_ok hentered).2]
      exact .inl rfl
  | error fault m =>
      rw [(loadSubroutine_error hentered).2]
      exact .inr rfl

end Subroutine

end EntityScript.Actor

import EntityScript.Proofs.Accounting
import EntityScript.Proofs.Routine

namespace EntityScript

open Machine (endState)

namespace Event

def isError (event : Event) : Bool :=
  event.level = .error

def isStop : Event → Bool
  | stopped _ => true
  | _ => false

def errors (events : Array Event) : List Event :=
  events.toList.filter isError

theorem errors_append (events later : Array Event) :
    errors (events ++ later) = errors events ++ errors later := by
  rw [errors, Array.toList_append, List.filter_append]
  rfl

end Event

variable {ω : Type}

namespace Actor

/-- The instruction at the instruction pointer, if there is one. -/
def decoded? (a : Actor ω) : Option Instruction :=
  match a.engine.machine.ip with
  | none => none
  | some ip =>
      match a.engine.program.fetch ip with
      | .error _ => none
      | .ok (instruction, _) => some instruction

end Actor

/-- How the report of a fault names what was executed. -/
def Instruction.faultName (decoded : Option Instruction) : String :=
  match decoded with
  | none => "-"
  | some instruction =>
      match instruction.opcode? with
      | none => "op" ++ toString instruction.code
      | some opcode => opcode.mnemonic

theorem Event.fields_halted (owner : OwnerLabel) (ip : Word) (decoded : Option Instruction)
    (fault : Fault) :
    (halted owner (some ip) decoded fault).fields =
      [("category", owner.category.name), ("index", toString owner.index),
        ("subtype", toString owner.subtype), ("offset", s!"Some({ip})"),
        ("opcode", Instruction.faultName decoded)] := by
  cases decoded with
  | none => rfl
  | some instruction =>
      simp only [fields, Instruction.faultName, Option.map_some, Option.getD_some,
        Instruction.mnemonic]
      cases instruction.opcode? with
      | none => rfl
      | some opcode => rfl

namespace Stride

def begins (s : Stride) : Array Event :=
  match s.start.engine.machine.ip, s.start.decoded? with
  | some ip, some instruction => #[.dispatched ip instruction]
  | _, _ => #[]

/-- What the native function that is called reports itself. -/
def logged (s : Stride) : Array Event :=
  match s.start.operation? with
  | some (.function, parameter, next) =>
      (endState (s.start.call s.table parameter next)).events
  | _ => #[]

def stopReport (s : Stride) : Array Event :=
  if s.stops then (s.slot?.map .stopped).toArray else #[]

/-- What is reported when the step fails. -/
def faultReport (s : Stride) : Array Event :=
  match (s.start.step s.table).value with
  | .ok _ => #[]
  | .error fault =>
      #[.halted (Owner.label (s.start.step s.table).after.owner) s.start.engine.machine.ip
        s.start.decoded? fault]

end Stride

namespace Actor

variable {a : Actor ω} {table : NativeTable ω} {instruction : Instruction} {next : Word}

theorem execute_operation_events {opcode : Opcode} (hcode : instruction.opcode? = some opcode)
    (hopcode : opcode ≠ .function) : (a.execute table instruction next).events = #[] := by
  rw [execute_operation table hcode hopcode, onMachine]
  split <;> rfl

theorem execute_call_events {value : Word} {done : Call ω}
    (hcode : instruction.opcode? = some .function)
    (hcall : a.call table instruction.parameter next = .ok value done) :
    ((a.withMachine (a.begun next)).execute table instruction next).events =
      done.events ++ if done.stopped then #[.stopped (instruction.parameter &&& 0xFF)] else #[] := by
  simp only [call, site, opened] at hcall
  simp only [execute, hcode, callNative, mapEngine, withMachine, hcall]
  split
  · exact Array.push_eq_append
  · exact Array.append_empty.symm

theorem execute_failed_call_events {fault : Fault} {done : Call ω}
    (hcode : instruction.opcode? = some .function)
    (hcall : a.call table instruction.parameter next = .error fault done) :
    ((a.withMachine (a.begun next)).execute table instruction next).events = done.events := by
  simp only [call, site, opened] at hcall
  simp only [execute, hcode, callNative, mapEngine, withMachine, hcall]

end Actor

namespace Stride

variable {s : Stride} {ip next : Word} {instruction : Instruction}

theorem logged_operation {opcode : Opcode} {parameter : Word}
    (h : s.start.operation? = some (opcode, parameter, next)) (hopcode : opcode ≠ .function) :
    s.logged = #[] := by
  rw [logged, h]
  cases opcode with
  | function => exact (hopcode rfl).elim
  | _ => rfl

theorem logged_no_operation (h : s.start.operation? = none) : s.logged = #[] := by
  rw [logged, h]

theorem stopReport_eq_empty (h : s.stops = false) : s.stopReport = #[] := by
  rw [stopReport, h]
  rfl

theorem faultReport_ok {done : Bool} (h : (s.start.step s.table).value = .ok done) :
    s.faultReport = #[] := by
  rw [faultReport, h]

theorem faultReport_error {fault : Fault} (h : (s.start.step s.table).value = .error fault) :
    s.faultReport =
      #[.halted (Owner.label (s.start.step s.table).after.owner) s.start.engine.machine.ip
        s.start.decoded? fault] := by
  rw [faultReport, h]

theorem events_fetched (hip : s.start.engine.machine.ip = some ip)
    (hfetch : s.start.engine.program.fetch ip = .ok (instruction, next)) :
    (s.start.step s.table).events =
      #[.dispatched ip instruction] ++
        ((s.start.withMachine (s.start.begun next)).execute s.table instruction next).events ++
          s.faultReport := by
  have hdecoded : s.start.decoded? = some instruction := by
    simp only [Actor.decoded?, hip, hfetch]
  have hbegun : { s.start.engine.machine with ip := some next } = s.start.begun next := rfl
  cases hvalue :
    ((s.start.withMachine (s.start.begun next)).execute s.table instruction next).value with
  | ok done =>
      rw [faultReport_ok (Actor.step_instruction_ok s.table hip hfetch hvalue).1]
      simp only [Actor.step, hip, hfetch, hbegun, hvalue, Array.append_empty]
  | error fault =>
      obtain ⟨herror, hafter⟩ := Actor.step_instruction_error s.table hip hfetch hvalue
      rw [faultReport_error herror, hafter, hip, hdecoded]
      simp only [Actor.step, hip, hfetch, hbegun, hvalue]
      rfl

theorem events_execute (hip : s.start.engine.machine.ip = some ip)
    (hfetch : s.start.engine.program.fetch ip = .ok (instruction, next)) :
    ((s.start.withMachine (s.start.begun next)).execute s.table instruction next).events =
      s.logged ++ s.stopReport := by
  cases hcode : instruction.opcode? with
  | none =>
      have hoperation : s.start.operation? = none := by
        simp only [Actor.operation?, hip, hfetch, hcode, Option.map_none]
      rw [logged_no_operation hoperation, stopReport_eq_empty (stops_no_operation hoperation)]
      simp only [Actor.execute, hcode, Array.append_empty]
  | some opcode =>
      have hoperation : s.start.operation? = some (opcode, instruction.parameter, next) :=
        Actor.operation?_eq_some_iff.2 ⟨ip, instruction, hip, hfetch, hcode, rfl⟩
      by_cases hopcode : opcode = .function
      · subst hopcode
        simp only [logged, stopReport, stops, slot?, hoperation]
        cases hcall : s.start.call s.table instruction.parameter next with
        | ok value done =>
            rw [Actor.execute_call_events hcode hcall]
            rfl
        | error fault done =>
            rw [Actor.execute_failed_call_events hcode hcall]
            exact Array.append_empty.symm
      · rw [Actor.execute_operation_events hcode hopcode, logged_operation hoperation hopcode,
          stopReport_eq_empty (slot?_operation hoperation hopcode).2]
        rfl

theorem events_eq (s : Stride) :
    (s.start.step s.table).events = s.begins ++ s.logged ++ s.stopReport ++ s.faultReport := by
  cases hip : s.start.engine.machine.ip with
  | none =>
      have hoperation : s.start.operation? = none := by simp only [Actor.operation?, hip]
      rw [Actor.step_eq_of_unloaded hip, logged_no_operation hoperation,
        stopReport_eq_empty (stops_no_operation hoperation),
        faultReport_ok (Actor.step_unloaded s.table hip).1, begins, hip]
      rfl
  | some ip =>
      cases hfetch : s.start.engine.program.fetch ip with
      | error fault =>
          have hoperation : s.start.operation? = none := by
            simp only [Actor.operation?, hip, hfetch]
          have hdecoded : s.start.decoded? = none := by simp only [Actor.decoded?, hip, hfetch]
          have hstep : s.start.step s.table = s.start.fail (some ip) none fault := by
            simp only [Actor.step, hip, hfetch]
          have hvalue : (s.start.step s.table).value = .error fault := congrArg Outcome.value hstep
          rw [logged_no_operation hoperation, stopReport_eq_empty (stops_no_operation hoperation),
            faultReport_error hvalue, begins, hip, hdecoded, hstep]
          rfl
      | ok fetched =>
          obtain ⟨instruction, next⟩ := fetched
          have hdecoded : s.start.decoded? = some instruction := by
            simp only [Actor.decoded?, hip, hfetch]
          have hbegins : s.begins = #[.dispatched ip instruction] := by
            rw [begins, hip, hdecoded]
          rw [events_fetched hip hfetch, events_execute hip hfetch, hbegins]
          simp only [Array.append_assoc]

end Stride

/-- An action that reports no fault itself. -/
def Native.Quiet {α : Type} (action : NativeM ω α) : Prop :=
  ∀ site call, ∀ event ∈ (endState (action site call)).events,
    event.isError = true → event ∈ call.events

namespace Native.Quiet

variable {α β : Type}

theorem of_events {action : NativeM ω α}
    (h : ∀ site call, (endState (action site call)).events = call.events) : Quiet action := by
  intro site call event hevent _
  rwa [h site call] at hevent

theorem bind {f : NativeM ω α} {k : α → NativeM ω β} (hf : Quiet f)
    (hk : ∀ value, Quiet (k value)) : Quiet (f >>= k) := by
  intro site call
  have hfirst := hf site call
  cases hresult : f site call with
  | error fault done =>
      rw [hresult] at hfirst
      rw [bind_error hresult]
      exact hfirst
  | ok value done =>
      rw [hresult] at hfirst
      rw [bind_ok hresult]
      intro event hevent herror
      exact hfirst event (hk value site done event hevent herror) herror

theorem report {event : Event} (h : event.isError = false) :
    Quiet (Native.report event : NativeM ω Unit) := by
  intro site call other hother herror
  rcases Array.mem_push.1 hother with hold | rfl
  · exact hold
  · cases h.symm.trans herror

theorem modifyOwner (change : ω → ω) : Quiet (Native.modifyOwner change) :=
  of_events fun _ _ => rfl

end Native.Quiet

/-- No native function of the table reports a fault itself. -/
def NativeTable.Quiet (table : NativeTable ω) : Prop :=
  ∀ slot native, table.get? slot = some native → Native.Quiet native

namespace Stride

variable {s : Stride}

theorem isError_logged (hquiet : s.table.Quiet) {event : Event} (hevent : event ∈ s.logged) :
    event.isError = false := by
  rw [logged] at hevent
  split at hevent
  · rename_i parameter next _
    -- The call starts without events, so the function itself would have reported the fault.
    by_contra herror
    rw [Bool.not_eq_false] at herror
    cases hnative : s.table.get? (parameter &&& 0xFF) with
    | none =>
        rw [Actor.call_unbound hnative] at hevent
        exact Array.not_mem_empty _ hevent
    | some native =>
        rw [Actor.call_bound hnative] at hevent
        exact Array.not_mem_empty _ (hquiet _ _ hnative _ _ event hevent herror)
  · exact (Array.not_mem_empty _ hevent).elim

theorem errors_eq (hquiet : s.table.Quiet) :
    Event.errors (s.start.step s.table).events = s.faultReport.toList := by
  have hbegins : Event.errors s.begins = [] := by
    rw [begins]
    split <;> rfl
  have hlogged : Event.errors s.logged = [] := by
    rw [Event.errors, List.filter_eq_nil_iff]
    intro event hevent
    rw [isError_logged hquiet (Array.mem_toList_iff.1 hevent)]
    exact Bool.false_ne_true
  have hstop : Event.errors s.stopReport = [] := by
    rw [stopReport]
    split
    · cases s.slot? <;> rfl
    · rfl
  have hfault : Event.errors s.faultReport = s.faultReport.toList := by
    rw [faultReport]
    split <;> rfl
  rw [events_eq, Event.errors_append, Event.errors_append, Event.errors_append, hbegins, hlogged,
    hstop, hfault]
  rfl

theorem countP_isStop (s : Stride) :
    (s.start.step s.table).events.countP Event.isStop =
      s.logged.countP Event.isStop + s.stops.toNat := by
  have hbegins : s.begins.countP Event.isStop = 0 := by
    rw [begins]
    split <;> rfl
  have hfault : s.faultReport.countP Event.isStop = 0 := by
    rw [faultReport]
    split <;> rfl
  have hstop : s.stopReport.countP Event.isStop = s.stops.toNat := by
    rw [stopReport]
    cases hstops : s.stops with
    | false => rfl
    | true =>
        rw [stops] at hstops
        split at hstops
        · rename_i parameter next hoperation
          simp only [slot?, hoperation]
          rfl
        · cases hstops
  rw [events_eq, Array.countP_append, Array.countP_append, Array.countP_append, hbegins, hfault,
    hstop]
  omega

theorem countP_isError (hquiet : s.table.Quiet) :
    (s.start.step s.table).events.countP Event.isError = s.fails.toNat := by
  rw [← Array.countP_toList, List.countP_eq_length_filter]
  change (Event.errors _).length = _
  rw [errors_eq hquiet]
  cases hvalue : (s.start.step s.table).value with
  | ok done =>
      rw [faultReport_ok hvalue, fails_ok hvalue]
      rfl
  | error fault =>
      rw [faultReport_error hvalue, fails_error hvalue]
      rfl

end Stride

namespace Report

/-- What a report gains in halts shows in events.  A stop that a native function reports itself is
no halt. -/
def Gains (r r' : Report) (events logged : List Event) : Prop :=
  r'.halts + logged.countP Event.isStop =
    r.halts + events.countP Event.isError + events.countP Event.isStop

variable {r r' r'' : Report} {events events' logged logged' : List Event}

theorem Gains.nothing (h : r'.halts = r.halts) : r.Gains r' [] [] := by
  simpa [Gains] using h

theorem Gains.trans (h : r.Gains r' events logged) (h' : r'.Gains r'' events' logged') :
    r.Gains r'' (events ++ events') (logged ++ logged') := by
  simp only [Gains, List.countP_append] at *
  omega

theorem Gains.after (h : r.Gains r' events logged) (before : Report) :
    (before + r).Gains (before + r') events logged := by
  change before.halts + r'.halts + _ = before.halts + r.halts + _ + _
  simp only [Gains] at h
  omega

end Report

namespace Actor

variable [Owner ω] {a : Actor ω} {table : NativeTable ω} (hquiet : table.Quiet)

include hquiet

theorem step_gains :
    a.engine.report.Gains (a.step table).after.engine.report (a.step table).events.toList
      (⟨table, a⟩ : Stride).logged.toList := by
  have herrors : (a.step table).events.countP Event.isError = _ :=
    Stride.countP_isError (s := ⟨table, a⟩) hquiet
  have hstops : (a.step table).events.countP Event.isStop = _ := Stride.countP_isStop ⟨table, a⟩
  simp only [Report.Gains, Array.countP_toList, step_report, Stride.charge, herrors, hstops]
  omega

theorem runFrom_gains (executed : Nat) (events : Array Event) (budget : Nat) :
    let ran := a.runFrom table executed events budget
    ∃ later, ran.events = events ++ later ∧
      a.engine.report.Gains ran.after.engine.report later.toList
        ((a.strides table budget).flatMap (·.logged.toList)) := by
  induction budget generalizing executed events a with
  | zero => exact ⟨#[], Array.append_empty.symm, .nothing rfl⟩
  | succ budget ih =>
      cases hready : a.engine.isReady with
      | false =>
          rw [runFrom_unready _ _ _ hready, strides_unready table _ hready]
          exact ⟨#[], Array.append_empty.symm, .nothing rfl⟩
      | true =>
          have hstep := step_gains (a := a) hquiet
          rw [runFrom_ready _ _ _ hready, strides_ready table _ hready, List.flatMap_cons]
          cases hvalue : (a.step table).value with
          | ok done =>
              obtain ⟨later, hevents, hrest⟩ :=
                ih (a := (a.step table).after) (executed + 1) (events ++ (a.step table).events)
              refine ⟨(a.step table).events ++ later, ?_, ?_⟩
              · rw [hevents, Array.append_assoc]
              · rw [Array.toList_append]
                exact hstep.trans hrest
          | error fault =>
              refine ⟨(a.step table).events, rfl, ?_⟩
              rw [List.flatMap_nil, List.append_nil]
              exact hstep

theorem runFrom_errors (executed : Nat) (events : Array Event) (budget : Nat) :
    let ran := a.runFrom table executed events budget
    ((∃ count, ran.value = .ok count) ∧
        Event.errors ran.events = Event.errors events) ∨
      ∃ fault count b, ran.value = .error fault ∧ Advances table a count b ∧ count < budget ∧
        (b.step table).value = .error fault ∧ ran.after = (b.step table).after ∧
          Event.errors ran.events =
            Event.errors events ++ (⟨table, b⟩ : Stride).faultReport.toList := by
  induction budget generalizing executed events a with
  | zero => exact .inl ⟨⟨executed, rfl⟩, rfl⟩
  | succ budget ih =>
      cases hready : a.engine.isReady with
      | false =>
          rw [runFrom_unready _ _ _ hready]
          exact .inl ⟨⟨executed, rfl⟩, rfl⟩
      | true =>
          have herrors : Event.errors (events ++ (a.step table).events) = _ :=
            (Event.errors_append _ _).trans
              (congrArg _ (Stride.errors_eq (s := ⟨table, a⟩) hquiet))
          rw [runFrom_ready _ _ _ hready]
          cases hvalue : (a.step table).value with
          | error fault =>
              -- The run ends with the step that fails, and its report is the only one.
              exact .inr ⟨fault, 0, a, rfl, .start, budget.succ_pos, hvalue, rfl, herrors⟩
          | ok done =>
              obtain rfl := step_ok_eq_true hready hvalue
              rw [Stride.faultReport_ok hvalue, Array.toList_empty, List.append_nil] at herrors
              rcases ih (a := (a.step table).after) (executed + 1)
                  (events ++ (a.step table).events) with
                ⟨hran, hevents⟩ | ⟨fault, count, b, hran, hadvances, hcount, hfault, hafter, hevents⟩
              · exact .inl ⟨hran, hevents.trans herrors⟩
              · refine .inr ⟨fault, count + 1, b, hran, hadvances.cons hready hvalue,
                  Nat.succ_lt_succ hcount, hfault, hafter, ?_⟩
                rw [hevents, herrors]

theorem run_errors (a : Actor ω) :
    let ran := a.run table
    ((∃ count, ran.value = .ok count) ∧ Event.errors ran.events = []) ∨
      ∃ fault count b, ran.value = .error fault ∧ Advances table a count b ∧
        count < a.engine.settings.instructionBudget ∧ (b.step table).value = .error fault ∧
          Event.errors ran.events =
            [.halted (Owner.label ran.after.owner) b.engine.machine.ip b.decoded? fault] := by
  rcases runFrom_errors (a := a) hquiet 0 #[] a.engine.settings.instructionBudget with
    hran | ⟨fault, count, b, hran, hadvances, hcount, hfault, hafter, herrors⟩
  · exact .inl hran
  · rw [Stride.faultReport_error hfault, ← hafter] at herrors
    exact .inr ⟨fault, count, b, hran, hadvances, hcount, hfault, herrors⟩

end Actor

namespace HostCall

def Reply.fault? : Reply → Option Fault
  | loaded (.error fault) | stepped (.error fault) | ran (.error fault) | turned (.halted fault) =>
      some fault
  | _ => none

def Quiet : HostCall ω → Prop
  | step table | run table | tick table => table.Quiet
  | load _ | reset | loadSubroutine _ => True

variable [Owner ω] {a : Actor ω} {asked : HostCall ω}

/-- A call returns a fault because no subroutine can be entered, or because a step fails after so
many that succeeded. -/
inductive FailsAt (a : Actor ω) (fault : Fault) :
    HostCall ω → Actor ω → Option Instruction → Prop
  | loadSubroutine {subtype : Word} {m : Machine} :
      Machine.enterSubroutine a.engine.program subtype a.engine.machine = .error fault m →
        FailsAt a fault (.loadSubroutine subtype) a none
  | step {table : NativeTable ω} :
      (a.step table).value = .error fault → FailsAt a fault (.step table) a a.decoded?
  | run {table : NativeTable ω} {count : Nat} {b : Actor ω} :
      Actor.Advances table a count b → count < a.engine.settings.instructionBudget →
        (b.step table).value = .error fault → FailsAt a fault (.run table) b b.decoded?
  | tick {table : NativeTable ω} {count : Nat} {b : Actor ω} :
      a.engine.machine.delay = 0 → Actor.Advances table a count b →
        count < a.engine.settings.instructionBudget → (b.step table).value = .error fault →
          FailsAt a fault (.tick table) b b.decoded?

theorem FailsAt.loaded {fault : Fault} {failing : Actor ω} {decoded : Option Instruction}
    (h : FailsAt a fault asked failing decoded) : ∃ ip, failing.engine.machine.ip = some ip := by
  have hstep {table : NativeTable ω} {b : Actor ω} (hfault : (b.step table).value = .error fault) :
      b.engine.machine.ip ≠ none := by
    intro hip
    cases (Actor.step_unloaded table hip).1.symm.trans hfault
  rw [← Option.ne_none_iff_exists']
  cases h with
  | loadSubroutine hentered =>
      intro hip
      cases (Machine.enterSubroutine_idle (.inl hip)).symm.trans hentered
  | step hfault => exact hstep hfault
  | run _ _ hfault => exact hstep hfault
  | tick _ _ _ hfault => exact hstep hfault

theorem perform_errors (hrestarts : asked.restarts = false) (hquiet : asked.Quiet) :
    let done := asked.perform a
    (done.value.fault? = none ∧ Event.errors done.events = []) ∨
      ∃ fault failing decoded, done.value.fault? = some fault ∧
        asked.FailsAt a fault failing decoded ∧
          Event.errors done.events =
            [.halted (Owner.label done.after.owner) failing.engine.machine.ip decoded fault] := by
  cases asked with
  | load subtype => cases hrestarts
  | reset => cases hrestarts
  | loadSubroutine subtype =>
      cases hentered : Machine.enterSubroutine a.engine.program subtype a.engine.machine with
      | ok value m =>
          refine .inl ⟨?_, ?_⟩
          · simp only [perform, Outcome.map, (Actor.loadSubroutine_ok hentered).1]
            rfl
          · simp only [perform, Outcome.map, Actor.loadSubroutine, Actor.onMachine, hentered]
            rfl
      | error fault m =>
          refine .inr ⟨fault, a, none, ?_, .loadSubroutine hentered, ?_⟩
          · simp only [perform, Outcome.map, (Actor.loadSubroutine_error hentered).1]
            rfl
          · simp only [perform, Outcome.map, Actor.loadSubroutine, Actor.onMachine, hentered]
            rfl
  | step table =>
      have herrors : Event.errors (a.step table).events = _ :=
        Stride.errors_eq (s := ⟨table, a⟩) hquiet
      cases hvalue : (a.step table).value with
      | ok done =>
          rw [Stride.faultReport_ok hvalue] at herrors
          refine .inl ⟨?_, herrors⟩
          simp only [perform, Outcome.map, hvalue]
          rfl
      | error fault =>
          rw [Stride.faultReport_error hvalue] at herrors
          refine .inr ⟨fault, a, a.decoded?, ?_, .step hvalue, herrors⟩
          simp only [perform, Outcome.map, hvalue]
          rfl
  | run table =>
      rcases Actor.run_errors hquiet a with
        ⟨⟨count, hran⟩, herrors⟩ | ⟨fault, count, b, hran, hadvances, hcount, hfault, herrors⟩
      · refine .inl ⟨?_, herrors⟩
        simp only [perform, Outcome.map, hran]
        rfl
      · refine .inr ⟨fault, b, b.decoded?, ?_, .run hadvances hcount hfault, herrors⟩
        simp only [perform, Outcome.map, hran]
        rfl
  | tick table =>
      cases hready : a.engine.isReady with
      | false =>
          by_cases hip : a.engine.machine.ip = none
          · rw [perform, Actor.tick_unloaded table hip]
            exact .inl ⟨rfl, rfl⟩
          · rw [perform, Actor.tick_waiting table hip (Engine.delay_ne_zero hip hready)]
            exact .inl ⟨rfl, rfl⟩
      | true =>
          rw [perform, Actor.tick_ready table hready]
          rcases Actor.run_errors hquiet a with
            ⟨⟨count, hran⟩, herrors⟩ | ⟨fault, count, b, hran, hadvances, hcount, hfault, herrors⟩
          · refine .inl ⟨?_, herrors⟩
            simp only [Outcome.map, hran]
            rfl
          · have hdelay := (Engine.isReady_iff.1 hready).2
            refine .inr ⟨fault, b, b.decoded?, ?_, .tick hdelay hadvances hcount hfault, herrors⟩
            simp only [Outcome.map, hran]
            rfl

theorem perform_gains (hquiet : asked.Quiet) :
    a.engine.report.Gains (asked.perform a).after.engine.report (asked.perform a).events.toList
      ((asked.strides a).flatMap (·.logged.toList)) := by
  cases asked with
  | load subtype =>
      simp only [perform, Engine.load]
      split
      · rfl
      · rfl
  | reset => rfl
  | loadSubroutine subtype =>
      cases hentered : Machine.enterSubroutine a.engine.program subtype a.engine.machine with
      | ok value m =>
          simp only [perform, Outcome.map, Actor.loadSubroutine, Actor.onMachine, hentered]
          rfl
      | error fault m =>
          simp only [perform, Outcome.map, Actor.loadSubroutine, Actor.onMachine, hentered]
          rfl
  | step table =>
      rw [HostCall.strides, List.flatMap_cons, List.flatMap_nil, List.append_nil]
      exact Actor.step_gains hquiet
  | run table =>
      obtain ⟨later, hevents, hgains⟩ :=
        Actor.runFrom_gains (a := a) hquiet 0 #[] a.engine.settings.instructionBudget
      rw [Array.empty_append] at hevents
      rw [← hevents] at hgains
      exact hgains
  | tick table =>
      cases hready : a.engine.isReady with
      | false =>
          rw [HostCall.strides, Actor.strides_unready table _ hready]
          by_cases hip : a.engine.machine.ip = none
          · rw [perform, Actor.tick_unloaded table hip]
            exact .nothing rfl
          · rw [perform, Actor.tick_waiting table hip (Engine.delay_ne_zero hip hready)]
            exact .nothing rfl
      | true =>
          obtain ⟨later, hevents, hgains⟩ :=
            Actor.runFrom_gains (a := a) hquiet 0 #[] a.engine.settings.instructionBudget
          rw [Array.empty_append] at hevents
          rw [← hevents] at hgains
          rw [perform, Actor.tick_ready table hready]
          exact hgains

end HostCall

namespace HostAct

def Quiet : HostAct → Prop
  | call _ asked => asked.Quiet
  | takeReport => True

def events (e : Engine) : List HostAct → List Event
  | [] => []
  | call owner asked :: rest =>
      (asked.perform ⟨e, owner⟩).events.toList ++
        events (asked.perform ⟨e, owner⟩).after.engine rest
  | takeReport :: rest => events e.takeReport.2 rest

def logged (e : Engine) (acts : List HostAct) : List Event :=
  (strides e acts).flatMap (·.logged.toList)

theorem reports_gains {acts : List HostAct} (hquiet : ∀ act ∈ acts, act.Quiet) (e : Engine)
    (before : Report) :
    (before + e.report).Gains ((reports e acts).foldl (· + ·) before) (events e acts)
      (logged e acts) := by
  induction acts generalizing e before with
  | nil => exact .nothing rfl
  | cons act rest ih =>
      have hrest := ih fun other hother => hquiet other (List.mem_cons_of_mem _ hother)
      cases act with
      | call owner asked =>
          have hcall := HostCall.perform_gains (a := ⟨e, owner⟩) (hquiet _ List.mem_cons_self)
          rw [logged, strides, List.flatMap_append]
          exact (hcall.after before).trans (hrest (asked.perform ⟨e, owner⟩).after.engine before)
      | takeReport => exact hrest e.takeReport.2 (before + e.takeReport.1)

/-- Every fault that a host is given is reported once, with the owner as it is then and the place
and the instruction that failed, and nothing else is reported as a fault.  The halts in all reports
are these faults and the stops by native functions. -/
theorem faults_reported [Owner ω] :
    (∀ (a : Actor ω) (asked : HostCall ω), asked.restarts = false → asked.Quiet →
      let done := asked.perform a
      (done.value.fault? = none → Event.errors done.events = []) ∧
        ∀ fault, done.value.fault? = some fault →
          ∃ failing ip decoded event, asked.FailsAt a fault failing decoded ∧
            failing.engine.machine.ip = some ip ∧
            Event.errors done.events = [event] ∧
            event = .halted (Owner.label done.after.owner) (some ip) decoded fault ∧
            event.message = "script halted: " ++ fault.message ∧
            event.fields =
              [("category", (Owner.category done.after.owner).name),
                ("index", toString (Owner.index done.after.owner)),
                ("subtype", toString (Owner.subtype done.after.owner)),
                ("offset", s!"Some({ip})"),
                ("opcode", Instruction.faultName decoded)]) ∧
      ∀ (e : Engine) (acts : List HostAct), (∀ act ∈ acts, act.Quiet) →
        ((reports e acts).foldl (· + ·) ({} : Report)).halts + (logged e acts).countP Event.isStop =
          e.report.halts + (events e acts).countP Event.isError +
            (events e acts).countP Event.isStop := by
  constructor
  · intro a asked hrestarts hquiet done
    rcases HostCall.perform_errors (a := a) hrestarts hquiet with
      ⟨hnone, herrors⟩ | ⟨fault, failing, decoded, hsome, hfails, herrors⟩
    · refine ⟨fun _ => herrors, ?_⟩
      intro fault hfault
      cases hnone.symm.trans hfault
    · constructor
      · intro hnone
        cases hsome.symm.trans hnone
      · intro other hother
        obtain rfl := Option.some.inj (hsome.symm.trans hother)
        obtain ⟨ip, hip⟩ := hfails.loaded
        rw [hip] at herrors
        exact ⟨failing, ip, decoded, _, hfails, hip, herrors, rfl, rfl,
          Event.fields_halted _ _ _ _⟩
  · intro e acts hquiet
    have hgains := reports_gains hquiet e {}
    have hfirst : (({} : Report) + e.report).halts = e.report.halts := Nat.zero_add _
    rw [Report.Gains, hfirst] at hgains
    exact hgains

instance : Owner OwnerLabel where
  category := OwnerLabel.category
  index := OwnerLabel.index
  subtype := OwnerLabel.subtype

/-- A native function changes the owner and reports a call of its own before it fails. -/
theorem faults_reported_changed_owner :
    let program : Program := { entries := #[0], words := #[0x0E00] }
    let native : NativeM OwnerLabel Word := do
      Native.modifyOwner fun owner => { owner with subtype := 7 }
      Native.report (.nativeCalled 0 none 0)
      throw (.unknownVariable 9)
    let table : NativeTable OwnerLabel := ⟨.unit, .replicate nativeSlots (some native)⟩
    let fresh : Engine := { program := program }
    let owner : OwnerLabel := ⟨.unit, 3, 0⟩
    let done := (HostCall.tick table).perform ⟨play fresh [.call owner (.load 0)], owner⟩
    let acts : List HostAct := [.call owner (.load 0), .call owner (.tick table), .takeReport]
    table.Quiet ∧ done.value.fault? = some (.unknownVariable 9) ∧ done.after.owner = ⟨.unit, 3, 7⟩ ∧
      (∃ event, Event.errors done.events = [event] ∧
        event.message = "script halted: unknown variable 9" ∧
        event.fields =
          [("category", "unit"), ("index", "3"), ("subtype", "7"), ("offset", "Some(0)"),
            ("opcode", "call")]) ∧
      (events fresh acts).countP Event.isError + (events fresh acts).countP Event.isStop = 1 := by
  intro program native table fresh owner done acts
  have hnative : Native.Quiet native :=
    .bind (.modifyOwner _) fun _ => .bind (.report rfl) fun _ => .of_events fun _ _ => rfl
  have htable : table.Quiet := by
    intro slot found hfound
    rw [NativeTable.eq_of_get?_replicate hfound]
    exact hnative
  obtain ⟨hcalls, hhalts⟩ := faults_reported (ω := OwnerLabel)
  have hfault : done.value.fault? = some (.unknownVariable 9) := by decide +kernel
  have howner : done.after.owner = ⟨.unit, 3, 7⟩ := by decide +kernel
  obtain ⟨-, herrors⟩ := hcalls ⟨play fresh [.call owner (.load 0)], owner⟩ (.tick table) rfl htable
  obtain ⟨_, ip, decoded, event, -, -, hevent, hhalted, hmessage, hfields⟩ := herrors _ hfault
  have hshown : Event.errors done.events =
      [.halted ⟨.unit, 3, 7⟩ (some 0) (some ⟨14, 0, .bare⟩) (.unknownVariable 9)] := by
    decide +kernel
  obtain ⟨-, hip, rfl, -⟩ := Event.halted.inj
    (hhalted.symm.trans (List.singleton_inj.1 (hevent.symm.trans hshown)))
  obtain rfl := Option.some.inj hip
  have hacts : ∀ act ∈ acts, act.Quiet := by
    simp only [acts, List.forall_mem_cons, List.not_mem_nil, false_imp_iff, implies_true, and_true]
    exact ⟨trivial, htable, trivial⟩
  rw [howner] at hfields
  refine ⟨htable, hfault, howner, ⟨event, hevent, hmessage, hfields⟩, ?_⟩
  have htotal : ((reports fresh acts).foldl (· + ·) ({} : Report)).halts = 1 := by decide +kernel
  have hlogged : (logged fresh acts).countP Event.isStop = 0 := by decide +kernel
  have hcount := hhalts fresh acts hacts
  rw [htotal, hlogged] at hcount
  have hzero : fresh.report.halts = 0 := rfl
  omega

end HostAct

end EntityScript

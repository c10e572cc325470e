import EntityScript.Proofs.Restoring

namespace EntityScript

namespace Tally

variable {κ : Type} [Ranked κ]

def Counts (t : Tally κ) (count : κ → Nat) : Prop :=
  ∀ key, t.count? key = if count key = 0 then none else some (count key)

def tally (t : Tally κ) (key : Option κ) : Tally κ :=
  key.elim t (t.add · 1)

variable {t : Tally κ} {count : κ → Nat}

theorem Counts.getD_eq (h : t.Counts count) (key : κ) : (t.count? key).getD 0 = count key := by
  rw [h key]
  split
  · rename_i hzero
    exact hzero.symm
  · rfl

theorem Counts.entry (h : t.Counts count) {key : κ} {n : Nat} (hentry : (key, n) ∈ t.entries) :
    0 < n ∧ count key = n := by
  rw [mem_entries_iff, h key] at hentry
  split at hentry
  · cases hentry
  · rename_i hne
    obtain rfl := Option.some.inj hentry
    exact ⟨Nat.pos_of_ne_zero hne, rfl⟩

theorem Counts.tally [DecidableEq κ] (h : t.Counts count) (added : Option κ) :
    (t.tally added).Counts fun key => count key + if added = some key then 1 else 0 := by
  intro key
  cases added with
  | none => simpa [Tally.tally] using h key
  | some added =>
      simp only [Tally.tally, Option.elim_some, count?_add, h key, Option.some.injEq]
      by_cases hkey : added = key
      · subst hkey
        rw [countIn?_cons_self]
        by_cases hzero : count added = 0
        · simp [hzero]
        · simp [hzero]
      · rw [countIn?_cons_ne fun hrank => hkey (rank_eq_iff.1 hrank)]
        simp [hkey, countIn?]

end Tally

/-- A step that is taken: where it starts, and the native functions that it can call. -/
structure Stride where
  {ω : Type}
  [owner : Owner ω]
  table : NativeTable ω
  start : Actor ω

namespace Stride

attribute [instance] Stride.owner

/-- The operation that is executed, whether or not it succeeds. -/
def opcode? (s : Stride) : Option Opcode :=
  s.start.operation?.map (·.1)

/-- The slot that is called, whether or not a native function is bound to it. -/
def slot? (s : Stride) : Option Word :=
  match s.start.operation? with
  | some (.function, parameter, _) => some (parameter &&& 0xFF)
  | _ => none

def stops (s : Stride) : Bool :=
  match s.start.operation? with
  | some (.function, parameter, next) =>
      match s.start.call s.table parameter next with
      | .ok _ done => done.stopped
      | .error _ _ => false
  | _ => false

def fails (s : Stride) : Bool :=
  !(s.start.step s.table).value.isOk

/-- What the step adds to a report. -/
def charge (s : Stride) (r : Report) : Report where
  opcodes := r.opcodes.tally s.opcode?
  calls := r.calls.tally s.slot?
  halts := r.halts + s.fails.toNat + s.stops.toNat

section Charge

variable {s : Stride} {opcode : Opcode} {parameter next : Word}

theorem stops_ok {value : Word} {done : Call s.ω}
    (h : s.start.operation? = some (.function, parameter, next))
    (hcall : s.start.call s.table parameter next = .ok value done) : s.stops = done.stopped := by
  simp only [stops, h, hcall]

theorem stops_error {fault : Fault} {done : Call s.ω}
    (h : s.start.operation? = some (.function, parameter, next))
    (hcall : s.start.call s.table parameter next = .error fault done) : s.stops = false := by
  simp only [stops, h, hcall]

theorem slot?_operation (h : s.start.operation? = some (opcode, parameter, next))
    (hopcode : opcode ≠ .function) : s.slot? = none ∧ s.stops = false := by
  rw [slot?, stops, h]
  cases opcode with
  | function => exact (hopcode rfl).elim
  | _ => exact ⟨rfl, rfl⟩

theorem stops_no_operation (h : s.start.operation? = none) : s.stops = false := by
  simp only [stops, h]

theorem fails_ok {done : Bool} (h : (s.start.step s.table).value = .ok done) : s.fails = false := by
  simp only [fails, h, Except.isOk, Except.toBool, Bool.not_true]

theorem fails_error {fault : Fault} (h : (s.start.step s.table).value = .error fault) :
    s.fails = true := by
  simp only [fails, h, Except.isOk, Except.toBool, Bool.not_false]

theorem charge_no_operation (h : s.start.operation? = none) (r : Report) :
    s.charge r = { r with halts := r.halts + s.fails.toNat } := by
  simp only [charge, stops_no_operation h, opcode?, slot?, h]
  rfl

theorem charge_operation (h : s.start.operation? = some (opcode, parameter, next))
    (hopcode : opcode ≠ .function) (r : Report) :
    s.charge r = { r.countOpcode opcode with halts := r.halts + s.fails.toNat } := by
  obtain ⟨hslot, hstops⟩ := slot?_operation h hopcode
  simp only [charge, hslot, hstops, opcode?, h]
  rfl

theorem charge_call (h : s.start.operation? = some (.function, parameter, next)) (r : Report) :
    s.charge r =
      { (r.countOpcode .function).countCall (parameter &&& 0xFF) with
        halts := r.halts + s.fails.toNat + s.stops.toNat } := by
  simp only [charge, opcode?, slot?, h]
  rfl

end Charge

theorem opcode?_eq_function_iff {s : Stride} : s.opcode? = some .function ↔ s.slot? ≠ none := by
  rw [opcode?, slot?]
  rcases s.start.operation? with _ | ⟨opcode, parameter, next⟩
  · simp
  · cases opcode <;> simp

theorem toNat_le_of_slot? {s : Stride} {slot : Word} (h : s.slot? = some slot) :
    slot.toNat ≤ 255 := by
  rw [slot?] at h
  split at h
  · cases h
    rw [UInt16.toNat_and]
    exact Nat.and_le_right
  · cases h

end Stride

namespace Report

theorem add_charge (before r : Report) (s : Stride) :
    before + s.charge r = s.charge (before + r) := by
  have hopcodes : before.opcodes + r.opcodes.tally s.opcode? =
      (before.opcodes + r.opcodes).tally s.opcode? := by
    cases s.opcode? with
    | none => rfl
    | some opcode => exact Tally.sum_add _ _ _ _
  have hcalls : before.calls + r.calls.tally s.slot? =
      (before.calls + r.calls).tally s.slot? := by
    cases s.slot? with
    | none => rfl
    | some slot => exact Tally.sum_add _ _ _ _
  change mk (before.opcodes + r.opcodes.tally s.opcode?) (before.calls + r.calls.tally s.slot?)
    (before.halts + (r.halts + _ + _)) = _
  rw [hopcodes, hcalls, ← Nat.add_assoc, ← Nat.add_assoc]
  rfl

/-- A report counts the operations and the calls of steps, and as halts the native functions that
stopped the engine and so many faults. -/
structure Accounts (r : Report) (strides : List Stride) (faults : Nat) : Prop where
  opcodes : r.opcodes.Counts fun opcode => strides.countP (·.opcode? = some opcode)
  calls : r.calls.Counts fun slot => strides.countP (·.slot? = some slot)
  total : r.calls.total = strides.countP (·.opcode? = some .function)
  halts : r.halts = faults + strides.countP (·.stops)

theorem Accounts.empty : Accounts {} ([] : List Stride) 0 :=
  ⟨fun _ => rfl, fun _ => rfl, rfl, rfl⟩

theorem Accounts.charge {r : Report} {strides : List Stride} {faults : Nat}
    (h : r.Accounts strides faults) (s : Stride) :
    (s.charge r).Accounts (strides ++ [s]) (faults + s.fails.toNat) := by
  refine ⟨?_, ?_, ?_, ?_⟩
  · simp only [List.countP_append, List.countP_singleton, decide_eq_true_eq]
    exact h.opcodes.tally s.opcode?
  · simp only [List.countP_append, List.countP_singleton, decide_eq_true_eq]
    exact h.calls.tally s.slot?
  · have htotal : (s.charge r).calls.total = r.calls.total + s.slot?.isSome.toNat := by
      simp only [Stride.charge, Tally.tally]
      cases s.slot? with
      | none => rfl
      | some slot => exact Tally.total_add _ _ _
    rw [htotal, h.total, List.countP_append, List.countP_singleton]
    congr 1
    by_cases hslot : s.slot? = none
    · simp [s.opcode?_eq_function_iff, hslot]
    · simp [s.opcode?_eq_function_iff, hslot, Option.isSome_iff_ne_none.2 hslot]
  · rw [List.countP_append, List.countP_singleton]
    simp only [Stride.charge, h.halts]
    cases s.stops with
    | true => simp only [Bool.toNat_true, if_true]; omega
    | false => simp only [Bool.toNat_false, Bool.false_eq_true, if_false]; omega

end Report

namespace Actor

variable {ω : Type} [Owner ω] {a : Actor ω}

def strides (table : NativeTable ω) : (budget : Nat) → (a : Actor ω) → List Stride
  | 0, _ => []
  | budget + 1, a =>
      if a.engine.isReady then
        ⟨table, a⟩ ::
          match (a.step table).value with
          | .ok _ => strides table budget (a.step table).after
          | .error _ => []
      else
        []

theorem step_report (table : NativeTable ω) (a : Actor ω) :
    (a.step table).after.engine.report = (⟨table, a⟩ : Stride).charge a.engine.report := by
  cases a.stepCase table with
  | unloaded hloaded hvalue hafter =>
      have hoperation : a.operation? = none := by simp only [operation?, hloaded]
      rw [Stride.charge_no_operation hoperation, hafter, Stride.fails_ok hvalue]
      rfl
  | stray _ hoperation hvalue hafter =>
      rw [Stride.charge_no_operation hoperation, hafter, Stride.fails_error hvalue]
      rfl
  | executed hoperation hopcode _ hvalue hafter =>
      rw [Stride.charge_operation hoperation hopcode, hafter, Stride.fails_ok hvalue]
      rfl
  | refused hoperation hopcode _ hvalue hafter =>
      rw [Stride.charge_operation hoperation hopcode, hafter, Stride.fails_error hvalue]
      rfl
  | returned hoperation hcall hstopped hvalue hafter =>
      rw [Stride.charge_call hoperation, hafter, Stride.fails_ok hvalue,
        Stride.stops_ok hoperation hcall, hstopped]
      rfl
  | stopped hoperation hcall hstopped hvalue hafter =>
      rw [Stride.charge_call hoperation, hafter, Stride.fails_ok hvalue,
        Stride.stops_ok hoperation hcall, hstopped]
      rfl
  | raised hoperation hcall hvalue hafter =>
      rw [Stride.charge_call hoperation, hafter, Stride.fails_error hvalue,
        Stride.stops_error hoperation hcall]
      rfl

section Run

variable (table : NativeTable ω)

theorem strides_unready (budget : Nat) (h : a.engine.isReady = false) :
    a.strides table budget = [] := by
  cases budget with
  | zero => rfl
  | succ budget => simp [strides, h]

theorem strides_ready (budget : Nat) (h : a.engine.isReady = true) :
    a.strides table (budget + 1) =
      ⟨table, a⟩ ::
        match (a.step table).value with
        | .ok _ => (a.step table).after.strides table budget
        | .error _ => [] :=
  if_pos h

variable {before : Report} {strides : List Stride} {faults : Nat}
  (h : (before + a.engine.report).Accounts strides faults)

include h

theorem accounts_step :
    (before + (a.step table).after.engine.report).Accounts (strides ++ [⟨table, a⟩])
      (faults + (⟨table, a⟩ : Stride).fails.toNat) := by
  rw [step_report, Report.add_charge]
  exact h.charge _

theorem accounts_runFrom (executed : Nat) (events : Array Event) (budget : Nat) :
    let ran := a.runFrom table executed events budget
    (before + ran.after.engine.report).Accounts (strides ++ a.strides table budget)
      (faults + (!ran.value.isOk).toNat) := by
  induction budget generalizing executed events a strides faults with
  | zero => simpa [runFrom, Actor.strides, Except.isOk, Except.toBool] using h
  | succ budget ih =>
      cases hready : a.engine.isReady with
      | false =>
          rw [runFrom_unready _ _ _ hready, strides_unready table _ hready]
          simpa [Except.isOk, Except.toBool] using h
      | true =>
          have hstep := accounts_step table h
          rw [runFrom_ready _ _ _ hready, strides_ready table _ hready]
          cases hvalue : (a.step table).value with
          | ok done =>
              rw [Stride.fails_ok hvalue] at hstep
              have hran := ih hstep (executed + 1) (events ++ (a.step table).events)
              rw [List.append_assoc] at hran
              exact hran
          | error fault =>
              rw [Stride.fails_error hvalue] at hstep
              exact hstep

end Run

end Actor

namespace HostCall

variable {ω : Type} [Owner ω]

/-- The steps that a call takes. -/
def strides (a : Actor ω) : HostCall ω → List Stride
  | load _ | reset | loadSubroutine _ => []
  | step table => [⟨table, a⟩]
  | run table | tick table => a.strides table a.engine.settings.instructionBudget

/-- The call returns the fault of a step or of a subroutine that could not be entered. -/
def faults (a : Actor ω) (call : HostCall ω) : Bool :=
  !call.restarts && (call.perform a).value.isFault

section Faults

variable {a : Actor ω} {table : NativeTable ω}

theorem faults_restarts {call : HostCall ω} (h : call.restarts = true) : call.faults a = false := by
  rw [faults, h]
  rfl

theorem faults_step : (step table).faults a = (⟨table, a⟩ : Stride).fails := by
  rw [faults, perform, Stride.fails]
  cases hvalue : (a.step table).value <;> simp only [Outcome.map, hvalue] <;> rfl

theorem faults_run : (run table).faults a = !(a.run table).value.isOk := by
  rw [faults, perform]
  cases hvalue : (a.run table).value <;> simp only [Outcome.map, hvalue] <;> rfl

theorem faults_tick (h : a.engine.isReady = true) :
    (tick table).faults a = !(a.run table).value.isOk := by
  rw [faults, perform, Actor.tick_ready table h]
  cases hvalue : (a.run table).value <;> simp only [Outcome.map, hvalue] <;> rfl

theorem tick_unready (table : NativeTable ω) (h : a.engine.isReady = false) :
    (tick table).faults a = false ∧
      ((tick table).perform a).after.engine.report = a.engine.report := by
  by_cases hip : a.engine.machine.ip = none
  · rw [faults, perform, Actor.tick_unloaded table hip]
    exact ⟨rfl, rfl⟩
  · rw [faults, perform, Actor.tick_waiting table hip (Engine.delay_ne_zero hip h)]
    exact ⟨rfl, rfl⟩

end Faults

theorem accounts_perform {a : Actor ω} {before : Report} {strides : List Stride} {faults : Nat}
    (h : (before + a.engine.report).Accounts strides faults) (call : HostCall ω) :
    (before + (call.perform a).after.engine.report).Accounts (strides ++ call.strides a)
      (faults + (call.faults a).toNat) := by
  have hran (table : NativeTable ω) :=
    Actor.accounts_runFrom table h 0 #[] a.engine.settings.instructionBudget
  cases call with
  | load subtype =>
      have hreport : ((load subtype).perform a).after.engine.report = a.engine.report := by
        simp only [perform, Outcome.map, Outcome.mapAfter, Engine.load]
        split <;> rfl
      rw [hreport, faults_restarts rfl, HostCall.strides, List.append_nil]
      exact h
  | reset =>
      rw [faults_restarts rfl, HostCall.strides, List.append_nil]
      exact h
  | loadSubroutine subtype =>
      rw [HostCall.strides, List.append_nil, HostCall.faults, perform]
      cases hentered : Machine.enterSubroutine a.engine.program subtype a.engine.machine with
      | ok value m =>
          obtain ⟨hvalue, hafter⟩ := Actor.loadSubroutine_ok hentered
          simp only [Outcome.map, hvalue, hafter]
          exact h
      | error fault m =>
          obtain ⟨hvalue, hafter⟩ := Actor.loadSubroutine_error hentered
          simp only [Outcome.map, hvalue, hafter]
          refine ⟨h.opcodes, h.calls, h.total, ?_⟩
          change before.halts + (a.engine.report.halts + 1) = faults + 1 + _
          have hhalts := h.halts
          change before.halts + a.engine.report.halts = _ at hhalts
          omega
  | step table =>
      rw [faults_step]
      exact Actor.accounts_step table h
  | run table =>
      rw [faults_run]
      exact hran table
  | tick table =>
      cases hready : a.engine.isReady with
      | false =>
          obtain ⟨hfaults, hreport⟩ := tick_unready table hready
          rw [hfaults, hreport, HostCall.strides, Actor.strides_unready table _ hready,
            List.append_nil]
          exact h
      | true =>
          rw [faults_tick hready, perform, Actor.tick_ready table hready]
          exact hran table

end HostCall

/-- What a host does with an engine. -/
inductive HostAct where
  | call {ω : Type} [Owner ω] (owner : ω) (asked : HostCall ω)
  | takeReport

namespace HostAct

def isCall : HostAct → Bool
  | call _ _ => true
  | takeReport => false

def apply (e : Engine) : HostAct → Engine
  | call owner asked => (asked.perform ⟨e, owner⟩).after.engine
  | takeReport => e.takeReport.2

def play (e : Engine) : List (HostAct) → Engine
  | [] => e
  | act :: rest => play (act.apply e) rest

/-- The reports that are taken, and what the report holds in the end. -/
def reports (e : Engine) : List (HostAct) → List Report
  | [] => [e.report]
  | call owner asked :: rest => reports (asked.perform ⟨e, owner⟩).after.engine rest
  | takeReport :: rest => e.takeReport.1 :: reports e.takeReport.2 rest

def strides (e : Engine) : List (HostAct) → List Stride
  | [] => []
  | call owner asked :: rest =>
      asked.strides ⟨e, owner⟩ ++ strides (asked.perform ⟨e, owner⟩).after.engine rest
  | takeReport :: rest => strides e.takeReport.2 rest

def faults (e : Engine) : List (HostAct) → Nat
  | [] => 0
  | call owner asked :: rest =>
      (asked.faults ⟨e, owner⟩).toNat + faults (asked.perform ⟨e, owner⟩).after.engine rest
  | takeReport :: rest => faults e.takeReport.2 rest

theorem accounts_reports {e : Engine} {before : Report} {taken : List Stride} {count : Nat}
    (h : (before + e.report).Accounts taken count) (acts : List (HostAct)) :
    ((reports e acts).foldl (· + ·) before).Accounts (taken ++ strides e acts)
      (count + faults e acts) := by
  induction acts generalizing e before taken count with
  | nil => simpa [reports, strides, faults] using h
  | cons act rest ih =>
      cases act with
      | call owner asked =>
          have hrest := ih (HostCall.accounts_perform (a := ⟨e, owner⟩) h asked)
          rw [List.append_assoc, Nat.add_assoc] at hrest
          exact hrest
      | takeReport =>
          have htaken : (before + e.report + e.takeReport.2.report).Accounts taken count := h
          exact ih htaken

theorem foldl_reports (e : Engine) (before : Report) (acts : List (HostAct)) :
    (reports e acts).foldl (· + ·) before = (play (e.carrying before) (acts.filter isCall)).report := by
  induction acts generalizing e before with
  | nil => rfl
  | cons act rest ih =>
      cases act with
      | call owner asked =>
          have hcarrying := HostCall.perform_carrying before ⟨e, owner⟩ asked
          have hplay : (asked.perform ⟨e.carrying before, owner⟩).after.engine =
              (asked.perform ⟨e, owner⟩).after.engine.carrying before :=
            congrArg (fun o => o.after.engine) hcarrying
          rw [List.filter_cons_of_pos rfl, play, apply, hplay]
          exact ih _ _
      | takeReport => exact ih e.takeReport.2 (before + e.report)

/-- All reports together count the operations and the native slots of the steps that were taken, and
as halts the faults that calls returned and the native functions that stopped the engine. -/
theorem accounting (program : Program) (settings : Settings) (acts : List (HostAct)) :
    let fresh : Engine := { program := program, settings := settings }
    let total := (reports fresh acts).foldl (· + ·) {}
    let taken := strides fresh acts
    (∀ opcode, (total.opcodes.count? opcode).getD 0 = taken.countP (·.opcode? = some opcode)) ∧
      (∀ slot, (total.calls.count? slot).getD 0 = taken.countP (·.slot? = some slot)) ∧
      total.calls.total = (total.opcodes.count? .function).getD 0 ∧
      (∀ opcode count, (opcode, count) ∈ total.opcodes.entries → 0 < count) ∧
      (∀ slot count, (slot, count) ∈ total.calls.entries → slot.toNat ≤ 255 ∧ 0 < count) ∧
      total.halts = faults fresh acts + taken.countP (·.stops) ∧
      total = (play fresh (acts.filter isCall)).report := by
  intro fresh total taken
  have haccounts : total.Accounts taken (faults fresh acts) := by
    have hfresh : (({} : Report) + fresh.report).Accounts ([] : List Stride) 0 := .empty
    have h := accounts_reports hfresh acts
    rwa [List.nil_append, Nat.zero_add] at h
  refine ⟨haccounts.opcodes.getD_eq, haccounts.calls.getD_eq, ?_, ?_, ?_, haccounts.halts,
    foldl_reports fresh {} acts⟩
  · rw [haccounts.total, haccounts.opcodes.getD_eq]
  · intro opcode count hentry
    exact (haccounts.opcodes.entry hentry).1
  · intro slot count hentry
    obtain ⟨hpos, hcount⟩ := haccounts.calls.entry hentry
    refine ⟨?_, hpos⟩
    rw [← hcount, List.countP_pos_iff] at hpos
    obtain ⟨s, -, hslot⟩ := hpos
    exact Stride.toNat_le_of_slot? (of_decide_eq_true hslot)

end HostAct

end EntityScript

import EntityScript.Proofs.FaultReports
import EntityScript.Proofs.Lifecycle

namespace EntityScript

open Machine (endState)

/-- An instruction is dispatched that names an operation. -/
def Event.executes : Event → Bool
  | dispatched _ instruction => instruction.opcode?.isSome
  | _ => false

def Turn.fault? : Turn → Option Fault
  | halted fault => some fault
  | _ => none

theorem Turn.fault?_eq_some_iff {turn : Turn} {fault : Fault} :
    turn.fault? = some fault ↔ turn = .halted fault := by
  cases turn <;> simp [fault?]

theorem Turn.fault?_eq_none_iff {turn : Turn} :
    turn.fault? = none ↔ ∀ fault, turn ≠ .halted fault := by
  cases turn <;> simp [fault?]

section Natives

variable {ω : Type}

/-- A call of a native function that goes on: the script continues where it would, and no dispatch
is reported. -/
structure Call.Steady (call done : Call ω) : Prop where
  ip_eq : done.machine.ip = call.machine.ip
  stopped_eq : done.stopped = call.stopped
  countP_eq : done.events.countP Event.executes = call.events.countP Event.executes

theorem Call.Steady.trans {call middle done : Call ω} (h : call.Steady middle)
    (hnext : middle.Steady done) : call.Steady done :=
  ⟨hnext.ip_eq.trans h.ip_eq, hnext.stopped_eq.trans h.stopped_eq,
    hnext.countP_eq.trans h.countP_eq⟩

namespace Native

def Steady {α : Type} (action : NativeM ω α) : Prop :=
  ∀ (site : CallSite) (call : Call ω), call.Steady (endState (action site call))

namespace Steady

variable {α β : Type}

theorem of_unchanged {action : NativeM ω α}
    (h : ∀ site call, endState (action site call) = call) : Steady action := by
  intro site call
  rw [h site call]
  exact ⟨rfl, rfl, rfl⟩

theorem bind {f : NativeM ω α} {k : α → NativeM ω β} (hf : Steady f)
    (hk : ∀ value, Steady (k value)) : Steady (f >>= k) := by
  intro site call
  have hfirst := hf site call
  cases hresult : f site call with
  | error fault done =>
      rw [hresult] at hfirst
      rw [bind_error hresult]
      exact hfirst
  | ok value done =>
      rw [hresult] at hfirst
      rw [bind_ok hresult]
      exact hfirst.trans (hk value site done)

theorem peek (n : UInt8) : Steady (Native.peek n : NativeM ω Word) := by
  apply of_unchanged
  intro site call
  have hpeek : endState (Machine.peek n call.machine) = call.machine :=
    Machine.endState_peek n call.machine
  rw [Native.peek, onMachine]
  cases hresult : Machine.peek n call.machine with
  | ok value m =>
      rw [hresult] at hpeek
      obtain rfl : m = call.machine := hpeek
      rfl
  | error fault m =>
      rw [hresult] at hpeek
      obtain rfl : m = call.machine := hpeek
      rfl

theorem setDelay (ticks : Word) : Steady (Native.setDelay ticks : NativeM ω Unit) :=
  fun _ _ => ⟨rfl, rfl, rfl⟩

theorem report {event : Event} (h : event.executes = false) :
    Steady (Native.report event : NativeM ω Unit) := by
  intro site call
  refine ⟨rfl, rfl, ?_⟩
  change (call.events.push event).countP Event.executes = _
  rw [Array.countP_push, h]
  rfl

theorem delay : Steady (Native.delay : NativeM ω Word) :=
  (peek 1).bind fun _ => (of_unchanged fun _ _ => rfl).bind fun _ =>
    (setDelay _).bind fun _ => .of_unchanged fun _ _ => rfl

end Steady

end Native

namespace NativeTable

variable {table : NativeTable ω}

/-- All native functions of the table go on. -/
def Steady (table : NativeTable ω) : Prop :=
  ∀ slot native, table.get? slot = some native → Native.Steady native

theorem Steady.guided (h : table.Steady) : table.Guided :=
  fun slot native hnative => .of_ip fun site call => (h slot native hnative site call).ip_eq

theorem Steady.call (h : table.Steady) (a : Actor ω) (parameter next : Word) :
    (a.opened next).Steady (endState (a.call table parameter next)) := by
  cases hnative : table.get? (parameter &&& 0xFF) with
  | none =>
      rw [Actor.call_unbound hnative]
      exact ⟨rfl, rfl, rfl⟩
  | some native =>
      rw [Actor.call_bound hnative]
      exact h _ native hnative _ _

end NativeTable

end Natives

namespace Stride

variable {s : Stride}

theorem stops_eq_false (h : s.table.Steady) : s.stops = false := by
  rw [stops]
  split
  · rename_i parameter next _
    have hcall := (h.call s.start parameter next).stopped_eq
    cases hresult : s.start.call s.table parameter next with
    | ok value done =>
        rw [hresult] at hcall
        exact hcall
    | error fault done => rfl
  · rfl

theorem countP_begins (s : Stride) : s.begins.countP Event.executes = s.opcode?.isSome.toNat := by
  rw [begins, opcode?, Actor.operation?, Actor.decoded?]
  cases s.start.engine.machine.ip with
  | none => rfl
  | some ip =>
      dsimp only
      cases s.start.engine.program.fetch ip with
      | error fault => rfl
      | ok fetched =>
          obtain ⟨instruction, next⟩ := fetched
          simp only [Option.map_map, Option.isSome_map]
          cases hopcode : instruction.opcode? <;> simp [Event.executes, hopcode]

theorem countP_logged (h : s.table.Steady) : s.logged.countP Event.executes = 0 := by
  rw [logged]
  split
  · rename_i parameter next _
    exact (h.call s.start parameter next).countP_eq
  · rfl

theorem countP_executes (h : s.table.Steady) :
    (s.start.step s.table).events.countP Event.executes = s.opcode?.isSome.toNat := by
  have hfault : s.faultReport.countP Event.executes = 0 := by
    rw [faultReport]
    split <;> rfl
  rw [events_eq, stopReport_eq_empty (stops_eq_false h), Array.append_empty, Array.countP_append,
    Array.countP_append, countP_begins, countP_logged h, hfault, Nat.add_zero]

theorem total_charge (s : Stride) (r : Report) :
    (s.charge r).opcodes.total = r.opcodes.total + s.opcode?.isSome.toNat := by
  rw [charge, Tally.tally]
  cases s.opcode? with
  | none => rfl
  | some opcode => exact Tally.total_add _ _ _

end Stride

namespace Actor

variable {ω : Type} [Owner ω] {a : Actor ω} {table : NativeTable ω} (hsteady : table.Steady)

section Tick

include hsteady

theorem runFrom_executes (executed : Nat) (events : Array Event) (budget : Nat) :
    let ran := a.runFrom table executed events budget
    ∃ later, ran.events = events ++ later ∧ later.countP Event.executes ≤ budget ∧
      ran.after.engine.report.opcodes.total =
        a.engine.report.opcodes.total + later.countP Event.executes := by
  induction budget generalizing executed events a with
  | zero => exact ⟨#[], Array.append_empty.symm, Nat.le_refl 0, rfl⟩
  | succ budget ih =>
      cases hready : a.engine.isReady with
      | false =>
          rw [runFrom_unready _ _ _ hready]
          exact ⟨#[], Array.append_empty.symm, Nat.zero_le _, rfl⟩
      | true =>
          have hcount : (a.step table).events.countP Event.executes = _ :=
            Stride.countP_executes (s := ⟨table, a⟩) hsteady
          have hone : (a.step table).events.countP Event.executes ≤ 1 := by
            rw [hcount]
            exact Bool.toNat_le _
          have hstep : (a.step table).after.engine.report.opcodes.total =
              a.engine.report.opcodes.total + (a.step table).events.countP Event.executes := by
            rw [step_report, Stride.total_charge, hcount]
          rw [runFrom_ready _ _ _ hready]
          cases (a.step table).value with
          | error fault =>
              exact ⟨(a.step table).events, rfl, by omega, hstep⟩
          | ok done =>
              obtain ⟨later, hevents, hle, htotal⟩ :=
                ih (a := (a.step table).after) (executed + 1) (events ++ (a.step table).events)
              refine ⟨(a.step table).events ++ later, ?_, ?_, ?_⟩
              · rw [hevents, Array.append_assoc]
              · rw [Array.countP_append]
                omega
              · rw [htotal, hstep, Array.countP_append, Nat.add_assoc]

theorem tick_executes (a : Actor ω) :
    (a.tick table).events.countP Event.executes ≤ a.engine.settings.instructionBudget ∧
      (a.turned table).engine.report.opcodes.total =
        a.engine.report.opcodes.total + (a.tick table).events.countP Event.executes := by
  cases hready : a.engine.isReady with
  | false =>
      rw [turned]
      by_cases hip : a.engine.machine.ip = none
      · rw [tick_unloaded table hip]
        exact ⟨Nat.zero_le _, rfl⟩
      · rw [tick_waiting table hip (Engine.delay_ne_zero hip hready)]
        exact ⟨Nat.zero_le _, rfl⟩
  | true =>
      obtain ⟨later, hevents, hle, htotal⟩ :=
        runFrom_executes (a := a) hsteady 0 #[] a.engine.settings.instructionBudget
      rw [Array.empty_append] at hevents
      rw [turned, tick_ready table hready]
      exact ⟨(congrArg _ hevents).trans_le hle, htotal.trans (by rw [← hevents]; rfl)⟩

theorem any_stops (budget : Nat) (a : Actor ω) :
    (a.strides table budget).any (·.stops) = false := by
  induction budget generalizing a with
  | zero => rfl
  | succ budget ih =>
      cases hready : a.engine.isReady with
      | false =>
          rw [strides_unready table _ hready]
          rfl
      | true =>
          rw [strides_ready table _ hready, List.any_cons, Stride.stops_eq_false hsteady]
          cases (a.step table).value with
          | ok done => exact ih _
          | error fault => rfl

theorem tick_fares (hloaded : a.engine.machine.ip ≠ none) :
    (a.tick table).value ≠ .idle ∧
      a.engine.Fares (a.tick table).value.fault?.isSome (a.turned table).engine := by
  cases hready : a.engine.isReady with
  | false =>
      rw [turned, tick_waiting table hloaded (Engine.delay_ne_zero hloaded hready)]
      exact ⟨nofun, .stay hloaded rfl⟩
  | true =>
      have hran : a.engine.Fares (!(a.run table).value.isOk || _) (a.run table).after.engine :=
        runFrom_fares hsteady.guided hloaded 0 #[] a.engine.settings.instructionBudget
      rw [any_stops hsteady, Bool.or_false] at hran
      rw [turned, tick_ready table hready]
      change Turn.ofRun (a.run table).value ≠ .idle ∧
        a.engine.Fares (Turn.ofRun (a.run table).value).fault?.isSome (a.run table).after.engine
      cases hvalue : (a.run table).value with
      | ok instructions =>
          rw [hvalue] at hran
          exact ⟨nofun, hran⟩
      | error fault =>
          rw [hvalue] at hran
          exact ⟨nofun, hran⟩

end Tick

section Ticks

variable (table) (a)

/-- What is reported during so many turns. -/
def turnEvents (turns : Nat) : List Event :=
  (List.range turns).flatMap fun n => (((turned table)^[n] a).tick table).events.toList

theorem turnEvents_succ (n : Nat) :
    a.turnEvents table (n + 1) =
      a.turnEvents table n ++ (((turned table)^[n] a).tick table).events.toList := by
  rw [turnEvents, List.range_succ, List.flatMap_append, List.flatMap_singleton]
  rfl

theorem turnEvents_turned (n : Nat) :
    a.turnEvents table (n + 1) =
      (a.tick table).events.toList ++ (a.turned table).turnEvents table n := by
  rw [turnEvents, List.range_succ_eq_map, List.flatMap_cons, List.flatMap_map]
  rfl

variable {table a} {program : Program} {settings : Settings}

theorem over_iterate (h : a.engine.Over program settings) (n : Nat) :
    ((turned table)^[n] a).engine.Over program settings := by
  induction n with
  | zero => exact h
  | succ n ih =>
      rw [Function.iterate_succ_apply']
      exact ih.tick table

include hsteady

theorem iterate_executes (h : a.engine.Over program settings) (n : Nat) :
    (a.turnEvents table n).countP Event.executes ≤ settings.instructionBudget * n ∧
      ((turned table)^[n] a).engine.report.opcodes.total =
        a.engine.report.opcodes.total + (a.turnEvents table n).countP Event.executes := by
  induction n with
  | zero => exact ⟨Nat.zero_le _, rfl⟩
  | succ n ih =>
      obtain ⟨hle, htotal⟩ := ih
      obtain ⟨hturn, hlast⟩ := tick_executes hsteady ((turned table)^[n] a)
      rw [(over_iterate h n).settings_eq] at hturn
      rw [← Array.countP_toList] at hturn hlast
      rw [turnEvents_succ, List.countP_append, Function.iterate_succ_apply', hlast, htotal,
        Nat.mul_succ, Nat.add_assoc]
      exact ⟨Nat.add_le_add hle hturn, rfl⟩

theorem iterate_fares (hloaded : a.engine.machine.ip ≠ none) {n : Nat}
    (hgoes : ∀ k < n, (((turned table)^[k] a).tick table).value.fault? = none) :
    a.engine.Fares false ((turned table)^[n] a).engine := by
  induction n with
  | zero => exact .stay hloaded rfl
  | succ n ih =>
      have hbefore := ih fun k hk => hgoes k (Nat.lt_succ_of_lt hk)
      have hturn := (tick_fares hsteady (hbefore.loaded rfl)).2
      rw [hgoes n (Nat.lt_succ_self n)] at hturn
      rw [Function.iterate_succ_apply']
      exact hbefore.trans hturn

end Ticks

section Limit

variable {limit : Nat}

/-- How many turns an engine has: those up to the first that fails, or else as many as there are. -/
inductive TurnsUpTo (table : NativeTable ω) (a : Actor ω) (limit : Nat) :
    Nat → Option Fault → Prop
  | all (hgoes : ∀ k < limit, (((turned table)^[k] a).tick table).value.fault? = none) :
      TurnsUpTo table a limit limit none
  | halted {last : Nat} {fault : Fault} (hlast : last < limit)
      (hhalts : (((turned table)^[last] a).tick table).value = .halted fault)
      (hgoes : ∀ k < last, (((turned table)^[k] a).tick table).value.fault? = none) :
      TurnsUpTo table a limit (last + 1) (some fault)

namespace TurnsUpTo

variable {turns : Nat} {fault? : Option Fault}

theorem succ (hgoes : (a.tick table).value.fault? = none)
    (h : TurnsUpTo table (a.turned table) limit turns fault?) :
    TurnsUpTo table a (limit + 1) (turns + 1) fault? := by
  cases h with
  | all hrest =>
      refine .all fun k hk => ?_
      cases k with
      | zero => exact hgoes
      | succ k => exact hrest k (Nat.lt_of_succ_lt_succ hk)
  | halted hlast hhalts hrest =>
      refine .halted (Nat.succ_lt_succ hlast) hhalts fun k hk => ?_
      cases k with
      | zero => exact hgoes
      | succ k => exact hrest k (Nat.lt_of_succ_lt_succ hk)

theorem goes (h : TurnsUpTo table a limit turns fault?) {n k : Nat} (hn : n < turns) (hk : k < n) :
    (((turned table)^[k] a).tick table).value.fault? = none := by
  cases h with
  | all hgoes => exact hgoes k (Nat.lt_trans hk hn)
  | halted _ _ hgoes => exact hgoes k (Nat.lt_of_lt_of_le hk (Nat.le_of_lt_succ hn))

theorem of_goes (h : TurnsUpTo table a limit turns fault?)
    (hgoes : ∀ k < limit, (((turned table)^[k] a).tick table).value.fault? = none) :
    turns = limit ∧ fault? = none := by
  cases h with
  | all _ => exact ⟨rfl, rfl⟩
  | halted hlast hhalts _ =>
      have hnone := hgoes _ hlast
      rw [hhalts] at hnone
      cases hnone

theorem of_halted (h : TurnsUpTo table a limit turns fault?) {last : Nat} {fault : Fault}
    (hlast : last < limit) (hhalts : (((turned table)^[last] a).tick table).value = .halted fault)
    (hgoes : ∀ k < last, (((turned table)^[k] a).tick table).value.fault? = none) :
    turns = last + 1 ∧ fault? = some fault := by
  have hfault := congrArg Turn.fault? hhalts
  cases h with
  | all hgoes' => cases (hgoes' last hlast).symm.trans hfault
  | @halted last' fault' _ hhalts' hgoes' =>
      have hfault' := congrArg Turn.fault? hhalts'
      -- Neither of two first turns that fail comes before the other.
      rcases Nat.lt_trichotomy last' last with hlt | rfl | hgt
      · cases (hgoes last' hlt).symm.trans hfault'
      · exact ⟨rfl, hfault'.symm.trans hfault⟩
      · cases (hgoes' last hgt).symm.trans hfault

variable (hloaded : a.engine.machine.ip ≠ none)

include hsteady hloaded

theorem ne_idle (h : TurnsUpTo table a limit turns fault?) {n : Nat} (hn : n < turns) :
    (((turned table)^[n] a).tick table).value ≠ .idle := by
  have hbefore := iterate_fares hsteady hloaded fun k hk => h.goes hn hk
  exact (tick_fares hsteady (hbefore.loaded rfl)).1

theorem fares (h : TurnsUpTo table a limit turns fault?) :
    a.engine.Fares fault?.isSome ((turned table)^[turns] a).engine := by
  cases h with
  | all hgoes => exact iterate_fares hsteady hloaded hgoes
  | halted _ hhalts hgoes =>
      have hbefore := iterate_fares hsteady hloaded hgoes
      have hlast := (tick_fares hsteady (hbefore.loaded rfl)).2
      rw [hhalts] at hlast
      rw [Function.iterate_succ_apply']
      exact hbefore.trans hlast

end TurnsUpTo

end Limit

end Actor

end EntityScript

import EntityScript.Proofs.Accounting
import EntityScript.Proofs.KnownSlots
import EntityScript.Proofs.Routine

/-!
A load empties the stack but leaves what its slots hold, so a script can come across values of the
one before it, unless it reads only slots that it wrote itself.
-/

namespace EntityScript

open Machine

variable {ω α β : Type}

namespace Native

/-- Two outcomes of a call that differ at most in slots that are not known.  All values on the stack
are known afterwards. -/
inductive Alike (known : List Int) :
    EStateM.Result Fault (Call ω) α → EStateM.Result Fault (Call ω) α → Prop
  | ok {a : α} {done : Call ω} {stack : Vector Word stackSize} :
      Agree (done.machine.live ++ known) done.machine.stack stack →
        Alike known (.ok a done) (.ok a { done with machine := done.machine.restacked stack })
  | error {fault : Fault} {done : Call ω} {stack : Vector Word stackSize} :
      Agree known done.machine.stack stack →
        Alike known (.error fault done)
          (.error fault { done with machine := done.machine.restacked stack })

/-- A native function that looks at no slot beyond the values on the stack and leaves no value there
that it did not find or write. -/
def Tidy (action : NativeM ω α) : Prop :=
  ∀ site call stack known, (∀ i ∈ call.machine.live, i ∈ known) →
    Agree known call.machine.stack stack →
      Alike known (action site call)
        (action site { call with machine := call.machine.restacked stack })

namespace Tidy

theorem bind {f : NativeM ω α} {k : α → NativeM ω β} (hf : Tidy f)
    (hk : ∀ value, Tidy (k value)) : Tidy (f >>= k) := by
  intro site call stack known hlive hagree
  have hfirst := hf site call stack known hlive hagree
  generalize hresult : f site call = result at hfirst
  generalize hresult' :
    f site { call with machine := call.machine.restacked stack } = result' at hfirst
  cases hfirst with
  | error hagree' =>
      rw [bind_error hresult, bind_error hresult']
      exact .error hagree'
  | @ok value done stack' hagree' =>
      rw [bind_ok hresult, bind_ok hresult']
      have hnext := hk value site done stack' (done.machine.live ++ known)
        (fun i hi => List.mem_append_left _ hi) hagree'
      generalize k value site done = last at hnext
      generalize k value site { done with machine := done.machine.restacked stack' } = last' at hnext
      cases hnext with
      | ok hlast =>
          refine .ok (hlast.mono fun i hi => ?_)
          rcases List.mem_append.1 hi with hnew | hold
          · exact List.mem_append_left _ hnew
          · exact List.mem_append_right _ (List.mem_append_right _ hold)
      | error hlast => exact .error (hlast.mono fun i hi => List.mem_append_right _ hi)

theorem throw (fault : Fault) : Tidy (MonadExcept.throw fault : NativeM ω α) :=
  fun _ _ _ _ _ hagree => .error hagree

theorem of_unchanged {action : NativeM ω α} (value : CallSite → α) (change : Call ω → Call ω)
    (haction : ∀ site call, action site call = .ok (value site) (change call))
    (hstack : ∀ call stack, change { call with machine := call.machine.restacked stack } =
      { change call with machine := (change call).machine.restacked stack })
    (hlive : ∀ call, (change call).machine.live = call.machine.live)
    (hsame : ∀ call, (change call).machine.stack = call.machine.stack) : Tidy action := by
  intro site call stack known hknown hagree
  rw [haction, haction, hstack]
  refine .ok ?_
  rw [hlive, hsame]
  exact hagree.mono fun i hi => (List.mem_append.1 hi).elim (hknown i) id

theorem pure (value : α) : Tidy (Pure.pure value : NativeM ω α) :=
  of_unchanged (fun _ => value) id (fun _ _ => rfl) (fun _ _ => rfl) (fun _ => rfl) fun _ => rfl

theorem read : Tidy (MonadReaderOf.read : NativeM ω CallSite) :=
  of_unchanged id id (fun _ _ => rfl) (fun _ _ => rfl) (fun _ => rfl) fun _ => rfl

theorem setDelay (ticks : Word) : Tidy (Native.setDelay ticks : NativeM ω Unit) :=
  of_unchanged (fun _ => ())
    (fun call => { call with machine := { call.machine with delay := ticks } })
    (fun _ _ => rfl) (fun _ _ => rfl) (fun _ => rfl) fun _ => rfl

theorem peek (n : UInt8) : Tidy (Native.peek n : NativeM ω Word) := by
  intro site call stack known hknown hagree
  rcases Nat.eq_zero_or_pos n.toNat with hzero | hpos
  · obtain rfl : n = 0 := UInt8.toNat_inj.1 hzero
    exact .error hagree
  · rcases Nat.lt_or_ge stackSize (call.machine.stackPointer.toNat + n.toNat) with hshort | hlong
    · rw [Native.peek, onMachine_error (peek_short hshort),
        onMachine_error (peek_short (m := call.machine.restacked stack) hshort)]
      exact .error hagree
    · have hlive : ((call.machine.stackPointer.toNat + n.toNat - 1 : Nat) : Int) ∈
          call.machine.live := mem_live (by omega) (by omega)
      have hvalue := hagree.getElem_eq (by omega) (hknown _ hlive)
      rw [Native.peek, onMachine_ok (peek_ok hpos hlong),
        onMachine_ok (peek_ok (m := call.machine.restacked stack) hpos hlong), hvalue]
      exact .ok (hagree.mono fun i hi => (List.mem_append.1 hi).elim (hknown i) id)

theorem delay : Tidy (Native.delay : NativeM ω Word) :=
  (peek 1).bind fun _ => read.bind fun _ => (setDelay _).bind fun _ => .pure _

end Tidy

end Native

def NativeTable.Tidy (table : NativeTable ω) : Prop :=
  ∀ slot native, table.get? slot = some native → Native.Tidy native

theorem NativeTable.Tidy.invoke {table : NativeTable ω} (h : table.Tidy) (slot : Word) :
    Native.Tidy (table.invoke slot) := by
  rw [NativeTable.invoke]
  cases hnative : table.get? slot with
  | none => exact .throw _
  | some native => exact h slot native hnative

namespace Actor

/-- Two actors that differ at most in slots that are not known and in their reports. -/
structure Alike (known : List Int) (a a' : Actor ω) : Prop where
  program : a'.engine.program = a.engine.program
  settings : a'.engine.settings = a.engine.settings
  halted : a'.engine.halted = a.engine.halted
  owner : a'.owner = a.owner
  machine : ∃ stack, a'.engine.machine = a.engine.machine.restacked stack ∧
    Agree known a.engine.machine.stack stack

structure AlikeOutcome (failed done : List Int) (o o' : Outcome (Actor ω) (Except Fault α)) :
    Prop where
  value : o'.value = o.value
  events : o'.events = o.events
  failed : (∃ fault, o.value = .error fault) → Alike failed o.after o'.after
  done : (∃ a, o.value = .ok a) → Alike done o.after o'.after

namespace AlikeOutcome

variable {failed done : List Int} {events : Array Event} {a a' : Actor ω}

theorem of_ok {value : α} (h : a.Alike done a') :
    AlikeOutcome failed done ⟨.ok value, a, events⟩ ⟨.ok value, a', events⟩ := by
  refine ⟨rfl, rfl, ?_, fun _ => h⟩
  rintro ⟨fault, hfault⟩
  cases hfault

theorem of_error {fault : Fault} (h : a.Alike failed a') :
    AlikeOutcome (α := α) failed done ⟨.error fault, a, events⟩ ⟨.error fault, a', events⟩ := by
  refine ⟨rfl, rfl, fun _ => h, ?_⟩
  rintro ⟨value, hvalue⟩
  cases hvalue

end AlikeOutcome

/-- The slots that hold what an instruction made of them after it was executed: those that it writes,
and after a native function all values on the stack. -/
def written (before after : Actor ω) (instruction : Instruction) : List Int :=
  match instruction.opcode? with
  | none => []
  | some .function => after.engine.machine.live
  | some opcode => writes opcode instruction.parameter before.engine.machine

variable {known done : List Int} {a a' : Actor ω} (h : a.Alike known a')

include h

theorem onMachine_alike {action : Machine.Action α}
    (haction : ∀ stack, Agree known a.engine.machine.stack stack →
      Machine.Alike known done (action a.engine.machine)
        (action (a.engine.machine.restacked stack))) :
    AlikeOutcome known done (a.onMachine action) (a'.onMachine action) := by
  obtain ⟨hprogram, hsettings, hhalted, howner, stack, hmachine, hagree⟩ := h
  have halike := haction stack hagree
  rw [onMachine, onMachine, hmachine]
  generalize action a.engine.machine = result at halike
  generalize action (a.engine.machine.restacked stack) = result' at halike
  cases halike with
  | @ok value m stack' hagree' =>
      exact .of_ok ⟨hprogram, hsettings, hhalted, howner, stack', rfl, hagree'⟩
  | @error fault m stack' hagree' =>
      exact .of_error ⟨hprogram, hsettings, hhalted, howner, stack', rfl, hagree'⟩

theorem fail_alike [Owner ω] (done : List Int) (offset : Option Word)
    (instruction : Option Instruction) (fault : Fault) :
    AlikeOutcome (α := α) known done (a.fail offset instruction fault)
      (a'.fail offset instruction fault) := by
  obtain ⟨hprogram, hsettings, hhalted, howner, stack, hmachine, hagree⟩ := h
  rw [fail, fail, howner]
  refine .of_error ⟨hprogram, hsettings, rfl, howner, stack, ?_, hagree⟩
  simp only [mapEngine, Engine.halt, hmachine]
  rfl

theorem callNative_alike {table : NativeTable ω} (htidy : table.Tidy) (slot : Word)
    (hlive : ∀ i ∈ a.engine.machine.live, i ∈ known) :
    AlikeOutcome known ((a.callNative table slot).after.engine.machine.live ++ known)
      (a.callNative table slot) (a'.callNative table slot) := by
  obtain ⟨hprogram, hsettings, hhalted, howner, stack, hmachine, hagree⟩ := h
  have halike := htidy.invoke slot ⟨a.engine.program, a.engine.settings⟩
    { machine := a.engine.machine, owner := a.owner } stack known hlive hagree
  simp only [callNative, hprogram, hsettings, hmachine, howner]
  generalize table.invoke slot ⟨a.engine.program, a.engine.settings⟩
    { machine := a.engine.machine, owner := a.owner } = result at halike
  generalize table.invoke slot ⟨a.engine.program, a.engine.settings⟩
    { machine := a.engine.machine.restacked stack, owner := a.owner } = result' at halike
  cases halike with
  | @error fault call stack' hagree' =>
      exact .of_error ⟨rfl, rfl, hhalted, rfl, stack', rfl, hagree'⟩
  | @ok value call stack' hagree' =>
      dsimp only
      split
      · exact .of_ok ⟨rfl, rfl, rfl, rfl, stack', rfl, hagree'⟩
      · exact .of_ok ⟨rfl, rfl, hhalted, rfl, stack', rfl, hagree'⟩

theorem counted_alike (opcode : Opcode) :
    (a.mapEngine fun e => { e with report := e.report.countOpcode opcode }).Alike known
      (a'.mapEngine fun e => { e with report := e.report.countOpcode opcode }) :=
  ⟨h.program, h.settings, h.halted, h.owner, h.machine⟩

theorem begun_alike (next : Word) :
    (a.withMachine (a.begun next)).Alike known (a'.withMachine (a'.begun next)) := by
  obtain ⟨hprogram, hsettings, hhalted, howner, stack, hmachine, hagree⟩ := h
  refine ⟨hprogram, hsettings, hhalted, howner, stack, ?_, hagree⟩
  simp only [withMachine, mapEngine, begun, hmachine]
  rfl

theorem execute_alike {table : NativeTable ω} (htidy : table.Tidy) (instruction : Instruction)
    (next : Word)
    (hreads : ∀ opcode, instruction.opcode? = some opcode →
      ∀ i ∈ reads opcode instruction.parameter a.engine.machine, i ∈ known) :
    let ended := a.execute table instruction next
    AlikeOutcome known (written a ended.after instruction ++ known) ended
      (a'.execute table instruction next) := by
  intro ended
  rw [written]
  cases hcode : instruction.opcode? with
  | none =>
      simp only [ended, execute, hcode]
      exact .of_error h
  | some opcode =>
      have hcounted := counted_alike h opcode
      by_cases hopcode : opcode = .function
      · -- The owner takes part in a call, so it is no operation on the machine alone.
        subst hopcode
        simp only [ended, execute, hcode]
        refine callNative_alike hcounted htidy _ fun i hi => ?_
        exact hreads _ hcode i (List.mem_filter.2 ⟨hi, decide_eq_true (isSlot_of_mem_live hi)⟩)
      · have hended : ended = _ := execute_operation table hcode hopcode
        rw [hended, execute_operation table hcode hopcode]
        have hmachine := onMachine_alike hcounted fun stack hagree =>
          Machine.execute_alike hagree (hreads opcode hcode) next
        cases opcode with
        | function => exact (hopcode rfl).elim
        | _ => exact hmachine

end Actor

namespace Stride

/-- The slots that a step may read. -/
def reads (s : Stride) : List Int :=
  match s.start.operation? with
  | none => []
  | some (opcode, parameter, _) => Machine.reads opcode parameter s.start.engine.machine

def writes (s : Stride) : List Int :=
  match s.start.operation? with
  | none => []
  | some (.function, _, _) => (s.start.step s.table).after.engine.machine.live
  | some (opcode, parameter, _) => Machine.writes opcode parameter s.start.engine.machine

end Stride

namespace Actor

theorem writes_fetched [Owner ω] {table : NativeTable ω} {a : Actor ω} {ip next : Word}
    {instruction : Instruction} (hip : a.engine.machine.ip = some ip)
    (hfetch : a.engine.program.fetch ip = .ok (instruction, next))
    (hended : ((a.withMachine (a.begun next)).execute table instruction next).value = .ok ()) :
    (⟨table, a⟩ : Stride).writes =
      written (a.withMachine (a.begun next))
        ((a.withMachine (a.begun next)).execute table instruction next).after instruction := by
  have hafter := (step_instruction_ok table hip hfetch hended).2
  rw [written]
  cases hcode : instruction.opcode? with
  | none =>
      simp only [Stride.writes, operation?, hip, hfetch, hcode, Option.map_none]
  | some opcode =>
      have hoperation := operation?_eq_some_iff.2 ⟨ip, instruction, hip, hfetch, hcode, rfl⟩
      simp only [Stride.writes, hoperation, hafter]
      cases opcode <;> rfl

variable [Owner ω] {known : List Int} {a a' : Actor ω} (h : a.Alike known a')

include h

theorem step_alike {table : NativeTable ω} (htidy : table.Tidy)
    (hreads : ∀ i ∈ (⟨table, a⟩ : Stride).reads, i ∈ known) :
    AlikeOutcome known ((⟨table, a⟩ : Stride).writes ++ known) (a.step table) (a'.step table) := by
  have hip' : a'.engine.machine.ip = a.engine.machine.ip := by
    obtain ⟨stack, hmachine, -⟩ := h.machine
    rw [hmachine]
    rfl
  cases hip : a.engine.machine.ip with
  | none =>
      have hoperation : a.operation? = none := by simp only [operation?, hip]
      rw [step_eq_of_unloaded hip, step_eq_of_unloaded (hip'.trans hip)]
      simp only [Stride.writes, hoperation]
      exact .of_ok h
  | some ip =>
      rw [hip] at hip'
      cases hfetch : a.engine.program.fetch ip with
      | error fault =>
          simp only [step, hip, hip', h.program, hfetch]
          exact fail_alike h _ (some ip) none fault
      | ok fetched =>
          obtain ⟨instruction, next⟩ := fetched
          have hexecuted := execute_alike (begun_alike h next) htidy instruction next
            fun opcode hcode i hi => by
              have hoperation := operation?_eq_some_iff.2 ⟨ip, instruction, hip, hfetch, hcode, rfl⟩
              refine hreads i ?_
              simp only [Stride.reads, hoperation]
              exact hi
          obtain ⟨hvalue, hevents, hfailed, hdone⟩ := hexecuted
          have hbegun : { a.engine.machine with ip := some next } = a.begun next := rfl
          have hbegun' : { a'.engine.machine with ip := some next } = a'.begun next := rfl
          simp only [step, hip, hip', h.program, hfetch, hbegun, hbegun', hvalue, hevents]
          cases hended : ((a.withMachine (a.begun next)).execute table instruction next).value with
          | error fault =>
              have hfail := fail_alike (α := Bool) (hfailed ⟨fault, hended⟩)
                ((⟨table, a⟩ : Stride).writes ++ known) (some ip) (some instruction) fault
              dsimp only
              rw [hfail.events]
              exact .of_error (hfail.failed ⟨fault, rfl⟩)
          | ok done =>
              have hlast := hdone ⟨done, hended⟩
              rw [← writes_fetched hip hfetch hended] at hlast
              exact .of_ok hlast

end Actor

/-- Every slot that a step reads is known, or a step before it wrote it. -/
def Stride.OwnReads : (known : List Int) → List Stride → Prop
  | _, [] => True
  | known, s :: rest => (∀ i ∈ s.reads, i ∈ known) ∧ OwnReads (s.writes ++ known) rest

instance Stride.decidableOwnReads :
    (known : List Int) → (strides : List Stride) → Decidable (Stride.OwnReads known strides)
  | _, [] => inferInstanceAs (Decidable True)
  | known, s :: rest =>
      have := decidableOwnReads (s.writes ++ known) rest
      inferInstanceAs (Decidable (_ ∧ _))

open Stride (OwnReads)

namespace Actor

variable [Owner ω] {table : NativeTable ω} {known : List Int} {a a' : Actor ω}

def turnStrides (table : NativeTable ω) : (turns : Nat) → (a : Actor ω) → List Stride
  | 0, _ => []
  | turns + 1, a =>
      a.strides table a.engine.settings.instructionBudget ++
        turnStrides table turns (a.turned table)

theorem turnStrides_unloaded (h : a.engine.machine.ip = none) (turns : Nat) :
    a.turnStrides table turns = [] := by
  induction turns with
  | zero => rfl
  | succ turns ih =>
      rw [turnStrides, strides_unready table _ (Engine.isReady_unloaded h), turned,
        tick_unloaded table h, ih]
      rfl

omit [Owner ω] in
theorem Alike.isReady_eq (h : a.Alike known a') : a'.engine.isReady = a.engine.isReady := by
  obtain ⟨stack, hmachine, -⟩ := h.machine
  simp only [Engine.isReady, Engine.isLoaded, hmachine]
  rfl

theorem runFrom_alike (htidy : table.Tidy) (h : a.Alike known a') (executed : Nat)
    (events : Array Event) (budget : Nat) {rest : List Stride}
    (hown : OwnReads known (a.strides table budget ++ rest)) :
    let ran := a.runFrom table executed events budget
    let ran' := a'.runFrom table executed events budget
    ran'.value = ran.value ∧ ran'.events = ran.events ∧
      ∃ known', ran.after.Alike known' ran'.after ∧
        (OwnReads known' rest ∨ ran.after.engine.machine.ip = none) := by
  induction budget generalizing executed events a a' known with
  | zero => exact ⟨rfl, rfl, known, h, .inl hown⟩
  | succ budget ih =>
      cases hready : a.engine.isReady with
      | false =>
          rw [runFrom_unready _ _ _ hready, runFrom_unready _ _ _ (h.isReady_eq.trans hready)]
          rw [strides_unready table _ hready] at hown
          exact ⟨rfl, rfl, known, h, .inl hown⟩
      | true =>
          rw [strides_ready table _ hready, List.cons_append] at hown
          obtain ⟨hreads, hown⟩ := hown
          obtain ⟨hvalue, hevents, hfailed, hdone⟩ := step_alike h htidy hreads
          rw [runFrom_ready _ _ _ hready, runFrom_ready _ _ _ (h.isReady_eq.trans hready), hvalue,
            hevents]
          cases hended : (a.step table).value with
          | ok done =>
              rw [hended] at hown
              exact ih (hdone ⟨done, hended⟩) (executed + 1) (events ++ (a.step table).events) hown
          | error fault =>
              -- What a failed step wrote is not known, but nothing is loaded that could read it.
              exact ⟨rfl, rfl, known, hfailed ⟨fault, hended⟩, .inr (step_error_unloaded hended)⟩

theorem tick_alike (htidy : table.Tidy) (h : a.Alike known a') {rest : List Stride}
    (hown : OwnReads known (a.strides table a.engine.settings.instructionBudget ++ rest)) :
    (a'.tick table).value = (a.tick table).value ∧
      (a'.tick table).events = (a.tick table).events ∧
      ∃ known', (a.turned table).Alike known' (a'.turned table) ∧
        (OwnReads known' rest ∨ (a.turned table).engine.machine.ip = none) := by
  obtain ⟨stack, hmachine, hagree⟩ := h.machine
  cases hready : a.engine.isReady with
  | false =>
      rw [strides_unready table _ hready, List.nil_append] at hown
      by_cases hip : a.engine.machine.ip = none
      · have hip' : a'.engine.machine.ip = none := by rw [hmachine]; exact hip
        rw [turned, turned, tick_unloaded table hip, tick_unloaded table hip']
        exact ⟨rfl, rfl, known, h, .inl hown⟩
      · have hdelay := Engine.delay_ne_zero hip hready
        have hip' : a'.engine.machine.ip ≠ none := by rw [hmachine]; exact hip
        have hdelay' : a'.engine.machine.delay ≠ 0 := by rw [hmachine]; exact hdelay
        rw [turned, turned, tick_waiting table hip hdelay, tick_waiting table hip' hdelay', hmachine]
        refine ⟨rfl, rfl, known, ⟨h.program, h.settings, h.halted, h.owner, stack, ?_, hagree⟩,
          .inl hown⟩
        simp only [delayed, withMachine, mapEngine, hmachine]
        rfl
  | true =>
      have hran := runFrom_alike htidy h 0 #[] a.engine.settings.instructionBudget hown
      rw [turned, turned, tick_ready table hready, tick_ready table (h.isReady_eq.trans hready)]
      rw [run, run, h.settings]
      obtain ⟨hvalue, hevents, hafter⟩ := hran
      exact ⟨congrArg Turn.ofRun hvalue, hevents, hafter⟩

theorem turns_alike (htidy : table.Tidy) (turns : Nat) (h : a.Alike known a')
    (hown : OwnReads known (a.turnStrides table turns)) :
    ∀ n < turns,
      let last := ((turned table)^[n] a).tick table
      let last' := ((turned table)^[n] a').tick table
      last'.value = last.value ∧ last'.events = last.events ∧
        ∃ known', last.after.Alike known' last'.after := by
  induction turns generalizing a a' known with
  | zero => exact fun n hn => absurd hn (Nat.not_lt_zero n)
  | succ turns ih =>
      obtain ⟨hvalue, hevents, known', hnext, hrest⟩ := tick_alike htidy h hown
      intro n hn
      cases n with
      | zero => exact ⟨hvalue, hevents, known', hnext⟩
      | succ n =>
          refine ih hnext ?_ n (Nat.lt_of_succ_lt_succ hn)
          rcases hrest with hrest | hip
          · exact hrest
          · rw [turnStrides_unloaded hip]
            trivial

omit [Owner ω] in
theorem load_alike {e e' : Engine} (owner : ω) (subtype : Word)
    (hprogram : e'.program = e.program) (hsettings : e'.settings = e.settings)
    (hvars : e'.machine.vars = e.machine.vars) (hdelay : e'.machine.delay = e.machine.delay)
    (hagree : Agree known e.machine.stack e'.machine.stack) :
    (⟨(e.load subtype).after, owner⟩ : Actor ω).Alike known ⟨(e'.load subtype).after, owner⟩ := by
  have hreset : e'.machine.reset = e.machine.reset.restacked e'.machine.stack := by
    simp only [Machine.reset, restacked, hvars, hdelay]
  simp only [Engine.load, Engine.reset, hprogram]
  cases e.program.entry? subtype with
  | none => exact ⟨rfl, hsettings, rfl, rfl, e'.machine.stack, hreset, hagree⟩
  | some entry =>
      refine ⟨rfl, hsettings, rfl, rfl, e'.machine.stack, ?_, hagree⟩
      simp only [hreset]
      rfl

/-- What a script does after a load does not depend on what was executed before, if it reads only
slots that it wrote itself or on which the stacks agree. -/
theorem turns_after_load (htidy : table.Tidy) {e e' : Engine} (owner : ω) {subtype : Word}
    (hprogram : e'.program = e.program) (hsettings : e'.settings = e.settings)
    (hvars : e'.machine.vars = e.machine.vars) (hdelay : e'.machine.delay = e.machine.delay)
    (hagree : Agree known e.machine.stack e'.machine.stack) {turns : Nat}
    (hown : OwnReads known
      ((⟨(e.load subtype).after, owner⟩ : Actor ω).turnStrides table turns)) :
    ∀ n < turns,
      let last := ((turned table)^[n] ⟨(e.load subtype).after, owner⟩).tick table
      let last' := ((turned table)^[n] ⟨(e'.load subtype).after, owner⟩).tick table
      last'.value = last.value ∧ last'.events = last.events ∧
        last'.after.owner = last.after.owner ∧
        last'.after.engine.machine =
          { last.after.engine.machine with stack := last'.after.engine.machine.stack } := by
  intro n hn last last'
  have h := load_alike owner subtype hprogram hsettings hvars hdelay hagree
  obtain ⟨hvalue, hevents, known', hlast⟩ := turns_alike htidy turns h hown n hn
  obtain ⟨stack, hmachine, -⟩ := hlast.machine
  refine ⟨hvalue, hevents, hlast.owner, ?_⟩
  rw [hmachine]
  rfl

/-- A script reserves a slot, writes it, sleeps and reads it again. -/
theorem turns_after_load_reserved :
    let program : Program :=
      { entries := #[0], words := #[0x4D01, 0x4304, 0x4A01, 0x0E00, 0x4601, 0x4900, 0x8006] }
    let table : NativeTable Unit := ⟨.team, .replicate nativeSlots (some Native.delay)⟩
    let settings : Settings := { instructionBudget := 5 }
    let fresh : Engine := { program := program, settings := settings }
    let used : Engine := { fresh with machine := { stack := .replicate stackSize 9 } }
    let last := ((turned table)^[6] ⟨(fresh.load 0).after, ()⟩).tick table
    let last' := ((turned table)^[6] ⟨(used.load 0).after, ()⟩).tick table
    table.Tidy ∧ last.after.engine.machine.vars.toList = [4, 0, 0, 0, 0] ∧
      last'.after.engine.machine.vars = last.after.engine.machine.vars := by
  intro program table settings fresh used last last'
  have htable : table.Tidy := by
    intro slot native hnative
    rw [NativeTable.eq_of_get?_replicate hnative]
    exact .delay
  have hagree : Agree [] fresh.machine.stack used.machine.stack :=
    fun _ hi => absurd hi List.not_mem_nil
  have hown : OwnReads []
      ((⟨(fresh.load 0).after, ()⟩ : Actor Unit).turnStrides table 7) := by decide +kernel
  have hvars : last.after.engine.machine.vars.toList = [4, 0, 0, 0, 0] := by decide +kernel
  have hprogram : used.program = fresh.program := rfl
  have hsettings : used.settings = fresh.settings := rfl
  obtain ⟨-, -, -, hmachine⟩ :=
    turns_after_load htable () hprogram hsettings rfl rfl hagree hown 6 (by decide)
  have hsame := congrArg Machine.vars hmachine
  exact ⟨htable, hvars, hsame⟩

/-- A script that reads a slot which it did not write finds there what the script before it left. -/
theorem turns_after_load_stale :
    let program : Program :=
      { entries := #[0, 3], words := #[0x4601, 0x0900, 0x8002, 0x4307, 0x8004] }
    let table : NativeTable Unit := .empty .unit
    let fresh : Engine := { program := program }
    let started : Actor Unit := ⟨(fresh.load 1).after, ()⟩
    let used := (started.step table).after.engine
    let last := (⟨(fresh.load 0).after, ()⟩ : Actor Unit).tick table
    let last' := (⟨(used.load 0).after, ()⟩ : Actor Unit).tick table
    used.program = fresh.program ∧ used.settings = fresh.settings ∧
      used.machine.vars = fresh.machine.vars ∧ used.machine.delay = fresh.machine.delay ∧
      (fresh.load 0).value = .ok () ∧ (used.load 0).value = .ok () ∧
      last.after.engine.machine.vars.toList = [0, 0, 0, 0, 0] ∧
      last'.after.engine.machine.vars.toList = [7, 0, 0, 0, 0] := by
  intro program table fresh started used last last'
  have hprogram : used.program = fresh.program := by decide +kernel
  have hload : (used.load 0).value = .ok () := by
    simp only [Engine.load, Engine.reset, hprogram]
    rfl
  refine ⟨hprogram, ?_, ?_, ?_, rfl, hload, ?_, ?_⟩
  all_goals decide +kernel

end Actor

end EntityScript

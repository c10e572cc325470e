import EntityScript.Native.Table
import EntityScript.Proofs.Forgetting

/-!
Native functions that reach the machine through its operations only, as trees that ask one operation
at a time.  Running one also lists the operations, each with the machine it was performed on.
-/

namespace EntityScript

namespace Machine

/-- What a host or a native function can ask of a machine. -/
inductive Request where
  | push (value : Word)
  | pop
  | peek (n : UInt8)
  | readSlot (slot : Slot)
  | writeSlot (slot : Slot) (value : Word)
  | rewind (count : Word)
  | forward (count : Word)
  | enterSubroutine (program : Program) (subtype : Word)
  | reset
  | readVariable (index : Nat)
  | writeVariable (index : Nat) (value : Word)
  | setDelay (ticks : Word)

/-- A request without an answer of its own is answered with zero. -/
def Request.perform : Request → Action Word
  | push value => do Machine.push value; return 0
  | pop => Machine.pop
  | peek n => Machine.peek n
  | readSlot slot => Machine.readSlot slot
  | writeSlot slot value => do Machine.writeSlot slot value; return 0
  | rewind count => do Machine.rewind count; return 0
  | forward count => do Machine.forward count; return 0
  | enterSubroutine program subtype => do Machine.enterSubroutine program subtype; return 0
  | reset => do modify Machine.reset; return 0
  | readVariable index =>
      match variableIndex? index with
      | some i => return (← get).vars.get i
      | none => throw (.unknownVariable index)
  | writeVariable index value =>
      match variableIndex? index with
      | some i => do setVariable i value; return 0
      | none => throw (.unknownVariable index)
  | setDelay ticks => do modify (fun m => { m with delay := ticks }); return 0

def Request.recorded : Request → Recorded Word
  | push value => do Recorded.push value; return 0
  | pop => Recorded.pop
  | peek n => Recorded.peek n
  | readSlot slot => Recorded.readSlot slot.toInt
  | writeSlot slot value => do Recorded.writeSlot slot.toInt value; return 0
  | rewind count => do Recorded.rewind count; return 0
  | forward count => do Recorded.forward count; return 0
  | enterSubroutine program subtype => do Recorded.enterSubroutine program subtype; return 0
  | reset => do Recorded.reset; return 0
  | readVariable index =>
      match variableIndex? index with
      | some i => return (← Recorded.look).vars.get i
      | none => throw (.unknownVariable index)
  | writeVariable index value =>
      match variableIndex? index with
      | some i => do
          Recorded.change (fun m => { m with vars := m.vars.setIfInBounds i value })
          return 0
      | none => throw (.unknownVariable index)
  | setDelay ticks => do Recorded.change (fun m => { m with delay := ticks }); return 0

theorem Request.records (r : Request) : Records r.recorded r.perform := by
  have hzero (f : Recorded Unit) (g : Action Unit) (h : Records f g) :
      Records (f >>= fun _ => pure 0) (g >>= fun _ => pure (0 : Word)) :=
    Records.bind h fun _ => Records.pure 0
  cases r with
  | push value => exact hzero _ _ (Records.push value)
  | pop => exact Records.pop
  | peek n => exact Records.peek n
  | readSlot slot => exact Records.readSlot slot
  | writeSlot slot value => exact hzero _ _ (Records.writeSlot slot value)
  | rewind count => exact hzero _ _ (Records.rewind count)
  | forward count => exact hzero _ _ (Records.forward count)
  | enterSubroutine program subtype => exact hzero _ _ (Records.enterSubroutine program subtype)
  | reset => exact hzero _ _ Records.reset
  | readVariable index =>
      simp only [recorded, perform]
      split
      · exact Records.look_bind fun m => Records.pure _
      · exact Records.throw _
  | writeVariable index value =>
      simp only [recorded, perform]
      split
      · exact hzero _ _ (Records.setVariable _ value)
      · exact Records.throw _
  | setDelay ticks => exact hzero _ _ (Records.change fun _ hm => hm)

/-- An operation of the machine: an instruction that executes, or a request. -/
inductive Operation where
  | instruction (opcode : Opcode) (parameter next : Word)
  | request (r : Request)

def Operation.perform : Operation → Action Word
  | instruction opcode parameter next => do execute opcode parameter next; return 0
  | request r => r.perform

def Operation.recorded : Operation → Recorded Word
  | instruction opcode parameter next => do Recorded.execute opcode parameter next; return 0
  | request r => r.recorded

theorem Operation.records (o : Operation) : Records o.recorded o.perform := by
  cases o with
  | instruction opcode parameter next =>
      exact Records.bind (Records.execute opcode parameter next) fun _ => Records.pure 0
  | request r => exact r.records

/-- An operation and the machine it is performed on. -/
structure Visit where
  machine : Machine
  operation : Operation

/-- The stack pointer of the visited machine is in bounds, the operation computes what it would
without bounds on numbers, and every slot and every number it uses fits. -/
structure Visit.Safe (v : Visit) : Prop where
  inBounds : v.machine.stackPointer.toNat ≤ stackSize
  depth : (v.machine.depth : Int) = stackSize - v.machine.stackPointer.toNat
  exact : forget (v.operation.recorded ⟨v.machine, []⟩) = v.operation.perform v.machine
  fits : ∀ access ∈ (endState (v.operation.recorded ⟨v.machine, []⟩)).log, access.Fits

theorem InBounds.depth_eq {m : Machine} (hm : m.InBounds) :
    (m.depth : Int) = stackSize - m.stackPointer.toNat :=
  Int.ofNat_sub hm

theorem InBounds.safe {m : Machine} (hm : m.InBounds) (o : Operation) : Visit.Safe ⟨m, o⟩ := by
  obtain ⟨hforget, hfits⟩ := o.records _ hm.fits
  exact ⟨hm, hm.depth_eq, hforget, hfits.log⟩

end Machine

open Machine

variable {ω α β : Type}

namespace Native

variable {f : NativeM ω α} {k : α → NativeM ω β} {site : CallSite} {call done : Call ω}

theorem bind_ok {a : α} (h : f site call = .ok a done) : (f >>= k) site call = k a site done :=
  Machine.bind_ok (g := fun a => k a site) h

theorem bind_error {fault : Fault} (h : f site call = .error fault done) :
    (f >>= k) site call = .error fault done :=
  Machine.bind_error (g := fun a => k a site) h

theorem onMachine_ok {action : Action α} {a : α} {m : Machine}
    (h : action call.machine = .ok a m) :
    onMachine action site call = .ok a { call with machine := m } := by
  rw [onMachine, h]

theorem onMachine_error {action : Action α} {fault : Fault} {m : Machine}
    (h : action call.machine = .error fault m) :
    onMachine action site call = .error fault { call with machine := m } := by
  rw [onMachine, h]

theorem enterSubroutine_ok {subtype : Word} {m : Machine}
    (h : Machine.enterSubroutine site.program subtype call.machine = .ok () m) :
    enterSubroutine subtype site call = .ok () { call with machine := m } := by
  change onMachine (Machine.enterSubroutine site.program subtype) site call = _
  exact onMachine_ok h

end Native

def Machine.answer {ε σ α : Type} : EStateM.Result ε σ α → Except ε α
  | .ok a _ => .ok a
  | .error e _ => .error e

/-- A native function that reaches the machine through requests only. -/
inductive Routine (ω : Type) where
  | finish (value : Word)
  | fail (fault : Fault)
  | look (next : CallSite → Call ω → Routine ω)
  | modifyOwner (change : ω → ω) (next : Routine ω)
  | report (event : Event) (next : Routine ω)
  | stop (next : Routine ω)
  | request (r : Request) (next : Except Fault Word → Routine ω)

namespace Routine

def run : Routine ω → CallSite → Call ω → EStateM.Result Fault (Call ω) Word × List Visit
  | finish value, _, call => (.ok value call, [])
  | fail fault, _, call => (.error fault call, [])
  | look next, site, call => (next site call).run site call
  | modifyOwner change next, site, call => next.run site { call with owner := change call.owner }
  | report event next, site, call => next.run site { call with events := call.events.push event }
  | stop next, site, call => next.run site { call with stopped := true }
  | request r next, site, call =>
      let result := r.perform call.machine
      let done := (next (answer result)).run site { call with machine := endState result }
      (done.1, ⟨call.machine, .request r⟩ :: done.2)

def native (routine : Routine ω) : Native ω := fun site call =>
  (routine.run site call).1

def delay : Routine ω :=
  look fun site _ => request (.peek 1) fun
    | .error fault => fail fault
    | .ok units =>
        let ticks := units / max site.settings.ticksPerDelayUnit 1
        request (.setDelay ticks) fun _ => finish ticks

theorem run_inBounds (routine : Routine ω) (site : CallSite) {call : Call ω}
    (h : call.machine.InBounds) :
    (endState (routine.run site call).1).machine.InBounds ∧
      ∀ visit ∈ (routine.run site call).2, visit.Safe := by
  induction routine generalizing call with
  | finish value => exact ⟨h, List.forall_mem_nil _⟩
  | fail fault => exact ⟨h, List.forall_mem_nil _⟩
  | look next ih => exact ih site call h
  | modifyOwner change next ih => exact ih h
  | report event next ih => exact ih h
  | stop next ih => exact ih h
  | request r next ih =>
      have hdone : ({ call with machine := endState (r.perform call.machine) } :
          Call ω).machine.InBounds := r.records.inBounds h
      obtain ⟨hend, hvisits⟩ := ih (answer (r.perform call.machine)) hdone
      refine ⟨hend, ?_⟩
      rintro visit hvisit
      rcases List.mem_cons.1 hvisit with rfl | hlater
      · exact h.safe (.request r)
      · exact hvisits visit hlater

/-- Running a routine on a call comes to what is left of the routine and of the call. -/
inductive Reaches (site : CallSite) (routine : Routine ω) (call : Call ω) :
    Routine ω → Call ω → Prop
  | start : Reaches site routine call routine call
  | look {next : CallSite → Call ω → Routine ω} {done : Call ω} :
      Reaches site routine call (look next) done → Reaches site routine call (next site done) done
  | modifyOwner {change : ω → ω} {next : Routine ω} {done : Call ω} :
      Reaches site routine call (modifyOwner change next) done →
        Reaches site routine call next { done with owner := change done.owner }
  | report {event : Event} {next : Routine ω} {done : Call ω} :
      Reaches site routine call (report event next) done →
        Reaches site routine call next { done with events := done.events.push event }
  | stop {next : Routine ω} {done : Call ω} :
      Reaches site routine call (stop next) done →
        Reaches site routine call next { done with stopped := true }
  | request {r : Request} {next : Except Fault Word → Routine ω} {done : Call ω} :
      Reaches site routine call (request r next) done →
        Reaches site routine call (next (answer (r.perform done.machine)))
          { done with machine := endState (r.perform done.machine) }

theorem Reaches.native_eq {site : CallSite} {routine rest : Routine ω} {call done : Call ω}
    (h : Reaches site routine call rest done) :
    routine.native site call = rest.native site done := by
  induction h with
  | start => rfl
  | look _ ih => exact ih
  | modifyOwner _ ih => exact ih
  | report _ ih => exact ih
  | stop _ ih => exact ih
  | request _ ih => exact ih

end Routine

structure Library (ω : Type) where
  category : Category
  slots : Vector (Option (Routine ω)) nativeSlots

namespace Library

def table (library : Library ω) : NativeTable ω :=
  ⟨library.category, library.slots.map (Option.map Routine.native)⟩

def get? (library : Library ω) (slot : Word) : Option (Routine ω) :=
  library.slots[slot.toNat]?.join

theorem get?_table (library : Library ω) (slot : Word) :
    library.table.get? slot = (library.get? slot).map Routine.native := by
  rw [table, NativeTable.get?, get?, Vector.getElem?_map]
  cases library.slots[slot.toNat]? with
  | none => rfl
  | some found => cases found <;> rfl

end Library

end EntityScript

import EntityScript.Proofs.Subroutines

namespace EntityScript

namespace Machine

variable {α β : Type}

/-- An operation that leaves the instruction pointer alone, whether or not it succeeds. -/
def StaysAt (f : Action α) : Prop :=
  ∀ m, (endState (f m)).ip = m.ip

/-- An operation that leaves a loaded machine loaded, whether or not it succeeds. -/
def StaysLoaded (f : Action α) : Prop :=
  ∀ m, m.ip ≠ none → (endState (f m)).ip ≠ none

theorem Keeps.staysAt {f : Action α} (h : Keeps f) : StaysAt f :=
  fun m => (h m).1

namespace StaysAt

theorem staysLoaded {f : Action α} (h : StaysAt f) : StaysLoaded f := by
  intro m hm
  rwa [h m]

theorem of_endState {f : Action α} (h : ∀ m, endState (f m) = m) : StaysAt f :=
  (Keeps.of_endState h).staysAt

theorem bind {f : Action α} {k : α → Action β} (hf : StaysAt f) (hk : ∀ value, StaysAt (k value)) :
    StaysAt (f >>= k) := by
  intro m
  have hfirst := hf m
  cases hresult : f m with
  | error fault m' =>
      rw [hresult] at hfirst
      rw [bind_error hresult]
      exact hfirst
  | ok value m' =>
      rw [hresult] at hfirst
      rw [bind_ok hresult]
      exact (hk value m').trans hfirst

theorem get_bind {k : Machine → Action β} (hk : ∀ m, StaysAt (k m)) : StaysAt (get >>= k) :=
  bind (of_endState fun _ => rfl) hk

theorem modify {change : Machine → Machine} (h : ∀ m, (change m).ip = m.ip) :
    StaysAt (modify change : Action Unit) :=
  h

theorem push (value : Word) : StaysAt (Machine.push value) :=
  (Keeps.push value).staysAt

theorem pop : StaysAt Machine.pop :=
  Keeps.pop.staysAt

theorem shift (amount : Int32) : StaysAt (Machine.shift amount) :=
  (Keeps.shift amount).staysAt

theorem setResult (value : Word) : StaysAt (Machine.setResult value) :=
  modify fun _ => rfl

theorem requireTwoSlots : StaysAt Machine.requireTwoSlots :=
  of_endState fun m => by
    rw [Machine.requireTwoSlots]
    split <;> rfl

theorem pushSlot (slot : Slot) : StaysAt (Machine.pushSlot slot) :=
  bind (Keeps.readSlot slot).staysAt push

theorem popSlot (slot : Slot) : StaysAt (Machine.popSlot slot) :=
  bind (Keeps.readSlot slot).staysAt fun _ =>
    bind pop fun value => (Keeps.writeSlot slot value).staysAt

theorem enterFrame (next : Word) : StaysAt (Machine.enterFrame next) :=
  bind requireTwoSlots fun _ =>
    bind (push _) fun _ => get_bind fun _ => bind (push _) fun _ => modify fun _ => rfl

theorem applyUnary (op : UnaryOp) : StaysAt (Machine.applyUnary op) :=
  bind pop fun _ => push _

theorem applyBinary (op : BinaryOp) : StaysAt (Machine.applyBinary op) := by
  refine bind (Keeps.peek 2).staysAt fun _ => bind pop fun right => bind pop fun left => ?_
  split
  · exact push _
  · exact of_endState fun _ => rfl

theorem execute {opcode : Opcode} {parameter : Word} (h : opcode ∉ [.jump, .jumpIfZero, .ret])
    (hframe : opcode = .popResultOrFrame → parameter ≠ 1) (next : Word) :
    StaysAt (Machine.execute opcode parameter next) := by
  have hinvalid : StaysAt (throw (.invalidParameter opcode parameter) : Action Unit) :=
    of_endState fun _ => rfl
  cases opcode with
  | jump | jumpIfZero | ret => exact absurd (by decide) h
  | setResult => exact setResult parameter
  | pushResultOrFrame =>
      simp only [Machine.execute]
      split
      · exact get_bind fun m => push m.result
      · exact enterFrame next
      · exact hinvalid
  | push => exact push parameter
  | push2 => exact push parameter
  | pushVariable =>
      simp only [Machine.execute]
      split
      · exact get_bind fun m => push _
      · exact hinvalid
  | pushLocal => exact get_bind fun m => pushSlot _
  | pushArgument => exact get_bind fun m => pushSlot _
  | popResultOrFrame =>
      simp only [Machine.execute]
      split
      · exact bind pop setResult
      · exact absurd rfl (hframe rfl)
      · exact hinvalid
  | popVariable =>
      simp only [Machine.execute]
      split
      · exact bind pop fun value => modify fun _ => rfl
      · exact hinvalid
  | popLocal => exact get_bind fun m => popSlot _
  | popArgument => exact get_bind fun m => popSlot _
  | rewind => exact shift _
  | forward => exact shift _
  | function => exact of_endState fun _ => rfl
  | unary =>
      simp only [Machine.execute]
      split
      · exact applyUnary _
      · exact hinvalid
  | binary =>
      simp only [Machine.execute]
      split
      · exact applyBinary _
      · exact hinvalid

end StaysAt

namespace StaysLoaded

theorem bind {f : Action α} {k : α → Action β} (hf : StaysLoaded f)
    (hk : ∀ value, StaysLoaded (k value)) : StaysLoaded (f >>= k) := by
  intro m hm
  have hfirst := hf m hm
  cases hresult : f m with
  | error fault m' =>
      rw [hresult] at hfirst
      rw [bind_error hresult]
      exact hfirst
  | ok value m' =>
      rw [hresult] at hfirst
      rw [bind_ok hresult]
      exact hk value m' hfirst

theorem modify {change : Machine → Machine} (h : ∀ m, m.ip ≠ none → (change m).ip ≠ none) :
    StaysLoaded (modify change : Action Unit) :=
  h

theorem jump (target : Word) : StaysLoaded (Machine.jump target) :=
  modify fun _ _ => Option.some_ne_none target

theorem pop : StaysLoaded Machine.pop :=
  StaysAt.pop.staysLoaded

theorem peek (n : UInt8) : StaysLoaded (Machine.peek n) :=
  (Keeps.peek n).staysAt.staysLoaded

theorem leaveFrame : StaysLoaded Machine.leaveFrame :=
  bind (peek 2) fun _ => bind pop fun _ => bind (modify fun _ hm => hm) fun _ => bind pop jump

theorem leaveSubroutine : StaysLoaded Machine.leaveSubroutine :=
  bind (peek 2) fun _ => bind pop fun value => bind (StaysAt.setResult value).staysLoaded fun _ =>
    bind pop fun target => bind (jump target) fun _ => modify fun _ hm => hm

theorem execute (opcode : Opcode) (parameter next : Word) :
    StaysLoaded (execute opcode parameter next) := by
  -- What leaves the instruction pointer alone needs no look; the other operations set it.
  cases opcode with
  | jump => exact jump parameter
  | popResultOrFrame =>
      by_cases hframe : parameter = 1
      · subst hframe
        exact leaveFrame
      · exact (StaysAt.execute (by decide) (fun _ => hframe) next).staysLoaded
  | jumpIfZero =>
      refine bind (peek 1) fun _ => bind pop fun value => ?_
      split
      · exact jump _
      · exact (StaysAt.of_endState fun _ => rfl).staysLoaded
  | ret => exact leaveSubroutine
  | _ =>
      apply StaysAt.staysLoaded
      apply StaysAt.execute
      · decide
      · rintro ⟨⟩

theorem enterSubroutine (program : Program) (subtype : Word) :
    StaysLoaded (Machine.enterSubroutine program subtype) := by
  have hidle (f : Action Unit) (h : ∀ m, endState (f m) = m) : StaysLoaded f :=
    (StaysAt.of_endState h).staysLoaded
  refine bind (StaysAt.of_endState fun _ => rfl).staysLoaded fun m => ?_
  split
  · exact hidle _ fun _ => rfl
  · split
    · exact hidle _ fun _ => rfl
    · split
      · exact hidle _ fun _ => rfl
      · exact bind StaysAt.requireTwoSlots.staysLoaded fun _ =>
          bind (StaysAt.push _).staysLoaded fun _ => bind (StaysAt.push _).staysLoaded fun _ =>
            modify fun _ _ => Option.some_ne_none _

end StaysLoaded

/-- How a native function changes a machine that enters subroutines and leaves the instruction
pointer alone otherwise. -/
inductive Guided (program : Program) (m : Machine) : Machine → Prop
  | start : Guided program m m
  | change {b c : Machine} : Guided program m b → c.ip = b.ip → Guided program m c
  | enter {b : Machine} (subtype : Word) :
      Guided program m b → Guided program m (endState (enterSubroutine program subtype b))

namespace Guided

variable {program : Program} {m b c : Machine}

theorem trans (h : Guided program m b) (hnext : Guided program b c) : Guided program m c := by
  induction hnext with
  | start => exact h
  | change _ hip ih => exact ih.change hip
  | enter subtype _ ih => exact ih.enter subtype

theorem loaded (h : Guided program m b) (hm : m.ip ≠ none) : b.ip ≠ none := by
  induction h with
  | start => exact hm
  | change _ hip ih => rwa [hip]
  | enter subtype _ ih => exact StaysLoaded.enterSubroutine program subtype _ ih

end Guided

end Machine

open Machine

variable {ω : Type}

/-- A native function that changes the instruction pointer only as it enters subroutines. -/
def Native.Guided {α : Type} (action : NativeM ω α) : Prop :=
  ∀ site call, Machine.Guided site.program call.machine (endState (action site call)).machine

namespace Native.Guided

variable {α β : Type}

theorem of_ip {action : NativeM ω α}
    (h : ∀ site call, (endState (action site call)).machine.ip = call.machine.ip) :
    Guided action := by
  intro site call
  exact Machine.Guided.start.change (h site call)

theorem pure (value : α) : Guided (Pure.pure value : NativeM ω α) :=
  of_ip fun _ _ => rfl

theorem bind {f : NativeM ω α} {k : α → NativeM ω β} (hf : Guided f)
    (hk : ∀ value, Guided (k value)) : Guided (f >>= k) := by
  intro site call
  have hfirst := hf site call
  cases hresult : f site call with
  | error fault done =>
      rw [hresult] at hfirst
      rw [bind_error hresult]
      exact hfirst
  | ok value done =>
      rw [hresult] at hfirst
      rw [bind_ok hresult]
      exact hfirst.trans (hk value site done)

theorem enterSubroutine (subtype : Word) :
    Guided (Native.enterSubroutine subtype : NativeM ω Unit) := by
  intro site call
  have hentered : Machine.Guided site.program call.machine
      (endState (Machine.enterSubroutine site.program subtype call.machine)) :=
    .enter subtype .start
  change Machine.Guided _ _ (endState (onMachine _ site call)).machine
  rw [onMachine]
  cases hresult : Machine.enterSubroutine site.program subtype call.machine with
  | error fault m => rwa [hresult] at hentered
  | ok value m => rwa [hresult] at hentered

theorem setDelay (ticks : Word) : Guided (Native.setDelay ticks : NativeM ω Unit) :=
  of_ip fun _ _ => rfl

theorem stop : Guided (Native.stop : NativeM ω Unit) :=
  of_ip fun _ _ => rfl

end Native.Guided

def NativeTable.Guided (table : NativeTable ω) : Prop :=
  ∀ slot native, table.get? slot = some native → Native.Guided native

theorem NativeTable.Guided.loaded_call {table : NativeTable ω} (h : table.Guided) {a : Actor ω}
    {parameter next value : Word} {done : Call ω}
    (hcall : a.call table parameter next = .ok value done) : done.machine.ip ≠ none := by
  cases hnative : table.get? (parameter &&& 0xFF) with
  | none =>
      rw [Actor.call_unbound hnative] at hcall
      cases hcall
  | some native =>
      rw [Actor.call_bound hnative] at hcall
      have hdone := h _ native hnative a.site (a.opened next)
      rw [hcall] at hdone
      exact hdone.loaded (Option.some_ne_none next)

end EntityScript

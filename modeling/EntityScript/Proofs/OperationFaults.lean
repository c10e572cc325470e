import EntityScript.Proofs.Operations

namespace EntityScript

def Fault.OfStack : Fault → Prop
  | stackOverflow .. | strayPointer _ => True
  | _ => False

/-- A fault that an operation can raise. -/
inductive Fault.OfOperation (opcode : Opcode) (parameter : Word) : Fault → Prop
  | stack {fault : Fault} : fault.OfStack → OfOperation opcode parameter fault
  | division : opcode = .binary → OfOperation opcode parameter .divisionByZero
  | parameter : OfOperation opcode parameter (.invalidParameter opcode parameter)

namespace Machine

variable {α β : Type} {P Q : Fault → Prop}

/-- The faults of an operation satisfy a condition. -/
def Raises (P : Fault → Prop) (f : Action α) : Prop :=
  ∀ m fault m', f m = .error fault m' → P fault

namespace Raises

theorem mono {f : Action α} (h : Raises P f) (hle : ∀ fault, P fault → Q fault) : Raises Q f :=
  fun m fault m' hfault => hle fault (h m fault m' hfault)

theorem of_ok {f : Action α} (h : ∀ m, ∃ value m', f m = .ok value m') : Raises P f := by
  intro m fault m' hfault
  obtain ⟨value, m'', hok⟩ := h m
  cases hok.symm.trans hfault

theorem throw {fault : Fault} (h : P fault) : Raises P (throw fault : Action α) := by
  rintro m _ _ ⟨⟩
  exact h

theorem bind {f : Action α} {k : α → Action β} (hf : Raises P f)
    (hk : ∀ value, Raises P (k value)) : Raises P (f >>= k) := by
  intro m fault m' hfault
  cases hresult : f m with
  | error fault' m'' =>
      rw [bind_error hresult] at hfault
      cases hfault
      exact hf m _ _ hresult
  | ok value m'' =>
      rw [bind_ok hresult] at hfault
      exact hk value m'' fault m' hfault

theorem get_bind {k : Machine → Action β} (hk : ∀ m, Raises P (k m)) : Raises P (get >>= k) :=
  bind (of_ok fun m => ⟨m, m, rfl⟩) hk

theorem modify (change : Machine → Machine) : Raises P (modify change : Action Unit) :=
  of_ok fun _ => ⟨_, _, rfl⟩

theorem push (value : Word) : Raises Fault.OfStack (Machine.push value) := by
  intro m fault m' h
  simp only [Machine.push] at h
  split at h
  · cases h
    trivial
  · split at h
    · cases h
    · cases h
      trivial

theorem pop : Raises Fault.OfStack Machine.pop := by
  intro m fault m' h
  rw [Machine.pop] at h
  split at h
  · cases h
  · cases h
    trivial

theorem readSlot (slot : Slot) : Raises Fault.OfStack (Machine.readSlot slot) := by
  intro m fault m' h
  rw [Machine.readSlot] at h
  split at h
  · cases h
  · cases h
    trivial

theorem writeSlot (slot : Slot) (value : Word) :
    Raises Fault.OfStack (Machine.writeSlot slot value) := by
  intro m fault m' h
  rw [Machine.writeSlot] at h
  split at h
  · cases h
  · cases h
    trivial

theorem peek (n : UInt8) : Raises Fault.OfStack (Machine.peek n) := by
  intro m fault m' h
  simp only [Machine.peek] at h
  split at h
  · cases h
    trivial
  · exact readSlot _ m fault m' h

theorem shift (amount : Int32) : Raises Fault.OfStack (Machine.shift amount) := by
  intro m fault m' h
  simp only [Machine.shift] at h
  split at h
  · cases h
  · cases h
    trivial

theorem requireTwoSlots : Raises Fault.OfStack Machine.requireTwoSlots := by
  intro m fault m' h
  rw [Machine.requireTwoSlots] at h
  split at h
  · cases h
    trivial
  · cases h

theorem pushSlot (slot : Slot) : Raises Fault.OfStack (Machine.pushSlot slot) :=
  bind (readSlot slot) push

theorem popSlot (slot : Slot) : Raises Fault.OfStack (Machine.popSlot slot) :=
  bind (readSlot slot) fun _ => bind pop (writeSlot slot)

theorem enterFrame (next : Word) : Raises Fault.OfStack (Machine.enterFrame next) :=
  bind requireTwoSlots fun _ =>
    bind (push _) fun _ => get_bind fun _ => bind (push _) fun _ => modify _

theorem leaveFrame : Raises Fault.OfStack Machine.leaveFrame :=
  bind (peek 2) fun _ => bind pop fun _ => bind (modify _) fun _ => bind pop fun _ => modify _

theorem leaveSubroutine : Raises Fault.OfStack Machine.leaveSubroutine :=
  bind (peek 2) fun _ =>
    bind pop fun _ => bind (modify _) fun _ => bind pop fun _ => bind (modify _) fun _ => modify _

theorem applyUnary (op : UnaryOp) : Raises Fault.OfStack (Machine.applyUnary op) :=
  bind pop fun _ => push _

theorem applyBinary (op : BinaryOp) :
    Raises (fun fault => fault.OfStack ∨ fault = .divisionByZero) (Machine.applyBinary op) := by
  have hstack {α : Type} {f : Action α} (h : Raises Fault.OfStack f) :
      Raises (fun fault => fault.OfStack ∨ fault = .divisionByZero) f := h.mono fun _ => .inl
  refine bind (hstack (peek 2)) fun _ => bind (hstack pop) fun right =>
    bind (hstack pop) fun left => ?_
  split
  · exact hstack (push _)
  · rename_i fault hfault
    exact throw (.inr (BinaryOp.eq_divisionByZero hfault))

theorem execute (opcode : Opcode) (parameter next : Word) :
    Raises (Fault.OfOperation opcode parameter) (Machine.execute opcode parameter next) := by
  have hinvalid : Raises (Fault.OfOperation opcode parameter)
      (MonadExcept.throw (.invalidParameter opcode parameter) : Action Unit) := throw .parameter
  have hstack {f : Action Unit} (h : Raises Fault.OfStack f) :
      Raises (Fault.OfOperation opcode parameter) f := h.mono fun _ => .stack
  cases opcode with
  | jump => exact modify _
  | setResult => exact modify _
  | pushResultOrFrame =>
      simp only [Machine.execute]
      split
      · exact hstack (get_bind fun m => push m.result)
      · exact hstack (enterFrame next)
      · exact hinvalid
  | push => exact hstack (push parameter)
  | push2 => exact hstack (push parameter)
  | pushVariable =>
      simp only [Machine.execute]
      split
      · exact hstack (get_bind fun m => push _)
      · exact hinvalid
  | pushLocal => exact hstack (get_bind fun m => pushSlot _)
  | pushArgument => exact hstack (get_bind fun m => pushSlot _)
  | popResultOrFrame =>
      simp only [Machine.execute]
      split
      · exact hstack (bind pop fun _ => modify _)
      · exact hstack leaveFrame
      · exact hinvalid
  | popVariable =>
      simp only [Machine.execute]
      split
      · exact hstack (bind pop fun _ => modify _)
      · exact hinvalid
  | popLocal => exact hstack (get_bind fun m => popSlot _)
  | popArgument => exact hstack (get_bind fun m => popSlot _)
  | rewind => exact hstack (shift _)
  | forward => exact hstack (shift _)
  | function => exact of_ok fun m => ⟨_, _, rfl⟩
  | jumpIfZero =>
      refine hstack (bind (peek 1) fun _ => bind pop fun value => ?_)
      split
      · exact modify _
      · exact of_ok fun m => ⟨_, _, rfl⟩
  | unary =>
      simp only [Machine.execute]
      split
      · exact hstack (applyUnary _)
      · exact hinvalid
  | binary =>
      simp only [Machine.execute]
      split
      · refine (applyBinary _).mono fun fault hfault => ?_
        rcases hfault with hfault | rfl
        · exact .stack hfault
        · exact .division rfl
      · exact hinvalid
  | ret => exact hstack leaveSubroutine

end Raises

end Machine

end EntityScript

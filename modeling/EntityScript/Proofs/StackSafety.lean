import EntityScript.Proofs.Dispatch
import EntityScript.Proofs.Image
import EntityScript.Proofs.Routine
import EntityScript.Schedule

namespace EntityScript

open Machine

variable {ω : Type} {library : Library ω} {a : Actor ω}

namespace Actor

def callVisits (library : Library ω) (a : Actor ω) (parameter next : Word) : List Visit :=
  match library.get? (parameter &&& 0xFF) with
  | none => []
  | some routine => (routine.run a.site (a.opened next)).2

/-- What the next step visits: its instruction and, for a call, the routine it calls. -/
def stepVisits (library : Library ω) (a : Actor ω) : List Visit :=
  match a.operation? with
  | none => []
  | some (opcode, parameter, next) =>
      ⟨a.begun next, .instruction opcode parameter next⟩ ::
        if opcode = .function then a.callVisits library parameter next else []

theorem call_inBounds (library : Library ω) (ha : a.engine.machine.InBounds)
    (parameter next : Word) :
    (endState (a.call library.table parameter next)).machine.InBounds ∧
      ∀ visit ∈ a.callVisits library parameter next, visit.Safe := by
  have hbegun : (a.begun next).InBounds := ha
  rw [call, NativeTable.invoke, Library.get?_table, callVisits]
  cases library.get? (parameter &&& 0xFF) with
  | none => exact ⟨hbegun, List.forall_mem_nil _⟩
  | some routine => exact routine.run_inBounds _ hbegun

variable [Owner ω]

theorem step_call_inBounds {table : NativeTable ω} {parameter next : Word}
    (hoperation : a.operation? = some (.function, parameter, next))
    (h : (endState (a.call table parameter next)).machine.InBounds) :
    (a.step table).after.engine.machine.InBounds := by
  cases hcall : a.call table parameter next with
  | ok value done =>
      rw [hcall] at h
      rw [(step_call_ok hoperation hcall).2]
      dsimp only
      split <;> exact h
  | error fault done =>
      rw [hcall] at h
      rw [(step_call_error hoperation hcall).2]
      exact h

theorem step_inBounds (library : Library ω) (ha : a.engine.machine.InBounds) :
    (a.step library.table).after.engine.machine.InBounds ∧
      ∀ visit ∈ a.stepVisits library, visit.Safe := by
  cases hoperation : a.operation? with
  | none =>
      rw [stepVisits, hoperation, step_no_operation_machine _ hoperation]
      exact ⟨ha, List.forall_mem_nil _⟩
  | some operation =>
      obtain ⟨opcode, parameter, next⟩ := operation
      have hbegun : (a.begun next).InBounds := ha
      have hinstruction := hbegun.safe (.instruction opcode parameter next)
      rw [stepVisits, hoperation]
      -- A call visits what its routine asks for; any other instruction visits only itself.
      by_cases hopcode : opcode = .function
      · subst opcode
        obtain ⟨hcalled, hvisits⟩ := call_inBounds library ha parameter next
        exact ⟨step_call_inBounds hoperation hcalled,
          List.forall_mem_cons.2 ⟨hinstruction, hvisits⟩⟩
      · simp only [if_neg hopcode, List.forall_mem_singleton]
        refine ⟨?_, hinstruction⟩
        have hend : (endState (Machine.execute opcode parameter next (a.begun next))).InBounds :=
          (Records.execute opcode parameter next).inBounds hbegun
        rcases step_operation_machine library.table hoperation hopcode with h | h
        · rw [h]
          exact hend
        · rw [h]
          exact hend

def runVisits (library : Library ω) : (budget : Nat) → Actor ω → List Visit
  | 0, _ => []
  | budget + 1, a =>
      if a.engine.isReady then
        a.stepVisits library ++
          match (a.step library.table).value with
          | .ok _ => runVisits library budget (a.step library.table).after
          | .error _ => []
      else
        []

def tickVisits (library : Library ω) (a : Actor ω) : List Visit :=
  if !a.engine.machine.isLoaded then []
  else if 0 < a.engine.machine.delay then []
  else runVisits library a.engine.settings.instructionBudget a

theorem runFrom_inBounds (library : Library ω) (executed : Nat) (events : Array Event)
    (budget : Nat) (ha : a.engine.machine.InBounds) :
    (runFrom library.table executed events budget a).after.engine.machine.InBounds ∧
      ∀ visit ∈ runVisits library budget a, visit.Safe := by
  -- The count and the events only grow; the bounds of the machine carry the induction.
  induction budget generalizing executed events a with
  | zero => exact ⟨ha, List.forall_mem_nil _⟩
  | succ budget ih =>
      rw [runFrom, runVisits]
      by_cases hready : a.engine.isReady = true
      · rw [if_pos hready, if_pos hready]
        obtain ⟨hafter, hvisits⟩ := step_inBounds library ha
        dsimp only
        cases (a.step library.table).value with
        | ok value =>
            obtain ⟨hlast, hlater⟩ :=
              ih (executed + 1) (events ++ (a.step library.table).events) hafter
            exact ⟨hlast, List.forall_mem_append.2 ⟨hvisits, hlater⟩⟩
        | error fault =>
            rw [List.append_nil]
            exact ⟨hafter, hvisits⟩
      · rw [if_neg hready, if_neg hready]
        exact ⟨ha, List.forall_mem_nil _⟩

theorem tick_inBounds (library : Library ω) (ha : a.engine.machine.InBounds) :
    (a.tick library.table).after.engine.machine.InBounds ∧
      ∀ visit ∈ a.tickVisits library, visit.Safe := by
  obtain ⟨hran, hvisits⟩ := runFrom_inBounds library 0 #[] a.engine.settings.instructionBudget ha
  rw [tick, tickVisits]
  dsimp only
  split
  · exact ⟨ha, List.forall_mem_nil _⟩
  · split
    · exact ⟨ha, List.forall_mem_nil _⟩
    · refine ⟨?_, hvisits⟩
      split <;> exact hran

theorem loadSubroutine_inBounds (ha : a.engine.machine.InBounds) (subtype : Word) :
    (a.loadSubroutine subtype).after.engine.machine.InBounds := by
  have hend := (Records.enterSubroutine a.engine.program subtype).inBounds ha
  rcases loadSubroutine_machine a subtype with h | h
  · rw [h]
    exact hend
  · rw [h]
    exact hend

end Actor

theorem Engine.load_inBounds (e : Engine) (subtype : Word) :
    (e.load subtype).after.machine.InBounds := by
  rw [load]
  dsimp only
  split <;> exact Nat.le_refl stackSize

inductive Move (ω : Type) where
  /-- It asks something of the machine itself. -/
  | request (r : Request)
  | load (subtype : Word)
  | loadSubroutine (subtype : Word)
  | step (library : Library ω)
  | run (library : Library ω)
  | tick (library : Library ω)
  /-- It goes on with the machine in another engine. -/
  | adopt (host : Actor ω)

namespace Move

variable [Owner ω]

def apply (a : Actor ω) : Move ω → Actor ω
  | request r => a.withMachine (endState (r.perform a.engine.machine))
  | load subtype => a.mapEngine fun e => (e.load subtype).after
  | loadSubroutine subtype => (a.loadSubroutine subtype).after
  | step library => (a.step library.table).after
  | run library => (a.run library.table).after
  | tick library => (a.tick library.table).after
  | adopt host => host.withMachine a.engine.machine

/-- The operations that a move performs, each with its machine. -/
def visits (a : Actor ω) : Move ω → List Visit
  | request r => [⟨a.engine.machine, .request r⟩]
  | load _ => [⟨a.engine.machine, .request .reset⟩]
  | loadSubroutine subtype =>
      [⟨a.engine.machine, .request (.enterSubroutine a.engine.program subtype)⟩]
  | step library => a.stepVisits library
  | run library => a.runVisits library a.engine.settings.instructionBudget
  | tick library => a.tickVisits library
  | adopt _ => []

def play (a : Actor ω) : List (Move ω) → Actor ω
  | [] => a
  | move :: rest => play (move.apply a) rest

def playVisits (a : Actor ω) : List (Move ω) → List Visit
  | [] => []
  | move :: rest => move.visits a ++ playVisits (move.apply a) rest

theorem apply_inBounds (ha : a.engine.machine.InBounds) (move : Move ω) :
    (move.apply a).engine.machine.InBounds ∧ ∀ visit ∈ move.visits a, visit.Safe := by
  cases move with
  | request r =>
      exact ⟨r.records.inBounds ha, List.forall_mem_singleton.2 (ha.safe _)⟩
  | load subtype =>
      exact ⟨a.engine.load_inBounds subtype, List.forall_mem_singleton.2 (ha.safe _)⟩
  | loadSubroutine subtype =>
      exact ⟨Actor.loadSubroutine_inBounds ha subtype, List.forall_mem_singleton.2 (ha.safe _)⟩
  | step library => exact Actor.step_inBounds library ha
  | run library => exact Actor.runFrom_inBounds library 0 #[] _ ha
  | tick library => exact Actor.tick_inBounds library ha
  | adopt host => exact ⟨ha, List.forall_mem_nil _⟩

theorem play_inBounds (ha : a.engine.machine.InBounds) (moves : List (Move ω)) :
    (play a moves).engine.machine.InBounds ∧ ∀ visit ∈ playVisits a moves, visit.Safe := by
  induction moves generalizing a with
  | nil => exact ⟨ha, List.forall_mem_nil _⟩
  | cons move rest ih =>
      obtain ⟨hmoved, hvisits⟩ := apply_inBounds ha move
      obtain ⟨hplayed, hlater⟩ := ih hmoved
      exact ⟨hplayed, List.forall_mem_append.2 ⟨hvisits, hlater⟩⟩

/-- A machine that starts new or restored stays in bounds whatever is done with it, and whatever is
done is safe. -/
theorem stack_safety {start : Machine}
    (hstart : start = {} ∨ ∃ bytes rest, Machine.load bytes = .ok (start, rest))
    (ha : a.engine.machine = start) (moves : List (Move ω)) :
    (play a moves).engine.machine.stackPointer.toNat ≤ stackSize ∧
      ((play a moves).engine.machine.depth : Int) =
          stackSize - (play a moves).engine.machine.stackPointer.toNat ∧
        ∀ visit ∈ playVisits a moves, visit.Safe := by
  have hm : a.engine.machine.InBounds := by
    rw [ha]
    rcases hstart with rfl | ⟨bytes, rest, hload⟩
    · decide
    · exact inBounds_of_load hload
  obtain ⟨hplayed, hvisits⟩ := play_inBounds hm moves
  exact ⟨hplayed, hplayed.depth_eq, hvisits⟩

/-- The restored frame pointer is 200 and names no slot of the stack. -/
theorem stack_safety_restored :
    let image : Bytes := [0, 0, 1, 0, 0, 0, 0, 0, 0, 0, 9, 0, 200, 3] ++ List.replicate 41 1
    let library : Library Unit := ⟨.unknown, .replicate nativeSlots (some .delay)⟩
    let moves : List (Move Unit) :=
      [.request (.push 3), .loadSubroutine 0, .step library, .tick library]
    ∃ start rest, Machine.load image = .ok (start, rest) ∧
      let a : Actor Unit :=
        ⟨{ program := { entries := #[1], words := #[0, 0x4601, 0x4E00] }, machine := start }, ()⟩
      (play a moves).engine.machine.stackPointer.toNat ≤ stackSize ∧
        ∀ visit ∈ playVisits a moves, visit.Safe := by
  intro image library moves
  have hrestored : ∃ start rest, Machine.load image = .ok (start, rest) := ⟨_, _, rfl⟩
  obtain ⟨start, rest, hload⟩ := hrestored
  refine ⟨start, rest, hload, ?_⟩
  intro a
  obtain ⟨hpointer, _, hvisits⟩ := stack_safety (a := a) (.inr ⟨image, rest, hload⟩) rfl moves
  exact ⟨hpointer, hvisits⟩

end Move

end EntityScript

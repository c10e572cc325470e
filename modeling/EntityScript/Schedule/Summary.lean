import EntityScript.Fault

namespace EntityScript

/-- What one engine did in a tick. -/
inductive Turn where
  | idle
  /-- The delay was counted down to this many ticks. -/
  | waiting (ticks : Word)
  | ran (instructions : Nat)
  | halted (fault : Fault)
  deriving DecidableEq

structure TickSummary where
  idle : Nat := 0
  waiting : Nat := 0
  ran : Nat := 0
  halted : Nat := 0
  instructions : Nat := 0
  deriving DecidableEq

namespace TickSummary

def record (s : TickSummary) : Turn → TickSummary
  | .idle => { s with idle := s.idle + 1 }
  | .waiting _ => { s with waiting := s.waiting + 1 }
  | .ran instructions =>
      { s with ran := s.ran + 1, instructions := s.instructions + instructions }
  | .halted _ => { s with halted := s.halted + 1 }

def ofTurns (turns : List Turn) : TickSummary :=
  turns.foldl record {}

def text (s : TickSummary) : String :=
  "TickSummary \x7b " ++
    s!"idle: {s.idle}, waiting: {s.waiting}, ran: {s.ran}, halted: {s.halted}, " ++
    s!"instructions: {s.instructions}" ++ " \x7d"

end TickSummary

end EntityScript

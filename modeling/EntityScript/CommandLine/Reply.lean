import EntityScript.CommandLine.Command
import EntityScript.CommandLine.Files
import EntityScript.Program.Load
import EntityScript.Text.Causes

namespace EntityScript.CommandLine

structure World where
  environment : String → Option String
  contents : String → Except FileError Bytes

/-- A failed command: what it was doing, and why it failed, outermost cause first. -/
structure Failure where
  message : String
  causes : List String := []

def Failure.text (f : Failure) : String :=
  "Error: " ++ Text.withCauses f.message f.causes ++ "\n"

inductive Reply where
  /-- The arguments asked for help, or made no sense. -/
  | usage (refusal : Refusal)
  | finished (output : String) (failure : Option Failure) (events : Array Event)

namespace Reply

/-- The exit code: 2 for arguments that make no sense, 1 for a failure. -/
def exitCode : Reply → UInt32
  | usage .help => 0
  | usage .rejected => 2
  | finished _ none _ => 0
  | finished _ (some _) _ => 1

end Reply

def loadProgram (world : World) (path : String) : Except Failure (Program × Array Event) :=
  let context := "while loading " ++ path
  match world.contents path with
  | .error e => .error ⟨context, ["failed to read program: " ++ e.message, e.message]⟩
  | .ok bytes =>
      match Program.load bytes with
      | .error e => .error ⟨context, [e.message]⟩
      | .ok loaded => .ok loaded

end EntityScript.CommandLine

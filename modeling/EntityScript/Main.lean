import EntityScript.CommandLine.Execute

namespace EntityScript.CommandLine

def Invocation.path? : Invocation → Option String
  | .command (.disassemble path _) => some path
  | .command (.run request) => some request.path
  | .refused _ | .version => none

def usageText : String :=
  "Inspect and run EMC script programs.\n\n" ++
  "Usage: emc disasm [--text] PATH\n" ++
  "       emc run [--category structure|unit|team] [-s|--subtype N] [-t|--ticks N]\n" ++
  "               [--budget N] [--ticks-per-delay-unit N] PATH\n" ++
  "       emc help | --help | --version\n"

def FileError.ofSystem : IO.Error → FileError
  | .noFileOrDirectory .. => notFound
  | .permissionDenied .. => permissionDenied
  | .inappropriateType _ code _ => if code = 21 then isDirectory else notDirectory
  | .invalidArgument _ code _ => if code = 22 then nulInName else nameTooLong
  | _ => inputOutput

def readPath (path : String) : IO (Except FileError Bytes) := do
  try
    return .ok (← IO.FS.readBinFile path).data.toList
  catch e =>
    return .error (.ofSystem e)

/-- Looks up the settings in the environment and reads the file of the invocation. -/
def lookAround (invocation : Invocation) : IO World := do
  let budget ← IO.getEnv Settings.budgetName
  let unit ← IO.getEnv Settings.delayUnitName
  let file ← match invocation.path? with
    | some path => readPath path
    | none => pure (.error FileError.notFound)
  return {
    environment := fun name =>
      if name = Settings.budgetName then budget
      else if name = Settings.delayUnitName then unit
      else none
    contents := fun _ => file
  }

def Reply.print : Reply → IO Unit
  | .usage .help => IO.print usageText
  | .usage .rejected => IO.eprint usageText
  | .finished output failure _ => do
      IO.print output
      if let some failure := failure then IO.eprint failure.text

end EntityScript.CommandLine

open EntityScript.CommandLine in
def main (arguments : List String) : IO UInt32 := do
  let world ← lookAround (.ofArguments arguments)
  let reply := execute world arguments
  reply.print
  return reply.exitCode

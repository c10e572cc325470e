import EntityScript.CommandLine.Disassemble
import EntityScript.CommandLine.Run

namespace EntityScript.CommandLine

def versionText : String := "emc 0.1.0\n"

def execute (world : World) (arguments : List String) : Reply :=
  match Invocation.ofArguments arguments with
  | .refused refusal => .usage refusal
  | .version => .finished versionText none #[]
  | .command (.disassemble path strings) => disassemble world path strings
  | .command (.run request) => run world request

end EntityScript.CommandLine

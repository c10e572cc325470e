import EntityScript.CommandLine.Reply
import EntityScript.Program.Listing

namespace EntityScript.CommandLine

/-- The strings of a program, one to a line.  The table of offsets ends where the first string
begins. -/
def stringLines (p : Program) : String :=
  let count := ((p.textWord? 0).getD 0).toNat / 2
  String.join ((List.range count).map fun index =>
    match p.text? index.toUInt16 with
    | some text => s!"text {index}: " ++ Text.quote (Text.Utf8.decode text) ++ "\n"
    | none => "")

def disassemble (world : World) (path : String) (strings : Bool) : Reply :=
  match loadProgram world path with
  | .error failure => .finished "" failure #[]
  | .ok (p, events) =>
      .finished ((if strings then stringLines p else "") ++ p.listing) none events

end EntityScript.CommandLine

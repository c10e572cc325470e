import EntityScript.Event
import EntityScript.Program.Image

namespace EntityScript.Program

def load (input : Bytes) : Except ImageError (Program × Array Event) := do
  let p ← ofBytes input
  return (p, #[.programLoaded p.pool.size p.entries.size p.words.size])

end EntityScript.Program

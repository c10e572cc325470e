import EntityScript.Text.Column

namespace EntityScript.Text

/-- The text with `indent` after every line feed. -/
def hang (indent : String) (text : String) : String :=
  String.join (text.toList.map fun c => if c = '\n' then "\n" ++ indent else c.toString)

def causeLines : List String → List String
  | [cause] => ["    " ++ hang "    " cause]
  | causes =>
      causes.mapIdx fun i cause => padLeft 5 (toString i) ++ ": " ++ hang "       " cause

def withCauses (message : String) (causes : List String) : String :=
  if causes = [] then message
  else message ++ "\n\nCaused by:\n" ++ "\n".intercalate (causeLines causes)

end EntityScript.Text

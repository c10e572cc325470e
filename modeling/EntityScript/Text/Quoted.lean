import EntityScript.Text.Column
import EntityScript.Text.Extending
import EntityScript.Text.Visible

namespace EntityScript.Text

/-- Whether a character can be told apart where it stands. -/
def isPlain (c : Char) : Bool :=
  isVisible c && !isExtending c

def escape (c : Char) : String :=
  if c = '\x00' then "\\0"
  else if c = '\t' then "\\t"
  else if c = '\r' then "\\r"
  else if c = '\n' then "\\n"
  else if c = '"' then "\\\""
  else if c = '\\' then "\\\\"
  else if isPlain c then c.toString
  else "\\u\x7b" ++ hex c.toNat ++ "\x7d"

def quote (text : String) : String :=
  "\"" ++ String.join (text.toList.map escape) ++ "\""

end EntityScript.Text

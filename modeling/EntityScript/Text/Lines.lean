namespace EntityScript.Text

/-- Adds the lines of a list of characters to `finished`; `line` is the line being read. -/
def linesFrom (finished : Array String) (line : String) : List Char → Array String
  | [] => if line = "" then finished else finished.push line
  | c :: rest =>
      if c = '\n' then linesFrom (finished.push line) "" rest
      else linesFrom finished (line.push c) rest

def lines (text : String) : Array String :=
  linesFrom #[] "" text.toList

def trimEnd (text : String) : String :=
  String.ofList (text.toList.reverse.dropWhile Char.isWhitespace).reverse

end EntityScript.Text

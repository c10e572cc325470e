import Std.Data.HashMap
import EntityScript.Instruction.Display
import EntityScript.Program
import EntityScript.Text.Lines

namespace EntityScript

inductive ListingLine where
  | label (subtype : Word)
  | instruction (offset : Nat) (words : List Word) (decoded : Instruction)
  /-- The last word of the stream, which lacks its parameter. -/
  | dangling (offset : Nat) (word : Word)
  deriving DecidableEq

namespace ListingLine

def text : ListingLine → String
  | label subtype => s!"entry {subtype}:"
  | instruction offset words decoded =>
      let raw := " ".intercalate (words.map fun w => Text.hex4 w.toNat)
      "  " ++ Text.hex4 offset ++ ": " ++ Text.padRight 9 raw ++ " " ++ decoded.text
  | dangling offset word =>
      "  " ++ Text.hex4 offset ++ ": " ++ Text.hex4 word.toNat ++ "      .word"

end ListingLine

namespace Program

/-- The subtypes that start at each offset, in ascending order. -/
abbrev Labels := Std.HashMap Word (Array Word)

/-- Adds the labels of the entries from a subtype on. -/
def labelsFrom (labels : Labels) (subtype : Nat) : List Word → Labels
  | [] => labels
  | offset :: rest =>
      let known := labels.getD offset #[]
      labelsFrom (labels.insert offset (known.push subtype.toUInt16)) (subtype + 1) rest

def labels (p : Program) : Labels :=
  labelsFrom ∅ 0 p.entries.toList

/-- Adds the lines of the stream from an offset on; `words` is what the stream holds there. -/
def listFrom (labels : Labels) (offset : Nat) (lines : Array ListingLine) :
    List Word → Array ListingLine
  | [] => lines
  | head :: rest =>
      let lines := lines ++ (labels.getD offset.toUInt16 #[]).map .label
      match Instruction.ofHead? head rest.head? with
      | none => lines.push (.dangling offset head)
      | some decoded =>
          let raw := (head :: rest).take decoded.size
          listFrom labels (offset + decoded.size) (lines.push (.instruction offset raw decoded))
            (rest.drop (decoded.size - 1))
termination_by words => words.length
decreasing_by simp only [List.length_cons, List.length_drop]; omega

def listingLines (p : Program) : Array ListingLine :=
  listFrom p.labels 0 #[] p.words.toList

def listing (p : Program) : String :=
  p.listingLines.foldl (fun text line => text ++ line.text ++ "\n") ""

def disassemble (p : Program) : Array String :=
  (Text.lines p.listing).map Text.trimEnd

end Program

end EntityScript

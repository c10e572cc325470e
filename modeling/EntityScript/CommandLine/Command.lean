import EntityScript.CommandLine.Arguments
import EntityScript.Owner
import EntityScript.Settings

namespace EntityScript.CommandLine

structure RunRequest where
  path : String
  category : Category := .unit
  subtype : Word := 0
  ticks : Nat := 100
  budget : Option Nat := none
  ticksPerDelayUnit : Option Word := none

inductive Command where
  | disassemble (path : String) (strings : Bool)
  | run (request : RunRequest)

inductive Invocation where
  | refused (refusal : Refusal)
  | version
  | command (command : Command)

/-- The value of an option that may be given once. -/
def once {α : Type} (known given : Option α) : Option (Option α) :=
  if known.isSome || given.isNone then none else some given

def path? (path : String) : Option String :=
  if path = "" then none else some path

/-- A number up to a bound, with an optional sign. -/
def word? (text : String) : Option Word :=
  match Text.Decimal.signed? text with
  | some n => if 0 ≤ n ∧ n ≤ Settings.maxWord then some n.toNat.toUInt16 else none
  | none => none

def number? (text : String) : Option Nat :=
  (Text.Decimal.unsigned? text).filter (· ≤ Settings.maxBudget)

def category? (name : String) : Option Category :=
  (Category.ofName? name).filter (· ≠ .unknown)

structure DisassembleDraft where
  path : Option String := none
  strings : Option Unit := none

def disassembleGrammar : Grammar where
  flags := ["text"]

def DisassembleDraft.take (d : DisassembleDraft) : Argument → Option DisassembleDraft
  | .path path => do return { d with path := ← once d.path (path? path) }
  | .flag _ => do return { d with strings := ← once d.strings (some ()) }
  | .setting .. => none

structure RunDraft where
  path : Option String := none
  category : Option Category := none
  subtype : Option Word := none
  ticks : Option Nat := none
  budget : Option Nat := none
  ticksPerDelayUnit : Option Word := none

def runGrammar : Grammar where
  settings := ["category", "subtype", "ticks", "budget", "ticks-per-delay-unit"]
  letters := [('s', "subtype"), ('t', "ticks")]

def RunDraft.take (d : RunDraft) : Argument → Option RunDraft
  | .path path => do return { d with path := ← once d.path (path? path) }
  | .setting name value =>
      match name with
      | "category" => do return { d with category := ← once d.category (category? value) }
      | "subtype" => do return { d with subtype := ← once d.subtype (word? value) }
      | "ticks" => do return { d with ticks := ← once d.ticks (number? value) }
      | "budget" => do return { d with budget := ← once d.budget (number? value) }
      | "ticks-per-delay-unit" => do
          return { d with ticksPerDelayUnit := ← once d.ticksPerDelayUnit (word? value) }
      | _ => none
  | .flag _ => none

def DisassembleDraft.finish (d : DisassembleDraft) : Except Refusal Command :=
  match d.path with
  | some path => .ok (.disassemble path d.strings.isSome)
  | none => .error .rejected

/-- The command that was drafted.  A path is required; the rest has defaults. -/
def RunDraft.finish (d : RunDraft) : Except Refusal Command :=
  match d.path with
  | some path =>
      let defaults : RunRequest := { path := path }
      .ok (.run {
        path := path
        category := d.category.getD defaults.category
        subtype := d.subtype.getD defaults.subtype
        ticks := d.ticks.getD defaults.ticks
        budget := d.budget
        ticksPerDelayUnit := d.ticksPerDelayUnit })
  | none => .error .rejected

def Invocation.ofResult : Except Refusal Command → Invocation
  | .ok found => .command found
  | .error refusal => .refused refusal

def commandNames : List String := ["disasm", "run", "help"]

def Invocation.ofArguments : List String → Invocation
  | [] => .refused .rejected
  | "disasm" :: rest =>
      .ofResult ((disassembleGrammar.readInto DisassembleDraft.take {} rest).bind (·.finish))
  | "run" :: rest => .ofResult ((runGrammar.readInto RunDraft.take {} rest).bind (·.finish))
  | "help" :: topics =>
      match topics with
      | [] => .refused .help
      | [topic] => .refused (if commandNames.contains topic then .help else .rejected)
      | _ => .refused .rejected
  | argument :: _ =>
      match argument.toList with
      | '-' :: 'h' :: _ => .refused .help
      | '-' :: 'V' :: _ => .version
      | _ =>
          if argument = "--help" then .refused .help
          else if argument = "--version" then .version
          else .refused .rejected

end EntityScript.CommandLine

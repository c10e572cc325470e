/-!
The value of a long option follows an equals sign or is the next argument; that of a letter may also
stand right behind it.  After `--` every argument is a path.
-/

namespace EntityScript.CommandLine

structure Grammar where
  flags : List String := []
  settings : List String := []
  letters : List (Char × String) := []

inductive Argument where
  | path (path : String)
  | flag (name : String)
  | setting (name value : String)

inductive Refusal where
  | help
  | rejected
  deriving DecidableEq

inductive Shape where
  | separator
  | complete (argument : Argument)
  /-- A setting whose value is the next argument. -/
  | awaiting (name : String)
  | refused (refusal : Refusal)

/-- Whether an argument is an option or the separator.  A single dash is neither. -/
def isOption (argument : String) : Bool :=
  match argument.toList with
  | '-' :: _ :: _ => true
  | _ => false

namespace Grammar

def longShape (g : Grammar) (body : List Char) : Shape :=
  let name := String.ofList (body.takeWhile (· ≠ '='))
  match body.dropWhile (· ≠ '=') with
  | [] =>
      if name = "help" then .refused .help
      else if g.flags.contains name then .complete (.flag name)
      else if g.settings.contains name then .awaiting name
      else .refused .rejected
  | _ :: value =>
      if g.settings.contains name then .complete (.setting name (String.ofList value))
      else .refused .rejected

def shortShape (g : Grammar) (letter : Char) (rest : List Char) : Shape :=
  if letter = 'h' then .refused .help
  else
    match g.letters.lookup letter, rest with
    | none, _ => .refused .rejected
    | some name, [] => .awaiting name
    | some name, '=' :: value => .complete (.setting name (String.ofList value))
    | some name, value => .complete (.setting name (String.ofList value))

def shape (g : Grammar) (argument : String) : Shape :=
  match argument.toList with
  | ['-', '-'] => .separator
  | '-' :: '-' :: body => g.longShape body
  | '-' :: letter :: rest => g.shortShape letter rest
  | _ => .complete (.path argument)

/-- Reads arguments into a draft of the command.  The draft takes one argument at a time and may
reject it. -/
def readInto {σ : Type} (g : Grammar) (take : σ → Argument → Option σ) (draft : σ) :
    List String → Except Refusal σ
  | [] => .ok draft
  | argument :: rest =>
      match g.shape argument with
      | .refused refusal => .error refusal
      | .separator =>
          match rest.foldlM (fun draft path => take draft (.path path)) draft with
          | some draft => .ok draft
          | none => .error .rejected
      | .complete found =>
          match take draft found with
          | some draft => g.readInto take draft rest
          | none => .error .rejected
      | .awaiting name =>
          match rest with
          | [] => .error .rejected
          | value :: rest =>
              if isOption value then .error .rejected
              else
                match take draft (.setting name value) with
                | some draft => g.readInto take draft rest
                | none => .error .rejected

end Grammar

end EntityScript.CommandLine

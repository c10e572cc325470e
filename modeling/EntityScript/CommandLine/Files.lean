import EntityScript.Bytes

namespace EntityScript.CommandLine

inductive FileError where
  | notFound
  | inputOutput
  | permissionDenied
  | notDirectory
  | isDirectory
  | nameTooLong
  | nulInName
  deriving DecidableEq

namespace FileError

def number? : FileError → Option Nat
  | notFound => some 2
  | inputOutput => some 5
  | permissionDenied => some 13
  | notDirectory => some 20
  | isDirectory => some 21
  | nameTooLong => some 36
  | nulInName => none

def description : FileError → String
  | notFound => "No such file or directory"
  | inputOutput => "Input/output error"
  | permissionDenied => "Permission denied"
  | notDirectory => "Not a directory"
  | isDirectory => "Is a directory"
  | nameTooLong => "File name too long"
  | nulInName => "file name contained an unexpected NUL byte"

def message (e : FileError) : String :=
  match e.number? with
  | some number => s!"{e.description} (os error {number})"
  | none => e.description

end FileError

/-- A place, as the names that lead to it from the root, the last one first. -/
abbrev Place := List String

inductive Content where
  | directory
  | file (bytes : Bytes)

structure Files where
  start : Place
  content? : Place → Option Content

/-- The names of a path.  Slashes next to each other have an empty name between them. -/
def names : List Char → List (List Char)
  | [] => [[]]
  | c :: rest =>
      if c = '/' then [] :: names rest
      else
        match names rest with
        | [] => [[c]]
        | name :: more => (c :: name) :: more

theorem names_ne_nil (path : List Char) : names path ≠ [] := by
  cases path with
  | nil => simp [names]
  | cons c rest =>
      rw [names]
      split
      · simp
      · split <;> simp

theorem intercalate_names (path : List Char) : ['/'].intercalate (names path) = path := by
  induction path with
  | nil => rfl
  | cons c rest ih =>
      rw [names]
      split
      · rename_i hc
        rw [hc, List.intercalate_cons_of_ne_nil (names_ne_nil rest), ih]
        rfl
      · split
        · rename_i hnil
          exact absurd hnil (names_ne_nil rest)
        · rename_i name more hmore
          rw [hmore] at ih
          rw [← ih]
          cases more <;> simp [List.intercalate_cons_cons]

def maxName : Nat := 255

def maxPath : Nat := 4095

namespace Files

/-- Follows a name.  An empty name and a dot stay where they are, two dots lead out. -/
def follow (files : Files) (place : Place) (name : String) : Except FileError Place :=
  match files.content? place with
  | none => .error .notFound
  | some (.file _) => .error .notDirectory
  | some .directory =>
      if name = "" ∨ name = "." then .ok place
      else if name = ".." then .ok place.tail
      else if maxName < name.utf8ByteSize then .error .nameTooLong
      else if (files.content? (name :: place)).isNone then .error .notFound
      else .ok (name :: place)

def locate (files : Files) (path : String) : Except FileError Place :=
  if path.toList.contains '\x00' then .error .nulInName
  else if maxPath < path.utf8ByteSize then .error .nameTooLong
  else if path = "" then .error .notFound
  else
    let origin := if path.toList.head? = some '/' then [] else files.start
    (names path.toList).foldlM (fun place name => files.follow place (String.ofList name)) origin

def read (files : Files) (path : String) : Except FileError Bytes :=
  match files.locate path with
  | .error e => .error e
  | .ok place =>
      match files.content? place with
      | some (.file bytes) => .ok bytes
      | some .directory => .error .isDirectory
      | none => .error .notFound

end Files

end EntityScript.CommandLine

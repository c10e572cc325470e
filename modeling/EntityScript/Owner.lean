import EntityScript.Word

namespace EntityScript

inductive Category where
  | building
  | unit
  | team
  | unknown
  deriving DecidableEq

namespace Category

def all : List Category := [.building, .unit, .team, .unknown]

def rank : Category → Nat
  | .building => 0
  | .unit => 1
  | .team => 2
  | .unknown => 3

def name : Category → String
  | .building => "structure"
  | .unit => "unit"
  | .team => "team"
  | .unknown => "unknown"

/-- The name in a dump of a value. -/
def label : Category → String
  | .building => "Structure"
  | .unit => "Unit"
  | .team => "Team"
  | .unknown => "Unknown"

def ofName? (name : String) : Option Category :=
  all.find? fun category => category.name = name

instance : LT Category := ⟨fun a b => a.rank < b.rank⟩

instance (a b : Category) : Decidable (a < b) :=
  inferInstanceAs (Decidable (a.rank < b.rank))

instance : Inhabited Category := ⟨.unknown⟩

end Category

/-- What a script can run for. -/
class Owner (ω : Type) where
  category : ω → Category := fun _ => default
  index : ω → Word := fun _ => 0
  subtype : ω → Word := fun _ => 0

instance : Owner Unit where

structure OwnerLabel where
  category : Category
  index : Word
  subtype : Word
  deriving DecidableEq

def Owner.label {ω : Type} [Owner ω] (owner : ω) : OwnerLabel :=
  ⟨category owner, index owner, subtype owner⟩

end EntityScript

import EntityScript.Native

namespace EntityScript

def nativeSlots : Nat := 64

/-- The native functions of a category.  A slot holds at most one. -/
structure NativeTable (ω : Type) where
  category : Category
  slots : Vector (Option (Native ω)) nativeSlots

namespace NativeTable

variable {ω : Type}

def empty (category : Category) : NativeTable ω :=
  ⟨category, .replicate nativeSlots none⟩

structure SlotError where
  slot : Nat

def SlotError.message (e : SlotError) : String :=
  s!"function slot {e.slot} out of range"

/-- Binds a function to a slot.  Replacing another one is reported. -/
def bind (table : NativeTable ω) (slot : Nat) (native : Native ω) :
    Except SlotError (NativeTable ω × Array Event) :=
  if h : slot < nativeSlots then
    let events := if table.slots[slot].isSome then #[.nativeReplaced table.category slot] else #[]
    .ok ({ table with slots := table.slots.set slot (some native) }, events)
  else
    .error ⟨slot⟩

def get? (table : NativeTable ω) (slot : Word) : Option (Native ω) :=
  table.slots[slot.toNat]?.join

theorem eq_of_get?_replicate {category : Category} {native found : Native ω} {slot : Word}
    (h : NativeTable.get? ⟨category, .replicate nativeSlots (some native)⟩ slot = some found) :
    found = native := by
  simp only [get?, Vector.getElem?_replicate] at h
  split at h
  · exact (Option.some.inj h).symm
  · cases h

def bound (table : NativeTable ω) : List Nat :=
  (List.range nativeSlots).filter fun slot => table.slots[slot]?.join.isSome

def invoke (table : NativeTable ω) (slot : Word) : NativeM ω Word :=
  match table.get? slot with
  | some native => native
  | none => throw (.unknownFunction slot)

def text (table : NativeTable ω) : String :=
  "FunctionTable \x7b category: " ++ table.category.label ++ ", bound: [" ++
    ", ".intercalate (table.bound.map toString) ++ "] \x7d"

end NativeTable

end EntityScript

import ScriptVM.Heap.Property

/-!
# Property tables

The own properties of an object in the order they were added. The position of a
property is its offset; removing a property moves the later ones down by one.
-/

namespace ScriptVM

/-- Own properties in insertion order. -/
structure PropertyTable where
  entries : Array (PropertyKey × Property) := #[]
  deriving DecidableEq, Inhabited

namespace PropertyTable

/-- Number of properties. -/
def size (table : PropertyTable) : Nat :=
  table.entries.size

/-- The offset of a key. -/
def offset? (table : PropertyTable) (key : PropertyKey) : Option Nat :=
  table.entries.findIdx? fun entry => entry.1 == key

/-- The key and property at an offset. -/
def at? (table : PropertyTable) (offset : Nat) : Option (PropertyKey × Property) :=
  table.entries[offset]?

/-- The property of a key with its offset. -/
def lookup? (table : PropertyTable) (key : PropertyKey) : Option (Nat × Property) := do
  let offset <- table.offset? key
  let entry <- table.at? offset
  return (offset, entry.2)

/-- The property of a key. -/
def get? (table : PropertyTable) (key : PropertyKey) : Option Property :=
  (table.lookup? key).map Prod.snd

/-- Replace the property at an offset. -/
def setAt (table : PropertyTable) (offset : Nat) (property : Property) : PropertyTable :=
  { entries := table.entries.modify offset fun entry => (entry.1, property) }

/-- Append a property under a new key. -/
def append (table : PropertyTable) (key : PropertyKey) (property : Property) :
    PropertyTable :=
  { entries := table.entries.push (key, property) }

/-- Remove the property at an offset. -/
def eraseAt (table : PropertyTable) (offset : Nat) : PropertyTable :=
  { entries := table.entries.eraseIdxIfInBounds offset }

/-- Keys in insertion order. -/
def keys (table : PropertyTable) : List PropertyKey :=
  table.entries.toList.map Prod.fst

/-- The values that all properties hold. -/
def values (table : PropertyTable) : List Value :=
  table.entries.toList.flatMap fun entry => entry.2.values

end PropertyTable
end ScriptVM

import ScriptVM.Value

/-!
# Well-known symbols

The symbols that every machine starts with, in the order of their identities.
-/

namespace ScriptVM
namespace SymbolId

/-- Names the method that gives an iterator. -/
def iterator : SymbolId := ⟨0⟩

/-- Names the method that gives an asynchronous iterator. -/
def asyncIterator : SymbolId := ⟨1⟩

/-- Names the method that answers `instanceof`. -/
def hasInstance : SymbolId := ⟨2⟩

/-- Names the method that converts an object to a primitive. -/
def toPrimitive : SymbolId := ⟨3⟩

/-- Names the tag that the default text of an object shows. -/
def toStringTag : SymbolId := ⟨4⟩

/-- The well-known symbols with their property names. -/
def wellKnown : List (SymbolId × String) :=
  [ (iterator, "iterator")
  , (asyncIterator, "asyncIterator")
  , (hasInstance, "hasInstance")
  , (toPrimitive, "toPrimitive")
  , (toStringTag, "toStringTag") ]

/-- The descriptions of the well-known symbols, in the order of identities. -/
def wellKnownDescriptions : Array (Option String) :=
  (wellKnown.map fun entry => some ("Symbol." ++ entry.2)).toArray

end SymbolId
end ScriptVM

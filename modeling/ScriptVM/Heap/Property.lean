import ScriptVM.PropertyKey

/-!
# Own properties

A property is a slot, holding data or a pair of accessors, and two attributes
that both kinds share. Replacing a property by one of the same layout changes
nothing that an object's shape records.
-/

namespace ScriptVM

/-- The storage of one property. -/
inductive Slot
  | data (value : Value) (writable : Bool)
  /-- Undefined stands for a missing half. -/
  | accessor (getter setter : Value)
  deriving DecidableEq, Inhabited

/-- A property with the attributes that data and accessors share. -/
structure Property where
  slot : Slot
  enumerable : Bool
  configurable : Bool
  deriving DecidableEq, Inhabited

namespace Property

/-- A data property with explicit attributes. -/
def ofData (value : Value) (writable enumerable configurable : Bool) : Property :=
  { slot := .data value writable, enumerable, configurable }

/-- The property that plain assignment creates. -/
def plain (value : Value) : Property :=
  ofData value true true true

/-- The property of a method: writable and configurable, not enumerable. -/
def hidden (value : Value) : Property :=
  ofData value true false true

/-- An accessor property. -/
def ofAccessors (getter setter : Value) (enumerable configurable : Bool) : Property :=
  { slot := .accessor getter setter, enumerable, configurable }

/-- The value of a data property. -/
def value? (property : Property) : Option Value :=
  match property.slot with
  | .data value _ => some value
  | .accessor _ _ => none

/-- The property holds data. -/
def isData (property : Property) : Bool :=
  match property.slot with
  | .data _ _ => true
  | .accessor _ _ => false

/-- The property holds data that assignment may change. -/
def isWritable (property : Property) : Bool :=
  match property.slot with
  | .data _ writable => writable
  | .accessor _ _ => false

/-- The two properties agree on kind and attributes. -/
def sameLayout (left right : Property) : Bool :=
  let sameKind :=
    match left.slot, right.slot with
    | .data _ leftWritable, .data _ rightWritable => leftWritable == rightWritable
    | .accessor _ _, .accessor _ _ => true
    | _, _ => false
  sameKind && left.enumerable == right.enumerable &&
    left.configurable == right.configurable

/-- Replace the value of a data property. -/
def withValue (property : Property) (value : Value) : Property :=
  match property.slot with
  | .data _ writable => { property with slot := .data value writable }
  | .accessor _ _ => property

/-- The values a property holds. -/
def values (property : Property) : List Value :=
  match property.slot with
  | .data value _ => [value]
  | .accessor getter setter => [getter, setter]

end Property
end ScriptVM

import ScriptVM.Heap.Property

/-!
# Property descriptors

A descriptor asks for a property, or for a change of one, and may leave any field
open. Open fields keep what the property has, or take the defaults of a new one.
-/

namespace ScriptVM

/-- A property with optional fields. -/
structure Descriptor where
  value : Option Value := none
  writable : Option Bool := none
  get : Option Value := none
  set : Option Value := none
  enumerable : Option Bool := none
  configurable : Option Bool := none
  deriving DecidableEq

namespace Descriptor

/-- A data descriptor with all fields. -/
def ofData (value : Value) (writable enumerable configurable : Bool) : Descriptor :=
  { value := some value
    writable := some writable
    enumerable := some enumerable
    configurable := some configurable }

/-- The descriptor of what plain assignment creates. -/
def plain (value : Value) : Descriptor :=
  ofData value true true true

/-- The descriptor has a getter or a setter. -/
def isAccessor (descriptor : Descriptor) : Bool :=
  descriptor.get.isSome || descriptor.set.isSome

/-- The descriptor has a value or says whether it is writable. -/
def isData (descriptor : Descriptor) : Bool :=
  descriptor.value.isSome || descriptor.writable.isSome

/-- The descriptor of an existing property. -/
def ofProperty (property : Property) : Descriptor :=
  match property.slot with
  | .data value writable =>
      ofData value writable property.enumerable property.configurable
  | .accessor getter setter =>
      { get := some getter
        set := some setter
        enumerable := some property.enumerable
        configurable := some property.configurable }

/-- The slot that the descriptor makes out of an existing one. -/
def mergeSlot (descriptor : Descriptor) (current : Option Slot) : Slot :=
  if descriptor.isAccessor then
    match current with
    | some (.accessor getter setter) =>
        .accessor (descriptor.get.getD getter) (descriptor.set.getD setter)
    | _ =>
        .accessor (descriptor.get.getD .undefined) (descriptor.set.getD .undefined)
  else
    match current with
    | some (.accessor getter setter) =>
        if descriptor.isData then
          .data (descriptor.value.getD .undefined) (descriptor.writable.getD false)
        else
          .accessor getter setter
    | some (.data value writable) =>
        .data (descriptor.value.getD value) (descriptor.writable.getD writable)
    | none =>
        .data (descriptor.value.getD .undefined) (descriptor.writable.getD false)

/-- The property that the descriptor makes out of an existing one, or anew. -/
def merge (descriptor : Descriptor) (current : Option Property) : Property :=
  { slot := descriptor.mergeSlot (current.map Property.slot)
    enumerable :=
      (descriptor.enumerable <|> current.map Property.enumerable).getD false
    configurable :=
      (descriptor.configurable <|> current.map Property.configurable).getD false }

/-- A property may be changed as the descriptor asks. One that is not configurable
keeps its kind and attributes, and a read-only value or an accessor stays. -/
def isCompatible (descriptor : Descriptor) (current : Property) : Bool :=
  if current.configurable then true
  else if descriptor.configurable == some true then false
  else if descriptor.enumerable.any fun enumerable => enumerable != current.enumerable then
    false
  else
    match current.slot with
    | .data value writable =>
        if descriptor.isAccessor then false
        else if writable then true
        else if descriptor.writable == some true then false
        else descriptor.value.all fun asked => asked.same value
    | .accessor getter setter =>
        if descriptor.isData then false
        else
          (descriptor.get.all fun asked => asked.strictlyEquals getter) &&
            descriptor.set.all fun asked => asked.strictlyEquals setter

end Descriptor
end ScriptVM

import ScriptVM.Machine.State

/-!
# Rendering values

The short form in which a value appears in messages. Rendering looks at the heap
but runs no script and changes nothing. An array renders as its elements joined by
commas; inside its own rendering it is empty.
-/

namespace ScriptVM
namespace Machine

variable {σ : Type}

/-- The data property of a key found along a prototype chain, within a number of
objects. An accessor ends the search. -/
def lookupData? (machine : Machine σ) (key : PropertyKey) : Nat -> ObjectId -> Option Value
  | 0, _ => none
  | fuel + 1, id =>
      match machine.heap.getOwn? id key with
      | some property => property.value?
      | none =>
          match machine.heap.prototypeOf id with
          | some parent => machine.lookupData? key fuel parent
          | none => none

/-- The plain text of a data property along the prototype chain, unless it is
undefined. -/
def renderedField? (machine : Machine σ) (id : ObjectId) (name : String) : Option String :=
  match machine.lookupData? (.string name) machine.config.maxPrototypeChain id with
  | none | some .undefined => none
  | some value => some value.text

/-- An error renders as its name and message. -/
def renderError (machine : Machine σ) (id : ObjectId) : String :=
  let name := (machine.renderedField? id "name").getD "Error"
  match machine.renderedField? id "message" with
  | none | some "" => name
  | some message => name ++ ": " ++ message

/-- A function renders as its name property, with a note on what it is. -/
def renderFunction (machine : Machine σ) (id : ObjectId) : String :=
  let name :=
    match (machine.heap.getOwn? id (.string "name")).bind Property.value? with
    | some (.string name) => name
    | _ => ""
  let isClass :=
    match machine.kind? id with
    | some (.function closure) => closure.template.kind.isClassConstructor
    | _ => false
  if isClass then "class " ++ name
  else "function " ++ name ++ "() \x7b [native code] \x7d"

/-- Render a value inside the arrays that are being rendered around it. The fuel
bounds their number. -/
def render (machine : Machine σ) : Nat -> List ObjectId -> Value -> String
  | fuel, visiting, value =>
      match value with
      | .symbol id => machine.symbolText id
      | .function id => machine.renderFunction id
      | .object id =>
          match machine.kind? id with
          | some .error => machine.renderError id
          | some (.array store) =>
              if visiting.contains id then ""
              else
                match fuel with
                | 0 => ""
                | fuel + 1 =>
                    ",".intercalate (store.elements.toList.map fun element =>
                      match element with
                      | .undefined | .null | .hole => ""
                      | element => machine.render fuel (id :: visiting) element)
          | some (.promise _) => "[object Promise]"
          | some (.coroutine _) => "[object Generator]"
          | some (.arrayIterator _ _ _) => "[object Array Iterator]"
          | some .arguments => "[object Arguments]"
          | _ => "[object Object]"
      | value => value.text

/-- The short form of a value. No more arrays can be nested in each other than
there are objects. -/
def display (machine : Machine σ) (value : Value) : String :=
  machine.render machine.heap.objects.size [] value

/-- The form of a key in messages. -/
def displayKey (machine : Machine σ) : PropertyKey -> String
  | .string name => name
  | .symbol id => machine.symbolText id

end Machine
end ScriptVM

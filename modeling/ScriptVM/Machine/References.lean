import ScriptVM.Machine.ObjectKind

/-!
# References of internal slots

The objects that each kind of internal slot keeps alive.
-/

namespace ScriptVM

/-- The objects that a list of values keeps alive. -/
def valueReferences (values : List Value) : List ObjectId :=
  values.filterMap Value.objectId?

/-- The objects that a closure keeps alive. -/
def Closure.references (closure : Closure) (cells : Cells) : List ObjectId :=
  closure.upvalues.toList.flatMap cells.upvalueReferences ++
    (match closure.lexicalScope with
    | some scope => cells.scopeReferences scope
    | none => []) ++
    closure.homeObject.toList ++ closure.fieldInitializer.toList

/-- The objects that a native function keeps alive. -/
def NativeBehavior.references (cells : Cells) : NativeBehavior -> List ObjectId
  | .builtin _ | .host _ => []
  | .resolving promise _ _ => [promise]
  | .combinatorElement _ aggregate capability _ =>
      capability ::
        (match cells.aggregates[aggregate.index]? with
        | some aggregate => valueReferences (aggregate.entries.toList.filterMap id)
        | none => [])
  | .finallyStep onFinally _ => onFinally.objectId?.toList
  | .settled value _ => value.objectId?.toList

/-- The objects that a coroutine keeps alive. -/
def Coroutine.references (coroutine : Coroutine) (cells : Cells) : List ObjectId :=
  (match coroutine.frame with
  | some frame => frame.references cells
  | none => []) ++
    (match coroutine.kind with
    | .async promise => [promise]
    | .generator => [])

/-- The objects that a handler keeps alive. -/
def Handler.references : Handler -> List ObjectId
  | .callable function => function.objectId?.toList
  | .asyncResume coroutine => [coroutine]
  | .identity | .thrower => []

/-- The objects that a reaction keeps alive. -/
def Reaction.references (reaction : Reaction) : List ObjectId :=
  reaction.capability.toList ++ reaction.onFulfilled.references ++
    reaction.onRejected.references

/-- The objects that a promise keeps alive. -/
def promiseReferences (record : PromiseRecord Value Reaction) : List ObjectId :=
  (match record.state with
  | .fulfilled value | .rejected value => value.objectId?.toList
  | .pending => []) ++
    record.reactions.flatMap Reaction.references

/-- The objects that internal slots keep alive. -/
def ObjectKind.references (cells : Cells) : ObjectKind -> List ObjectId
  | .ordinary | .arguments | .error => []
  | .array store => valueReferences store.elements.toList
  | .function closure => closure.references cells
  | .native code => code.behavior.references cells
  | .bound target receiver leading => valueReferences (target :: receiver :: leading)
  | .coroutine activation => activation.references cells
  | .promise record => promiseReferences record
  | .proxy target handler => valueReferences [target, handler]
  | .arrayIterator iterated _ _ => iterated.objectId?.toList

end ScriptVM

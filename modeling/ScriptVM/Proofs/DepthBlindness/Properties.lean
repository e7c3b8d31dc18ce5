import ScriptVM.Proofs.DepthBlindness.Machines

/-!
# Property operations at different depths

Reading, writing, converting, comparing, iterating and enumerating go on alike at different
native depths.
-/

namespace ScriptVM

-- Long sequences make large instances.
set_option synthInstance.maxSize 512

variable {σ α : Type} {inside : Bool}
variable (key : PropertyKey) (value target receiver left right handler result array : Value)
  (id : ObjectId) (descriptor : Descriptor)

open Machine

namespace Exec

/-! ## Machine operations -/

instance :
    DepthBlind inside (ask fun machine : Machine σ =>
      decide (machine.config.maxCallDepth <= machine.frames.size)) :=
  .ask fun _ _ _ _ => rfl

instance : DepthBlind inside (checkCallDepth : Exec σ Unit) := by
  unfold checkCallDepth
  infer_instance

instance (exception : Exception) : DepthBlind inside (exceptionValue exception : Exec σ Value) :=
  .change (Machine.carries_exceptionValue exception)

instance : DepthBlind inside (change Machine.allocateOrdinary : Exec σ ObjectId) :=
  .change fun _ _ _ => rfl

instance blind_allocate (prototype : Option ObjectId) (kind : ObjectKind) :
    DepthBlind inside (allocate prototype kind : Exec σ ObjectId) :=
  .change fun _ _ _ => rfl

instance (property : Property) : DepthBlind inside (defineRaw id key property : Exec σ Unit) :=
  .update fun _ _ _ => rfl

instance (elements : List Value) : DepthBlind inside (createArray elements : Exec σ Value) :=
  .change fun _ _ _ => rfl

/-! ## Reading -/

instance : DepthBlind inside (notCallable value : Exec σ α) := by
  unfold notCallable
  infer_instance

instance : DepthBlind inside (asMethod value : Exec σ (Option Value)) := by
  unfold asMethod
  infer_instance

instance (read : ObjectId -> Value -> Exec σ Value)
    [∀ id receiver, DepthBlind inside (read id receiver)] :
    DepthBlind inside (readBy read target key) := by
  unfold readBy
  split
  · infer_instance
  · infer_instance
  · split <;> infer_instance
  · refine .bind inferInstance fun prototype => ?_
    split <;> infer_instance

instance (name : String) : DepthBlind inside (trap? handler name : Exec σ (Option Value)) := by
  unfold trap?
  infer_instance

instance : DepthBlind inside (targetObject target : Exec σ ObjectId) := by
  unfold targetObject
  split <;> infer_instance

instance : DepthBlind inside (proxyGet target handler key receiver : Exec σ Value) := by
  unfold proxyGet
  refine .bind inferInstance fun trap => ?_
  split <;> infer_instance

instance (property : Property) :
    DepthBlind inside (propertyValue property receiver : Exec σ Value) := by
  unfold propertyValue
  split <;> infer_instance

instance : DepthBlind inside (getWithReceiver id key receiver : Exec σ Value) := by
  unfold getWithReceiver
  refine .bind inferInstance fun found => ?_
  split <;> infer_instance

instance : DepthBlind inside (getProperty target key : Exec σ Value) := by
  unfold getProperty
  infer_instance

instance : DepthBlind inside (getMethod target key : Exec σ (Option Value)) := by
  unfold getMethod
  infer_instance

instance (arguments : List Value) :
    DepthBlind inside (invokeMethod target key arguments : Exec σ Value) := by
  unfold invokeMethod
  infer_instance

instance : DepthBlind inside (proxyHas target handler key : Exec σ Bool) := by
  unfold proxyHas
  refine .bind inferInstance fun trap => ?_
  split <;> infer_instance

instance : DepthBlind inside (hasProperty id key : Exec σ Bool) := by
  unfold hasProperty
  refine .bind inferInstance fun found => ?_
  split <;> infer_instance

instance : DepthBlind inside (proxyPrototypeOf target handler : Exec σ (Option ObjectId)) := by
  unfold proxyPrototypeOf
  refine .bind inferInstance fun trap => ?_
  split
  · infer_instance
  · refine .bind inferInstance fun prototype => ?_
    split <;> infer_instance

instance : DepthBlind inside (getPrototypeOf id : Exec σ (Option ObjectId)) := by
  unfold getPrototypeOf
  refine .bind inferInstance fun kind => ?_
  split <;> infer_instance

instance (newTarget : Value) (fallback : ObjectId) :
    DepthBlind inside (prototypeFromConstructor newTarget fallback : Exec σ ObjectId) := by
  unfold prototypeFromConstructor
  infer_instance

/-! ## Conversions -/

instance (keys : List PropertyKey) :
    DepthBlind inside (primitiveByMethods value keys : Exec σ Value) := by
  induction keys with
  | nil =>
      unfold primitiveByMethods
      infer_instance
  | cons key rest step =>
      unfold primitiveByMethods
      infer_instance

instance (hint : PreferredType) : DepthBlind inside (toPrimitive value hint : Exec σ Value) := by
  unfold toPrimitive
  infer_instance

instance : DepthBlind inside (toNumber value : Exec σ Float) := by
  unfold toNumber
  infer_instance

instance : DepthBlind inside (toText value : Exec σ String) := by
  unfold toText
  infer_instance

instance : DepthBlind inside (toPropertyKey value : Exec σ PropertyKey) := by
  unfold toPropertyKey
  infer_instance

instance : DepthBlind inside (toSignedWord value : Exec σ Int) := by
  unfold toSignedWord
  infer_instance

instance : DepthBlind inside (toWord value : Exec σ Nat) := by
  unfold toWord
  infer_instance

instance : DepthBlind inside (lengthOfArrayLike value : Exec σ Nat) := by
  unfold lengthOfArrayLike
  infer_instance

/-! ## Writing -/

theorem DepthBlind.changeOrRaise
    {operation : Machine σ -> Except Exception α × Machine σ}
    (carries : Machine.CarriesDepth operation) :
    DepthBlind inside (changeOrRaise operation) :=
  .bind (.change carries) fun _ => inferInstance

instance : DepthBlind inside (setArrayLength id value : Exec σ Bool) := by
  unfold setArrayLength
  refine .bind inferInstance fun number => .bind inferInstance fun length => ?_
  split
  · infer_instance
  · exact .change (Machine.carries_setLength id length)

instance (index : Nat) : DepthBlind inside (defineElement id index descriptor : Exec σ Bool) := by
  unfold defineElement
  split
  · infer_instance
  · exact .changeOrRaise fun limit depth machine =>
      Machine.carries_setElement id index _ limit depth machine

instance (frozen : Bool) :
    DepthBlind inside (defineArrayLength id frozen descriptor : Exec σ Bool) := by
  unfold defineArrayLength
  split
  · infer_instance
  · split
    · infer_instance
    · split <;> infer_instance

instance :
    DepthBlind inside
      (change fun machine => machine.defineOrdinary id key descriptor : Exec σ Bool) :=
  .change (Machine.carries_defineOrdinary id key descriptor)

instance : DepthBlind inside (defineOwnProperty id key descriptor : Exec σ Bool) := by
  unfold defineOwnProperty
  refine .bind inferInstance fun target => ?_
  split
  · infer_instance
  · refine .bind inferInstance fun status => ?_
    split <;> infer_instance

instance : DepthBlind inside (createDataProperty id key value : Exec σ Bool) := by
  unfold createDataProperty
  infer_instance

instance : DepthBlind inside (writeOwnValue id key value : Exec σ Bool) := by
  unfold writeOwnValue
  refine .bind inferInstance fun status => ?_
  split
  · exact .changeOrRaise (Machine.carries_setElement id _ value)
  · split
    · infer_instance
    · refine .change fun limit depth machine => ?_
      rw [Machine.heap_atDepth]
      split <;> rfl

instance : DepthBlind inside (assignOwn receiver key value : Exec σ Bool) := by
  unfold assignOwn
  split
  · infer_instance
  · refine .bind inferInstance fun found => ?_
    split <;> infer_instance

instance : DepthBlind inside (proxySet target handler key value receiver : Exec σ Bool) := by
  unfold proxySet
  refine .bind inferInstance fun trap => ?_
  split <;> infer_instance

instance :
    DepthBlind inside (ask fun machine : Machine σ =>
      machine.lookup key (machine.config.maxPrototypeChain + 1) id) :=
  .ask fun limit first second machine => by
    rw [lookup_atDepth, lookup_atDepth]
    rfl

instance : DepthBlind inside (setWithReceiver id key value receiver : Exec σ Bool) := by
  unfold setWithReceiver
  refine .bind inferInstance fun found => ?_
  split
  · infer_instance
  · infer_instance
  · infer_instance
  · split <;> infer_instance

instance :
    DepthBlind inside (ask fun machine : Machine σ =>
      target.objectId? <|> machine.primitivePrototype? target) :=
  .ask fun _ _ _ _ => rfl

instance (strict : Bool) :
    DepthBlind inside (setProperty target key value strict : Exec σ Unit) := by
  unfold setProperty
  refine .bind inferInstance fun holder => ?_
  split <;> infer_instance

instance : DepthBlind inside (proxyDelete target handler key : Exec σ Bool) := by
  unfold proxyDelete
  refine .bind inferInstance fun trap => ?_
  split <;> infer_instance

instance : DepthBlind inside (deleteOwn id key : Exec σ Bool) := by
  unfold deleteOwn
  refine .bind inferInstance fun kind => ?_
  split
  · infer_instance
  · exact .change (Machine.carries_deleteOrdinary id key)

instance (strict : Bool) : DepthBlind inside (deleteProperty target key strict : Exec σ Bool) := by
  unfold deleteProperty
  split <;> infer_instance

instance (prototype : Option ObjectId) :
    DepthBlind inside (setPrototypeOf id prototype : Exec σ Bool) :=
  .changeOrRaise (Machine.carries_setPrototypeOf id prototype)

instance : DepthBlind inside (pushElement id value : Exec σ Unit) :=
  .changeOrRaise (Machine.carries_pushElement id value)

/-! ## Operators -/

instance (swapped : Bool) : DepthBlind inside (compare left right swapped : Exec σ Comparison) := by
  unfold compare
  infer_instance

instance : DepthBlind inside (numericOperands left right : Exec σ (Float × Float)) := by
  unfold numericOperands
  infer_instance

instance : DepthBlind inside (signedOperands left right : Exec σ (Int × Int)) := by
  unfold signedOperands
  infer_instance

instance (operation : Nat -> Nat -> Nat) :
    DepthBlind inside (bitwise operation left right : Exec σ Value) := by
  unfold bitwise
  infer_instance

instance : DepthBlind inside (add left right : Exec σ Value) := by
  unfold add
  infer_instance

instance : DepthBlind inside (looseEquals left right : Exec σ Bool) := by
  unfold looseEquals
  infer_instance

instance (prototype : ObjectId) (limit : Nat) :
    DepthBlind inside (inherits prototype limit id : Exec σ Bool) := by
  induction limit generalizing id with
  | zero =>
      unfold inherits
      infer_instance
  | succ limit step =>
      unfold inherits
      refine .bind inferInstance fun parent => ?_
      split <;> infer_instance

instance : DepthBlind inside (ordinaryHasInstance target value : Exec σ Bool) := by
  unfold ordinaryHasInstance
  refine .bind inferInstance fun kind => ?_
  split
  · infer_instance
  · split
    · infer_instance
    · split
      · infer_instance
      · refine .bind inferInstance fun prototype => ?_
        split <;> infer_instance

instance : DepthBlind inside (instanceOf value target : Exec σ Bool) := by
  unfold instanceOf
  infer_instance

instance (key : Value) : DepthBlind inside (membership key target : Exec σ Bool) := by
  unfold membership
  split <;> infer_instance

instance (operator : BinaryOperator) :
    DepthBlind inside (binary operator left right : Exec σ Value) := by
  unfold binary
  cases operator <;> infer_instance

instance (operator : UnaryOperator) : DepthBlind inside (unary operator value : Exec σ Value) := by
  unfold unary
  cases operator <;> infer_instance

/-! ## Iteration -/

instance (done : Bool) : DepthBlind inside (iterationResult value done : Exec σ Value) :=
  .change fun _ _ _ => rfl

instance (iterable : Value) : DepthBlind inside (getIterator iterable : Exec σ Value) := by
  unfold getIterator
  refine .bind inferInstance fun method => ?_
  split <;> infer_instance

instance : DepthBlind inside (requireIterationResult result : Exec σ Value) := by
  unfold requireIterationResult
  infer_instance

instance (iterator : Value) (arguments : List Value) :
    DepthBlind inside (iteratorNext iterator arguments : Exec σ Value) := by
  unfold iteratorNext
  infer_instance

instance : DepthBlind inside (isDone result : Exec σ Bool) := by
  unfold isDone
  infer_instance

instance : DepthBlind inside (resultValue result : Exec σ Value) := by
  unfold resultValue
  infer_instance

instance (iterator : Value) : DepthBlind inside (closeIterator iterator : Exec σ Unit) := by
  unfold closeIterator
  refine .bind inferInstance fun method => ?_
  split <;> infer_instance

instance (iterable : Value) : DepthBlind inside (iterateToList iterable : Exec σ (List Value)) := by
  unfold iterateToList
  infer_instance

instance : DepthBlind inside (createArrayIterator array : Exec σ Value) := by
  unfold createArrayIterator
  infer_instance

instance (move : Nat × Bool -> Nat × Bool) :
    DepthBlind inside (moveArrayIterator id move : Exec σ Unit) :=
  .update fun _ _ _ => rfl

instance : DepthBlind inside (arrayIteratorNext receiver : Exec σ Value) := by
  unfold arrayIteratorNext
  refine .bind inferInstance fun kind => ?_
  split <;> infer_instance

/-! ## Enumeration -/

instance (found : FoundKeys) :
    DepthBlind inside (ask fun machine : Machine σ => machine.meetOwnKeys id found) :=
  .ask fun limit first second machine =>
    (machine.meetOwnKeys_atDepth limit first id found).trans
      (machine.meetOwnKeys_atDepth limit second id found).symm

instance (limit : Nat) (found : Machine.FoundKeys) :
    DepthBlind inside (enumerateFrom limit id found : Exec σ Machine.FoundKeys) := by
  induction limit generalizing id found with
  | zero =>
      unfold enumerateFrom
      infer_instance
  | succ limit step =>
      unfold enumerateFrom
      refine .bind inferInstance fun met => ?_
      refine .bind inferInstance fun parent => ?_
      split <;> infer_instance

instance : DepthBlind inside (enumerateKeys target : Exec σ (List Value)) := by
  unfold enumerateKeys
  refine .bind inferInstance fun limit => ?_
  dsimp only
  split <;> infer_instance

instance : DepthBlind inside (ask fun machine : Machine σ => machine.ownsEnumerable id key) :=
  .ask fun limit first second machine => by
    unfold ownsEnumerable
    rw [getOwnProperty?_atDepth, getOwnProperty?_atDepth]

instance (target source : ObjectId) :
    DepthBlind inside (copyProperty target source receiver key : Exec σ Unit) := by
  unfold copyProperty
  infer_instance

instance (target : ObjectId) (source : Value) :
    DepthBlind inside (copyDataProperties target source : Exec σ Unit) := by
  unfold copyDataProperties
  split <;> infer_instance

instance : DepthBlind inside (ask fun machine : Machine σ => machine.argumentElements? array) :=
  .ask fun _ _ _ _ => rfl

instance : DepthBlind inside (argumentElements array : Exec σ (List Value)) := by
  unfold argumentElements
  refine .bind inferInstance fun elements => ?_
  split <;> infer_instance

end Exec
end ScriptVM

import ScriptVM.Machine.CachedAccess
import ScriptVM.Machine.Enumeration
import ScriptVM.Machine.Operators
import ScriptVM.Proofs.Soundness.Inference

/-!
# Sound property operations

Reading, converting, writing, comparing, iterating and enumerating.
-/

namespace ScriptVM

variable {σ α : Type} {collects : Bool} {machine : Machine σ}
  [consistent : machine.Consistent collects]
variable (value target left right handler receiver result : Value) (key : PropertyKey)
  (id : ObjectId) (descriptor : Descriptor)

open Machine

namespace Exec

variable {after : Machine σ}

/-! ## Reading -/

instance [Carrier α] : Sound collects machine (notCallable value : Exec σ α) := by
  unfold notCallable
  infer_instance

instance [machine.Vouches value] : Sound collects machine (asMethod value) := by
  unfold asMethod
  infer_instance

omit consistent in
instance (text : String) : machine.Vouches (stringProperty? text key) := by
  unfold stringProperty?
  split
  · infer_instance
  · cases key.arrayIndex?.bind (Text.unitAt? text) with
    | none => exact vouches_none
    | some unit => exact vouches_some_of (Value.string unit)

theorem sound_readBy
    (read : ObjectId -> Value -> Exec σ Value)
    (target : Value)
    (key : PropertyKey)
    [vouched : machine.Vouches target]
    (sound : ∀ id, Sound collects machine (read id target)) :
    Sound collects machine (readBy read target key) := by
  unfold readBy
  split
  · exact sound _
  · exact sound _
  · split
    · next text _ value same =>
        have : machine.Vouches value := .of_some same
        infer_instance
    · exact .ask (sound _)
  · refine .ask ?_
    split
    · exact sound _
    · infer_instance

instance (name : String) [machine.Vouches handler] :
    Sound collects machine (trap? handler name) := by
  unfold trap?
  have : Sound collects machine (readBy (fun id receiver => perform (.get id name receiver))
      handler name : Exec σ Value) := sound_readBy _ handler name fun _ => inferInstance
  infer_instance

instance [machine.Vouches target] : Sound collects machine (targetObject target) := by
  unfold targetObject
  split
  · next id named =>
      have : machine.Vouches id := .id named
      infer_instance
  · infer_instance

omit consistent in
instance : machine.Vouches key.toValue := by
  unfold PropertyKey.toValue
  split <;> infer_instance

instance [machine.Vouches target] [machine.Vouches handler] [machine.Vouches receiver] :
    Sound collects machine (proxyGet target handler key receiver) := by
  unfold proxyGet
  infer_instance

instance (property : Property) [vouched : machine.Vouches property] [machine.Vouches receiver] :
    Sound collects machine (propertyValue property receiver) := by
  unfold propertyValue
  split
  · next value writable same =>
      have := (vouches_slot vouched).1 value writable same
      infer_instance
  · infer_instance

instance sound_getWithReceiver
    (id : ObjectId)
    (key : PropertyKey)
    (receiver : Value)
    [machine.Vouches receiver] :
    Sound collects machine (getWithReceiver id key receiver) := by
  unfold getWithReceiver
  refine .ask ?_
  have found : machine.Vouches (machine.lookup key machine.config.maxPrototypeChain id) :=
    inferInstance
  split
  · next property same =>
      have := vouches_found.1 (same ▸ found)
      infer_instance
  · next target handler same =>
      obtain ⟨_, _⟩ := vouches_atProxy.1 (same ▸ found)
      infer_instance
  · infer_instance
  · infer_instance

instance [machine.Vouches target] : Sound collects machine (getProperty target key) :=
  sound_readBy _ target key fun _ => inferInstance

instance [machine.Vouches target] : Sound collects machine (getMethod target key) := by
  unfold getMethod
  infer_instance

instance (arguments : List Value) [machine.Vouches target] [machine.Vouches arguments] :
    Sound collects machine (invokeMethod target key arguments) := by
  unfold invokeMethod
  infer_instance

instance [machine.Vouches target] [machine.Vouches handler] :
    Sound collects machine (proxyHas target handler key) := by
  unfold proxyHas
  infer_instance

instance sound_hasProperty (id : ObjectId) (key : PropertyKey) :
    Sound collects machine (hasProperty id key) := by
  unfold hasProperty
  refine .ask ?_
  have found : machine.Vouches (machine.lookup key machine.config.maxPrototypeChain id) :=
    inferInstance
  split
  · infer_instance
  · next target handler same =>
      obtain ⟨_, _⟩ := vouches_atProxy.1 (same ▸ found)
      infer_instance
  · infer_instance
  · infer_instance

instance [machine.Vouches target] [machine.Vouches handler] :
    Sound collects machine (proxyPrototypeOf target handler) := by
  unfold proxyPrototypeOf
  refine .bind inferInstance fun trap after _ _ _ => ?_
  cases trap with
  | none => infer_instance
  | some trap =>
      refine .bind inferInstance fun prototype after _ _ _ => ?_
      split <;> infer_instance

omit consistent in
theorem vouches_of_proxy
    {target handler : Value}
    {kind : Option ObjectKind}
    (present : kind = some (.proxy target handler))
    [vouched : machine.Vouches kind] :
    machine.Vouches target ∧ machine.Vouches handler :=
  vouches_proxy_kind.1 (.of_some present)

instance sound_getPrototypeOf (id : ObjectId) : Sound collects machine (getPrototypeOf id) := by
  unfold getPrototypeOf
  refine .ask ?_
  split
  · next target handler present =>
      obtain ⟨_, _⟩ : machine.Vouches target ∧ machine.Vouches handler := vouches_of_proxy present
      infer_instance
  · infer_instance

instance (newTarget : Value) (fallback : ObjectId) [machine.Vouches newTarget]
    [machine.Vouches fallback] :
    Sound collects machine (prototypeFromConstructor newTarget fallback) := by
  unfold prototypeFromConstructor
  infer_instance

/-! ## Conversions -/

instance (keys : List PropertyKey) [vouched : machine.Vouches value] :
    Sound collects machine (primitiveByMethods value keys) := by
  induction keys generalizing machine with
  | nil =>
      unfold primitiveByMethods
      infer_instance
  | cons key rest step =>
      unfold primitiveByMethods
      infer_instance

instance (hint : PreferredType) [machine.Vouches value] :
    Sound collects machine (toPrimitive value hint) := by
  unfold toPrimitive
  infer_instance

omit consistent in
instance : machine.Vouches value.primitiveNumber := by
  cases value <;> first | exact vouches_ok.2 inferInstance | exact vouches_error.2 inferInstance

omit consistent in
instance : machine.Vouches value.primitiveText := by
  cases value <;> first | exact vouches_ok.2 inferInstance | exact vouches_error.2 inferInstance

instance [machine.Vouches value] : Sound collects machine (toNumber value) := by
  unfold toNumber
  infer_instance

instance [machine.Vouches value] : Sound collects machine (toText value) := by
  unfold toText
  infer_instance

instance [machine.Vouches value] : Sound collects machine (toPropertyKey value) := by
  unfold toPropertyKey
  infer_instance

instance [machine.Vouches value] : Sound collects machine (toSignedWord value) := by
  unfold toSignedWord
  infer_instance

instance [machine.Vouches value] : Sound collects machine (toWord value) := by
  unfold toWord
  infer_instance

instance [machine.Vouches value] : Sound collects machine (lengthOfArrayLike value) := by
  unfold lengthOfArrayLike
  infer_instance

/-! ## Writing -/

omit consistent in
/-- A change whose answer may be an exception. -/
instance [Carrier α] (operation : Machine σ -> Except Exception α × Machine σ)
    [descends : machine.Descends collects (operation machine).2]
    [vouched : (operation machine).2.Vouches (operation machine).1] :
    Sound collects machine (changeOrRaise operation) := by
  have := descends.sustains.consistent
  unfold changeOrRaise
  exact .bind inferInstance fun outcome after _ _ _ => inferInstance

instance [machine.Vouches value] : Sound collects machine (setArrayLength id value) := by
  unfold setArrayLength
  infer_instance

omit consistent in
instance (index : Nat) : after.Vouches (machine.setElement id index value).1 := by
  unfold Machine.setElement
  split
  · exact vouches_ok_of false
  · exact vouches_ok_of false
  · split
    · exact vouches_ok_of true
    · split
      · exact vouches_ok_of false
      · split
        · exact vouches_error_of invalidLength
        · exact vouches_ok_of true

instance (index : Nat) [vouched : machine.Vouches descriptor] :
    Sound collects machine (defineElement id index descriptor) := by
  have : machine.Vouches descriptor.value := (vouches_descriptor.1 vouched).1
  have current : machine.Vouches
      ((machine.ordinaryOwnProperty? id (.index index)).bind Property.value?) := by
    cases present : machine.ordinaryOwnProperty? id (.index index) with
    | none => exact vouches_none
    | some property =>
        have : machine.Vouches property := .of_some present
        exact vouches_value? property
  unfold defineElement
  split
  · infer_instance
  · infer_instance

instance (frozen : Bool) [vouched : machine.Vouches descriptor] :
    Sound collects machine (defineArrayLength id frozen descriptor) := by
  unfold defineArrayLength
  split
  · infer_instance
  · split
    · infer_instance
    · split
      · next value same =>
          have : machine.Vouches value := vouches_some.1 (same ▸ (vouches_descriptor.1 vouched).1)
          infer_instance
      · infer_instance

instance [machine.Vouches descriptor] :
    Sound collects machine (defineOwnProperty id key descriptor) := by
  unfold defineOwnProperty
  refine .ask ?_
  split
  · infer_instance
  · refine .ask ?_
    split <;> infer_instance

instance [machine.Vouches value] : Sound collects machine (createDataProperty id key value) := by
  unfold createDataProperty
  infer_instance

instance [machine.Vouches value] : Sound collects machine (writeOwnValue id key value) := by
  unfold writeOwnValue
  refine .ask ?_
  split
  · infer_instance
  · split
    · infer_instance
    · refine ⟨.change _ ?_ inferInstance⟩
      split
      · exact .refl machine
      · infer_instance

instance [machine.Vouches value] : Sound collects machine (assignOwn receiver key value) := by
  unfold assignOwn
  split
  · infer_instance
  · refine .ask ?_
    split
    · infer_instance
    · split <;> infer_instance

instance [machine.Vouches target] [machine.Vouches handler] [machine.Vouches value]
    [machine.Vouches receiver] :
    Sound collects machine (proxySet target handler key value receiver) := by
  unfold proxySet
  infer_instance

instance sound_setWithReceiver
    (id : ObjectId)
    (key : PropertyKey)
    (value receiver : Value)
    [machine.Vouches value]
    [machine.Vouches receiver] :
    Sound collects machine (setWithReceiver id key value receiver) := by
  unfold setWithReceiver
  refine .ask ?_
  have found : machine.Vouches
      (machine.lookup key (machine.config.maxPrototypeChain + 1) id) := inferInstance
  split
  · next target handler same =>
      obtain ⟨_, _⟩ := vouches_atProxy.1 (same ▸ found)
      infer_instance
  · infer_instance
  · infer_instance
  · split
    · infer_instance
    · infer_instance
    · split <;> infer_instance

instance (strict : Bool) [machine.Vouches target] [machine.Vouches value] :
    Sound collects machine (setProperty target key value strict) := by
  unfold setProperty
  refine .ask ?_
  split <;> infer_instance

instance [machine.Vouches target] [machine.Vouches handler] :
    Sound collects machine (proxyDelete target handler key) := by
  unfold proxyDelete
  infer_instance

instance : Sound collects machine (deleteOwn id key) := by
  unfold deleteOwn
  refine .ask ?_
  split
  · next target handler present =>
      obtain ⟨_, _⟩ : machine.Vouches target ∧ machine.Vouches handler := vouches_of_proxy present
      infer_instance
  · infer_instance

instance sound_deleteProperty (target : Value) (key : PropertyKey) (strict : Bool) :
    Sound collects machine (deleteProperty target key strict) := by
  unfold deleteProperty
  split <;> infer_instance

omit consistent in
instance vouches_mayLink
    (id : ObjectId)
    (limit : Nat)
    (start : Option ObjectId) :
    after.Vouches (machine.mayLink id limit start) := by
  induction limit generalizing start with
  | zero =>
      unfold mayLink
      split
      · exact vouches_ok_of true
      · split
        · exact vouches_ok_of false
        · split
          · exact vouches_ok_of true
          · exact vouches_error_of Exception.chainOverflow
  | succ limit step =>
      unfold mayLink
      split
      · exact vouches_ok_of true
      · split
        · exact vouches_ok_of false
        · split
          · exact vouches_ok_of true
          · exact step _

omit consistent in
instance (prototype : Option ObjectId) : after.Vouches (machine.setPrototypeOf id prototype).1 := by
  unfold Machine.setPrototypeOf
  split
  · exact vouches_ok_of false
  · split
    · exact vouches_ok_of true
    · split
      · exact vouches_ok_of false
      · split
        · exact vouches_ok_of _
        · exact vouches_mayLink ..

instance (prototype : Option ObjectId) [machine.Vouches prototype] :
    Sound collects machine (setPrototypeOf id prototype) := by
  unfold setPrototypeOf
  infer_instance

omit consistent in
instance : after.Vouches (machine.pushElement id value).1 := by
  unfold Machine.pushElement
  split
  · exact vouches_ok_of ()
  · exact vouches_error_of (Exception.typeError _)
  · exact vouches_error_of (Exception.internalError _)

instance [machine.Vouches value] : Sound collects machine (pushElement id value) := by
  unfold pushElement
  infer_instance

/-! ## Cached access -/

instance (template : TemplateId) (slot : Nat) [machine.Vouches target] :
    Sound collects machine (getNamed target key template slot) := by
  have cached : ∀ id, Sound collects machine (change fun machine =>
      if machine.config.inlineCaches then machine.cachedLookup id key template slot
      else (none, machine) : Exec σ (Option Value)) := by
    intro id
    by_cases enabled : machine.config.inlineCaches = true
    · refine ⟨.change _ ?_ ?_⟩
      · rw [if_pos enabled]
        infer_instance
      · rw [if_pos enabled]
        infer_instance
    · refine ⟨.change _ ?_ ?_⟩
      · rw [if_neg enabled]
        exact .refl machine
      · rw [if_neg enabled]
        exact vouches_none
  unfold getNamed
  split <;> infer_instance

instance (template : Template) (slot : Nat) [machine.Vouches target] [machine.Vouches value] :
    Sound collects machine (setNamed target key value template slot) := by
  unfold setNamed
  refine .ask ?_
  split <;> infer_instance

/-! ## Operators -/

omit consistent in
instance [Carrier α] (answer : α) [machine.Vouches answer] :
    machine.Vouches (pure answer : Except Exception α) :=
  vouches_ok_of answer

omit consistent in
instance {β : Type} [Carrier α] [Carrier β] (first : Except Exception α)
    (next : α -> Except Exception β) [vouched : machine.Vouches first]
    [later : ∀ answer, machine.Vouches (next answer)] :
    machine.Vouches (first >>= next) := by
  cases first with
  | ok answer => exact later answer
  | error exception =>
      have := vouches_error.1 vouched
      exact vouches_error_of exception

omit consistent in
instance : machine.Vouches (lessPrimitives left right) := by
  unfold lessPrimitives
  split
  · exact vouches_ok_of (some _)
  · infer_instance

omit consistent in
instance : machine.Vouches (addPrimitives left right) := by
  unfold addPrimitives
  split <;> infer_instance

instance (swapped : Bool) [machine.Vouches left] [machine.Vouches right] :
    Sound collects machine (compare left right swapped) := by
  unfold compare
  infer_instance

instance [machine.Vouches left] [machine.Vouches right] :
    Sound collects machine (numericOperands left right) := by
  unfold numericOperands
  infer_instance

instance [machine.Vouches left] [machine.Vouches right] :
    Sound collects machine (signedOperands left right) := by
  unfold signedOperands
  infer_instance

instance (operation : Nat -> Nat -> Nat) [machine.Vouches left] [machine.Vouches right] :
    Sound collects machine (bitwise operation left right) := by
  unfold bitwise
  infer_instance

instance [machine.Vouches left] [machine.Vouches right] :
    Sound collects machine (add left right) := by
  unfold add
  infer_instance

instance [machine.Vouches left] [machine.Vouches right] :
    Sound collects machine (looseEquals left right) := by
  unfold looseEquals
  infer_instance

instance (prototype : ObjectId) (limit : Nat) :
    Sound collects machine (inherits prototype limit id) := by
  induction limit generalizing machine id with
  | zero =>
      unfold inherits
      infer_instance
  | succ limit step =>
      unfold inherits
      infer_instance

instance [machine.Vouches target] [machine.Vouches value] :
    Sound collects machine (ordinaryHasInstance target value) := by
  unfold ordinaryHasInstance
  refine .ask ?_
  split
  · next inner receiver leading present =>
      have := vouches_some.1 (present ▸ (inferInstance : machine.Vouches (machine.kindOf? target)))
      have := (vouches_bound_kind.1 this).1
      infer_instance
  · split
    · infer_instance
    · split
      · infer_instance
      · refine .bind inferInstance fun prototype after _ _ _ => ?_
        split <;> infer_instance

instance sound_instanceOf
    (value target : Value)
    [machine.Vouches value]
    [machine.Vouches target] :
    Sound collects machine (instanceOf value target) := by
  unfold instanceOf
  infer_instance

instance (key : Value) [machine.Vouches key] : Sound collects machine (membership key target) := by
  unfold membership
  split <;> infer_instance

instance (operator : BinaryOperator) [machine.Vouches left] [machine.Vouches right] :
    Sound collects machine (binary operator left right) := by
  unfold binary
  cases operator <;> infer_instance

instance (operator : UnaryOperator) [machine.Vouches value] :
    Sound collects machine (unary operator value) := by
  unfold unary
  cases operator <;> infer_instance

/-! ## Iteration -/

instance (done : Bool) [machine.Vouches value] :
    Sound collects machine (iterationResult value done) := by
  unfold iterationResult
  infer_instance

instance (iterable : Value) [machine.Vouches iterable] :
    Sound collects machine (getIterator iterable) := by
  unfold getIterator
  infer_instance

instance [machine.Vouches result] : Sound collects machine (requireIterationResult result) := by
  unfold requireIterationResult
  infer_instance

instance (iterator : Value) (arguments : List Value) [machine.Vouches iterator]
    [machine.Vouches arguments] :
    Sound collects machine (iteratorNext iterator arguments) := by
  unfold iteratorNext
  infer_instance

instance [machine.Vouches result] : Sound collects machine (isDone result) := by
  unfold isDone
  infer_instance

instance [machine.Vouches result] : Sound collects machine (resultValue result) := by
  unfold resultValue
  infer_instance

instance (iterator : Value) [machine.Vouches iterator] :
    Sound collects machine (closeIterator iterator) := by
  unfold closeIterator
  infer_instance

instance (iterable : Value) [machine.Vouches iterable] :
    Sound collects machine (iterateToList iterable) := by
  unfold iterateToList
  infer_instance

instance (array : Value) [machine.Vouches array] :
    Sound collects machine (createArrayIterator array) := by
  unfold createArrayIterator
  infer_instance

instance (change : Nat × Bool -> Nat × Bool) :
    Sound collects machine (moveArrayIterator id change) := by
  unfold moveArrayIterator
  infer_instance

instance [machine.Vouches receiver] : Sound collects machine (arrayIteratorNext receiver) := by
  unfold arrayIteratorNext
  refine .ask ?_
  split
  · next id array index done named present =>
      have : machine.Vouches (ObjectKind.arrayIterator array index done) := .of_some present
      have := vouches_iterator_kind.1 this
      infer_instance
  · infer_instance

/-! ## Enumeration -/

instance (limit : Nat) (found : FoundKeys) :
    Sound collects machine (enumerateFrom limit id found) := by
  induction limit generalizing machine id found with
  | zero =>
      unfold enumerateFrom
      infer_instance
  | succ limit step =>
      unfold enumerateFrom
      infer_instance

omit consistent in
instance (texts : List String) : machine.Vouches (texts.map Value.string) :=
  vouches_list.2 fun value member => by
    obtain ⟨text, _, rfl⟩ := List.mem_map.1 member
    infer_instance

instance : Sound collects machine (enumerateKeys target) := by
  unfold enumerateKeys
  refine .ask ?_
  dsimp only
  split <;> infer_instance

instance (target source : ObjectId) [machine.Vouches receiver] :
    Sound collects machine (copyProperty target source receiver key) := by
  unfold copyProperty
  infer_instance

instance (target : ObjectId) (source : Value) [machine.Vouches source] :
    Sound collects machine (copyDataProperties target source) := by
  unfold copyDataProperties
  split <;> infer_instance

instance (array : Value) : Sound collects machine (argumentElements array) := by
  unfold argumentElements
  refine .ask ?_
  split
  · next elements present =>
      have : machine.Vouches elements := .of_some present
      infer_instance
  · infer_instance

end Exec
end ScriptVM

import ScriptVM.Machine.CachedAccess
import ScriptVM.Machine.Classes
import ScriptVM.Machine.Enumeration
import ScriptVM.Machine.Operators
import ScriptVM.Machine.Unwind

/-!
# Dispatch

What each instruction does to the innermost frame, and the run that fetches and
executes instructions until the frame at its base returns or suspends.
-/

namespace ScriptVM
namespace Exec

variable {σ : Type}

/-- Read a register of the innermost frame. -/
@[inline] def read (register : Register) : Exec σ Value := do
  use (.register register)
  ask fun machine => machine.register register

/-- Write a register of the innermost frame. -/
@[inline] def write (register : Register) (value : Value) : Exec σ Unit := do
  use (.register register)
  update fun machine => machine.setRegister register value

/-- Go on at an offset of the innermost frame. -/
def jump (target : Nat) : Exec σ Unit :=
  update fun machine => machine.modifyTop fun frame => { frame with next := target }

/-- The innermost frame. -/
def currentFrame : Exec σ Frame := do
  match <- ask fun machine => machine.top? with
  | some frame => return frame
  | none => raise (.internalError "no active frame")

/-- Read consecutive registers of the innermost frame. -/
def readRange (first : Register) (count : Nat) : Exec σ (List Value) := do
  (List.range count).forM fun offset => use (.register (first + offset))
  let frame <- currentFrame
  ask fun machine => machine.cells.registerRange frame.window first count

/-- Read a register that must hold an object. -/
def readObject (register : Register) : Exec σ ObjectId := do
  match (<- read register).objectId? with
  | some id => return id
  | none => raise (.internalError "object operand expected")

/-- Read a register as a property key. -/
def readKey (register : Register) : Exec σ PropertyKey := do
  toPropertyKey (<- read register)

/-- A name among the constants. -/
def nameOperand (template : Template) (index : Nat) : Exec σ String := do
  use (.name index)
  match template.chunk.string? index with
  | some name => pure name
  | none => raise (.internalError "string constant expected")

/-- The value of a constant. -/
def constantOperand (template : Template) (index : Nat) : Exec σ Value := do
  use (.constant index)
  match template.chunk.constants[index]? with
  | some (.number value) => pure (.number value)
  | some (.string value) => pure (.string value)
  | none => raise (.internalError "constant index out of range")

/-- A captured variable of the innermost frame. -/
def upvalueOperand (index : Nat) : Exec σ UpvalueId := do
  match (<- currentFrame).upvalues[index]? with
  | some id => return id
  | none => raise (.internalError "upvalue index out of range")

/-- A name that is not bound. -/
def notDefined (name : String) : Exception :=
  .referenceError (name ++ " is not defined")

/-- Read a global; a missing one is undefined. -/
def readGlobal (name : String) : Exec σ Value := do
  let global <- ask fun machine => machine.intrinsics.global
  getWithReceiver global name (.object global)

/-- There is a global of this name. -/
def hasGlobal (name : String) : Exec σ Bool := do
  hasProperty (<- ask fun machine => machine.intrinsics.global) name

/-- Assign a global from a register. It must exist in strict code. -/
def assignGlobal (name : String) (source : Register) (strict : Bool) : Exec σ Unit := do
  if strict then
    if !(<- hasGlobal name) then raise (notDefined name)
  let global <- ask fun machine => machine.intrinsics.global
  setProperty (.object global) name (<- read source) strict

/-- The index that a number names as a property key, if it is one of an array. -/
def fastIndex? : Value -> Option Nat
  | .number value =>
      if value >= 0 && value < 4294967295 && Number.isIntegral value then
        some (Number.truncate value).toNat
      else none
  | _ => none

/-- Read a property by a computed key. An element of an array is read directly. -/
def getIndexed (target key : Value) : Exec σ Value := do
  match fastIndex? key with
  | some index =>
      let element <- ask fun machine =>
        match machine.kindOf? target with
        | some (.array store) => store.elements[index]?.filter fun value => !value.isHole
        | _ => none
      match element with
      | some value => return value
      | none => getProperty target (.index index)
  | none =>
      if target.isNullish then
        raise (.typeError
          ("Cannot read properties of " ++ target.text ++ " (reading '" ++ key.text ++ "')"))
      getProperty target (<- toPropertyKey key)

/-- Assign a property by a computed key. The value is read from its register after
the key is converted. -/
def setIndexed (target key : Value) (source : Register) (strict : Bool) :
    Exec σ Unit := do
  if target.isNullish then
    typeError fun machine =>
      "Cannot set properties of " ++ target.text ++ " (setting '" ++
        machine.display key ++ "')"
  let key <- toPropertyKey key
  setProperty target key (<- read source) strict

/-- Define a field of an object literal or an instance. -/
def defineField (target : ObjectId) (key : PropertyKey) (value : Value) :
    Exec σ Unit := do
  if !(<- createDataProperty target key value) then
    typeError fun machine => "Cannot define property " ++ machine.displayKey key

/-- Define an accessor of an object literal; an undefined half stays as it is. -/
def defineAccessor (target : ObjectId) (key : PropertyKey) (getter setter : Value) :
    Exec σ Unit := do
  let half := fun (value : Value) => if value.isUndefined then none else some value
  let _ <- defineOwnProperty target key
    { get := half getter
      set := half setter
      enumerable := some true
      configurable := some true }

/-- The arguments object of the innermost frame, which is made on first use. -/
def argumentsObject : Exec σ Value := do
  let frame <- currentFrame
  match frame.argumentsObject with
  | some id => return .object id
  | none =>
      let id <- change fun machine => machine.createArguments frame.arguments
      update fun machine => machine.modifyTop fun frame =>
        { frame with argumentsObject := some id }
      return .object id

/-- The function object of a nested function over the innermost frame. -/
def createClosure (template : Template) (index : Nat) : Exec σ Value := do
  use (.function index)
  match template.nested[index]? with
  | none => raise (.internalError "function index out of range")
  | some nested =>
      match <- change fun machine => machine.captureClosure nested with
      | none => raise (.internalError "upvalue index out of range")
      | some closure => change fun machine => machine.instantiate closure

/-- Push a frame for a closure. -/
def pushCall (callee : ObjectId × Closure) (receiver : Value) (arguments : List Value)
    (returnTo : ReturnTo) : Exec σ Unit :=
  update fun machine =>
    let (frame, machine) :=
      machine.callFrame callee.1 callee.2 receiver arguments returnTo
    machine.pushFrame frame

/-- Call a function and put its result into a register. A plain closure gets a frame
of the current run; anything else runs to completion. -/
def callInto (destination : Register) (callee receiver : Value)
    (arguments : List Value) : Exec σ Unit := do
  match <- ask fun machine => machine.inlineCallee? callee with
  | some closure =>
      checkCallDepth
      pushCall closure receiver arguments (.caller destination)
  | none => write destination (<- call callee receiver arguments)

/-- Return the result of a call. A plain closure takes over the current frame if
nothing in that is still to be done, and otherwise returns through it. -/
def tailCall (base : Nat) (callee receiver : Value) (arguments : List Value) :
    Exec σ Flow := do
  match <- ask fun machine => machine.inlineCallee? callee with
  | none => returnValue base (<- call callee receiver arguments)
  | some (id, closure) =>
      let top <- currentFrame
      if top.canReplace then
        update fun machine =>
          let (frame, machine) :=
            machine.callFrame id closure receiver arguments top.returnTo
          machine.popFrame.pushFrame frame
      else
        checkCallDepth
        pushCall (id, closure) receiver arguments .tailReturn
      return .continue

/-- Take the frame of a coroutine off the stack. -/
def suspend (base : Nat) : Exec σ Frame := do
  let frame <- currentFrame
  let size <- ask fun machine => machine.frames.size
  if size != base + 1 || frame.coroutine.isNone then
    stray .outsideCoroutineFrame frame
  update Machine.takeFrame
  return frame

/-- Choose the register that takes the value sent in at the next resumption. -/
def resumeInto (register : Register) : Exec σ Unit :=
  update fun machine => machine.modifyTop fun frame =>
    { frame with resumeRegister := some register }

/-- Enter a finally body of the innermost frame with nothing pending. -/
def gotoFinally (target : Nat) : Exec σ Unit :=
  update fun machine => machine.modifyTop fun frame => frame.enterFinally target .normal

/-- What a delegating generator does with the resumption that it passed on. -/
inductive Delegated
  /-- The other iterator answered with a result object. -/
  | result (result : Value)
  /-- The generator itself returns. -/
  | returns (value : Value)

/-- Pass a resumption on to the iterator that a generator delegates to. -/
def delegate (iterator : Value) (mode : ResumeMode) (received : Value) :
    Exec σ Delegated := do
  match mode with
  | .next => return .result (<- iteratorNext iterator [received])
  | .throw =>
      match <- getMethod iterator "throw" with
      | some method =>
          return .result
            (<- requireIterationResult (<- call method iterator [received]))
      | none =>
          closeIterator iterator
          raise (.typeError "The iterator does not provide a 'throw' method")
  | .return =>
      match <- getMethod iterator "return" with
      | none => return .returns received
      | some method =>
          let result <- requireIterationResult (<- call method iterator [received])
          if <- isDone result then return .returns (<- resultValue result)
          else return .result result

/-- Park a delegating generator so that its next resumption executes the same
instruction again. -/
def suspendDelegating (base : Nat) (result : Value) : Exec σ Flow := do
  update fun machine => machine.modifyTop fun frame =>
    { frame with next := frame.next - 1, delegating := true }
  let frame <- currentFrame
  let size <- ask fun machine => machine.frames.size
  if size != base + 1 then
    stray .outsideCoroutineFrame frame
  update Machine.takeFrame
  return .exit (.yielded result frame true)

/-- Delegate to an iterator until it is done; its result goes into a register. -/
def yieldStar (base : Nat) (destination iteratorRegister : Register) :
    Exec σ Flow := do
  let iterator <- read iteratorRegister
  let frame <- currentFrame
  update fun machine => machine.modifyTop fun frame => { frame with delegation := none }
  let (mode, received) := frame.delegation.getD (.next, .undefined)
  match <- delegate iterator mode received with
  | .returns value => returnValue base value
  | .result result =>
      if <- isDone result then
        write destination (<- resultValue result)
        return .continue
      else suspendDelegating base result

/-- Execute an instruction after which the run simply goes on. -/
def act (template : Template) : Instruction -> Exec σ Unit
  | .loadConst d constant => do write d (<- constantOperand template constant)
  | .loadInt d value => write d (.ofInt value)
  | .loadUndefined d => write d .undefined
  | .loadNull d => write d .null
  | .loadBool d value => write d (.boolean value)
  | .loadHole d => write d .hole
  | .move d source => do write d (<- read source)
  | .binary operator d left right => do
      write d (<- binary operator (<- read left) (<- read right))
  | .unary operator d source => do write d (<- unary operator (<- read source))
  | .jump target => jump target
  | .jumpIfTrue condition target => do
      if (<- read condition).isTruthy then jump target
  | .jumpIfFalse condition target => do
      if !(<- read condition).isTruthy then jump target
  | .jumpIfNullish condition target => do
      if (<- read condition).isNullish then jump target
  | .jumpIfUndefined condition target => do
      if (<- read condition).isUndefined then jump target
  | .jumpIfNotUndefined condition target => do
      if !(<- read condition).isUndefined then jump target
  | .getGlobal d name => do
      let name <- nameOperand template name
      if !(<- hasGlobal name) then raise (notDefined name)
      write d (<- readGlobal name)
  | .getGlobalOrUndefined d name => do
      write d (<- readGlobal (<- nameOperand template name))
  | .setGlobal name source => do
      let name <- nameOperand template name
      assignGlobal name source template.isStrict
  | .defineGlobal name source => do
      let name <- nameOperand template name
      let value <- read source
      defineRaw (<- ask fun machine => machine.intrinsics.global) name (.plain value)
  | .getUpvalue d index => do
      let id <- upvalueOperand index
      write d (<- ask fun machine => machine.cells.upvalue id)
  | .setUpvalue index source => do
      let value <- read source
      let id <- upvalueOperand index
      update fun machine => machine.modifyCells fun cells => cells.setUpvalue id value
  | .closeUpvalues first => update fun machine => machine.detachFrom first
  | .checkHole source name => do
      if (<- read source).isHole then
        let name <- nameOperand template name
        raise (.referenceError
          ("Cannot access '" ++ name ++ "' before initialization"))
  | .throwError kind message => do
      let message <- nameOperand template message
      raise (.fault { kind, message })
  | .createObject d => do write d (.object (<- change Machine.allocateOrdinary))
  | .createArray d start count => do
      write d (<- createArray (<- readRange start count))
  | .arrayPush array value => do
      let id <- readObject array
      pushElement id (<- read value)
  | .spreadIntoArray array iterable => do
      let id <- readObject array
      (<- iterateToList (<- read iterable)).forM (pushElement id)
  | .getNamed d object name cache => do
      let name <- nameOperand template name
      use (.cacheSlot cache)
      write d (<- getNamed (<- read object) name template.id cache)
  | .setNamed object name value cache => do
      let name <- nameOperand template name
      use (.cacheSlot cache)
      setNamed (<- read object) name (<- read value) template cache
  | .getIndexed d object key => do
      write d (<- getIndexed (<- read object) (<- read key))
  | .setIndexed object key value => do
      setIndexed (<- read object) (<- read key) value template.isStrict
  | .deleteNamed d object name => do
      let name <- nameOperand template name
      write d (.boolean (<- deleteProperty (<- read object) name template.isStrict))
  | .deleteIndexed d object key => do
      let target <- read object
      let key <- readKey key
      write d (.boolean (<- deleteProperty target key template.isStrict))
  | .defineField object key value => do
      let id <- readObject object
      let key <- readKey key
      defineField id key (<- read value)
  | .defineAccessor object key getter setter => do
      let id <- readObject object
      let key <- readKey key
      defineAccessor id key (<- read getter) (<- read setter)
  | .copyDataProperties d source => do
      let id <- readObject d
      copyDataProperties id (<- read source)
  | .enumerateKeys d object => do
      write d (<- createArray (<- enumerateKeys (<- read object)))
  | .createClosure d function => do write d (<- createClosure template function)
  | .call d callee receiver arguments count => do
      let callee <- read callee
      let receiver <- read receiver
      callInto d callee receiver (<- readRange arguments count)
  | .callSpread d callee receiver arguments => do
      let callee <- read callee
      let receiver <- read receiver
      callInto d callee receiver (<- argumentElements (<- read arguments))
  | .construct d callee arguments count => do
      let callee <- read callee
      let arguments <- readRange arguments count
      write d (<- perform (.construct callee arguments callee))
  | .constructSpread d callee arguments => do
      let callee <- read callee
      let arguments <- argumentElements (<- read arguments)
      write d (<- perform (.construct callee arguments callee))
  | .loadThis d => do write d (<- currentThis)
  | .loadArguments d => do write d (<- argumentsObject)
  | .loadNewTarget d => do write d (<- currentScope).newTarget
  | .loadCallee d => do
      match (<- currentFrame).function with
      | some id => write d (.function id)
      | none => write d .undefined
  | .createClass constructor heritage => do
      let heritage <- heritage.mapM fun register => read register
      createClass (<- read constructor) heritage
  | .defineMethod target key method kind => do
      let id <- readObject target
      let key <- readKey key
      defineMethod id key (<- read method) kind
  | .setFieldInitializer constructor initializer => do
      let id <- readObject constructor
      setFieldInitializer id (<- readObject initializer)
  | .superCall d arguments count => do
      write d (<- superCall (<- readRange arguments count))
  | .superGet d key => do write d (<- superGet (<- readKey key))
  | .throw value => do raise (.value (<- read value))
  | .enterTry catchTarget finallyTarget =>
      update fun machine => machine.modifyTop fun frame =>
        frame.enterTry catchTarget finallyTarget
  | .exitTry => update fun machine => machine.modifyTop Frame.exitTry
  | .getException d => do
      write d ((<- currentFrame).exception.getD .undefined)
  | .gotoFinally target => gotoFinally target
  | .leave target depth =>
      update fun machine => machine.modifyTop fun frame => frame.leave target depth
  | .getIterator d iterable => do write d (<- getIterator (<- read iterable))
  | .iteratorNext d iterator => do write d (<- iteratorNext (<- read iterator) [])
  | .jumpIfDone result target => do
      if <- isDone (<- read result) then jump target
  | .iteratorValue d result => do write d (<- resultValue (<- read result))
  | .iteratorClose iterator => do closeIterator (<- read iterator)
  | .nop | .return _ | .tailCall .. | .endFinally => return ()
  | .initialYield | .yield .. | .yieldStar .. | .await .. => return ()

/-- Execute one instruction of the innermost frame. -/
def execute (base : Nat) (template : Template) (instruction : Instruction) :
    Exec σ Flow := do
  match instruction with
  | .return value => returnValue base (<- read value)
  | .tailCall callee receiver arguments count =>
      let callee <- read callee
      let receiver <- read receiver
      tailCall base callee receiver (<- readRange arguments count)
  | .endFinally => flow fun machine => machine.endFinally base
  | .initialYield => return .exit (.started (<- suspend base))
  | .yield d value =>
      let value <- read value
      resumeInto d
      return .exit (.yielded value (<- suspend base) false)
  | .yieldStar d iterator => yieldStar base d iterator
  | .await d value =>
      let value <- read value
      resumeInto d
      return .exit (.awaiting value (<- suspend base))
  | instruction =>
      act template instruction
      return .continue

/-- Fetch the next instruction of the innermost frame and move past it; none beyond
the end of the code. -/
def fetch : Exec σ (Option (Template × Instruction)) := do
  match <- ask fun machine => machine.top?.map fun frame => (frame.template, frame.next) with
  | none => raise (.internalError "dispatch without a frame")
  | some (template, next) =>
      match template.instruction? next with
      | none => return none
      | some instruction =>
          jump (next + 1)
          return some (template, instruction)

/-- Execute the next instruction. Code that ends returns undefined. -/
def step (base : Nat) : Exec σ Flow := do
  match <- fetch with
  | some (template, instruction) => execute base template instruction
  | none => returnValue base .undefined

/-- Hand the exception of a step to a handler among the frames above `base`. -/
def handle (base : Nat) (exception : Exception) : Exec σ Unit := do
  let exception <- ask fun machine => machine.attachStack exception
  let handled <- change fun machine =>
    machine.unwind exception (machine.frames.size - base)
  if !handled then raise exception

/-- Carry out the next instruction and what its exception causes; none if the run goes
on. -/
def advance (base : Nat) (next : Exec σ Flow) : Exec σ (Option FrameExit) := do
  match <- attempt next with
  | .ok .continue => return none
  | .ok (.exit exit) => return some exit
  | .error exception =>
      handle base exception
      return none

/-- Execute instructions until the frame at `base` returns or suspends. -/
def runFrames (base : Nat) : Exec σ FrameExit :=
  iterate (fun () => do
    pause
    match <- advance base (step base) with
    | some exit => return .inr exit
    | none => return .inl ()) ()

/-- Begin a dispatch run with a given first step. -/
def runFrom (base : Nat) (first : Exec σ Flow) : Exec σ FrameExit := do
  match <- advance base first with
  | some exit => return exit
  | none => runFrames base

/-- Push a frame as the base of a dispatch run and run it to its return. -/
def runBoundaryFrame (frame : Frame) : Exec σ Value :=
  withNativeDepth do
    checkCallDepth
    let base <- ask fun machine => machine.frames.size
    update fun machine => machine.pushFrame frame
    match <- runFrames base with
    | .returned value => return value
    | .yielded _ frame _ | .awaiting _ frame | .started frame =>
        stray .outsideCoroutine frame

end Exec
end ScriptVM

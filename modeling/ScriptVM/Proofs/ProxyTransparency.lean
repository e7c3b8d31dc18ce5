import ScriptVM.Machine.Reply
import ScriptVM.Proofs.Proxies

/-!
# Transparent proxies

Reading, looking for a key, deleting, defining, listing keys and the prototype link of a
proxy without traps cannot be told from the same operation on the object behind it. An
assignment can, where that object owns the key as a writable property: the object takes the
value, and the proxy refuses it.
-/

namespace ScriptVM

variable {σ α β : Type}

/-! ## Outcomes up to the text of messages -/

/-- Two exceptions differ at most in the text of a message. -/
inductive Exception.Alike : Exception -> Exception -> Prop
  | same (exception : Exception) : Alike exception exception
  | text (fault : Fault) (message : String) :
      Alike (.fault fault) (.fault { fault with message })

/-- Two runs have outcomes alike, where exceptions may differ in the text of a message, and
leave the same machine. -/
inductive Exec.Alike (alike : α -> α -> Prop) :
    EStateM.Result (Stop σ) (Machine σ) α -> EStateM.Result (Stop σ) (Machine σ) α -> Prop
  | answered {left right : α} (machine : Machine σ) :
      alike left right -> Alike alike (.ok left machine) (.ok right machine)
  | thrown {left right : Exception} (machine : Machine σ) :
      left.Alike right ->
      Alike alike (.error (Stop.thrown left) machine) (.error (Stop.thrown right) machine)
  | stopped (stop : Stop σ) (machine : Machine σ) :
      Alike alike (.error stop machine) (.error stop machine)

/-- Two replies differ at most in the text of a message. -/
inductive Reply.Alike : Reply -> Reply -> Prop
  | same (reply : Reply) : Alike reply reply
  | thrown {left right : Exception} : left.Alike right -> Alike (.thrown left) (.thrown right)

namespace Exec

/-! ## Requests -/

namespace Alike

variable {alike : α -> α -> Prop}

theorem refl
    (same : ∀ answer, alike answer answer)
    (result : EStateM.Result (Stop σ) (Machine σ) α) :
    Alike alike result result := by
  cases result with
  | ok answer machine => exact .answered machine (same answer)
  | error stop machine => exact .stopped stop machine

/-- Runs that begin alike and go on alike from any answers that are alike. -/
theorem bind
    {later : β -> β -> Prop}
    {first second : Exec σ α}
    {next other : α -> Exec σ β}
    {env : Env σ}
    {before : Machine σ}
    (begins : Alike alike (first env before) (second env before))
    (goesOn : ∀ left right after, alike left right -> second env before = .ok right after ->
      Alike later (next left env after) (other right env after)) :
    Alike later ((first >>= next) env before) ((second >>= other) env before) := by
  generalize one : first env before = left at begins
  generalize two : second env before = right at begins
  cases begins with
  | answered after same =>
      rw [bind_of_ok _ one, bind_of_ok _ two]
      exact goesOn _ _ after same two
  | thrown after same =>
      rw [bind_of_error _ one, bind_of_error _ two]
      exact .thrown after same
  | stopped stop after =>
      rw [bind_of_error _ one, bind_of_error _ two]
      exact .stopped stop after

/-- Runs that are equal are alike. -/
theorem of_eq {left right : EStateM.Result (Stop σ) (Machine σ) α} (same : left = right) :
    Alike Eq left right := by
  rw [same]
  exact .refl (fun _ => rfl) right

end Alike

/-- Ask for an operation and give the reply. -/
def reply (request : Request) : Exec σ Reply := do
  return request.reply (<- answer request)

/-- The reply to an operation that may throw. -/
theorem ofExcept_attempt
    (toReply : α -> Reply)
    (computation : Exec σ α)
    (env : Env σ)
    (before : Machine σ) :
    (do return Reply.ofExcept toReply (<- Exec.attempt computation) : Exec σ Reply) env before =
      match computation env before with
      | .ok answer after => .ok (toReply answer) after
      | .error (.thrown exception) after => .ok (.thrown exception) after
      | .error stop after => .error stop after := by
  show EStateM.bind (Exec.attempt computation env) _ before = _
  unfold EStateM.bind Exec.attempt
  cases computation env before with
  | ok answer after => rfl
  | error stop after => cases stop <;> rfl

/-- Operations with outcomes alike lead to replies alike. -/
theorem Alike.attempt
    {first second : Exec σ α}
    {env : Env σ}
    {before : Machine σ}
    (alike : Alike Eq (first env before) (second env before))
    (toReply : α -> Reply) :
    Alike Reply.Alike
      ((do return Reply.ofExcept toReply (<- Exec.attempt first)) env before)
      ((do return Reply.ofExcept toReply (<- Exec.attempt second)) env before) := by
  rw [ofExcept_attempt, ofExcept_attempt]
  generalize first env before = left at alike
  generalize second env before = right at alike
  cases alike with
  | answered after same =>
      cases same
      exact .answered after (.same _)
  | thrown after same => exact .answered after (.thrown same)
  | stopped stop after => exact .refl .same _

end Exec

/-- An operation on an object. -/
inductive ObjectOperation
  | get (key : PropertyKey)
  | set (key : PropertyKey) (value : Value) (strict : Bool)
  | has (key : PropertyKey)
  | delete (key : PropertyKey) (strict : Bool)
  | define (key : PropertyKey) (descriptor : Descriptor)
  | ownKeys
  | prototypeOf
  | setPrototypeOf (prototype : Option ObjectId)

namespace ObjectOperation

/-- The request of an operation on an object, which a value names. -/
def on (operation : ObjectOperation) (subject : Value) (id : ObjectId) : Request :=
  match operation with
  | get key => .get subject key
  | set key value strict => .set subject key value strict
  | has key => .has id key
  | delete key strict => .delete subject key strict
  | define key descriptor => .define id key descriptor
  | ownKeys => .ownKeys id
  | prototypeOf => .prototypeOf id
  | setPrototypeOf prototype => .setPrototypeOf id prototype

/-- An operation assigns to a property that an object itself has and that may change. -/
def Overwrites (operation : ObjectOperation) (machine : Machine σ) (id : ObjectId) : Prop :=
  match operation with
  | set key _ _ => machine.OwnsWritable id key
  | _ => False

end ObjectOperation

namespace Exec

variable {subject : Value}

variable {machine : Machine σ} {layers fuel : Nat} {id behind : ObjectId}
  {proxy target : Value}

theorem getProperty_of_object
    (named : subject.objectId? = some id)
    (key : PropertyKey) :
    (getProperty subject key : Exec σ Value) = getWithReceiver id key subject :=
  readBy_of_object named _ key

/-- Throwing for a refused assignment or deletion names the object, and differs in nothing
else. -/
theorem alike_refused (left right : Machine σ -> String) (env : Env σ) (machine : Machine σ) :
    Alike (@Eq α) (typeError left env machine) (typeError right env machine) :=
  .thrown machine (.text (.typeError (left machine)) (right machine))

theorem alike_setProperty
    (enough : layers <= fuel)
    (veils : machine.Veils layers id behind)
    (inherits : machine.InheritsData behind)
    (named : proxy.objectId? = some id)
    (object : target.objectId? = some behind)
    {key : PropertyKey}
    (fresh : ¬ machine.OwnsWritable behind key)
    (value : Value)
    (strict : Bool) :
    Alike Eq (setProperty proxy key value strict (Env.ofFuel fuel) machine)
      (setProperty target key value strict (Env.ofFuel fuel) machine) := by
  have written := setWithReceiver_of_veils enough veils inherits named object fresh value
  unfold setProperty
  rw [ask_bind, ask_bind, named, object]
  show Alike Eq
    ((setWithReceiver id key value proxy >>= _) (Env.ofFuel fuel) machine)
    ((setWithReceiver behind key value target >>= _) (Env.ofFuel fuel) machine)
  refine Alike.bind (.of_eq written) ?_
  rintro done _ after rfl -
  split
  · exact alike_refused _ _ _ after
  · exact .refl (fun _ => rfl) _

theorem deleteProperty_of_object
    (named : subject.objectId? = some id)
    (key : PropertyKey)
    (strict : Bool) :
    (deleteProperty subject key strict : Exec σ Bool) =
      (do
        let deleted <- deleteOwn id key
        if !deleted && strict then
          typeError fun machine =>
            "Cannot delete property '" ++ machine.displayKey key ++ "' of " ++
              machine.display subject
        else return deleted) := by
  cases subject with
  | object other | function other =>
      cases named
      rfl
  | _ => cases named

variable (enough : layers <= fuel)
include enough

theorem alike_deleteProperty
    (veils : machine.Veils layers id behind)
    (named : proxy.objectId? = some id)
    (object : target.objectId? = some behind)
    (key : PropertyKey)
    (strict : Bool) :
    Alike Eq (deleteProperty proxy key strict (Env.ofFuel fuel) machine)
      (deleteProperty target key strict (Env.ofFuel fuel) machine) := by
  have deleted : deleteOwn id key (Env.ofFuel fuel) machine =
      deleteOwn behind key (Env.ofFuel fuel) machine := by
    rw [forwarded (fun id => deleteOwn id key)
      (fun present trapless named => deleteOwn_of_proxy present trapless named key) veils enough]
    exact deleteOwn_of_bare veils.bare_behind key _ _
  rw [deleteProperty_of_object named, deleteProperty_of_object object]
  refine Alike.bind (.of_eq deleted) ?_
  rintro done _ after rfl -
  split
  · exact alike_refused _ _ _ after
  · exact .refl (fun _ => rfl) _

theorem getProperty_of_veils
    (veils : machine.Veils layers id behind)
    (inherits : machine.InheritsData behind)
    (named : proxy.objectId? = some id)
    (object : target.objectId? = some behind)
    (key : PropertyKey) :
    getProperty proxy key (Env.ofFuel fuel) machine =
      getProperty target key (Env.ofFuel fuel) machine := by
  rw [getProperty_of_object named, getProperty_of_object object,
    forwarded (fun id => getWithReceiver id key proxy)
      (fun present trapless named => getWithReceiver_of_proxy present trapless named key proxy)
      veils enough]
  exact getWithReceiver_of_data inherits key proxy target _ _

theorem hasProperty_of_veils
    (veils : machine.Veils layers id behind)
    (inherits : machine.InheritsData behind)
    (key : PropertyKey) :
    hasProperty id key (Env.ofFuel fuel) machine =
      hasProperty behind key (Env.ofFuel fuel) machine := by
  rw [forwarded (fun id => hasProperty id key)
    (fun present trapless named => hasProperty_of_proxy present trapless named key) veils enough]
  exact hasProperty_of_data inherits key _ _

theorem getPrototypeOf_of_veils
    (veils : machine.Veils layers id behind) :
    getPrototypeOf id (Env.ofFuel fuel) machine =
      getPrototypeOf behind (Env.ofFuel fuel) machine := by
  rw [forwarded getPrototypeOf getPrototypeOf_of_proxy veils enough,
    getPrototypeOf_of_bare veils.bare_behind, getPrototypeOf_of_bare veils.bare_behind]

/-- An operation on a proxy without traps has a reply like that of the operation on the
object behind it, and leaves the same machine, unless it overwrites a property. -/
theorem alike_reply
    (veils : machine.Veils layers id behind)
    (inherits : machine.InheritsData behind)
    (named : proxy.objectId? = some id)
    (object : target.objectId? = some behind)
    (operation : ObjectOperation)
    (fresh : ¬ operation.Overwrites machine behind) :
    Alike Reply.Alike (reply (operation.on proxy id) (Env.ofFuel fuel) machine)
      (reply (operation.on target behind) (Env.ofFuel fuel) machine) := by
  cases operation with
  | get key =>
      exact Alike.attempt (.of_eq (getProperty_of_veils enough veils inherits named object key)) _
  | set key value strict =>
      exact Alike.attempt
        (alike_setProperty enough veils inherits named object fresh value strict) _
  | has key => exact Alike.attempt (.of_eq (hasProperty_of_veils enough veils inherits key)) _
  | delete key strict =>
      exact Alike.attempt (alike_deleteProperty enough veils named object key strict) _
  | define key descriptor =>
      exact Alike.attempt (.of_eq (defineOwnProperty_of_veils veils key descriptor _)) _
  | ownKeys =>
      have keys : machine.ownKeys id = machine.ownKeys behind := by
        unfold Machine.ownKeys
        rw [veils.behindProxies?, (Machine.Veils.bare veils.bare_behind).behindProxies?]
      show Alike Reply.Alike (.ok (Reply.keys (machine.ownKeys id)) machine)
        (.ok (Reply.keys (machine.ownKeys behind)) machine)
      rw [keys]
      exact .refl .same _
  | prototypeOf => exact Alike.attempt (.of_eq (getPrototypeOf_of_veils enough veils)) _
  | setPrototypeOf prototype =>
      have linked : machine.setPrototypeOf id prototype =
          machine.setPrototypeOf behind prototype := by
        unfold Machine.setPrototypeOf
        rw [veils.behindProxies?, (Machine.Veils.bare veils.bare_behind).behindProxies?]
      refine Alike.attempt (.of_eq ?_) _
      unfold setPrototypeOf changeOrRaise
      rw [bind_of_ok _ (change_of_unwatched (fun _ => rfl) _ machine),
        bind_of_ok _ (change_of_unwatched (fun _ => rfl) _ machine), linked]

/-! ## Sequences of operations -/

/-- Ask for operations one after the other and give the replies. -/
def replies : List Request -> Exec σ (List Reply)
  | [] => return []
  | request :: rest => do
      let first <- reply request
      return first :: (<- replies rest)

/-- Wherever one of the operations finds the object behind a proxy, there are only proxies
without traps before it, it inherits only data, and the operation does not overwrite a
property of it. -/
def Undisturbed
    (fuel layers : Nat)
    (id behind : ObjectId)
    (target : Value) :
    List ObjectOperation -> Machine σ -> Prop
  | [], _ => True
  | operation :: rest, machine =>
      machine.Veils layers id behind ∧ machine.InheritsData behind ∧
        ¬ operation.Overwrites machine behind ∧
        ∀ answer after,
          reply (operation.on target behind) (Env.ofFuel fuel) machine = .ok answer after ->
            Undisturbed fuel layers id behind target rest after

end Exec

/-- A sequence of operations on a proxy without traps has replies like those of the same
operations on the object behind it, and leaves the same machine, as long as none of them
overwrites a property. -/
theorem trapless_proxies_transparent
    {fuel layers : Nat}
    {id behind : ObjectId}
    {proxy target : Value}
    (enough : layers <= fuel)
    (named : proxy.objectId? = some id)
    (object : target.objectId? = some behind)
    (operations : List ObjectOperation)
    (machine : Machine σ)
    (undisturbed : Exec.Undisturbed fuel layers id behind target operations machine) :
    Exec.Alike (List.Forall₂ Reply.Alike)
      (Exec.replies (operations.map fun operation => operation.on proxy id) (Env.ofFuel fuel)
        machine)
      (Exec.replies (operations.map fun operation => operation.on target behind)
        (Env.ofFuel fuel) machine) := by
  induction operations generalizing machine with
  | nil => exact .answered machine .nil
  | cons operation rest step =>
      obtain ⟨veils, inherits, fresh, later⟩ := undisturbed
      have first := Exec.alike_reply enough veils inherits named object operation fresh
      simp only [List.map_cons, Exec.replies]
      refine first.bind fun left right after same replied => ?_
      refine (step after (later right after replied)).bind fun lefts rights final others _ => ?_
      exact .answered final (.cons same others)

/-! ## A proxy over one object -/

namespace Machine

/-- An object has all of its properties in its table, and only data properties there. -/
def TableOfData (machine : Machine σ) (id : ObjectId) : Prop :=
  ∃ object ∈ machine.heap.get? id, object.payload.isExotic = false ∧
    ∀ entry ∈ object.properties.entries.toList, entry.2.isData = true

instance decidableTableOfData (machine : Machine σ) (id : ObjectId) :
    Decidable (machine.TableOfData id) := by
  unfold TableOfData
  infer_instance

variable {machine : Machine σ} {id : ObjectId}

theorem TableOfData.plain (table : machine.TableOfData id) : machine.heap.Plain id := by
  obtain ⟨object, live, ordinary, _⟩ := table
  exact ⟨object.payload, by simp [Heap.payload?, Option.mem_def.1 live], ordinary⟩

theorem TableOfData.holdsData (table : machine.TableOfData id) : machine.HoldsData id where
  bare := by
    obtain ⟨kind, present, ordinary⟩ := table.plain
    unfold isProxy kind?
    rw [present]
    cases kind with
    | proxy => cases ordinary
    | _ => rfl
  data key property own := by
    rw [ordinaryOwnProperty?_of_plain table.plain] at own
    obtain ⟨object, live, _, data⟩ := table
    unfold Heap.getOwn? at own
    rw [Option.mem_def.1 live, Option.bind_some] at own
    obtain ⟨⟨offset, _⟩, found, rfl⟩ := Option.map_eq_some_iff.1 own
    have stands := PropertyTable.at?_of_lookup? found
    exact data _ (Array.mem_toList_iff.2 (Array.mem_of_getElem? stands))

end Machine

/-- The target and the handler of a proxy. -/
def ObjectKind.proxied? : ObjectKind -> Option (ObjectId × ObjectId)
  | .proxy target handler => do return (<- target.objectId?, <- handler.objectId?)
  | _ => none

/-- A handler without traps for an object with one property. -/
def proxyProgram : HostProgram Unit :=
  .request .createObject fun target =>
    .request (.set target "a" (.boolean true) true) fun _ =>
      .request .createObject fun handler =>
        .request (.getGlobal "Proxy") fun constructor =>
          .request (.construct (constructor.getD .undefined) [target, handler] none) fun _ =>
            .finish (.ok .undefined)

/-- The run of the program until there is a proxy. -/
def proxyRun : EStateM.Result (Stop Unit) (Machine Unit) Value :=
  Exec.runProgram proxyProgram
    (Env.watched 20 fun sight => sight.machine.heap.objects.any fun object =>
      (object.map fun object => object.payload.isProxy).getD false)
    (Builtins.newMachine {} ())

/-- What the run comes to: a proxy without traps and without properties of its own over an
object that has only data. -/
theorem proxyRun_veils :
    ∃ sight ∈ Sight.ofRun? proxyRun, ∃ id behind : ObjectId,
      sight.machine.Veils 1 id behind ∧ sight.machine.InheritsData behind ∧
        sight.machine.heap.Plain behind ∧ sight.machine.heap.getOwn? id "a" = none ∧
        sight.machine.heap.getOwn? behind "a" = some (.plain (.boolean true)) ∧
        sight.machine.heap.getOwn? behind "b" = none := by
  have seen : ∃ sight ∈ Sight.ofRun? proxyRun,
      let id : ObjectId := ⟨sight.machine.heap.objects.size - 1⟩
      ∃ kind ∈ sight.machine.kind? id, ∃ parts ∈ kind.proxied?,
        (∀ name ∈ propertyTraps, sight.machine.lookup (.string name)
          sight.machine.config.maxPrototypeChain parts.2 = .absent) ∧
        sight.machine.TableOfData parts.1 ∧
        (∃ root ∈ sight.machine.heap.prototypeOf parts.1,
          sight.machine.TableOfData root ∧ sight.machine.heap.prototypeOf root = none) ∧
        sight.machine.heap.getOwn? id "a" = none ∧
        sight.machine.heap.getOwn? parts.1 "a" = some (.plain (.boolean true)) ∧
        sight.machine.heap.getOwn? parts.1 "b" = none := by
    decide +kernel
  obtain ⟨sight, interrupted, kind, present, ⟨behind, handler⟩, parts, trapless, table,
    ⟨root, link, rootTable, last⟩, bare, own, free⟩ := seen
  refine ⟨sight, interrupted, _, behind, ?_, ?_, table.plain, bare, own, free⟩
  · cases kind with
    | proxy target held =>
        obtain ⟨shown, named, rest⟩ := Option.bind_eq_some_iff.1 parts
        obtain ⟨keeper, held, same⟩ := Option.bind_eq_some_iff.1 rest
        cases same
        exact .proxy present ⟨handler, held, trapless⟩ named (.bare table.holdsData.bare)
    | _ => cases parts
  · refine .of_parent table.holdsData fun next parent => ?_
    cases link.symm.trans parent
    refine .of_parent rootTable.holdsData fun further beyond => ?_
    cases last.symm.trans beyond

/-- An assignment of a new key behaves alike on the proxy and on the object behind it. -/
theorem trapless_proxies_transparent_newKey :
    ∃ sight ∈ Sight.ofRun? proxyRun, ∃ id behind : ObjectId,
      Exec.Alike (List.Forall₂ Reply.Alike)
        (Exec.replies [.ownKeys id, .set (.object id) "b" .null true] (Env.ofFuel 5)
          sight.machine)
        (Exec.replies [.ownKeys behind, .set (.object behind) "b" .null true] (Env.ofFuel 5)
          sight.machine) := by
  obtain ⟨sight, interrupted, id, behind, veils, inherits, plain, bare, own, free⟩ :=
    proxyRun_veils
  refine ⟨sight, interrupted, id, behind, ?_⟩
  have undisturbed : Exec.Undisturbed 5 1 id behind (.object behind)
      [.ownKeys, .set "b" .null true] sight.machine := by
    refine ⟨veils, inherits, not_false, fun answer after replied => ?_⟩
    have listed : Exec.reply (.ownKeys behind) (Env.ofFuel 5) sight.machine =
        .ok (.keys (sight.machine.ownKeys behind)) sight.machine := rfl
    cases listed.symm.trans replied
    refine ⟨veils, inherits, ?_, fun _ _ _ => trivial⟩
    rintro ⟨property, owned, -⟩
    rw [Machine.ordinaryOwnProperty?_of_plain plain, free] at owned
    cases owned
  exact trapless_proxies_transparent (by decide) rfl rfl _ _ undisturbed

/-- An assignment that the object takes is refused by the proxy, though the handler has no
trap: the proxy looks for a property of its own to overwrite. -/
theorem trapless_proxy_refuses_overwriting :
    ∃ sight ∈ Sight.ofRun? proxyRun, ∃ id behind : ObjectId,
      sight.machine.Veils 1 id behind ∧ sight.machine.InheritsData behind ∧
        ¬ Exec.Alike (List.Forall₂ Reply.Alike)
          (Exec.replies [.set (.object id) "a" .null true] (Env.ofFuel 5) sight.machine)
          (Exec.replies [.set (.object behind) "a" .null true] (Env.ofFuel 5)
            sight.machine) := by
  obtain ⟨sight, interrupted, id, behind, veils, inherits, plain, bare, own, free⟩ :=
    proxyRun_veils
  refine ⟨sight, interrupted, id, behind, veils, inherits, fun alike => ?_⟩
  have unwatched : ∀ seen : Sight Unit, (Env.ofFuel 5).watch seen = false := fun _ => rfl
  have owns : sight.machine.OwnsWritable behind "a" :=
    ⟨_, (Machine.ordinaryOwnProperty?_of_plain plain "a").trans own, rfl⟩
  have refused : Exec.setWithReceiver id "a" .null (.object id) (Env.ofFuel 5) sight.machine =
      .ok false sight.machine :=
    Exec.setWithReceiver_of_ownsWritable (by decide) veils rfl owns bare .null
  obtain ⟨exception, raised⟩ : ∃ exception,
      Exec.setProperty (.object id) "a" .null true (Env.ofFuel 5) sight.machine =
        .error (.thrown exception) sight.machine :=
    ⟨_, Exec.bind_of_ok _ refused⟩
  have thrown : Exec.reply (.set (.object id) "a" .null true) (Env.ofFuel 5) sight.machine =
      .ok (.thrown exception) sight.machine := by
    refine (Exec.ofExcept_attempt Reply.unit _ _ _).trans ?_
    rw [raised]
  obtain ⟨after, taken⟩ : ∃ after,
      Exec.setProperty (.object behind) "a" .null true (Env.ofFuel 5) sight.machine =
        .ok () after :=
    ⟨_, Exec.setProperty_of_writable unwatched rfl plain own rfl .null true⟩
  have written : Exec.reply (.set (.object behind) "a" .null true) (Env.ofFuel 5)
      sight.machine = .ok (.value .undefined) after := by
    refine (Exec.ofExcept_attempt Reply.unit _ _ _).trans ?_
    rw [taken]
    rfl
  simp only [Exec.replies] at alike
  rw [Exec.bind_of_ok _ thrown, Exec.bind_of_ok _ written] at alike
  cases alike with
  | answered _ replies =>
      cases replies with
      | cons first _ => cases first

end ScriptVM

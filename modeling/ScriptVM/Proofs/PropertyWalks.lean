import ScriptVM.Proofs.ProxyTransparency
import ScriptVM.Proofs.WalkSteps

/-!
# Property walks come to an end

A walk that calls for no function and does not come back to itself ends: with an answer, or
because a chain of prototypes is too long. An assignment to an array may besides be thrown back,
for an index or a length that is out of bounds. What keeps a walk from its end is a proxy that
leads back to it. The bound on chains of prototypes should end such a walk as well, but every
search of a handler for a trap counts anew, so that it goes on without bound. This is a defect.
-/

namespace ScriptVM

variable {σ α : Type}

/-! ## Whole walks -/

namespace Exec

variable {machine : Machine σ} {purpose : Purpose} {key : PropertyKey} {id : ObjectId}

/-- Handlers are asked for traps in vain, and not for ever. -/
theorem terminates_of_trap
    (wraps : machine.WrapsObjects)
    {query : Query}
    (unaided : machine.Unaided query)
    (traps : query.purpose = .trap)
    (receiver : Value) :
    (getWithReceiver query.object query.key receiver).Terminates machine
      (machine.Answered (Purpose.Finds .trap)) := by
  have accessible := unaided.accessible
  induction accessible generalizing receiver with
  | intro query _ step =>
      obtain ⟨purpose, id, key⟩ := query
      cases traps
      refine (walks_getWithReceiver machine (.inr rfl) key receiver).step wraps
        unaided.passive_self (fun keeper handler consults => ?_) fun next consults => ?_
      · exact step _ consults (unaided.step consults) rfl handler
      · exact step _ consults (unaided.step consults) rfl receiver

/-- A walk ends, however many proxies it passes. -/
theorem Walks.terminates
    {walk : ObjectId -> Exec σ α}
    {good : EStateM.Result (Stop σ) (Machine σ) α -> Prop}
    (walks : Walks machine purpose key walk good)
    (wraps : machine.WrapsObjects)
    (unaided : machine.Unaided ⟨purpose, id, key⟩) :
    (walk id).Terminates machine good := by
  generalize start : Query.mk purpose id key = query at unaided
  have accessible := unaided.accessible
  induction accessible generalizing id with
  | intro query _ step =>
      subst start
      exact walks.step wraps unaided.passive_self
        (fun keeper handler consults =>
          terminates_of_trap wraps (unaided.step consults) rfl handler)
        fun next consults => step _ consults rfl (unaided.step consults)

end Exec

/-- Whatever an embedder has come across: reading a property, looking for it and assigning to
it end, as long as the walk for it calls for no function. That it must not lead back to itself
either is due to the defect: it would escape the bound on chains of prototypes. Left out are
assignments that convert an object to the length of an array, which is up to its methods. -/
theorem property_walks_terminate
    {sight : Sight σ}
    {config : Config}
    {world : σ}
    (seen : sight.SeenWithout (fun _ => False) (Builtins.newMachine config world))
    (id : ObjectId)
    (key : PropertyKey)
    (value receiver : Value) :
    (sight.machine.Unaided ⟨.get, id, key⟩ ->
        (Exec.getWithReceiver id key receiver).Terminates sight.machine
          (sight.machine.Answered fun _ => True)) ∧
      (sight.machine.Unaided ⟨.has, id, key⟩ ->
        (Exec.hasProperty id key).Terminates sight.machine
          (sight.machine.Answered fun _ => True)) ∧
      (sight.machine.Unaided ⟨.set, id, key⟩ -> ¬ sight.machine.Converts key value receiver ->
        (Exec.setWithReceiver id key value receiver).Terminates sight.machine
          (sight.machine.Assigned key value receiver)) := by
  have wraps := seen.wrapsObjects
  refine ⟨fun unaided => ?_, fun unaided => ?_, fun unaided plain => ?_⟩
  · have reads := Exec.walks_getWithReceiver sight.machine (.inl rfl) key receiver
    exact (reads.terminates wraps unaided).mono fun _ answered => answered.any
  · exact (Exec.walks_hasProperty sight.machine key).terminates wraps unaided
  · have assigns := Exec.walks_setWithReceiver key value receiver
      (Exec.terminates_assignOwn plain) (.answer false sight.machine) .chainOverflow
    exact assigns.terminates wraps unaided

/-! ## Proxies without traps -/

/-- The walk through proxies without traps to an object that inherits only data calls for no
function. -/
theorem Machine.Veils.unaided
    {machine : Machine σ}
    {layers : Nat}
    {id behind : ObjectId}
    (veils : machine.Veils layers id behind)
    (inherits : machine.InheritsData behind)
    {purpose : Purpose}
    (direct : purpose ≠ .trap)
    (key : PropertyKey) :
    machine.Unaided ⟨purpose, id, key⟩ := by
  induction veils with
  | @bare id bare =>
      have walked : (∃ property, machine.arrival ⟨purpose, id, key⟩ = .found property ∧
          property.isData = true) ∨ machine.arrival ⟨purpose, id, key⟩ = .absent ∨
            machine.arrival ⟨purpose, id, key⟩ = .tooLong :=
        inherits.lookup key (machine.reach purpose)
      rcases walked with ⟨property, found, data⟩ | absent | long
      · refine .of_found found ?_
        unfold Property.isData at data
        cases slot : property.slot with
        | data value writable =>
            cases purpose with
            | trap => exact absurd rfl direct
            | _ => trivial
        | accessor getter setter =>
            rw [slot] at data
            cases data
      · exact .of_absent absent
      · exact .of_tooLong long
  | @proxy layers id next behind target handler present trapless named deeper step =>
      obtain ⟨limit, chain⟩ := Exec.chain_of_trapless trapless
      have arrives : machine.arrival ⟨purpose, id, key⟩ = .atProxy target handler := by
        obtain ⟨limit, reach⟩ : ∃ limit, machine.reach purpose = limit + 1 := by
          cases purpose with
          | set => exact ⟨_, rfl⟩
          | get | has | trap => exact ⟨limit, chain⟩
        unfold Machine.arrival
        rw [reach]
        exact Machine.lookup_of_proxy present key limit
      refine .of_consults (fun property found => by cases arrives.symm.trans found)
        fun later consults => ?_
      cases consults with
      | handler other held =>
          cases arrives.symm.trans other
          obtain ⟨keeper, same, missing⟩ := trapless
          cases held.symm.trans same
          exact .of_absent (missing purpose.trapName (by cases purpose <;> decide))
      | target other _ same =>
          cases arrives.symm.trans other
          cases named.symm.trans same
          exact step inherits

/-- Through the proxy of the program, a property is read, found and assigned to. -/
theorem property_walks_terminate_proxyRun :
    ∃ sight ∈ Sight.ofRun? proxyRun, ∃ id : ObjectId, sight.machine.isProxy id = true ∧
      (Exec.getWithReceiver id "a" (.object id)).Terminates sight.machine
        (sight.machine.Answered fun _ => True) ∧
      (Exec.hasProperty id "a").Terminates sight.machine
        (sight.machine.Answered fun _ => True) ∧
      (Exec.setWithReceiver id "a" .null (.object id)).Terminates sight.machine
        (sight.machine.Assigned "a" .null (.object id)) := by
  obtain ⟨sight, interrupted, id, behind, veils, inherits, -⟩ := proxyRun_veils
  have seen : sight.SeenWithout (fun _ => False) (Builtins.newMachine {} ()) :=
    Sight.seenWithout_of_ofRun? (HostProgram.avoids_of_forall (fun _ => not_false) _) interrupted
  have proxy : sight.machine.isProxy id = true := by
    cases veils with
    | proxy present =>
        unfold Machine.isProxy
        rw [present]
        rfl
  obtain ⟨reads, looks, assigns⟩ :=
    property_walks_terminate seen id "a" .null (.object id)
  exact ⟨sight, interrupted, id, proxy, reads (veils.unaided inherits (by decide) "a"),
    looks (veils.unaided inherits (by decide) "a"),
    assigns (veils.unaided inherits (by decide) "a") fun converts => by cases converts.2.1⟩

/-! ## Walks that stray -/

/-- The walk of a handler for the trap of reads arrives at a proxy that it handles itself. -/
def Machine.HandlesItself (machine : Machine σ) (id : ObjectId) : Prop :=
  ∃ target handler, machine.arrival ⟨.get, id, "get"⟩ = .atProxy target handler ∧
    handler.objectId? = some id

namespace Exec

variable {machine : Machine σ} {id : ObjectId} {target handler receiver : Value} {key : PropertyKey}

theorem getWithReceiver_of_atProxy
    (arrives : machine.arrival ⟨.get, id, key⟩ = .atProxy target handler)
    (receiver : Value)
    (env : Env σ) :
    getWithReceiver id key receiver env machine =
      proxyGet target handler key receiver env machine := by
  unfold getWithReceiver
  rw [ask_bind, show machine.lookup key machine.config.maxPrototypeChain id = _ from arrives]

/-- Such a handler is asked for the trap for ever. -/
theorem trap?_of_own_handler
    (arrives : machine.arrival ⟨.get, id, "get"⟩ = .atProxy target handler)
    (held : handler.objectId? = some id)
    (fuel : Nat) :
    trap? handler "get" (Env.ofFuel fuel) machine = .error .outOfFuel machine := by
  have asked : ∀ env : Env σ, trap? handler "get" env machine =
      (perform (.get id "get" handler) >>= asMethod) env machine := by
    intro env
    unfold trap?
    rw [readBy_of_object held]
  induction fuel with
  | zero => exact (asked _).trans (bind_of_error _ rfl)
  | succ fuel step =>
      refine (asked _).trans (bind_of_error _ ?_)
      rw [perform_ofFuel]
      refine (getWithReceiver_of_atProxy arrives handler _).trans ?_
      exact bind_of_error _ step

theorem getWithReceiver_of_handlesItself
    (handles : machine.HandlesItself id)
    (receiver : Value)
    (fuel : Nat) :
    getWithReceiver id "get" receiver (Env.ofFuel fuel) machine = .error .outOfFuel machine := by
  obtain ⟨target, handler, arrives, held⟩ := handles
  refine (getWithReceiver_of_atProxy arrives receiver _).trans ?_
  exact bind_of_error _ (trap?_of_own_handler arrives held fuel)

/-- No function is called for on the way. -/
theorem passive_of_handlesItself
    (handles : machine.HandlesItself id)
    {query : Query}
    (path : Relation.ReflTransGen machine.Consults ⟨.get, id, "get"⟩ query) :
    machine.Passive query := by
  obtain ⟨target, handler, arrives, held⟩ := handles
  have returns : query.object = id ∧ query.key = "get" ∧
      (query.purpose = .get ∨ query.purpose = .trap) := by
    induction path with
    | refl => exact ⟨rfl, rfl, .inl rfl⟩
    | @tail query later _ consults step =>
        obtain ⟨purpose, object, key⟩ := query
        obtain ⟨rfl, rfl, reads⟩ := step
        have trapName : purpose.trapName = "get" := by
          rcases reads with rfl | rfl <;> rfl
        have same : machine.arrival ⟨purpose, object, "get"⟩ = .atProxy target handler := by
          rcases reads with rfl | rfl <;> exact arrives
        cases consults with
        | handler other keeps =>
            cases same.symm.trans other
            cases held.symm.trans keeps
            exact ⟨rfl, congrArg PropertyKey.string trapName, .inr rfl⟩
        | @target _ _ _ fuel other missing _ =>
            cases same.symm.trans other
            rw [trapName, trap?_of_own_handler arrives held fuel] at missing
            cases missing
  obtain ⟨purpose, object, key⟩ := query
  obtain ⟨rfl, rfl, reads⟩ := returns
  intro property found
  rcases reads with rfl | rfl <;> cases arrives.symm.trans found

/-- The elements of an array stay below a bound. -/
theorem setWithReceiver_beyond_bound
    {index size : Nat}
    (absent : machine.arrival ⟨.set, id, key⟩ = .absent)
    (array : machine.arrayStatus? id = some (size, false))
    (extensible : machine.heap.isExtensible id = true)
    (indexed : key.arrayIndex? = some index)
    (beyond : max size Machine.maxArrayLength <= index)
    (named : receiver.objectId? = some id)
    (value : Value)
    (fuel : Nat) :
    setWithReceiver id key value receiver (Env.ofFuel fuel) machine =
      .error (.thrown Machine.invalidLength) machine := by
  have bare : machine.isProxy id = false := Machine.isProxy_of_array array
  have missing : machine.getOwnProperty? id key = none := by
    unfold Machine.getOwnProperty?
    rw [Machine.behindProxies?_of_bare bare]
    exact Machine.ordinaryOwnProperty?_of_absent absent
  have refused : machine.setElement id index value = (.error Machine.invalidLength, machine) := by
    unfold Machine.setElement
    rw [array]
    dsimp only
    rw [if_neg (by omega), if_neg (by simp [extensible]), if_pos (by omega)]
  have assigned : setWithReceiver id key value receiver (Env.ofFuel fuel) machine =
      assignOwn receiver key value (Env.ofFuel fuel) machine := by
    rw [setWithReceiver_eq, absent]
    rfl
  rw [assigned, assignOwn_of_missing named missing,
    createDataProperty_of_element (Machine.behindProxies?_of_bare bare) array indexed]
  unfold changeOrRaise
  rw [bind_of_ok _ (change_of_unwatched (fun _ => rfl) _ machine), refused]
  rfl

end Exec

/-- A program that makes an array and a proxy, and lets the handler inherit from the proxy. -/
def strayingProgram : HostProgram Unit :=
  .request (.createArray []) fun _ =>
    .request .createObject fun target =>
      .request .createObject fun handler =>
        .request (.getGlobal "Proxy") fun constructor =>
          .request (.construct (constructor.getD .undefined) [target, handler] none) fun made =>
            let proxy := made.toOption.bind Value.objectId?
            .request (.setPrototypeOf (handler.objectId?.getD ⟨0⟩) proxy) fun _ =>
              .finish (.ok .undefined)

/-- The run of the program until the handler inherits from the proxy. -/
def strayingRun : EStateM.Result (Stop Unit) (Machine Unit) Value :=
  Exec.runProgram strayingProgram
    (Env.watched 20 fun sight =>
      sight.machine.heap.prototypeOf ⟨sight.machine.heap.objects.size - 2⟩ ==
        some ⟨sight.machine.heap.objects.size - 1⟩)
    (Builtins.newMachine {} ())

/-- An assignment beyond the bound of arrays ends with an exception of its own, and reading
from a handler that inherits from its proxy does not end, though neither calls for a function. -/
theorem property_walks_stray :
    ∃ sight : Sight Unit,
      sight.SeenWithout (fun _ => False) (Builtins.newMachine {} ()) ∧
      (∃ array key, sight.machine.Unaided ⟨.set, array, key⟩ ∧
        ¬ (Exec.setWithReceiver array key .null (.object array)).Terminates sight.machine
          (sight.machine.Answered fun _ => True)) ∧
      ∃ handler key,
        (∀ query, Relation.ReflTransGen sight.machine.Consults ⟨.get, handler, key⟩ query ->
          sight.machine.Passive query) ∧
        ¬ (Exec.getWithReceiver handler key (.object handler)).Terminates sight.machine
          (sight.machine.Answered fun _ => True) := by
  have seen : ∃ sight ∈ Sight.ofRun? strayingRun,
      let array : ObjectId := ⟨sight.machine.heap.objects.size - 4⟩
      let handler : ObjectId := ⟨sight.machine.heap.objects.size - 2⟩
      sight.machine.arrival ⟨.set, array, "16777216"⟩ = .absent ∧
        sight.machine.arrayStatus? array = some (0, false) ∧
        sight.machine.heap.isExtensible array = true ∧
        sight.machine.arrival ⟨.get, handler, "get"⟩ =
          .atProxy (.object ⟨sight.machine.heap.objects.size - 3⟩) (.object handler) := by
    decide +kernel
  obtain ⟨sight, interrupted, absent, array, extensible, arrives⟩ := seen
  have indexed : PropertyKey.arrayIndex? "16777216" = some 16777216 := by
    decide +kernel
  have handles : sight.machine.HandlesItself ⟨sight.machine.heap.objects.size - 2⟩ :=
    ⟨_, _, arrives, rfl⟩
  refine ⟨sight, Sight.seenWithout_of_ofRun? (HostProgram.avoids_of_forall (fun _ => not_false) _)
    interrupted, ⟨_, "16777216", .of_absent absent, fun ends => ?_⟩,
    _, "get", fun query => Exec.passive_of_handlesItself handles, fun ends => ?_⟩
  · have thrown := ends.good_of_forall
      (Exec.setWithReceiver_beyond_bound absent array extensible indexed (by decide) rfl .null)
    generalize invalid : Machine.invalidLength = exception at thrown
    cases thrown
    exact absurd invalid (by decide)
  · cases ends.good_of_forall (Exec.getWithReceiver_of_handlesItself handles _)

end ScriptVM

import ScriptVM.Proofs.StoredProperties
import ScriptVM.Proofs.Sessions

/-!
# Chains of prototypes and their lengths

The chain of prototypes from any object of a new machine ends, and every operation keeps it that
way or refuses, except for class definitions: they link a constructor to the class that it
extends without a look at the chain from there. So the first cycle that a session makes, if any,
is one that a class definition closes.

Reading a property, looking for it, assigning to it and enumerating keys walk the same chains of
prototypes under the same bound. A walk for a key that no object of the chain owns passes all of
them, so it tells for which chains the bound is exceeded: an assignment takes a chain that is one
object longer than the others do.
-/

namespace ScriptVM

variable {σ : Type} {collects : Bool}

namespace Machine

variable {machine : Machine σ}

theorem ChainEnds.not_own_prototype
    {id : ObjectId}
    (ends : machine.ChainEnds id)
    (bare : machine.isProxy id = false) :
    machine.heap.prototypeOf id ≠ some id := by
  induction ends with
  | proxy proxy => exact absurd (bare.symm.trans proxy) Bool.false_ne_true
  | link _ step => exact fun same => step _ same bare same

/-- The chain of prototypes from an object ends within a number of steps. -/
def endsWithin (machine : Machine σ) : Nat -> ObjectId -> Bool
  | 0, _ => false
  | steps + 1, id =>
      machine.isProxy id || match machine.heap.prototypeOf id with
        | none => true
        | some prototype => machine.endsWithin steps prototype

theorem ChainEnds.of_endsWithin
    {steps : Nat}
    {id : ObjectId}
    (within : machine.endsWithin steps id = true) :
    machine.ChainEnds id := by
  induction steps generalizing id with
  | zero => cases within
  | succ steps step =>
      unfold endsWithin at within
      rcases Bool.or_eq_true_iff.1 within with proxy | rest
      · exact .proxy proxy
      · refine .link fun prototype linked => step ?_
        rw [linked] at rest
        exact rest

/-- Some chain of prototypes does not end within a number of steps. -/
def hasLongChain (machine : Machine σ) (steps : Nat) : Bool :=
  !(List.range machine.heap.objects.size).all fun index => machine.endsWithin steps ⟨index⟩

theorem acyclic_of_hasLongChain {steps : Nat} (short : machine.hasLongChain steps = false) :
    machine.Acyclic := by
  intro id
  by_cases inside : id.index < machine.heap.objects.size
  · have all := Bool.not_eq_eq_eq_not.1 short
    exact .of_endsWithin (List.all_eq_true.1 all _ (List.mem_range.2 inside))
  · refine .link fun prototype linked => ?_
    obtain ⟨object, live, _⟩ := Option.bind_eq_some_iff.1 linked
    obtain ⟨within, _⟩ := Array.getElem?_eq_some_iff.1 (Option.join_eq_some_iff.1 live)
    exact absurd within inside

end Machine

/-- The watch that looks for long chains picks every machine with a cycle of prototypes. -/
theorem heeds_hasLongChain (steps : Nat) :
    Heeds fun sight : Sight σ => sight.machine.hasLongChain steps := by
  intro sight cyclic
  by_contra unpicked
  exact cyclic (Machine.acyclic_of_hasLongChain (Bool.eq_false_iff.2 unpicked))

/-- In the session of a careful embedder, under a watch that picks every machine with a cycle of
prototypes, all chains end in every machine that the session leaves, and in every machine that
the watch picks unless a class definition has just linked a constructor to a class that inherits
from that constructor. -/
theorem prototype_chains_end
    {program : HostProgram σ}
    (careful : program.Careful collects [])
    {watch : Sight σ -> Bool}
    (heeds : Heeds watch)
    {config : Config}
    {world : σ}
    {fuel : Nat}
    {result : EStateM.Result (Stop σ) (Machine σ) Value}
    (ran : Exec.runProgram program (Env.watched fuel watch) (Builtins.newMachine config world) =
      result) :
    match result with
    | .ok _ after => after.Acyclic
    | .error (.thrown _) after => after.Acyclic
    | .error .outOfFuel _ => True
    | .error (.interrupted sight) _ => sight.machine.Acyclic ∨ sight.machine.ClosedByClass := by
  have acyclic := (Builtins.newMachine_settles collects config world).2
  have kept := careful.keeps config world fuel watch
  rw [ran] at kept
  match result, kept with
  | .ok _ _, ⟨follows, _⟩ => exact follows.acyclic heeds acyclic
  | .error (.thrown _) _, ⟨follows, _⟩ => exact follows.acyclic heeds acyclic
  | .error .outOfFuel _, _ => trivial
  | .error (.interrupted _) _, shows => exact shows.acyclic heeds acyclic

/-- An embedder asks for a cycle: the prototype of the global object is to inherit from that
object. -/
def refusedProgram : HostProgram Unit :=
  .request .globalObject fun global =>
    match global.objectId? with
    | none => .finish (.ok .undefined)
    | some id =>
        .request (.prototypeOf id) fun outcome =>
          match outcome with
          | .ok (some prototype) =>
              .request (.setPrototypeOf prototype (some id)) fun linked =>
                .finish (.ok (.boolean (linked.toOption.getD true)))
          | _ => .finish (.ok .undefined)

theorem refusedProgram_careful : refusedProgram.Careful collects [] := by
  have primitive
      (given : List Item)
      (value : Value)
      (plain : value.objectId? = none) :
      Knows given (.ok value : Except Exception Value) := fun item member => by
    obtain rfl : item = .value value := List.mem_singleton.1 member
    exact .primitive plain
  unfold refusedProgram
  refine ⟨fun _ member => (by cases member), fun global => ?_⟩
  dsimp only
  cases names : global.objectId? with
  | none => exact primitive _ .undefined rfl
  | some id =>
      have known : Item.Known [.value global] (.object id) := .named (.head []) names
      refine ⟨fun item member => ?_, fun outcome => ?_⟩
      · obtain rfl : item = .object id := List.mem_singleton.1 member
        exact known
      · match outcome with
        | .error _ => exact primitive _ .undefined rfl
        | .ok none => exact primitive _ .undefined rfl
        | .ok (some prototype) =>
            refine ⟨fun item member => ?_, fun linked => primitive _ (.boolean _) rfl⟩
            rcases List.mem_cons.1 member with rfl | member
            · exact .given (.head _)
            · obtain rfl : item = .object id := List.mem_singleton.1 member
              exact .named (.tail _ (.head [])) names

/-- The run of the program under a watch for long chains. -/
def refusedRun : EStateM.Result (Stop Unit) (Machine Unit) Value :=
  Exec.runProgram refusedProgram (Env.watched 1 fun sight => sight.machine.hasLongChain 5)
    (Builtins.newMachine {} ())

/-- The link is refused, and all chains end as before. -/
theorem prototype_chains_end_refusedRun :
    ∃ after, refusedRun = .ok (.boolean false) after ∧ after.Acyclic := by
  have seen : ∃ ended ∈ Exec.ended? refusedRun, ended.1 = .boolean false := by decide +kernel
  obtain ⟨⟨answer, after⟩, ended, refused⟩ := seen
  have ran : refusedRun = .ok (.boolean false) after := by
    rw [← refused]
    exact Exec.eq_of_ended? ended
  exact ⟨after, ran,
    prototype_chains_end (@refusedProgram_careful true) (heeds_hasLongChain 5) ran⟩

/-- A script whose class extends itself when it is defined again. -/
def selfExtendingScript : Chunk where
  info := { name := "main", kind := .script }
  code := #[⟨.createClosure 0 0, none⟩, ⟨.createClass 0 none, none⟩,
    ⟨.createClass 0 (some 0), none⟩, ⟨.return 0, none⟩]
  registerCount := 1
  functions := [{
    info := { name := "F", kind := .classConstructor }
    code := #[⟨.loadUndefined 0, none⟩, ⟨.return 0, none⟩]
    registerCount := 1 }]

/-- The run of the script up to its last instruction. -/
def selfExtendingRun : EStateM.Result (Stop Unit) (Machine Unit) Value :=
  Exec.runProgram (.request (.execute selfExtendingScript) fun _ => .finish (.ok .undefined))
    (Env.watched 10 fun sight => sight.machine.frames.any fun frame => frame.next == 4)
    (Builtins.newMachine {} ())

/-- The verification accepts the script, and the first object that it makes, the class, is its
own prototype in the end. -/
theorem class_closes_cycle :
    selfExtendingScript.verify Chunk.defaultMaxRegisters = .ok () ∧
      ∃ sight ∈ Sight.ofRun? selfExtendingRun, ¬ sight.machine.Acyclic := by
  have seen : ∃ sight ∈ Sight.ofRun? selfExtendingRun,
      sight.machine.isProxy ⟨71⟩ = false ∧
        sight.machine.heap.prototypeOf ⟨71⟩ = some ⟨71⟩ := by
    decide +kernel
  obtain ⟨sight, interrupted, bare, cyclic⟩ := seen
  refine ⟨by decide +kernel, sight, interrupted, fun acyclic => ?_⟩
  exact (acyclic ⟨71⟩).not_own_prototype bare cyclic

namespace Machine

/-- An object heads the chain of prototypes that consists of these objects. -/
inductive Heads (machine : Machine σ) : ObjectId -> List ObjectId -> Prop
  | last {id : ObjectId} : machine.heap.prototypeOf id = none -> Heads machine id [id]
  | link {id parent : ObjectId} {objects : List ObjectId} :
      machine.heap.prototypeOf id = some parent -> Heads machine parent objects ->
      Heads machine id (id :: objects)

/-- A walk for this key passes the objects: none of them is a proxy or owns the key. -/
def Passes (machine : Machine σ) (key : PropertyKey) (objects : List ObjectId) : Prop :=
  ∀ id ∈ objects, machine.isProxy id = false ∧ machine.getOwnProperty? id key = none

variable {machine : Machine σ} {id : ObjectId} {objects : List ObjectId} {key : PropertyKey}

theorem Heads.head_mem (heads : machine.Heads id objects) : id ∈ objects := by
  cases heads with
  | last _ => exact List.mem_singleton_self id
  | link _ _ => exact List.mem_cons_self

/-- A walk along a chain that it passes ends without a property, or the chain is too long. -/
theorem Heads.lookup
    (heads : machine.Heads id objects)
    (passes : machine.Passes key objects)
    (limit : Nat) :
    machine.lookup key limit id = if limit < objects.length then .tooLong else .absent := by
  induction heads generalizing limit with
  | @last id ends =>
      obtain ⟨bare, missing⟩ := passes id (List.mem_singleton_self id)
      rw [getOwnProperty?, behindProxies?_of_bare bare, Option.bind_some] at missing
      cases limit with
      | zero => rfl
      | succ limit =>
          rw [lookup_of_bare bare, missing, ends, if_neg (by simp)]
  | @link id parent objects linked _ step =>
      obtain ⟨bare, missing⟩ := passes id List.mem_cons_self
      rw [getOwnProperty?, behindProxies?_of_bare bare, Option.bind_some] at missing
      cases limit with
      | zero => rfl
      | succ limit =>
          have rest := step (fun other member => passes other (List.mem_cons_of_mem _ member)) limit
          rw [lookup_of_bare bare, missing, linked]
          simpa using rest

/-- What a walk along a chain comes to: it gives an answer unless the bound is exceeded. -/
def bounded
    {α : Type}
    (machine : Machine σ)
    (exceeded : Prop)
    [Decidable exceeded]
    (answer : α) : EStateM.Result (Stop σ) (Machine σ) α :=
  if exceeded then .error (.thrown .chainOverflow) machine else .ok answer machine

end Machine

namespace Exec

variable {machine : Machine σ} {id : ObjectId} {objects : List ObjectId} {key : PropertyKey}

/-! ## Walks -/

variable (heads : machine.Heads id objects)
include heads

theorem getWithReceiver_of_heads
    (passes : machine.Passes key objects)
    (receiver : Value)
    (env : Env σ) :
    getWithReceiver id key receiver env machine =
      machine.bounded (machine.config.maxPrototypeChain < objects.length) .undefined := by
  unfold getWithReceiver Machine.bounded
  rw [ask_bind, heads.lookup passes]
  split <;> rfl

theorem hasProperty_of_heads
    (passes : machine.Passes key objects)
    (env : Env σ) :
    hasProperty id key env machine =
      machine.bounded (machine.config.maxPrototypeChain < objects.length) false := by
  unfold hasProperty Machine.bounded
  rw [ask_bind, heads.lookup passes]
  split <;> rfl

/-- An enumeration meets the keys of an object before it asks whether it may go on, and still it
refuses the chains that a read refuses. -/
theorem enumerateFrom_of_heads
    (bare : ∀ object ∈ objects, machine.isProxy object = false)
    (limit : Nat)
    (found : Machine.FoundKeys)
    (env : Env σ) :
    enumerateFrom limit id found env machine =
      machine.bounded (limit < objects.length)
        (objects.foldl (fun found object => machine.meetOwnKeys object found) found) := by
  induction heads generalizing limit found with
  | @last id ends =>
      unfold enumerateFrom
      rw [ask_bind]
      cases limit with
      | zero => rfl
      | succ limit =>
          dsimp only
          rw [bind_of_ok _ (getPrototypeOf_of_bare (bare id (List.mem_singleton_self id)) env),
            ends]
          exact (if_neg (by simp)).symm
  | @link id parent objects linked _ step =>
      unfold enumerateFrom
      rw [ask_bind]
      cases limit with
      | zero => rfl
      | succ limit =>
          have rest := step (fun object member => bare object (List.mem_cons_of_mem _ member)) limit
            (machine.meetOwnKeys id found)
          dsimp only
          rw [bind_of_ok _ (getPrototypeOf_of_bare (bare id List.mem_cons_self) env), linked]
          simpa [Machine.bounded] using rest

theorem enumerateKeys_of_heads
    (bare : ∀ object ∈ objects, machine.isProxy object = false)
    {target : Value}
    (named : target.objectId? = some id)
    (env : Env σ) :
    enumerateKeys target env machine =
      machine.bounded (machine.config.maxPrototypeChain < objects.length)
        ((objects.foldl (fun found object => machine.meetOwnKeys object found)
          {}).visited.toList.map .string) := by
  have walked : enumerateKeys target env machine = (do
      let found <- enumerateFrom machine.config.maxPrototypeChain id {}
      return found.visited.toList.map .string : Exec σ (List Value)) env machine := by
    unfold enumerateKeys
    rw [ask_bind]
    cases target with
    | object other | function other =>
        cases named
        rfl
    | _ => cases named
  rw [walked]
  have walks := enumerateFrom_of_heads heads bare machine.config.maxPrototypeChain {} env
  unfold Machine.bounded at walks ⊢
  split at walks
  · next exceeded =>
      rw [if_pos exceeded]
      exact bind_of_error _ walks
  · next within =>
      rw [if_neg within]
      exact bind_of_ok _ walks

/-- What an assignment may make of a key that is missing along a chain: only the bound of arrays
throws an exception. -/
theorem setWithReceiver_of_heads
    (passes : machine.Passes key objects)
    {receiver : Value}
    (named : receiver.objectId? = some id)
    (value : Value)
    {env : Env σ}
    (unwatched : ∀ seen, env.watch seen = false) :
    setWithReceiver id key value receiver env machine =
      if machine.config.maxPrototypeChain + 1 < objects.length then
        .error (.thrown .chainOverflow) machine
      else Machine.settled (machine.storeOwn id key value) := by
  obtain ⟨bare, missing⟩ := passes id heads.head_mem
  have direct : ¬ machine.IsArrayLength id key := by
    rintro ⟨array, rfl⟩
    obtain ⟨status, array⟩ := Option.isSome_iff_exists.1 array
    rw [Machine.getOwnProperty?_of_behind (Machine.behindProxies?_of_bare bare)] at missing
    exact Machine.ne_lengthKey_of_missing array (by decide) missing rfl
  unfold setWithReceiver
  rw [ask_bind, heads.lookup passes]
  split
  · rfl
  · exact assignOwn_eq_storeOwn unwatched named bare direct

end Exec

/-- A chain that no proxy is on and that lacks a key is walked to its end. A read, a look for the
key and an enumeration give an answer unless the chain is longer than the bound, and are thrown
back otherwise. An assignment gives an answer as long as the chain is no more than one object
longer than the bound, unless it is to an array and the index out of bounds. -/
theorem chain_lengths_bounded
    {machine : Machine σ}
    {id : ObjectId}
    {objects : List ObjectId}
    {key : PropertyKey}
    (heads : machine.Heads id objects)
    (passes : machine.Passes key objects)
    {receiver : Value}
    (named : receiver.objectId? = some id)
    (value : Value)
    (fuel : Nat) :
    let limit := machine.config.maxPrototypeChain
    let assigned := Exec.setWithReceiver id key value receiver (Env.ofFuel fuel) machine
    Exec.getWithReceiver id key receiver (Env.ofFuel fuel) machine =
        machine.bounded (limit < objects.length) .undefined ∧
      Exec.hasProperty id key (Env.ofFuel fuel) machine =
        machine.bounded (limit < objects.length) false ∧
      Exec.enumerateKeys receiver (Env.ofFuel fuel) machine =
        machine.bounded (limit < objects.length)
          ((objects.foldl (fun found object => machine.meetOwnKeys object found)
            {}).visited.toList.map .string) ∧
      (limit + 1 < objects.length -> assigned = .error (.thrown .chainOverflow) machine) ∧
      (objects.length <= limit + 1 ->
        (∃ done after, assigned = .ok done after) ∨
          assigned = .error (.thrown Machine.invalidLength) machine ∧
            (machine.arrayStatus? id).isSome = true ∧
              ∃ index, key.arrayIndex? = some index ∧ Machine.maxArrayLength <= index) := by
  have unwatched : ∀ seen, (Env.ofFuel fuel : Env σ).watch seen = false := fun _ => rfl
  have assigns := Exec.setWithReceiver_of_heads heads passes named value unwatched
  refine ⟨Exec.getWithReceiver_of_heads heads passes _ _,
    Exec.hasProperty_of_heads heads passes _,
    Exec.enumerateKeys_of_heads heads (fun object member => (passes object member).1) named _,
    fun exceeded => ?_, fun within => ?_⟩
  · rw [assigns, if_pos exceeded]
  · rw [assigns, if_neg (Nat.not_lt.2 within)]
    rcases machine.storeOwn_cases id key value with ⟨done, after, stored⟩ | ⟨refused, bounds⟩
    · rw [stored]
      exact .inl ⟨done, after, rfl⟩
    · rw [refused]
      exact .inr ⟨rfl, bounds⟩

/-- A machine whose walks are bounded by one object. -/
def shortMachine : Machine Unit :=
  Builtins.newMachine { maxPrototypeChain := 1 } ()

/-- The prototypes of functions and of objects form a chain of two objects. -/
theorem shortMachine_heads :
    shortMachine.Heads shortMachine.intrinsics.functionPrototype
      [shortMachine.intrinsics.functionPrototype, shortMachine.intrinsics.objectPrototype] := by
  have linked : shortMachine.heap.prototypeOf shortMachine.intrinsics.functionPrototype =
      some shortMachine.intrinsics.objectPrototype := by
    decide +kernel
  have ends : shortMachine.heap.prototypeOf shortMachine.intrinsics.objectPrototype = none := by
    decide +kernel
  exact .link linked (.last ends)

theorem shortMachine_passes :
    shortMachine.Passes "missing"
      [shortMachine.intrinsics.functionPrototype, shortMachine.intrinsics.objectPrototype] := by
  unfold Machine.Passes
  decide +kernel

/-- This chain is too long for a read. -/
theorem chain_lengths_bounded_shortMachine :
    Exec.getWithReceiver shortMachine.intrinsics.functionPrototype "missing"
        (.function shortMachine.intrinsics.functionPrototype) (Env.ofFuel 1) shortMachine =
      .error (.thrown .chainOverflow) shortMachine := by
  have named : (Value.function shortMachine.intrinsics.functionPrototype).objectId? =
      some shortMachine.intrinsics.functionPrototype := rfl
  have bounded := chain_lengths_bounded shortMachine_heads shortMachine_passes named .null 1
  rw [bounded.1]
  exact if_pos (by decide)

theorem shortMachine_bare (id : ObjectId) : shortMachine.isProxy id = false := by
  by_cases inside : id.index < shortMachine.heap.objects.size
  · have all : ∀ index < shortMachine.heap.objects.size, shortMachine.isProxy ⟨index⟩ = false := by
      decide +kernel
    exact all id.index inside
  · have dead : shortMachine.heap.get? id = none := by
      unfold Heap.get?
      rw [Array.getElem?_eq_none (Nat.not_lt.1 inside)]
      rfl
    unfold Machine.isProxy Machine.kind? Heap.payload?
    rw [dead]
    rfl

/-- Though the chain is longer than the bound and no object on it has the key, an assignment
creates the property. -/
theorem assignment_exceeds_chain_length :
    Sight.Visible { machine := shortMachine } ∧ (∀ id, shortMachine.isProxy id = false) ∧
      ∃ id objects, shortMachine.Heads id objects ∧ shortMachine.Passes "missing" objects ∧
        shortMachine.config.maxPrototypeChain < objects.length ∧
        ∃ after, Exec.setWithReceiver id "missing" .null (.function id) (Env.ofFuel 0)
          shortMachine = .ok true after := by
  refine ⟨.between (.new _ _), shortMachine_bare, _, _, shortMachine_heads, shortMachine_passes,
    by decide, ?_⟩
  rw [Exec.setWithReceiver_of_heads shortMachine_heads shortMachine_passes rfl .null
    fun _ => rfl, if_neg (by decide)]
  have stored : (shortMachine.storeOwn shortMachine.intrinsics.functionPrototype "missing"
      .null).1 = .ok true := by
    decide +kernel
  exact ⟨_, by rw [Machine.settled, stored]⟩

end ScriptVM

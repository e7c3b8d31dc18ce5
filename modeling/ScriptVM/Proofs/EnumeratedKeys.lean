import ScriptVM.Proofs.DescriptorRoundTrips
import ScriptVM.Proofs.KeyOrders

/-!
# Enumerated keys

An enumeration goes along a chain of prototypes and meets the own keys of one object after the
other. A name counts only where it is met for the first time, so the first object that owns it
decides whether it is visited, whatever objects further up the chain own.
-/

namespace ScriptVM

variable {σ : Type}

namespace Machine

/-! ## One object -/

/-- A key of an object is visited under its name: it is an enumerable string that was not met
before. -/
def visitedName? (machine : Machine σ) (id : ObjectId) (met : String -> Bool) :
    PropertyKey -> Option String
  | .symbol _ => none
  | .string name =>
      if !met name && machine.ownsEnumerable id (.string name) then some name else none

variable {machine : Machine σ} {id : ObjectId} {met : String -> Bool} {name : String}

theorem visitedName?_of_met (known : met name = true) :
    machine.visitedName? id met (.string name) = none := by
  simp [visitedName?, known]

theorem visitedName?_of_fresh (fresh : met name = false) :
    machine.visitedName? id met (.string name) =
      if machine.ownsEnumerable id (.string name) then some name else none := by
  simp [visitedName?, fresh]

theorem visitedName?_eq_some {key : PropertyKey} :
    machine.visitedName? id met key = some name ↔
      key = .string name ∧ met name = false ∧ machine.ownsEnumerable id (.string name) = true := by
  cases key with
  | symbol _ => simp [visitedName?]
  | string other =>
      cases known : met other with
      | true =>
          rw [visitedName?_of_met known]
          grind
      | false =>
          rw [visitedName?_of_fresh known]
          grind

/-- An object is met key by key. Each name that it owns is met then, and those are visited that
are enumerable and were not met before. -/
theorem foldl_meet
    (machine : Machine σ)
    (id : ObjectId)
    {keys : List PropertyKey}
    (distinct : keys.Nodup)
    (found : FoundKeys) :
    (keys.foldl (FoundKeys.meet machine id) found).visited.toList =
        found.visited.toList ++
          keys.filterMap (machine.visitedName? id fun name => found.met.contains name) ∧
      ∀ name, name ∈ (keys.foldl (FoundKeys.meet machine id) found).met ↔
        name ∈ found.met ∨ .string name ∈ keys := by
  induction keys generalizing found with
  | nil => simp
  | cons key rest step =>
      obtain ⟨fresh, distinct⟩ := List.nodup_cons.1 distinct
      obtain ⟨visited, met⟩ := step distinct (found.meet machine id key)
      rw [List.foldl_cons]
      cases key with
      | symbol symbol =>
          refine ⟨visited, fun name => (met name).trans ?_⟩
          simp [FoundKeys.meet]
      | string name =>
          cases known : found.met.contains name with
          | true =>
              have still : found.meet machine id (.string name) = found := by
                unfold FoundKeys.meet
                dsimp only
                rw [if_pos known]
              rw [still] at visited met ⊢
              have old : name ∈ found.met := List.contains_iff_mem.1 known
              refine ⟨?_, fun other => (met other).trans ?_⟩
              · rw [visited, List.filterMap_cons_none (visitedName?_of_met known)]
              · simp only [List.mem_cons, PropertyKey.string.injEq]
                grind
          | false =>
              -- The name is new, and it does not come up again among the other keys.
              have others : rest.filterMap (machine.visitedName? id fun other =>
                  (name :: found.met).contains other) =
                  rest.filterMap (machine.visitedName? id fun other =>
                    found.met.contains other) := by
                refine List.filterMap_congr fun key member => ?_
                cases key with
                | symbol _ => rfl
                | string other =>
                    have apart : other ≠ name := fun same => fresh (same ▸ member)
                    simp [visitedName?, apart]
              have now : found.meet machine id (.string name) =
                  { visited :=
                      if machine.ownsEnumerable id (.string name) then found.visited.push name
                      else found.visited
                    met := name :: found.met } := by
                unfold FoundKeys.meet
                dsimp only
                rw [known]
                rfl
              rw [now] at visited met ⊢
              refine ⟨?_, fun other => (met other).trans ?_⟩
              · rw [visited, others]
                have first : machine.visitedName? id (fun name => found.met.contains name)
                    (.string name) = _ :=
                  visitedName?_of_fresh known
                cases shown : machine.ownsEnumerable id (.string name) with
                | true =>
                    rw [shown, if_pos rfl] at first
                    rw [List.filterMap_cons_some first]
                    simp
                | false =>
                    rw [shown, if_neg Bool.false_ne_true] at first
                    rw [List.filterMap_cons_none first]
                    simp
              · simp only [List.mem_cons, PropertyKey.string.injEq]
                grind

/-! ## A chain of objects -/

/-- The object at this place is the first one in a list that has a property of the key. -/
structure OwnsFirst (machine : Machine σ) (objects : List ObjectId) (key : PropertyKey)
    (place : Nat) (holder : ObjectId) : Prop where
  holds : objects[place]? = some holder
  owned : (machine.getOwnProperty? holder key).isSome = true
  passed : ∀ earlier < place, ∀ object, objects[earlier]? = some object ->
    machine.getOwnProperty? object key = none

/-- The own keys of an object are those of its properties, each once. -/
def ListsOwnKeys (machine : Machine σ) (id : ObjectId) : Prop :=
  (machine.ownKeys id).Nodup ∧
    ∀ key, key ∈ machine.ownKeys id ↔ (machine.getOwnProperty? id key).isSome = true

/-- One name comes before another in an enumeration: the object that owns it first comes earlier
in the chain, or it is the same one and lists it earlier. -/
def Enumerates (machine : Machine σ) (objects : List ObjectId) (first second : String) : Prop :=
  ∃ place holder other keeper, machine.OwnsFirst objects (.string first) place holder ∧
    machine.OwnsFirst objects (.string second) other keeper ∧
      (place < other ∨
        place = other ∧ [PropertyKey.string first, .string second].Sublist
          (machine.ownKeys holder))

/-- What is visited along a list of objects: each adds names that neither were met nor are owned
by objects before it. -/
def visitedNames (machine : Machine σ) : (met : String -> Bool) -> List ObjectId -> List String
  | _, [] => []
  | met, id :: rest =>
      (machine.ownKeys id).filterMap (machine.visitedName? id met) ++
        machine.visitedNames
          (fun name => met name || (machine.getOwnProperty? id (.string name)).isSome) rest

variable {objects : List ObjectId} {key : PropertyKey} {place : Nat} {holder : ObjectId}

namespace OwnsFirst

variable {rest : List ObjectId}

theorem unique
    {other : Nat}
    {keeper : ObjectId}
    (first : machine.OwnsFirst objects key place holder)
    (again : machine.OwnsFirst objects key other keeper) :
    place = other ∧ holder = keeper := by
  have same : place = other := by
    rcases Nat.lt_trichotomy place other with below | same | above
    · exact absurd (again.passed place below holder first.holds)
        (Option.isSome_iff_ne_none.1 first.owned)
    · exact same
    · exact absurd (first.passed other above keeper again.holds)
        (Option.isSome_iff_ne_none.1 again.owned)
  subst same
  exact ⟨rfl, Option.some.inj (first.holds.symm.trans again.holds)⟩

theorem head {rest : List ObjectId} (owned : (machine.getOwnProperty? id key).isSome = true) :
    machine.OwnsFirst (id :: rest) key 0 id where
  holds := rfl
  owned := owned
  passed _ impossible := absurd impossible (Nat.not_lt_zero _)

theorem tail
    (missing : machine.getOwnProperty? id key = none)
    (first : machine.OwnsFirst rest key place holder) :
    machine.OwnsFirst (id :: rest) key (place + 1) holder where
  holds := first.holds
  owned := first.owned
  passed earlier below object held := by
    cases earlier with
    | zero =>
        cases held
        exact missing
    | succ earlier => exact first.passed earlier (Nat.lt_of_succ_lt_succ below) object held

/-- The first owner is the first object, or that does not own the key. -/
theorem cases_cons
    (first : machine.OwnsFirst (id :: rest) key place holder) :
    place = 0 ∧ holder = id ∨ machine.getOwnProperty? id key = none ∧
      ∃ before, place = before + 1 ∧ machine.OwnsFirst rest key before holder := by
  cases place with
  | zero => exact .inl ⟨rfl, (Option.some.inj first.holds).symm⟩
  | succ before =>
      refine .inr ⟨first.passed 0 (Nat.succ_pos _) id rfl, before, rfl, first.holds, first.owned,
        fun earlier below object held => ?_⟩
      exact first.passed (earlier + 1) (Nat.succ_lt_succ below) object held

end OwnsFirst

theorem owned_of_ownsEnumerable (shown : machine.ownsEnumerable id key = true) :
    (machine.getOwnProperty? id key).isSome = true := by
  unfold ownsEnumerable at shown
  cases held : machine.getOwnProperty? id key with
  | none =>
      rw [held] at shown
      cases shown
  | some property => rfl

/-- An enumeration meets one object after the other. -/
theorem foldl_meetOwnKeys
    (met : String -> Bool)
    (exact : ∀ id ∈ objects, machine.ListsOwnKeys id)
    (found : FoundKeys)
    (known : ∀ name, name ∈ found.met ↔ met name = true) :
    (objects.foldl (fun found object => machine.meetOwnKeys object found) found).visited.toList =
      found.visited.toList ++ machine.visitedNames met objects := by
  induction objects generalizing found met with
  | nil => simp [visitedNames]
  | cons id rest step =>
      obtain ⟨distinct, owned⟩ := exact id (.head _)
      obtain ⟨visited, later⟩ := foldl_meet machine id distinct found
      have met? : (fun name => found.met.contains name) = met := by
        funext name
        rw [Bool.eq_iff_iff, List.contains_iff_mem, known]
      rw [List.foldl_cons, step _ (fun id member => exact id (.tail _ member))
        (machine.meetOwnKeys id found) (fun name => ?_), visitedNames, ← List.append_assoc]
      · unfold meetOwnKeys
        rw [visited, met?]
      · unfold meetOwnKeys
        rw [later, known, owned, Bool.or_eq_true]

/-- What is visited is enumerable where it is met first. -/
theorem mem_visitedNames (exact : ∀ id ∈ objects, machine.ListsOwnKeys id) :
    name ∈ machine.visitedNames met objects ↔ met name = false ∧
      ∃ place holder, machine.OwnsFirst objects (.string name) place holder ∧
        machine.ownsEnumerable holder (.string name) = true := by
  induction objects generalizing met with
  | nil =>
      refine ⟨fun member => absurd member List.not_mem_nil, ?_⟩
      rintro ⟨_, place, holder, first, _⟩
      cases first.holds
  | cons id rest step =>
      obtain ⟨_, owned⟩ := exact id (.head _)
      rw [visitedNames, List.mem_append, step fun id member => exact id (.tail _ member)]
      constructor
      · rintro (here | ⟨fresh, place, holder, first, shown⟩)
        · obtain ⟨key, _, visited⟩ := List.mem_filterMap.1 here
          obtain ⟨-, fresh, shown⟩ := visitedName?_eq_some.1 visited
          exact ⟨fresh, 0, id, .head (owned_of_ownsEnumerable shown), shown⟩
        · rw [Bool.or_eq_false_iff] at fresh
          exact ⟨fresh.1, place + 1, holder,
            first.tail (Option.isSome_eq_false_iff.1 fresh.2 |> Option.isNone_iff_eq_none.1),
            shown⟩
      · rintro ⟨fresh, place, holder, first, shown⟩
        rcases first.cases_cons with ⟨-, rfl⟩ | ⟨missing, before, -, first⟩
        · refine .inl (List.mem_filterMap.2 ⟨.string name, (owned _).2 first.owned, ?_⟩)
          exact visitedName?_eq_some.2 ⟨rfl, fresh, shown⟩
        · exact .inr ⟨by simp [fresh, missing], before, holder, first, shown⟩

/-- Names are visited in the order of the chain, and those of one object as it lists them. -/
theorem pairwise_visitedNames
    (met : String -> Bool)
    (exact : ∀ id ∈ objects, machine.ListsOwnKeys id) :
    (machine.visitedNames met objects).Pairwise (machine.Enumerates objects) := by
  induction objects generalizing met with
  | nil => exact .nil
  | cons id rest step =>
      have others := fun id member => exact id (.tail _ member)
      rw [visitedNames]
      refine List.pairwise_append.2 ⟨?_, ?_, fun first here second there => ?_⟩
      · have listed : (machine.ownKeys id).Pairwise fun first second =>
            [first, second].Sublist (machine.ownKeys id) :=
          List.pairwise_iff_forall_sublist.2 fun sublist => sublist
        refine List.pairwise_filterMap.2 (listed.imp fun {former latter} sublist first visited
          second seen => ?_)
        obtain ⟨rfl, -, shown⟩ := visitedName?_eq_some.1 visited
        obtain ⟨rfl, -, also⟩ := visitedName?_eq_some.1 seen
        exact ⟨0, id, 0, id, .head (owned_of_ownsEnumerable shown),
          .head (owned_of_ownsEnumerable also), .inr ⟨rfl, sublist⟩⟩
      · refine (step _ others).imp_of_mem fun {first second} former latter order => ?_
        have missing : ∀ {name : String}, name ∈ machine.visitedNames
            (fun name => met name || (machine.getOwnProperty? id (.string name)).isSome) rest ->
              machine.getOwnProperty? id (.string name) = none := fun {name} member => by
          have fresh := ((mem_visitedNames others).1 member).1
          rw [Bool.or_eq_false_iff] at fresh
          exact Option.isNone_iff_eq_none.1 (Option.isSome_eq_false_iff.1 fresh.2)
        obtain ⟨place, holder, other, keeper, begins, follows, order⟩ := order
        refine ⟨place + 1, holder, other + 1, keeper, begins.tail (missing former),
          follows.tail (missing latter), ?_⟩
        exact order.imp Nat.succ_lt_succ (And.imp_left (congrArg Nat.succ))
      · obtain ⟨key, _, visited⟩ := List.mem_filterMap.1 here
        obtain ⟨-, -, shown⟩ := visitedName?_eq_some.1 visited
        obtain ⟨fresh, place, keeper, follows, -⟩ := (mem_visitedNames others).1 there
        rw [Bool.or_eq_false_iff] at fresh
        exact ⟨0, id, place + 1, keeper, .head (owned_of_ownsEnumerable shown),
          follows.tail (Option.isNone_iff_eq_none.1 (Option.isSome_eq_false_iff.1 fresh.2)),
          .inl (Nat.succ_pos place)⟩

/-- No name comes before itself. -/
theorem Enumerates.ne
    (exact : ∀ id ∈ objects, machine.ListsOwnKeys id)
    {first second : String}
    (order : machine.Enumerates objects first second) :
    first ≠ second := by
  rintro rfl
  obtain ⟨place, holder, other, keeper, begins, follows, order⟩ := order
  obtain ⟨rfl, rfl⟩ := begins.unique follows
  rcases order with less | ⟨-, twice⟩
  · exact Nat.lt_irrefl _ less
  · have distinct := (exact holder (List.mem_of_getElem? begins.holds)).1
    exact (List.nodup_cons.1 (distinct.sublist twice)).1 (.head _)

end Machine

/-- An object that is no proxy lists its own keys, as long as the indices of elements are array
indices. -/
theorem Sight.Visible.listsOwnKeys
    {sight : Sight σ}
    (visible : sight.Visible)
    {object : ObjectId}
    (bare : sight.machine.isProxy object = false)
    (within : ∀ store, sight.machine.kind? object = some (.array store) ->
      store.elements.size <= PropertyKey.indexBound) :
    sight.machine.ListsOwnKeys object := by
  have bounded : ∀ other store, sight.machine.behindProxies? object = some other ->
      sight.machine.kind? other = some (.array store) ->
        store.elements.size <= PropertyKey.indexBound := by
    intro other store behind array
    cases (Machine.behindProxies?_of_bare bare).symm.trans behind
    exact within store array
  exact ⟨visible.nodup_ownKeys bounded, visible.mem_ownKeys_iff bounded⟩

/-- In all that an embedder can come across, an enumeration along a chain of prototypes without
proxies, within the bound on its length, visits names each once. It visits a name just if some
object of the chain owns it and the first one that does has it enumerable. Names come in the order
of the objects that own them first, and those of one object in the order of its own keys. The
indices of elements have to be array indices: positions have 32 bits, and the last of them is
none. -/
theorem enumerated_keys_exact_and_ordered
    {sight : Sight σ}
    (visible : sight.Visible)
    {id : ObjectId}
    {objects : List ObjectId}
    (heads : sight.machine.Heads id objects)
    (bare : ∀ object ∈ objects, sight.machine.isProxy object = false)
    (short : objects.length <= sight.machine.config.maxPrototypeChain)
    (within : ∀ object ∈ objects, ∀ store, sight.machine.kind? object = some (.array store) ->
      store.elements.size <= PropertyKey.indexBound)
    {target : Value}
    (named : target.objectId? = some id)
    (env : Env σ) :
    ∃ names : List String,
      Exec.enumerateKeys target env sight.machine = .ok (names.map .string) sight.machine ∧
      names.Nodup ∧
      (∀ name, name ∈ names ↔ ∃ place holder property,
        sight.machine.OwnsFirst objects (.string name) place holder ∧
          sight.machine.getOwnProperty? holder (.string name) = some property ∧
          property.enumerable = true) ∧
      names.Pairwise (sight.machine.Enumerates objects) := by
  have exact : ∀ object ∈ objects, sight.machine.ListsOwnKeys object :=
    fun object member => visible.listsOwnKeys (bare object member) (within object member)
  have ordered := Machine.pairwise_visitedNames (fun _ => false) exact
  refine ⟨sight.machine.visitedNames (fun _ => false) objects, ?_, ?_, fun name => ?_, ordered⟩
  · rw [Exec.enumerateKeys_of_heads heads bare named, Machine.bounded,
      if_neg (Nat.not_lt.2 short)]
    rw [Machine.foldl_meetOwnKeys (fun _ => false) exact {} (by simp)]
    rfl
  · exact ordered.imp fun order => order.ne exact
  · rw [Machine.mem_visitedNames exact]
    unfold Machine.ownsEnumerable
    constructor
    · rintro ⟨-, place, holder, first, shown⟩
      obtain ⟨property, held⟩ := Option.isSome_iff_exists.1 first.owned
      rw [held] at shown
      exact ⟨place, holder, property, first, held, shown⟩
    · rintro ⟨place, holder, property, first, held, shown⟩
      refine ⟨rfl, place, holder, first, ?_⟩
      rw [held]
      exact shown

/-- An embedder gives an object a property that hides one of its prototype. -/
def hidingProgram : HostProgram Unit :=
  .request .createObject fun parent =>
    let parentId : ObjectId := parent.objectId?.getD ⟨0⟩
    .request (.createDataProperty parentId "a" .null) fun _ =>
      .request (.createDataProperty parentId "b" .null) fun _ =>
        .request .createObject fun child =>
          let id : ObjectId := child.objectId?.getD ⟨0⟩
          .request (.setPrototypeOf id (some parentId)) fun _ =>
            .request (.define id "a" (.ofData .null true false true)) fun _ =>
              .request (.createDataProperty id "c" .null) fun _ => .finish (.ok child)

/-- The name that is hidden is not visited, and that of the prototype comes last. -/
theorem enumerated_keys_exact_and_ordered_hidingProgram :
    ∃ (sight : Sight Unit) (id : ObjectId) (names : List String), sight.Visible ∧
      Exec.enumerateKeys (.object id) (Env.ofFuel 0) sight.machine =
        .ok (names.map .string) sight.machine ∧
      "a" ∉ names ∧ "b" ∈ names ∧ "c" ∈ names ∧ names.Nodup := by
  have seen : ∃ ended ∈ Exec.ended? ((Builtins.newMachine {} ()).runWithin 20 hidingProgram),
      ∃ id ∈ ended.1.objectId?, ∃ parent ∈ ended.2.heap.prototypeOf id,
        ∃ last ∈ ended.2.heap.prototypeOf parent, ended.2.heap.prototypeOf last = none ∧
          (∀ object ∈ [id, parent, last], ended.2.isProxy object = false ∧
            ended.2.arrayStatus? object = none) ∧
          3 <= ended.2.config.maxPrototypeChain ∧
          (ended.2.getOwnProperty? id "a").map Property.enumerable = some false ∧
          (ended.2.getOwnProperty? id "c").map Property.enumerable = some true ∧
          ended.2.getOwnProperty? id "b" = none ∧
          (ended.2.getOwnProperty? parent "b").map Property.enumerable = some true := by
    decide +kernel
  obtain ⟨⟨_, machine⟩, ended, id, _, parent, up, last, top, none, plain, room, hidden, own,
    missing, inherited⟩ := seen
  have visible : Sight.Visible { machine } :=
    .between (.returned (.new {} ()) (Exec.eq_of_ended? ended))
  have heads : machine.Heads id [id, parent, last] := .link up (.link top (.last none))
  obtain ⟨names, enumerated, distinct, exact, -⟩ :=
    enumerated_keys_exact_and_ordered visible heads (fun object member => (plain object member).1)
      room (fun object member store array => by
        have other := (plain object member).2
        unfold Machine.arrayStatus? at other
        rw [array] at other
        cases other) (show (Value.object id).objectId? = some id from rfl) (Env.ofFuel 0)
  obtain ⟨property, held, dim⟩ := Option.map_eq_some_iff.1 hidden
  obtain ⟨shown, owned, bright⟩ := Option.map_eq_some_iff.1 own
  obtain ⟨passed, given, clear⟩ := Option.map_eq_some_iff.1 inherited
  refine ⟨{ machine }, id, names, visible, enumerated, fun listed => ?_,
    (exact "b").2 ⟨1, parent, passed, .tail missing (.head (by rw [given]; rfl)), given, clear⟩,
    (exact "c").2 ⟨0, id, shown, .head (by rw [owned]; rfl), owned, bright⟩, distinct⟩
  obtain ⟨place, holder, other, first, same, enumerable⟩ := (exact "a").1 listed
  obtain ⟨rfl, rfl⟩ := first.unique (.head (by rw [held]; rfl))
  cases held.symm.trans same
  cases dim.symm.trans enumerable

/-! ## Hidden names -/

namespace Machine

/-- The name was met without being visited, so it never will be. -/
def FoundKeys.Hides (found : FoundKeys) (name : String) : Prop :=
  name ∈ found.met ∧ name ∉ found.visited.toList

variable {machine : Machine σ} {id : ObjectId} {name : String} {found : FoundKeys}

/-- An object lists the name and has no enumerable property of it. -/
def ListsDimly (machine : Machine σ) (id : ObjectId) (name : String) : Prop :=
  .string name ∈ machine.ownKeys id ∧ machine.ownsEnumerable id (.string name) = false

theorem FoundKeys.Hides.meet (hides : found.Hides name) (key : PropertyKey) :
    (found.meet machine id key).Hides name := by
  unfold FoundKeys.meet
  split
  · exact hides
  · next other =>
      split
      · exact hides
      · next fresh =>
          have apart : name ≠ other := by
            rintro rfl
            exact fresh (List.contains_iff_mem.2 hides.1)
          refine ⟨.tail _ hides.1, ?_⟩
          split <;> simp [hides.2, apart]

theorem FoundKeys.not_visited_meet
    (dim : machine.ownsEnumerable id (.string name) = false)
    (unvisited : name ∉ found.visited.toList)
    (key : PropertyKey) :
    name ∉ (found.meet machine id key).visited.toList := by
  unfold FoundKeys.meet
  split
  · exact unvisited
  · next other =>
      split
      · exact unvisited
      · split
        · next shown =>
            have apart : name ≠ other := by
              rintro rfl
              exact Bool.false_ne_true (dim.symm.trans shown)
            simp [unvisited, apart]
        · exact unvisited

/-- An object that lists a name dimly hides it. -/
theorem hides_meetOwnKeys
    (dimly : machine.ListsDimly id name)
    (unvisited : name ∉ found.visited.toList) :
    (machine.meetOwnKeys id found).Hides name := by
  obtain ⟨listed, dim⟩ := dimly
  obtain ⟨earlier, later, split⟩ := List.append_of_mem listed
  unfold meetOwnKeys
  rw [split, List.foldl_append, List.foldl_cons]
  have before : name ∉ (earlier.foldl (FoundKeys.meet machine id) found).visited.toList :=
    List.foldlRecOn (motive := fun found : FoundKeys => name ∉ found.visited.toList) earlier _
      unvisited fun _ unvisited key _ => FoundKeys.not_visited_meet dim unvisited key
  have met : ∀ found : FoundKeys, name ∉ found.visited.toList ->
      (found.meet machine id (.string name)).Hides name := by
    intro found unvisited
    refine ⟨?_, FoundKeys.not_visited_meet dim unvisited _⟩
    unfold FoundKeys.meet
    dsimp only
    split
    · next known => exact List.contains_iff_mem.1 known
    · exact .head _
  exact List.foldlRecOn (motive := fun found : FoundKeys => found.Hides name) later _
    (met _ before) fun _ hides key _ => hides.meet key

/-- So it is hidden in the whole chain. -/
theorem hides_foldl
    {objects : List ObjectId}
    (heads : machine.Heads id objects)
    (dimly : machine.ListsDimly id name) :
    (objects.foldl (fun found object => machine.meetOwnKeys object found) {}).Hides name := by
  have starts : ∃ rest, objects = id :: rest := by
    cases heads <;> exact ⟨_, rfl⟩
  obtain ⟨rest, rfl⟩ := starts
  rw [List.foldl_cons]
  refine List.foldlRecOn (motive := fun found : FoundKeys => found.Hides name) rest _
    (hides_meetOwnKeys dimly List.not_mem_nil) fun _ hides object _ => ?_
  exact List.foldlRecOn (motive := fun found : FoundKeys => found.Hides name)
    (machine.ownKeys object) _ hides fun _ hides key _ => hides.meet key

/-- An array with more elements than there are array indices hides what it inherits under the
first position that is none. -/
theorem Settled.hides
    (settled : machine.Settled)
    {last : ObjectId}
    (linked : machine.heap.prototypeOf machine.intrinsics.arrayPrototype = some last)
    (ends : machine.heap.prototypeOf last = none)
    (plain : ∀ object ∈ [machine.intrinsics.arrayPrototype, last],
      machine.heap.contains object = true ∧ machine.isProxy object = false)
    (short : 3 <= machine.config.maxPrototypeChain)
    {property : Property}
    (inherited : machine.getOwnProperty? machine.intrinsics.arrayPrototype strayKey =
      some property) :
    let after := (machine.createArray (overlong .null).toArray).2
    let objects := [machine.heap.nextId, machine.intrinsics.arrayPrototype, last]
    after.Heads machine.heap.nextId objects ∧
      (∀ object ∈ objects, after.isProxy object = false) ∧
      objects.length <= after.config.maxPrototypeChain ∧
      after.OwnsFirst objects strayKey 1 machine.intrinsics.arrayPrototype ∧
      after.getOwnProperty? machine.intrinsics.arrayPrototype strayKey = some property ∧
      ∀ env : Env σ, ∃ names : List String,
        Exec.enumerateKeys (.object machine.heap.nextId) env after =
          .ok (names.map .string) after ∧
        strayKey.text ∉ names := by
  intro after objects
  have tidy := settled.reached.tidy
  obtain ⟨bare, listed, missing⟩ := createArray_strays tidy (getElem?_overlong .null)
  have extension : machine.Extends after :=
    .allocate tidy (some machine.intrinsics.arrayPrototype) _
  obtain ⟨live, same⟩ := plain machine.intrinsics.arrayPrototype (.head _)
  obtain ⟨lastLive, lastSame⟩ := plain last (.tail _ (.head _))
  have up : after.heap.prototypeOf machine.heap.nextId =
      some machine.intrinsics.arrayPrototype := by
    unfold Heap.prototypeOf
    rw [show after.heap.get? machine.heap.nextId = _ from
      (tidy.get?_allocate (some machine.intrinsics.arrayPrototype) _ _).trans
        (if_pos (Heap.allocate_fst ..))]
    rfl
  have heads : after.Heads machine.heap.nextId objects :=
    .link up (.link ((extension.prototypeOf live).trans linked)
      (.last ((extension.prototypeOf lastLive).trans ends)))
  have bares : ∀ object ∈ objects, after.isProxy object = false :=
    List.forall_mem_cons.2 ⟨bare, List.forall_mem_cons.2 ⟨(extension.isProxy live).trans same,
      List.forall_mem_singleton.2 ((extension.isProxy lastLive).trans lastSame)⟩⟩
  have given : after.getOwnProperty? machine.intrinsics.arrayPrototype strayKey =
      some property := (extension.getOwnProperty? live same strayKey).trans inherited
  refine ⟨heads, bares, short, .tail missing (.head (by rw [given]; rfl)), given, fun env => ?_⟩
  have dimly : after.ListsDimly machine.heap.nextId strayKey.text := by
    refine ⟨listed, ?_⟩
    unfold ownsEnumerable
    rw [show after.getOwnProperty? machine.heap.nextId (.string strayKey.text) = none from missing]
    rfl
  have within : ¬ after.config.maxPrototypeChain < objects.length := Nat.not_lt.2 short
  refine ⟨_, ?_, (hides_foldl heads dimly).2⟩
  rw [Exec.enumerateKeys_of_heads heads bares rfl, bounded, if_neg within]

end Machine

/-- An embedder gives the prototype of arrays a property under that key. -/
def bequeathingProgram : HostProgram Unit :=
  .request (.createDataProperty Builtins.initialHeap.1.arrayPrototype strayKey .null) fun _ =>
    .finish (.ok .undefined)

/-- The first object of a chain that owns a name has it enumerable, and yet it is not visited. -/
theorem overlong_array_hides_inherited_name :
    ∃ (sight : Sight Unit) (id : ObjectId) (objects : List ObjectId), sight.Visible ∧
      sight.machine.Heads id objects ∧
      (∀ object ∈ objects, sight.machine.isProxy object = false) ∧
      objects.length <= sight.machine.config.maxPrototypeChain ∧
      ∃ name place holder property,
        sight.machine.OwnsFirst objects (.string name) place holder ∧
        sight.machine.getOwnProperty? holder (.string name) = some property ∧
        property.enumerable = true ∧
        ∀ env, ∃ names : List String,
          Exec.enumerateKeys (.object id) env sight.machine =
            .ok (names.map .string) sight.machine ∧
          name ∉ names := by
  have seen : ∃ ended ∈ Exec.ended? ((Builtins.newMachine {} ()).runWithin 20 bequeathingProgram),
      let array := ended.2.intrinsics.arrayPrototype
      ∃ last ∈ ended.2.heap.prototypeOf array, ended.2.heap.prototypeOf last = none ∧
        (∀ object ∈ [array, last], ended.2.heap.contains object = true ∧
          ended.2.isProxy object = false) ∧
        3 <= ended.2.config.maxPrototypeChain ∧
        ∃ property ∈ ended.2.getOwnProperty? array strayKey, property.enumerable = true := by
    decide +kernel
  obtain ⟨⟨_, machine⟩, ended, last, linked, ends, plain, short, property, inherited, shown⟩ := seen
  have settled : machine.Settled := .returned (.new {} ()) (Exec.eq_of_ended? ended)
  obtain ⟨heads, bares, within, first, given, hidden⟩ :=
    settled.hides linked ends plain short inherited
  exact ⟨_, _, _, .between (settled.createArray (overlong .null)), heads, bares, within, _, _, _, _,
    first, given, shown, hidden⟩

end ScriptVM

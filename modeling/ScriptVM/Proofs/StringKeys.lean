import ScriptVM.Proofs.CapturedVariables
import ScriptVM.Proofs.DefinedProperties
import ScriptVM.Proofs.EnumeratedKeys

/-!
# Keys of strings

A string has an index for each of its sixteen-bit units when it is read, enumerated or spread, and
one for each of its characters when it is asked for its keys. The two agree just if no character
lies beyond the basic plane.
-/

namespace ScriptVM

variable {σ : Type}

/-! ## Units and characters -/

namespace Text

theorem length_unitsOfChar (c : Char) :
    (unitsOfChar c).length = if c.toNat < 0x10000 then 1 else 2 := by
  unfold unitsOfChar
  dsimp only
  split <;> rfl

theorem length_units16 (text : String) : (units16 text).length = length16 text := by
  have counts : ∀ (chars : List Char) (start : Nat),
      chars.foldl (fun count c => if c.toNat < 0x10000 then count + 1 else count + 2) start =
        start + (chars.flatMap unitsOfChar).length := by
    intro chars
    induction chars with
    | nil => exact fun _ => rfl
    | cons c rest step =>
        intro start
        rw [List.foldl_cons, step, List.flatMap_cons, List.length_append, length_unitsOfChar]
        split <;> omega
  unfold units16 length16
  rw [String.foldl_eq_foldl_toList, counts, Nat.zero_add]

/-- A character is one unit or two. -/
theorem length_le_length_flatMap (chars : List Char) :
    chars.length <= (chars.flatMap unitsOfChar).length ∧
      (chars.length = (chars.flatMap unitsOfChar).length ↔ ∀ c ∈ chars, c.toNat < 0x10000) := by
  induction chars with
  | nil => simp
  | cons c rest step =>
      obtain ⟨least, exact⟩ := step
      rw [List.flatMap_cons, List.length_append, length_unitsOfChar, List.length_cons,
        List.forall_mem_cons, ← exact]
      split
      · next small => exact ⟨by omega, by omega⟩
      · next beyond => exact ⟨by omega, by omega⟩

/-- A string has at least as many units as characters, and as many just if all characters lie in
the basic plane. -/
theorem length_le_length16 (text : String) :
    text.length <= length16 text ∧
      (text.length = length16 text ↔ ∀ c ∈ text.toList, c.toNat < 0x10000) := by
  rw [← length_units16, ← String.length_toList]
  exact length_le_length_flatMap text.toList

theorem unitAt?_eq
    {text : String}
    {index unit : Nat}
    (stands : (units16 text)[index]? = some unit) :
    unitAt? text index = some (ofUnit unit) := by
  unfold unitAt?
  rw [stands]
  rfl

theorem unitAt?_of_length_le {text : String} {index : Nat} (beyond : length16 text <= index) :
    unitAt? text index = none := by
  unfold unitAt?
  rw [List.getElem?_eq_none (length_units16 text ▸ beyond)]
  rfl

end Text

/-! ## Copies -/

namespace Exec

variable {env : Env σ}

/-- Units are spread over an object one after the other, and only their indices change. -/
theorem spreadUnits
    (unwatched : ∀ seen, env.watch seen = false)
    {target : ObjectId}
    (units : List Nat)
    (start : Nat)
    {machine : Machine σ}
    {object : HeapObject ObjectKind}
    (roomy : machine.Roomy target object)
    (admits : ∀ place, start <= place -> ∀ current,
      machine.getOwnProperty? target (.index place) = some current ->
        current.configurable = true) :
    ∃ after, ((units.zipIdx start).forM fun entry => do
        let _ <- createDataProperty target (.index entry.2) (.string (Text.ofUnit entry.1)) :
          Exec σ Unit) env machine = .ok () after ∧
      machine.ChangesOnly (fun key => ∃ place, start <= place ∧ place < start + units.length ∧
        key = .index place) target after ∧
      ∀ place unit, units[place]? = some unit ->
        after.getOwnProperty? target (.index (start + place)) =
          some (.plain (.string (Text.ofUnit unit))) := by
  induction units generalizing start machine object with
  | nil => exact ⟨machine, rfl, .refl machine, fun _ _ => nofun⟩
  | cons unit rest step =>
      obtain ⟨later, still, there, changes⟩ :=
        roomy.defineRaw (.index start) (.plain (.string (Text.ofUnit unit)))
      have defined := roomy.createDataProperty (admits start (Nat.le_refl _))
        (.string (Text.ofUnit unit)) unwatched
      have apart {place : Nat} (beyond : start < place) :
          PropertyKey.index place ≠ .index start := fun same =>
        Nat.ne_of_gt beyond (PropertyKey.index_injective same)
      obtain ⟨after, spread, rests, set⟩ := step (start + 1) still fun place beyond current held =>
        admits place (Nat.le_of_succ_le beyond) current
          ((changes.property _ (apart beyond)).symm.trans held)
      refine ⟨after, ?_, ?_, fun place other stands => ?_⟩
      · rw [List.zipIdx_cons]
        exact (bind_of_ok _ (bind_of_ok _ defined)).trans spread
      · refine changes.trans rests (fun key same => ⟨start, ?_⟩) fun key same => ?_
        · exact ⟨Nat.le_refl _, by simp, same⟩
        · obtain ⟨place, least, most, same⟩ := same
          exact ⟨place, by omega, by simp only [List.length_cons]; omega, same⟩
      · cases place with
        | zero =>
            cases stands
            rw [Nat.add_zero, rests.property _ fun ⟨place, least, _, same⟩ => apart least same.symm]
            exact there
        | succ place =>
            rw [← set place other stands, Nat.add_right_comm, Nat.add_assoc]

end Exec

/-! ## Lists of keys -/

/-- The names of the first indices. -/
def indexNames (count : Nat) : List Value :=
  (List.range count).map fun place => (PropertyKey.index place).toValue

namespace Builtins

/-- Every key of a string is a name. -/
theorem filter_stringKeys (count : Nat) :
    ((List.range count).map PropertyKey.index ++ [Machine.lengthKey]).filter
        (fun key => !key.isSymbol) =
      (List.range count).map PropertyKey.index ++ [Machine.lengthKey] := by
  refine List.filter_eq_self.2 fun key member => ?_
  rcases List.mem_append.1 member with index | length
  · obtain ⟨place, _, rfl⟩ := List.mem_map.1 index
    rfl
  · cases List.mem_singleton.1 length
    rfl

theorem filter_range (count bound : Nat) :
    (List.range count).filter (fun place => decide (place < bound)) =
      List.range (min count bound) := by
  induction count with
  | zero => rw [Nat.zero_min]; rfl
  | succ count step =>
      rw [List.range_succ, List.filter_append, step]
      by_cases small : count < bound
      · rw [List.filter_singleton, decide_eq_true small, Nat.min_eq_left (Nat.le_of_lt small),
          Nat.min_eq_left small, List.range_succ]
        rfl
      · rw [List.filter_singleton, decide_eq_false small,
          Nat.min_eq_right (Nat.not_lt.1 small),
          Nat.min_eq_right (Nat.le_succ_of_le (Nat.not_lt.1 small))]
        exact List.append_nil _

/-- The indices of a string are enumerable, and its length is not. -/
theorem filter_isEnumerable (machine : Machine σ) (text : String) (count : Nat) :
    ((List.range count).map PropertyKey.index ++ [Machine.lengthKey]).filter
        (isEnumerable machine (.string text)) =
      (List.range (min count PropertyKey.indexBound)).map PropertyKey.index := by
  have shown : (isEnumerable machine (.string text)) ∘ PropertyKey.index =
      fun place => decide (place < PropertyKey.indexBound) := by
    funext place
    show (PropertyKey.index place).arrayIndex?.isSome = _
    by_cases small : place < PropertyKey.indexBound
    · rw [PropertyKey.arrayIndex?_index small, decide_eq_true small]
      rfl
    · rw [PropertyKey.arrayIndex?_index_of_le (Nat.not_lt.1 small), decide_eq_false small]
      rfl
  rw [List.filter_append, List.filter_map, shown, filter_range]
  exact List.append_nil _

end Builtins

namespace Machine

/-- A value is an array of these elements. -/
def HoldsArray (machine : Machine σ) (value : Value) (elements : List Value) : Prop :=
  ∃ id, value = .object id ∧ machine.kind? id = some (.array { elements := elements.toArray })

end Machine

namespace Exec

variable {env : Env σ} {machine : Machine σ} {place : Nat} {text : String}

theorem exists_createArray
    (unwatched : ∀ seen, env.watch seen = false)
    (tidy : machine.heap.Tidy)
    (elements : List Value) :
    ∃ array after, createArray elements env machine = .ok array after ∧
      after.HoldsArray array elements := by
  unfold createArray
  rw [change_of_unwatched unwatched]
  exact ⟨_, _, rfl, _, rfl, Machine.kind?_allocate tidy ..⟩

theorem keys_of_string (text : String) :
    Builtins.keys (.string text) env machine =
      createArray (indexNames (min text.length PropertyKey.indexBound)) env machine := by
  have listed : Builtins.keys (.string text) env machine = createArray
      (((((List.range text.length).map PropertyKey.index ++ [Machine.lengthKey]).filter
        (fun key => !key.isSymbol)).filter
          (Builtins.isEnumerable machine (.string text))).map PropertyKey.toValue) env machine :=
    rfl
  rw [listed, Builtins.filter_stringKeys, Builtins.filter_isEnumerable, List.map_map]
  rfl

theorem getOwnPropertyNames_of_string (text : String) :
    Builtins.getOwnPropertyNames (.string text) env machine =
      createArray (indexNames text.length ++ [.string "length"]) env machine := by
  have listed : Builtins.getOwnPropertyNames (.string text) env machine = createArray
      ((((List.range text.length).map PropertyKey.index ++ [Machine.lengthKey]).filter
        (fun key => !key.isSymbol)).map PropertyKey.toValue) env machine :=
    rfl
  rw [listed, Builtins.filter_stringKeys, List.map_append, List.map_map]
  rfl

/-- A question for an own key converts it first. -/
theorem hasOwnProperty_of_string
    {key : Value}
    {keyed : Machine σ}
    (named : toPropertyKey key env machine = .ok (.index place) keyed)
    (small : place < PropertyKey.indexBound)
    (text : String) :
    Builtins.hasOwnProperty (.string text) key env machine =
        .ok (.boolean (place < text.length)) keyed ∧
      Builtins.propertyIsEnumerable (.string text) key env machine =
        .ok (.boolean (place < text.length)) keyed := by
  have owns : Builtins.ownsIndex text (.index place) = decide (place < text.length) := by
    unfold Builtins.ownsIndex
    rw [PropertyKey.arrayIndex?_index small]
    rfl
  constructor
  · refine (bind_of_ok _ named).trans ?_
    show EStateM.Result.ok (Value.boolean (_ || _)) keyed = _
    rw [PropertyKey.index_ne_lengthKey small, owns]
    rfl
  · refine (bind_of_ok _ named).trans ?_
    show EStateM.Result.ok (Value.boolean _) keyed = _
    rw [owns]

theorem getProperty_of_unit
    {place unit : Nat}
    (stands : (Text.units16 text)[place]? = some unit)
    (small : place < PropertyKey.indexBound) :
    getProperty (.string text) (.index place) env machine =
      .ok (.string (Text.ofUnit unit)) machine := by
  have own : Machine.stringProperty? text (.index place) = some (.string (Text.ofUnit unit)) := by
    unfold Machine.stringProperty?
    rw [PropertyKey.index_ne_lengthKey small, PropertyKey.arrayIndex?_index small]
    show ((Text.unitAt? text place).map Value.string) = _
    rw [Text.unitAt?_eq stands]
    rfl
  unfold getProperty readBy
  dsimp only
  rw [own]
  rfl

theorem getProperty_beyond_units
    (beyond : Text.length16 text <= place)
    (small : place < PropertyKey.indexBound) :
    getProperty (.string text) (.index place) env machine =
      getWithReceiver machine.intrinsics.stringPrototype (.index place) (.string text) env
        machine := by
  have missing : Machine.stringProperty? text (.index place) = none := by
    unfold Machine.stringProperty?
    rw [PropertyKey.index_ne_lengthKey small, PropertyKey.arrayIndex?_index small]
    show ((Text.unitAt? text place).map Value.string) = _
    rw [Text.unitAt?_of_length_le beyond]
    rfl
  unfold getProperty readBy
  dsimp only
  rw [missing]
  rfl

/-- An enumeration of a string begins with its indices and goes on along the chain of its
prototype. -/
theorem enumerateKeys_of_string
    {objects : List ObjectId}
    (heads : machine.Heads machine.intrinsics.stringPrototype objects)
    (bare : ∀ object ∈ objects, machine.isProxy object = false)
    (short : objects.length <= machine.config.maxPrototypeChain)
    (exact : ∀ object ∈ objects, machine.ListsOwnKeys object)
    (text : String) :
    let indices := Machine.stringIndices text
    enumerateKeys (.string text) env machine =
      .ok ((indices ++ machine.visitedNames (fun name => indices.contains name) objects).map
        .string) machine := by
  intro indices
  have walks := enumerateFrom_of_heads heads bare machine.config.maxPrototypeChain
    { visited := indices.toArray, met := indices } env
  rw [Machine.bounded, if_neg (Nat.not_lt.2 short)] at walks
  have visited := Machine.foldl_meetOwnKeys (fun name => indices.contains name) exact
    { visited := indices.toArray, met := indices } fun name => List.contains_iff_mem.symm
  rw [← visited]
  exact bind_of_ok _ walks

end Exec

namespace Machine

/-- The own keys of a string: so many count where it is asked for them, and so many where it is
read, enumerated or spread. -/
structure StringKeys (machine : Machine σ) (env : Env σ) (text : String)
    (asked read : Nat) : Prop where
  counted : (Text.units16 text).length = read
  length : Exec.getProperty (.string text) lengthKey env machine = .ok (.ofNat read) machine
  owned : ∀ place < PropertyKey.indexBound, ∀ key keyed,
    Exec.toPropertyKey key env machine = .ok (.index place) keyed ->
      Builtins.hasOwnProperty (.string text) key env machine =
          .ok (.boolean (place < asked)) keyed ∧
        Builtins.propertyIsEnumerable (.string text) key env machine =
          .ok (.boolean (place < asked)) keyed
  keys : ∃ array after, Builtins.keys (.string text) env machine = .ok array after ∧
    after.HoldsArray array (indexNames (min asked PropertyKey.indexBound))
  names : ∃ array after, Builtins.getOwnPropertyNames (.string text) env machine =
      .ok array after ∧
    after.HoldsArray array (indexNames asked ++ [.string "length"])
  /-- An index below the length reads a unit, and any other one is looked up in the prototype. -/
  units : ∀ place < PropertyKey.indexBound,
    (∀ unit, (Text.units16 text)[place]? = some unit ->
      Exec.getProperty (.string text) (.index place) env machine =
        .ok (.string (Text.ofUnit unit)) machine) ∧
    (read <= place -> Exec.getProperty (.string text) (.index place) env machine =
      Exec.getWithReceiver machine.intrinsics.stringPrototype (.index place) (.string text) env
        machine)
  /-- A loop over the keys visits all indices in order, and then names that it inherits. -/
  visits : ∀ objects, machine.Heads machine.intrinsics.stringPrototype objects ->
    (∀ object ∈ objects, machine.isProxy object = false) ->
    objects.length <= machine.config.maxPrototypeChain ->
    (∀ object ∈ objects, ∀ store, machine.kind? object = some (.array store) ->
      store.elements.size <= PropertyKey.indexBound) ->
    ∃ inherited : List String,
      Exec.enumerateKeys (.string text) env machine =
        .ok (indexNames read ++ inherited.map .string) machine ∧
      ∀ name, name ∈ inherited ↔ (∀ place < read, .string name ≠ PropertyKey.index place) ∧
        ∃ place holder, machine.OwnsFirst objects (.string name) place holder ∧
          machine.ownsEnumerable holder (.string name) = true
  /-- A copy into an object that takes them defines exactly the indices. -/
  spreads : ∀ target, machine.isProxy target = false -> machine.arrayStatus? target = none ->
    machine.heap.isExtensible target = true ->
    (∀ place current, machine.getOwnProperty? target (.index place) = some current ->
      current.configurable = true) ->
    ∃ after, Exec.copyDataProperties target (.string text) env machine = .ok () after ∧
      machine.ChangesOnly (fun key => ∃ place < read, key = .index place) target after ∧
      ∀ place unit, (Text.units16 text)[place]? = some unit ->
        after.getOwnProperty? target (.index place) =
          some (.plain (.string (Text.ofUnit unit)))

/-- The names of its indices hide those that a string inherits. -/
theorem contains_stringIndices (text name : String) :
    (stringIndices text).contains name = false ↔
      ∀ place < Text.length16 text, PropertyKey.string name ≠ .index place := by
  have named (place : Nat) : (PropertyKey.index place).text = name ↔
      PropertyKey.string name = .index place :=
    ⟨fun same => same ▸ rfl, fun same => (congrArg PropertyKey.text same).symm⟩
  rw [← Bool.not_eq_true, List.contains_iff_mem, stringIndices, List.mem_map]
  simp only [List.mem_range, named, not_exists, not_and]

end Machine

/-- In all that an embedder can come across, the keys of a string are the indices of its units
where it is read, enumerated or spread, and those of its characters where it is asked for them.
There are as many of both just if all characters lie in the basic plane. -/
theorem string_keys_count_units_or_characters
    {sight : Sight σ}
    (visible : sight.Visible)
    (text : String)
    (fuel : Nat) :
    sight.machine.StringKeys (Env.ofFuel fuel) text text.length (Text.length16 text) ∧
      text.length <= Text.length16 text ∧
      (text.length = Text.length16 text ↔ ∀ c ∈ text.toList, c.toNat < 0x10000) := by
  obtain ⟨layout, laid⟩ := visible.laid
  have unwatched : ∀ seen : Sight σ, (Env.ofFuel fuel).watch seen = false := fun _ => rfl
  refine ⟨?_, Text.length_le_length16 text⟩
  constructor
  case counted => exact Text.length_units16 text
  case length => rfl
  case owned =>
    exact fun place small key keyed named => Exec.hasOwnProperty_of_string named small text
  case keys =>
    rw [Exec.keys_of_string]
    exact Exec.exists_createArray unwatched laid.tidy _
  case names =>
    rw [Exec.getOwnPropertyNames_of_string]
    exact Exec.exists_createArray unwatched laid.tidy _
  case units =>
    exact fun place small => ⟨fun unit stands => Exec.getProperty_of_unit stands small,
      fun beyond => Exec.getProperty_beyond_units beyond small⟩
  case visits =>
    intro objects heads bare short within
    have exact : ∀ object ∈ objects, sight.machine.ListsOwnKeys object :=
      fun object member => visible.listsOwnKeys (bare object member) (within object member)
    refine ⟨sight.machine.visitedNames
      (fun name => (Machine.stringIndices text).contains name) objects, ?_, fun name => ?_⟩
    · rw [Exec.enumerateKeys_of_string heads bare short exact, List.map_append,
        Machine.stringIndices, List.map_map]
      rfl
    · rw [Machine.mem_visitedNames exact]
      exact and_congr_left' (Machine.contains_stringIndices text name)
  case spreads =>
    intro target bare simple extensible admits
    obtain ⟨object, roomy⟩ := Machine.roomy_of_extensible laid bare simple extensible
    obtain ⟨after, spread, changes, set⟩ := Exec.spreadUnits unwatched (Text.units16 text) 0 roomy
      fun place _ => admits place
    refine ⟨after, spread, changes.trans (.refl after) (fun key altered => ?_) fun _ => False.elim,
      fun place unit stands => ?_⟩
    · obtain ⟨place, _, most, same⟩ := altered
      rw [Nat.zero_add, Text.length_units16] at most
      exact ⟨place, most, same⟩
    · rw [← set place unit stands, Nat.zero_add]

/-- The keys of a text in the basic plane are counted alike everywhere. -/
theorem string_keys_count_units_or_characters_newMachine :
    ∃ sight : Sight Unit, sight.Visible ∧
      sight.machine.StringKeys (Env.ofFuel 9) "ab" 2 2 ∧
      ∃ keyed, Exec.toPropertyKey (.number 1) (Env.ofFuel 9) sight.machine =
        .ok (.index 1) keyed := by
  let sight : Sight Unit := { machine := Builtins.newMachine {} () }
  have visible : sight.Visible := .between (.new {} ())
  obtain ⟨keys, -⟩ := string_keys_count_units_or_characters visible "ab" 9
  have characters : "ab".length = 2 := by decide
  have units : Text.length16 "ab" = 2 := by
    rw [← Text.length_units16]
    decide
  rw [characters, units] at keys
  exact ⟨sight, visible, keys, sight.machine, congrArg (EStateM.Result.ok · _) (by decide +kernel)⟩

/-- A character beyond the basic plane is two units, of which the string does not own the second
when it is asked. -/
theorem string_disowns_second_unit :
    let machine := Builtins.newMachine {} ()
    let text := String.singleton (Char.ofNat 0x1F600)
    Exec.getProperty (.string text) Machine.lengthKey (Env.ofFuel 9) machine =
        .ok (.ofNat 2) machine ∧
      Exec.getProperty (.string text) (.index 1) (Env.ofFuel 9) machine =
        .ok (.string "\uFFFD") machine ∧
      Builtins.hasOwnProperty (.string text) (.string "1") (Env.ofFuel 9) machine =
        .ok (.boolean false) machine := by
  intro machine text
  have units : Text.units16 text = [0xD83D, 0xDE00] := by decide
  have length : Text.length16 text = 2 := by
    rw [← Text.length_units16, units]
    rfl
  have second : (Text.units16 text)[1]? = some 0xDE00 := by
    rw [units]
    rfl
  have named : Exec.toPropertyKey (.string "1") (Env.ofFuel 9) machine =
      .ok (.index 1) machine := rfl
  have asked := (Exec.hasOwnProperty_of_string named (by decide) text).1
  have single : text.length = 1 := by decide
  rw [single] at asked
  refine ⟨?_, ?_, asked⟩
  · rw [← length]
    rfl
  · rw [Exec.getProperty_of_unit second (by decide)]
    rfl

end ScriptVM

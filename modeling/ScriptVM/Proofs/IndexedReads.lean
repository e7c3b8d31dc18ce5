import ScriptVM.Builtins.Install
import ScriptVM.Proofs.KeyOrders
import ScriptVM.Proofs.Proxies
import ScriptVM.Proofs.WholeTexts

/-!
# Indexed reads

An array index is named by one key, and a number that is one is converted to that key. A read by a
computed key may therefore take two shortcuts. A number that is an array index is not converted to
a text, and an element of an array is not searched for. Neither can be told from the plain way:
check the target, convert the key, and read the property that it names.
-/

namespace ScriptVM

variable {σ : Type}

/-! ## Array indices -/

namespace PropertyKey

variable {place : Nat}

/-- A key names an array index if it is the key of that index, and only then. -/
theorem arrayIndex?_eq_some_iff {key : PropertyKey} {place : Nat} :
    key.arrayIndex? = some place ↔ place < indexBound ∧ key = index place := by
  constructor
  · intro named
    exact ⟨lt_of_arrayIndex? named, (index_of_arrayIndex? named).symm⟩
  · rintro ⟨small, rfl⟩
    exact arrayIndex?_index small

/-- The text of an index has one to ten digits and nothing else, and no zero in front. -/
theorem text_of_arrayIndex?
    {name : String}
    (named : (string name).arrayIndex? = some place) :
    name ≠ "" ∧ (∀ c ∈ name.toList, c.isDigit = true) ∧ name.utf8ByteSize <= 10 ∧
      (name.toList.head? = some '0' -> name = "0") := by
  unfold arrayIndex? at named
  dsimp only at named
  split at named
  · next short =>
      unfold canonicalIndex? at named
      split_ifs at named with text canonical
      simp only [Bool.or_eq_true, List.isEmpty_iff, Bool.not_eq_true', List.all_eq_false,
        not_or, not_exists, not_and, not_not] at text
      refine ⟨?_, text.2, short, ?_⟩
      · rintro rfl
        exact text.1 rfl
      · intro head
        rw [head] at canonical
        obtain ⟨c, single⟩ := List.length_eq_one_iff.1 (by simpa using canonical)
        rw [single] at head
        obtain rfl := Option.some.inj head
        exact String.toList_injective single
  · cases named

/-- The text of a whole number below the bound is the text of an index. -/
theorem index_of_isWhole
    {value : Float}
    (whole : Number.IsWhole value place)
    (small : place < indexBound) :
    string (Number.toText value) = index place := by
  rw [whole.toText (Nat.lt_trans small (by decide))]
  rfl

end PropertyKey

/-- A number that is whole and below the bound is converted to the key of its index. -/
theorem Exec.toPropertyKey_of_isWhole
    {value : Float}
    {place : Nat}
    (whole : Number.IsWhole value place)
    (small : place < PropertyKey.indexBound)
    (env : Env σ)
    (machine : Machine σ) :
    toPropertyKey (.number value) env machine = .ok (.index place) machine := by
  rw [← PropertyKey.index_of_isWhole whole small]
  rfl

/-- Array indices and the keys that name them are the same thing: each index has one key, which
is read back as that index, no other text is read as one, and a number is converted to the key
of the index that it is. -/
theorem array_indices_have_one_key :
    (∀ key place, PropertyKey.arrayIndex? key = some place ↔
      place < PropertyKey.indexBound ∧ key = .index place) ∧
    Function.Injective PropertyKey.index ∧
    (∀ name place, (PropertyKey.string name).arrayIndex? = some place ->
      name ≠ "" ∧ (∀ c ∈ name.toList, c.isDigit = true) ∧ name.utf8ByteSize <= 10 ∧
        (name.toList.head? = some '0' -> name = "0")) ∧
    (∀ place < 2 ^ 32, (PropertyKey.index place).arrayIndex? = some place ↔ place ≠ 2 ^ 32 - 1) ∧
    (∀ (env : Env σ) (machine : Machine σ) value place, place < PropertyKey.indexBound ->
      (value == Float.ofNat place) = true ->
        Exec.toPropertyKey (.number value) env machine = .ok (.index place) machine) ∧
    (∀ (env : Env σ) (machine : Machine σ) value, 0 <= value ->
      value < Float.ofNat PropertyKey.indexBound -> Number.isIntegral value = true ->
        (Number.truncate value).toNat < PropertyKey.indexBound ∧
          Exec.toPropertyKey (.number value) env machine =
            .ok (.index (Number.truncate value).toNat) machine) := by
  refine ⟨fun _ _ => PropertyKey.arrayIndex?_eq_some_iff, PropertyKey.index_injective,
    fun _ _ => PropertyKey.text_of_arrayIndex?, ?_, ?_, ?_⟩
  · intro place word
    rw [PropertyKey.arrayIndex?_eq_some_iff, and_iff_left rfl]
    have bound : PropertyKey.indexBound = 2 ^ 32 - 1 := rfl
    omega
  · intro env machine value place small equal
    have whole := Number.isWhole_of_beq_ofNat (Nat.lt_trans small (by decide)) equal
    exact Exec.toPropertyKey_of_isWhole whole small env machine
  · intro env machine value low high integral
    obtain ⟨small, whole⟩ := Number.isWhole_of_lt_ofNat (by decide) (by decide) low high integral
    exact ⟨small, Exec.toPropertyKey_of_isWhole whole small env machine⟩

/-- The greatest index and the negative zero have keys of their own, the next word has none. -/
theorem array_indices_have_one_key_greatest :
    (PropertyKey.string "4294967294").arrayIndex? = some 4294967294 ∧
      (PropertyKey.index 4294967295).arrayIndex? ≠ some 4294967295 ∧
      ∀ machine : Machine Unit,
        Exec.toPropertyKey (.number 4294967294) (Env.ofFuel 1) machine =
            .ok (.index 4294967294) machine ∧
          Exec.toPropertyKey (.number (-0.0)) (Env.ofFuel 1) machine = .ok (.index 0) machine := by
  obtain ⟨named, -, -, words, equal, integral⟩ := array_indices_have_one_key (σ := Unit)
  have greatest : (4294967294 : Float) == Float.ofNat 4294967294 := by decide +kernel
  refine ⟨(named _ _).2 ⟨by decide, by decide⟩, ?_, fun machine => ⟨?_, ?_⟩⟩
  · exact fun read => (words 4294967295 (by decide)).1 read rfl
  · exact equal _ machine _ _ (by decide) greatest
  · exact (integral _ machine (-0.0) (by decide +kernel) (by decide +kernel) (by decide +kernel)).2

/-! ## Keys -/

/-- A number that is read as an index is below the bound of indices, and its text names the
property of the index. -/
theorem Exec.fastIndex?_eq_some
    {key : Value}
    {index : Nat}
    (fast : fastIndex? key = some index) :
    index < PropertyKey.indexBound ∧ ∃ value, key = .number value ∧
      PropertyKey.string (Number.toText value) = .index index := by
  unfold fastIndex? at fast
  split at fast
  · next value =>
      split at fast
      · next checked =>
          rw [Bool.and_eq_true, Bool.and_eq_true, decide_eq_true_iff, decide_eq_true_iff] at checked
          obtain ⟨⟨low, high⟩, integral⟩ := checked
          have below : value < Float.ofNat PropertyKey.indexBound := high
          obtain ⟨small, whole⟩ :=
            Number.isWhole_of_lt_ofNat (by decide) (by decide) low below integral
          obtain rfl := Option.some.inj fast
          exact ⟨small, value, rfl, PropertyKey.index_of_isWhole whole small⟩
      · cases fast
  · cases fast

/-- Both zeros are indices, the bound of indices is none. -/
example : (Exec.fastIndex? (.number (-0.0)), Exec.fastIndex? (.number 4294967294),
    Exec.fastIndex? (.number 4294967295), Exec.fastIndex? (.number 0.5)) =
      (some 0, some 4294967294, none, none) := by
  decide +kernel

namespace Machine

variable {machine : Machine σ}

/-- An array has its elements as own properties, except where they are missing. -/
theorem ordinaryOwnProperty?_index
    {id : ObjectId}
    {store : ArrayStore}
    (array : machine.kind? id = some (.array store))
    {index : Nat}
    (small : index < PropertyKey.indexBound)
    {value : Value}
    (element : store.elements[index]? = some value)
    (present : value.isHole = false) :
    machine.ordinaryOwnProperty? id (.index index) =
      some (.ofData value (!store.frozen) true (!store.frozen)) := by
  unfold ordinaryOwnProperty?
  rw [array]
  dsimp only
  rw [PropertyKey.arrayIndex?_index small]
  dsimp only
  rw [element]
  cases value with
  | hole => cases present
  | _ => rfl

/-- A new array has the elements that it was given. -/
theorem kindOf?_createArray (tidy : machine.heap.Tidy) (elements : Array Value) :
    (machine.createArray elements).2.kindOf? (machine.createArray elements).1 =
      some (.array { elements }) :=
  congrArg (Option.map HeapObject.payload) (tidy.allocated_live _ _)

end Machine

namespace Exec

variable {env : Env σ} {machine : Machine σ} {target : Value}

/-- Read a property by a computed key: the target must not be undefined or null, and the key is
converted before anything is searched. -/
def readConverted (target key : Value) : Exec σ Value := do
  if target.isNullish then
    raise (.typeError
      ("Cannot read properties of " ++ target.text ++ " (reading '" ++ key.text ++ "')"))
  getProperty target (<- toPropertyKey key)

/-! ## The two ways -/

/-- An element that is there is what a search finds. -/
theorem getProperty_of_element
    (roomy : 1 <= machine.config.maxPrototypeChain)
    {store : ArrayStore}
    (array : machine.kindOf? target = some (.array store))
    {index : Nat}
    (small : index < PropertyKey.indexBound)
    {value : Value}
    (element : store.elements[index]? = some value)
    (present : value.isHole = false) :
    getProperty target (.index index) env machine = .ok value machine := by
  obtain ⟨id, named, array⟩ := Option.bind_eq_some_iff.1 array
  have own := Machine.ordinaryOwnProperty?_index array small element present
  obtain ⟨limit, chain⟩ := Nat.exists_eq_add_of_le' roomy
  have found : machine.lookup (.index index) machine.config.maxPrototypeChain id =
      .found (.ofData value (!store.frozen) true (!store.frozen)) := by
    rw [chain, Machine.lookup, array]
    dsimp only
    rw [own]
  unfold getProperty
  rw [readBy_of_object named]
  unfold getWithReceiver
  rw [ask_bind, found]
  rfl

/-- A target that has no properties is refused with the same message, whichever way it is
found out. -/
theorem getProperty_of_nullish
    (nullish : target.isNullish = true)
    (name : String) :
    getProperty target (.string name) env machine =
      .error (.thrown (.typeError
        ("Cannot read properties of " ++ target.text ++ " (reading '" ++ name ++ "')"))) machine := by
  cases target with
  | undefined => rfl
  | null => rfl
  | _ => cases nullish

/-- A key that converts to its own text reads the property of that name. -/
theorem readConverted_of_text
    (target : Value)
    {key : Value}
    (converts : toPropertyKey key = (pure (.string key.text) : Exec σ PropertyKey)) :
    readConverted target key env machine = getProperty target (.string key.text) env machine := by
  unfold readConverted
  rw [converts]
  cases nullish : target.isNullish with
  | false => rfl
  | true => exact (getProperty_of_nullish nullish key.text).symm

theorem getIndexed_eq_readConverted
    (env : Env σ)
    (roomy : 1 <= machine.config.maxPrototypeChain)
    (target key : Value) :
    getIndexed target key env machine = readConverted target key env machine := by
  unfold getIndexed
  cases fast : fastIndex? key with
  | none => rfl
  | some index =>
      obtain ⟨small, value, rfl, named⟩ := fastIndex?_eq_some fast
      rw [readConverted_of_text target rfl]
      dsimp only [Value.text]
      rw [named]
      rw [ask_bind]
      cases array : machine.kindOf? target with
      | none => rfl
      | some kind =>
          cases kind with
          | array store =>
              dsimp only
              cases element : store.elements[index]?.filter fun value => !value.isHole with
              | none => rfl
              | some value =>
                  rw [Option.filter_eq_some_iff, Bool.not_eq_true'] at element
                  exact (getProperty_of_element roomy array small element.1 element.2).symm
          | _ => rfl

theorem bind_congr_left
    {α β : Type}
    {first second : Exec σ α}
    {next : α -> Exec σ β}
    (same : first env machine = second env machine) :
    (first >>= next) env machine = (second >>= next) env machine := by
  show EStateM.bind (first env) _ machine = EStateM.bind (second env) _ machine
  unfold EStateM.bind
  rw [same]

/-- A register is read without a change, or the watch interrupts the run. -/
theorem read_bind_congr
    {β : Type}
    {first second : Value -> Exec σ β}
    (register : Register)
    (same : ∀ value, first value env machine = second value env machine) :
    (read register >>= first) env machine = (read register >>= second) env machine := by
  have ran : (∃ stop, read register env machine = .error stop machine) ∨
      read register env machine = .ok (machine.register register) machine := by
    unfold read use
    cases seen : env.watch { machine, used := some (.register register) } with
    | true => exact .inl ⟨_, bind_of_error _ (if_pos seen)⟩
    | false => exact .inr (bind_of_ok _ (if_neg (by simp [seen])))
  rcases ran with ⟨stop, ran⟩ | ran
  · rw [bind_of_error _ ran, bind_of_error _ ran]
  · rw [bind_of_ok _ ran, bind_of_ok _ ran, same]

/-- The instruction that reads by a computed key behaves as the plain way: the same result, the
same exception and the same changes. A number reads the property that its text names. -/
theorem indexed_reads_convert
    (env : Env σ)
    (roomy : 1 <= machine.config.maxPrototypeChain) :
    (∀ target key, getIndexed target key env machine = readConverted target key env machine) ∧
    (∀ template destination object key,
      act template (.getIndexed destination object key) env machine =
        (do write destination (<- readConverted (<- read object) (<- read key)) : Exec σ Unit)
          env machine) ∧
    (∀ target value, getIndexed target (.number value) env machine =
      getIndexed target (.string (Number.toText value)) env machine) := by
  have plain := getIndexed_eq_readConverted env roomy
  refine ⟨plain, fun template destination object key => ?_, fun target value => ?_⟩
  · exact read_bind_congr object fun target => read_bind_congr key fun key =>
      bind_congr_left (plain target key)
  · rw [plain, plain, readConverted_of_text target rfl, readConverted_of_text target rfl]
    rfl

/-- A new machine with an array of one element and a hole. -/
def holedArray : Value × Machine Unit :=
  (Builtins.newMachine {} ()).createArray #[.null, .hole]

/-- In a new machine an element of an array is read alike in both ways. -/
theorem indexed_reads_convert_holedArray :
    1 <= holedArray.2.config.maxPrototypeChain ∧
      getIndexed holedArray.1 (.number (-0.0)) (Env.ofFuel 1) holedArray.2 =
        .ok .null holedArray.2 ∧
      readConverted holedArray.1 (.number (-0.0)) (Env.ofFuel 1) holedArray.2 =
        .ok .null holedArray.2 ∧
      getIndexed holedArray.1 (.string "0") (Env.ofFuel 1) holedArray.2 =
        .ok .null holedArray.2 := by
  have roomy : 1 <= holedArray.2.config.maxPrototypeChain := by decide +kernel
  obtain ⟨plain, -, texts⟩ := indexed_reads_convert (Env.ofFuel 1) roomy
  have zero : Number.toText (-0.0) = "0" := by decide +kernel
  have array : holedArray.2.kindOf? holedArray.1 =
      some (.array { elements := #[.null, .hole] }) :=
    Machine.kindOf?_createArray (Builtins.newMachine_tidy {} ()) _
  have small : 0 < PropertyKey.indexBound := by decide
  have first : (#[.null, .hole] : Array Value)[0]? = some .null := rfl
  have read : getIndexed holedArray.1 (.string "0") (Env.ofFuel 1) holedArray.2 =
      .ok .null holedArray.2 :=
    (plain _ _).trans ((readConverted_of_text _ rfl).trans
      (getProperty_of_element roomy array small first rfl))
  have same := texts holedArray.1 (-0.0)
  rw [zero, read] at same
  exact ⟨roomy, same, (plain _ _).symm.trans same, read⟩

end Exec
end ScriptVM

import ScriptVM.Proofs.Numerals
import ScriptVM.Proofs.Pins
import ScriptVM.Proofs.TableKeys

/-!
# Exact and ordered keys

The own keys of an object are those under which it has a property, each once: the indices
ascending, then strings, then symbols, the latter two by how long the object has them.
-/

namespace ScriptVM

variable {σ : Type}

/-! ## Indices -/

namespace PropertyKey

/-- The indices of elements below the bound are array indices. -/
theorem arrayIndex?_index {place : Nat} (small : place < indexBound) :
    (index place).arrayIndex? = some place := by
  have digits : ∀ c ∈ Number.digitChars place, c.isDigit = true := fun c member =>
    Nat.isDigit_of_mem_toDigits (by decide) (by decide) member
  have short : (String.ofList (Number.digitChars place)).utf8ByteSize <= 10 := by
    rw [Number.utf8ByteSize_of_digits digits]
    refine (Nat.length_toDigits_le_iff (by decide) (by decide)).2 (Nat.lt_trans small ?_)
    decide
  unfold arrayIndex? index
  dsimp only
  rw [if_pos short, String.toList_ofList]
  unfold canonicalIndex?
  rw [if_neg ?_, if_neg ?_, Number.digitsValue_digitChars]
  · exact if_pos small
  · rw [Bool.and_eq_true, bne_iff_ne, beq_iff_eq]
    exact fun both => Number.head?_digitChars both.1 both.2
  · rw [Bool.or_eq_true, not_or, List.isEmpty_iff, Bool.not_eq_true', Bool.not_eq_false,
      List.all_eq_true]
    exact ⟨Nat.toDigits_ne_nil, digits⟩

theorem index_injective : Function.Injective index := by
  intro first second same
  have chars := congrArg String.toList (PropertyKey.string.inj same)
  rw [String.toList_ofList, String.toList_ofList] at chars
  rw [← Number.digitsValue_digitChars first, chars, Number.digitsValue_digitChars]

theorem lt_of_arrayIndex?
    {key : PropertyKey}
    {place : Nat}
    (named : key.arrayIndex? = some place) :
    place < indexBound := by
  cases key with
  | symbol _ => cases named
  | string name =>
      unfold arrayIndex? canonicalIndex? at named
      grind

theorem index_ne_lengthKey {place : Nat} (small : place < indexBound) :
    (index place == Machine.lengthKey) = false := by
  refine beq_eq_false_iff_ne.2 fun same => ?_
  have none : Machine.lengthKey.arrayIndex? = none := by decide
  rw [← same, arrayIndex?_index small] at none
  cases none

theorem arrayIndex?_index_of_le {place : Nat} (large : indexBound <= place) :
    (index place).arrayIndex? = none := by
  cases named : (index place).arrayIndex? with
  | none => rfl
  | some other =>
      obtain rfl := index_injective (index_of_arrayIndex? named)
      exact absurd (lt_of_arrayIndex? named) (Nat.not_lt.2 large)

end PropertyKey

/-! ## The order in which keys came -/

namespace Machine

/-- For how many machines, up to the latest one, an object has had a property of a key without a
break. -/
def standing (machines : List (Machine σ)) (id : ObjectId) (key : PropertyKey) : Nat :=
  (machines.takeWhile fun machine => (machine.getOwnProperty? id key).isSome).length

variable {machine : Machine σ} {machines : List (Machine σ)} {id : ObjectId} {key : PropertyKey}

theorem standing_of_owned (owned : (machine.getOwnProperty? id key).isSome = true) :
    standing (machine :: machines) id key = standing machines id key + 1 := by
  simp [standing, owned]

theorem standing_of_missing (missing : machine.getOwnProperty? id key = none) :
    standing (machine :: machines) id key = 0 := by
  simp [standing, missing]

end Machine

namespace HeapObject

/-- The length of an array, and the keys of the table in the order in which they came. -/
def arrivals (object : HeapObject ObjectKind) : List PropertyKey :=
  (if object.payload.isArray then [Machine.lengthKey] else []) ++
    object.properties.keys.filter object.tells

variable {before after : HeapObject ObjectKind}

theorem arrivals_sublist
    (kind : after.payload.isArray = before.payload.isArray)
    (keys : after.properties.keys.Sublist before.properties.keys) :
    after.arrivals.Sublist before.arrivals := by
  have same : after.tells = before.tells := by
    funext key
    unfold tells
    rw [kind]
  unfold arrivals
  rw [kind, same]
  exact (List.Sublist.refl _).append (keys.filter _)

/-- A key that is added comes at the end. -/
theorem arrivals_added
    {key : PropertyKey}
    (payload : after.payload = before.payload)
    (keys : after.properties.keys = before.properties.keys ++ [key]) :
    after.arrivals = before.arrivals ∨
      before.Tells key ∧ after.arrivals = before.arrivals ++ [key] := by
  have same : after.tells = before.tells := by
    funext key
    unfold tells
    rw [payload]
  unfold arrivals
  rw [payload, same, keys, List.filter_append, ← List.append_assoc, ← tells_iff]
  cases told : before.tells key with
  | true => exact .inr ⟨rfl, by rw [List.filter_singleton, told]; rfl⟩
  | false => exact .inl (by rw [List.filter_singleton, told]; exact List.append_nil _)

end HeapObject

/-- What one change makes of the keys that an object has got: some may be lost, one may be added
at the end, or the object is new and has none but a length. -/
theorem SlotChange.arrivals
    {allowed : PropertyKey -> Prop}
    {free : Prop}
    {before : Option (HeapObject ObjectKind)}
    {object : HeapObject ObjectKind}
    (change : SlotChange allowed free before (some object)) :
    object.arrivals.length <= 1 ∨
      ∃ earlier, before = some earlier ∧ earlier.payload.isProxy = object.payload.isProxy ∧
        (object.arrivals.Sublist earlier.arrivals ∨
          ∃ key ∉ earlier.properties.keys, earlier.Tells key ∧
            object.arrivals = earlier.arrivals ++ [key]) := by
  cases change with
  | same => exact .inr ⟨object, rfl, rfl, .inl (.refl _)⟩
  | made shape prototype payload =>
      refine .inl ?_
      unfold HeapObject.arrivals
      split
      · exact Nat.le_refl 1
      · exact Nat.zero_le 1
  | rewritten earlier _ payload keys =>
      exact .inr ⟨earlier, rfl, by rw [payload],
        .inl (HeapObject.arrivals_sublist (by rw [payload]) (keys ▸ .refl _))⟩
  | added earlier _ key payload fresh _ keys =>
      refine .inr ⟨earlier, rfl, by rw [payload], ?_⟩
      rcases HeapObject.arrivals_added payload keys with same | ⟨tells, added⟩
      · exact .inl (same ▸ .refl _)
      · exact .inr ⟨key, fresh, tells, added⟩
  | removed earlier _ payload keys =>
      exact .inr ⟨earlier, rfl, by rw [payload],
        .inl (HeapObject.arrivals_sublist (by rw [payload]) keys)⟩
  | evolved earlier payload evolves =>
      have kinds : payload.isArray = earlier.payload.isArray ∧
          payload.isProxy = earlier.payload.isProxy := by
        generalize earlier.payload = first at evolves
        cases evolves <;> exact ⟨rfl, rfl⟩
      exact .inr ⟨earlier, rfl, kinds.2.symm,
        .inl (HeapObject.arrivals_sublist kinds.1 (.refl _))⟩

namespace Machine

variable {machine : Machine σ} {id : ObjectId} {object : HeapObject ObjectKind}
  {key : PropertyKey}

theorem getOwnProperty?_of_tells
    (live : machine.heap.get? id = some object)
    (bare : object.payload.isProxy = false)
    (tells : object.Tells key) :
    machine.getOwnProperty? id key = object.properties.get? key := by
  have itself : machine.isProxy id = false := by
    unfold isProxy
    rw [kind?_of_live live]
    exact bare
  rw [getOwnProperty?_of_behind (behindProxies?_of_bare itself),
    ordinaryOwnProperty?_of_tells live tells]

theorem owned_of_mem_arrivals
    (live : machine.heap.get? id = some object)
    (bare : object.payload.isProxy = false)
    (listed : key ∈ object.arrivals) :
    (machine.getOwnProperty? id key).isSome = true := by
  unfold HeapObject.arrivals at listed
  rcases List.mem_append.1 listed with length | table
  · split at length
    · next array =>
        obtain rfl := List.mem_singleton.1 length
        have itself : machine.isProxy id = false := by
          unfold isProxy
          rw [kind?_of_live live]
          exact bare
        rw [getOwnProperty?_of_behind (behindProxies?_of_bare itself)]
        cases payload : object.payload with
        | array store =>
            rw [ordinaryOwnProperty?_of_length
              ((kind?_of_live live).trans (congrArg some payload))]
            rfl
        | _ =>
            rw [payload] at array
            cases array
    · cases length
  · obtain ⟨member, tells⟩ := List.mem_filter.1 table
    obtain ⟨property, held⟩ := PropertyTable.exists_get?_of_mem member
    rw [getOwnProperty?_of_tells live bare (HeapObject.tells_iff.1 tells), held]
    rfl

end Machine

/-- Keys come at the end: of two that an object has without a break, the first one in the list
has been there for longer. -/
theorem Stage.Trail.arrivals_ordered
    {stage : Stage σ}
    {machines : List (Machine σ)}
    (trail : stage.Trail machines)
    {id : ObjectId}
    {object : HeapObject ObjectKind}
    (live : stage.machine.heap.get? id = some object)
    (bare : object.payload.isProxy = false) :
    object.arrivals.Pairwise fun first second =>
      Machine.standing machines id second < Machine.standing machines id first := by
  induction trail generalizing object with
  | start => cases live
  | @step before after machines trail transition earlier =>
      have change := transition.slot trail.tidy id
      rw [live] at change
      have grown {key : PropertyKey} (listed : key ∈ object.arrivals) :
          Machine.standing (after.machine :: machines) id key =
            Machine.standing machines id key + 1 :=
        Machine.standing_of_owned (Machine.owned_of_mem_arrivals live bare listed)
      rcases change.arrivals with single | ⟨first, held, kind, still⟩
      · match object.arrivals, single with
        | [], _ => exact .nil
        | [_], _ => exact List.pairwise_singleton _ _
      · have unveiled := kind.trans bare
        have ordered := earlier held unveiled
        rcases still with fewer | ⟨key, fresh, tells, added⟩
        · refine (ordered.sublist fewer).imp_of_mem fun listed other lower => ?_
          rw [grown listed, grown other]
          exact Nat.succ_lt_succ lower
        · have listed {other : PropertyKey} (old : other ∈ first.arrivals) :
              other ∈ object.arrivals := by
            rw [added]
            exact List.mem_append_left _ old
          have new : key ∈ object.arrivals := by
            rw [added]
            exact List.mem_append_right _ (.head _)
          obtain ⟨rest, rfl⟩ := trail.exists_cons
          have missing : before.machine.getOwnProperty? id key = none := by
            rw [Machine.getOwnProperty?_of_tells held unveiled tells]
            exact PropertyTable.get?_eq_none_iff.2 fresh
          rw [added]
          refine List.pairwise_append.2 ⟨?_, List.pairwise_singleton _ _, ?_⟩
          · refine ordered.imp_of_mem fun old other lower => ?_
            rw [grown (listed old), grown (listed other)]
            exact Nat.succ_lt_succ lower
          · intro other old last same
            obtain rfl := List.mem_singleton.1 same
            rw [grown new, grown (listed old), Machine.standing_of_missing missing,
              Machine.standing_of_owned (Machine.owned_of_mem_arrivals held unveiled old)]
            omega

/-! ## The order in which keys are listed -/

/-- Indices come first and in ascending order, then strings, then symbols; of two strings or two
symbols the one comes first that has been there for longer. -/
inductive PropertyKey.Precedes (standing : PropertyKey -> Nat) :
    PropertyKey -> PropertyKey -> Prop
  | indices {first second : PropertyKey} {place other : Nat} :
      first.arrayIndex? = some place -> second.arrayIndex? = some other -> place < other ->
      Precedes standing first second
  | index {first second : PropertyKey} {place : Nat} :
      first.arrayIndex? = some place -> second.arrayIndex? = none ->
      Precedes standing first second
  | string {first second : PropertyKey} :
      first.arrayIndex? = none -> first.isSymbol = false -> second.isSymbol = true ->
      Precedes standing first second
  | older {first second : PropertyKey} :
      first.arrayIndex? = none -> second.arrayIndex? = none ->
      first.isSymbol = second.isSymbol -> standing second < standing first ->
      Precedes standing first second

theorem PropertyKey.Precedes.ne
    {standing : PropertyKey -> Nat}
    {first second : PropertyKey}
    (precedes : first.Precedes standing second) :
    first ≠ second := by
  rintro rfl
  cases precedes with
  | indices named same less =>
      cases named.symm.trans same
      exact Nat.lt_irrefl _ less
  | index named none => cases named.symm.trans none
  | string _ plain symbol => cases plain.symm.trans symbol
  | older _ _ _ less => exact Nat.lt_irrefl _ less

theorem PropertyKey.Precedes.older_of_strings
    {standing : PropertyKey -> Nat}
    {first second : PropertyKey}
    (precedes : first.Precedes standing second)
    (former : first.arrayIndex? = none)
    (latter : second.isSymbol = false) :
    standing second < standing first := by
  cases precedes with
  | indices named => cases former.symm.trans named
  | index named => cases former.symm.trans named
  | string _ _ symbol => cases latter.symm.trans symbol
  | older _ _ _ less => exact less

namespace Machine

/-- Keys are listed in order if the length and the others come in the order of their standing. -/
theorem pairwise_arrangeKeys
    {standing : PropertyKey -> Nat}
    {elements : List Nat}
    {length keys : List PropertyKey}
    (distinct : (elements ++ keys.filterMap PropertyKey.arrayIndex?).Nodup)
    (small : ∀ place ∈ elements, place < PropertyKey.indexBound)
    (names : ∀ key ∈ length, key.arrayIndex? = none ∧ key.isSymbol = false)
    (ordered : (length ++ keys.filter fun key => key.arrayIndex?.isNone).Pairwise
      fun first second => standing second < standing first) :
    (arrangeKeys elements length keys).Pairwise (PropertyKey.Precedes standing) := by
  have named : ∀ place ∈ (elements ++ keys.filterMap PropertyKey.arrayIndex?).mergeSort,
      (PropertyKey.index place).arrayIndex? = some place := by
    intro place member
    rcases List.mem_append.1 (List.mem_mergeSort.1 member) with element | table
    · exact PropertyKey.arrayIndex?_index (small place element)
    · obtain ⟨key, _, indexed⟩ := List.mem_filterMap.1 table
      rwa [PropertyKey.index_of_arrayIndex? indexed]
  let others := keys.filter fun key => key.arrayIndex?.isNone
  have unnamed : ∀ key ∈ length ++ others, key.arrayIndex? = none := by
    intro key member
    rcases List.mem_append.1 member with first | other
    · exact (names key first).1
    · exact Option.isNone_iff_eq_none.1 (List.mem_filter.1 other).2
  -- Strings and symbols each keep their order among all that are no indices.
  have chosen (symbol : Bool) :
      ((length ++ others).filter fun key => key.isSymbol == symbol).Pairwise
        (PropertyKey.Precedes standing) := by
    refine (ordered.filter _).imp_of_mem fun first second older => ?_
    obtain ⟨first, kind⟩ := List.mem_filter.1 first
    obtain ⟨second, same⟩ := List.mem_filter.1 second
    exact .older (unnamed _ first) (unnamed _ second)
      ((eq_of_beq kind).trans (eq_of_beq same).symm) older
  have indices : ((elements ++ keys.filterMap PropertyKey.arrayIndex?).mergeSort.map
      PropertyKey.index).Pairwise (PropertyKey.Precedes standing) := by
    have ascending := List.pairwise_mergeSort' (· <= ·)
      (elements ++ keys.filterMap PropertyKey.arrayIndex?)
    have sorted := List.mergeSort_perm (elements ++ keys.filterMap PropertyKey.arrayIndex?)
      fun (place other : Nat) => decide (place <= other)
    have apart := sorted.nodup_iff.2 distinct
    refine List.pairwise_map.2 ((ascending.and apart).imp_of_mem fun first second both => ?_)
    exact .indices (named _ first) (named _ second) (Nat.lt_of_le_of_ne both.1 both.2)
  have strings : length ++ others.filter (fun key => !key.isSymbol) =
      (length ++ others).filter fun key => key.isSymbol == false := by
    have kept : length.filter (fun key => key.isSymbol == false) = length :=
      List.filter_eq_self.2 fun key first => beq_iff_eq.2 (names key first).2
    rw [List.filter_append, kept]
    congr 2
    funext key
    cases key.isSymbol <;> rfl
  have symbols : others.filter PropertyKey.isSymbol =
      (length ++ others).filter fun key => key.isSymbol == true := by
    have dropped : length.filter (fun key => key.isSymbol == true) = [] := by
      refine List.filter_eq_nil_iff.2 fun key first symbol => ?_
      rw [(names key first).2] at symbol
      cases symbol
    rw [List.filter_append, dropped, List.nil_append]
    congr 1
    funext key
    cases key.isSymbol <;> rfl
  show (_ ++ length ++ others.filter (fun key => !key.isSymbol) ++
    others.filter PropertyKey.isSymbol).Pairwise _
  rw [List.append_assoc _ length, strings, symbols, List.append_assoc]
  refine List.pairwise_append.2
    ⟨indices, List.pairwise_append.2 ⟨chosen false, chosen true, ?_⟩, ?_⟩
  · intro first former second latter
    obtain ⟨member, plain⟩ := List.mem_filter.1 former
    exact .string (unnamed _ member) (eq_of_beq plain) (eq_of_beq (List.mem_filter.1 latter).2)
  · intro first indexed second other
    obtain ⟨place, member, rfl⟩ := List.mem_map.1 indexed
    refine .index (named _ member) (unnamed _ ?_)
    rcases List.mem_append.1 other with string | symbol
    · exact (List.mem_filter.1 string).1
    · exact (List.mem_filter.1 symbol).1

section

variable {machine : Machine σ} {id : ObjectId} {object : HeapObject ObjectKind}
  (live : machine.heap.get? id = some object)
  (parted : object.Parted)
  (within : ∀ store, object.payload = .array store ->
    store.elements.size <= PropertyKey.indexBound)

include live parted within

/-- The keys of an object are listed in order. -/
theorem pairwise_ordinaryOwnKeys
    {standing : PropertyKey -> Nat}
    (ordered : object.arrivals.Pairwise fun first second => standing second < standing first) :
    (machine.ordinaryOwnKeys id).Pairwise (PropertyKey.Precedes standing) := by
  have all : object.properties.keys.filter object.tells = object.properties.keys :=
    List.filter_eq_self.2 fun key listed => HeapObject.tells_iff.2 (parted key listed)
  unfold HeapObject.arrivals at ordered
  rw [all] at ordered
  rw [ordinaryOwnKeys_eq, ownKeys_of_live live]
  unfold ownElements ownLength
  rw [kind?_of_live live]
  cases payload : object.payload with
  | array store =>
      have plain : ∀ key ∈ object.properties.keys, key.arrayIndex? = none :=
        fun key listed => (parted key listed store payload).1
      have noIndices : object.properties.keys.filterMap PropertyKey.arrayIndex? = [] :=
        List.filterMap_eq_nil_iff.2 plain
      have noneLost : (object.properties.keys.filter fun key => key.arrayIndex?.isNone) =
          object.properties.keys :=
        List.filter_eq_self.2 fun key listed => Option.isNone_iff_eq_none.2 (plain key listed)
      refine pairwise_arrangeKeys ?_ (fun place member => ?_) (fun key member => ?_) ?_
      · rw [noIndices, List.append_nil]
        exact (pairwise_elementIndices 0 _).imp Nat.ne_of_lt
      · have owned := mem_elementIndices_store.1 member
        by_contra beyond
        rw [ArrayStore.own?_of_size_le
          (Nat.le_trans (within store payload) (Nat.not_lt.1 beyond))] at owned
        cases owned
      · obtain rfl := List.mem_singleton.1 member
        exact ⟨rfl, rfl⟩
      · rw [noneLost]
        rwa [payload] at ordered
  | _ =>
      rw [payload] at ordered
      have distinct : object.properties.keys.Nodup := by
        refine List.Pairwise.imp (fun less => ?_) ordered
        rintro rfl
        exact Nat.lt_irrefl _ less
      refine pairwise_arrangeKeys (distinct.filterMap fun first second place named same => ?_)
        (fun _ member => absurd member List.not_mem_nil)
        (fun _ member => absurd member List.not_mem_nil) (ordered.filter _)
      exact (PropertyKey.index_of_arrayIndex? named).symm.trans
        (PropertyKey.index_of_arrayIndex? same)

/-- Every key that is listed names a property. -/
theorem owned_of_mem_ordinaryOwnKeys
    {key : PropertyKey}
    (listed : key ∈ machine.ordinaryOwnKeys id) :
    (machine.ordinaryOwnProperty? id key).isSome = true := by
  rcases (mem_ordinaryOwnKeys_iff live).1 listed with
    ⟨store, array, rfl | ⟨place, rfl, owned⟩⟩ | table
  · rw [ordinaryOwnProperty?_of_length ((kind?_of_live live).trans (congrArg some array))]
    rfl
  · have small : place < PropertyKey.indexBound := by
      by_contra beyond
      rw [ArrayStore.own?_of_size_le
        (Nat.le_trans (within store array) (Nat.not_lt.1 beyond))] at owned
      cases owned
    rw [ordinaryOwnProperty?_of_index ((kind?_of_live live).trans (congrArg some array))
      (PropertyKey.arrayIndex?_index small), Option.isSome_map]
    exact owned
  · obtain ⟨property, held⟩ := PropertyTable.exists_get?_of_mem table
    rw [ordinaryOwnProperty?_of_tells live (parted key table), held]
    rfl

end

theorem ordinaryOwnKeys_of_dead
    {machine : Machine σ}
    {id : ObjectId}
    (dead : machine.heap.get? id = none) :
    machine.ordinaryOwnKeys id = [] := by
  unfold ordinaryOwnKeys kind? Heap.payload? Heap.ownKeys
  rw [dead]
  simp

end Machine

/-! ## Own keys in view -/

section Visible

variable {sight : Sight σ} {holder : ObjectId}

variable (visible : sight.Visible)
include visible

/-- The keys of an object in a machine on a trail are in order. -/
theorem Sight.Visible.pairwise_ownKeys
    (within : ∀ object store, sight.machine.behindProxies? holder = some object ->
      sight.machine.kind? object = some (.array store) ->
      store.elements.size <= PropertyKey.indexBound)
    {machines : List (Machine σ)}
    (trail : sight.machine.Trail machines)
    {id : ObjectId}
    (behind : sight.machine.behindProxies? holder = some id) :
    (sight.machine.ownKeys holder).Pairwise
      (PropertyKey.Precedes (Machine.standing machines id)) := by
  obtain ⟨origins, trail⟩ := trail
  rw [Machine.ownKeys_of_behind behind]
  cases live : sight.machine.heap.get? id with
  | none =>
      rw [Machine.ordinaryOwnKeys_of_dead live]
      exact .nil
  | some object =>
      have bare := Machine.isProxy_of_throughProxies behind
      unfold Machine.isProxy at bare
      rw [Machine.kind?_of_live live] at bare
      exact Machine.pairwise_ordinaryOwnKeys live (visible.parted.tables id object live)
        (fun store array => within id store behind
          ((Machine.kind?_of_live live).trans (congrArg some array)))
        (trail.arrivals_ordered live bare)

theorem Sight.Visible.nodup_ownKeys
    (within : ∀ object store, sight.machine.behindProxies? holder = some object ->
      sight.machine.kind? object = some (.array store) ->
      store.elements.size <= PropertyKey.indexBound) :
    (sight.machine.ownKeys holder).Nodup := by
  obtain ⟨machines, trail⟩ := visible.reached.2.exists_trail
  cases behind : sight.machine.behindProxies? holder with
  | none =>
      unfold Machine.ownKeys
      rw [behind]
      exact .nil
  | some id => exact (visible.pairwise_ownKeys within trail behind).imp fun precedes => precedes.ne

theorem Sight.Visible.mem_ownKeys_iff
    (within : ∀ object store, sight.machine.behindProxies? holder = some object ->
      sight.machine.kind? object = some (.array store) ->
      store.elements.size <= PropertyKey.indexBound)
    (key : PropertyKey) :
    key ∈ sight.machine.ownKeys holder ↔
      (sight.machine.getOwnProperty? holder key).isSome = true := by
  refine ⟨fun listed => ?_, fun held => ?_⟩
  · cases behind : sight.machine.behindProxies? holder with
    | none =>
        unfold Machine.ownKeys at listed
        rw [behind] at listed
        cases listed
    | some id =>
        rw [Machine.ownKeys_of_behind behind] at listed
        rw [Machine.getOwnProperty?_of_behind behind]
        cases live : sight.machine.heap.get? id with
        | none =>
            rw [Machine.ordinaryOwnKeys_of_dead live] at listed
            cases listed
        | some object =>
            exact Machine.owned_of_mem_ordinaryOwnKeys live (visible.parted.tables id object live)
              (fun store array => within id store behind
                ((Machine.kind?_of_live live).trans (congrArg some array))) listed
  · obtain ⟨property, held⟩ := Option.isSome_iff_exists.1 held
    exact Machine.mem_ownKeys_of_own held

end Visible

/-- Own keys are exact and in order: in all that an embedder can come across, an object, or the
one behind a proxy, lists each key once, and just those under which it has a property. Indices
come first, then strings, then symbols. Indices are listed in ascending order, and of two strings
or two symbols that one comes first that the object has had for longer, on whatever trail the
machine came about. The indices of elements have to be array indices: positions have 32 bits, and
the last of them is none. -/
theorem own_keys_exact_and_ordered
    {sight : Sight σ}
    (visible : sight.Visible)
    {holder : ObjectId}
    (within : ∀ object store, sight.machine.behindProxies? holder = some object ->
      sight.machine.kind? object = some (.array store) ->
      store.elements.size <= PropertyKey.indexBound) :
    (sight.machine.ownKeys holder).Nodup ∧
    (∀ key, key ∈ sight.machine.ownKeys holder ↔
      (sight.machine.getOwnProperty? holder key).isSome = true) ∧
    (∃ machines, sight.machine.Trail machines) ∧
    ∀ machines, sight.machine.Trail machines ->
      ∀ object, sight.machine.behindProxies? holder = some object ->
        (sight.machine.ownKeys holder).Pairwise
          (PropertyKey.Precedes (Machine.standing machines object)) :=
  ⟨visible.nodup_ownKeys within, visible.mem_ownKeys_iff within,
    visible.reached.2.exists_trail, fun _ trail _ behind =>
      visible.pairwise_ownKeys within trail behind⟩

/-- An embedder gives an object properties, takes one away and gives it back. -/
def keysProgram : HostProgram Unit :=
  .request .createObject fun object =>
    let id : ObjectId := object.objectId?.getD ⟨0⟩
    .request (.createDataProperty id "b" .null) fun _ =>
      .request (.createDataProperty id "a" .null) fun _ =>
        .request (.createDataProperty id "0" .null) fun _ =>
          .request (.delete object "b" true) fun _ =>
            .request (.createDataProperty id "b" .null) fun _ =>
              .request (.createDataProperty id "a" .undefined) fun _ => .finish (.ok object)

/-- The property that was given back is listed last. -/
theorem own_keys_exact_and_ordered_keysProgram :
    ∃ (sight : Sight Unit) (id : ObjectId), sight.Visible ∧
      sight.machine.ownKeys id = ["0", "a", "b"] ∧
      ∃ machines, sight.machine.Trail machines ∧
        Machine.standing machines id "b" < Machine.standing machines id "a" := by
  have seen : ∃ ended ∈ Exec.ended? ((Builtins.newMachine {} ()).runWithin 20 keysProgram),
      ∃ id ∈ ended.1.objectId?, ended.2.isProxy id = false ∧ ended.2.arrayStatus? id = none ∧
        ended.2.ownKeys id = ["0", "a", "b"] := by
    decide +kernel
  obtain ⟨⟨_, machine⟩, ended, id, _, bare, plain, keys⟩ := seen
  have visible : Sight.Visible { machine } :=
    .between (.returned (.new {} ()) (Exec.eq_of_ended? ended))
  have behind := Machine.behindProxies?_of_bare bare
  have within : ∀ object store, machine.behindProxies? id = some object ->
      machine.kind? object = some (.array store) ->
      store.elements.size <= PropertyKey.indexBound := by
    intro object store same array
    cases behind.symm.trans same
    unfold Machine.arrayStatus? at plain
    rw [array] at plain
    cases plain
  obtain ⟨_, _, ⟨machines, trail⟩, ordered⟩ := own_keys_exact_and_ordered visible within
  have listed := ordered machines trail id behind
  dsimp only at listed
  rw [keys] at listed
  refine ⟨{ machine }, id, visible, keys, machines, trail, ?_⟩
  have first := List.rel_of_pairwise_cons (List.pairwise_cons.1 listed).2 (.head _)
  exact first.older_of_strings (by decide +kernel) rfl

/-- An embedder may create an array of any values. -/
theorem Machine.Settled.createArray
    {machine : Machine σ}
    (settled : machine.Settled)
    (values : List Value) :
    (machine.createArray values.toArray).2.Settled := by
  have ran : machine.runWithin 0
      (.request (.createArray values) fun array => .finish (.ok array)) =
        .ok (machine.createArray values.toArray).1 (machine.createArray values.toArray).2 := rfl
  exact .returned settled ran

/-- The key of the first position that is no array index. -/
def strayKey : PropertyKey :=
  .index PropertyKey.indexBound

/-- A new array lists this key if it has an element there, and has no such property. -/
theorem Machine.createArray_strays
    {machine : Machine σ}
    (tidy : machine.heap.Tidy)
    {values : List Value}
    (long : values[PropertyKey.indexBound]? = some .null) :
    let after := (machine.createArray values.toArray).2
    after.isProxy machine.heap.nextId = false ∧
      strayKey ∈ after.ownKeys machine.heap.nextId ∧
      after.getOwnProperty? machine.heap.nextId strayKey = none := by
  let prototype := some machine.intrinsics.arrayPrototype
  let store : ArrayStore := { elements := values.toArray }
  have live : (machine.createArray values.toArray).2.heap.get? machine.heap.nextId =
      some (machine.heap.fresh prototype (.array store)) :=
    (tidy.get?_allocate prototype (.array store) _).trans (if_pos (Heap.allocate_fst ..))
  have bare : (machine.createArray values.toArray).2.isProxy machine.heap.nextId = false := by
    unfold Machine.isProxy
    rw [Machine.kind?_of_live live]
    rfl
  have behind := Machine.behindProxies?_of_bare bare
  have owned : (store.own? PropertyKey.indexBound).isSome = true := by
    unfold ArrayStore.own?
    rw [show store.elements[PropertyKey.indexBound]? = _ from
      (List.getElem?_toArray ..).trans long]
    rfl
  have unnamed : strayKey.arrayIndex? = none :=
    PropertyKey.arrayIndex?_index_of_le (Nat.le_refl _)
  have tells : (machine.heap.fresh prototype (.array store)).Tells strayKey :=
    fun _ _ => ⟨unnamed, by decide +kernel⟩
  have empty : ({} : PropertyTable).get? strayKey = none := by
    simp [PropertyTable.get?, PropertyTable.lookup?, PropertyTable.offset?]
  refine ⟨bare, ?_, (Machine.getOwnProperty?_of_tells live rfl tells).trans empty⟩
  rw [Machine.ownKeys_of_behind behind, Machine.mem_ordinaryOwnKeys_iff live]
  exact .inl ⟨store, rfl, .inr ⟨_, rfl, owned⟩⟩

/-- More values than there are array indices. -/
def overlong (value : Value) : List Value :=
  List.replicate (PropertyKey.indexBound + 1) value

theorem getElem?_overlong (value : Value) :
    (overlong value)[PropertyKey.indexBound]? = some value := by
  unfold overlong
  rw [List.getElem?_replicate, if_pos (Nat.lt_succ_self _)]

/-- An array of so many values lists a key under which it has no property. -/
theorem Machine.Settled.strays {machine : Machine σ} (settled : machine.Settled) :
    let sight : Sight σ := { machine := (machine.createArray (overlong .null).toArray).2 }
    sight.Visible ∧ strayKey ∈ sight.machine.ownKeys machine.heap.nextId ∧
      sight.machine.getOwnProperty? machine.heap.nextId strayKey = none :=
  ⟨.between (settled.createArray (overlong .null)),
    (Machine.createArray_strays settled.reached.tidy (getElem?_overlong .null)).2⟩

theorem overlong_array_lists_stray_key :
    ∃ (sight : Sight Unit) (id : ObjectId) (key : PropertyKey), sight.Visible ∧
      key ∈ sight.machine.ownKeys id ∧ sight.machine.getOwnProperty? id key = none :=
  ⟨_, _, _, (Machine.Settled.new {} ()).strays⟩

end ScriptVM

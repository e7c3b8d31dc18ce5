import Mathlib.Logic.Relation
import Mathlib.Data.Finset.Card
import ScriptVM.Builtins.Install
import ScriptVM.Machine.Embedding
import ScriptVM.Proofs.FreeLists

/-!
# Renderings

An array renders as its elements, and arrays may hold each other in any way: deeply, more than
once, and in circles. The rendering of a value is described here without a bound on the depth.
Every value has exactly one inside any arrays, the short form is the one inside none, and of the
arrays around a value only those matter that can be reached from it.
-/

namespace ScriptVM

variable {σ : Type}

/-- An element without a text between the commas. -/
def Value.isSilent : Value -> Bool
  | undefined | null | hole => true
  | _ => false

namespace Machine

/-! ## Nested arrays -/

/-- The elements of an array. -/
def elements? (machine : Machine σ) (id : ObjectId) : Option (List Value) :=
  match machine.kind? id with
  | some (.array store) => some store.elements.toList
  | _ => none

/-- One object is an element of another, which is an array. -/
def Nests (machine : Machine σ) (outer inner : ObjectId) : Prop :=
  ∃ elements ∈ machine.elements? outer, Value.object inner ∈ elements

theorem exists_store
    {machine : Machine σ}
    {id : ObjectId}
    {elements : List Value}
    (array : machine.elements? id = some elements) :
    ∃ store, machine.kind? id = some (.array store) ∧ store.elements.toList = elements := by
  unfold elements? at array
  split at array
  · next store kind => exact ⟨store, kind, Option.some.inj array⟩
  · cases array

/-- An object is the value itself, or is nested in it at some depth. -/
def Reaches (machine : Machine σ) (value : Value) (inner : ObjectId) : Prop :=
  ∃ id, value = .object id ∧ Relation.ReflTransGen machine.Nests id inner

/-- The rendering of a value that is not an array. -/
def plainRendering (machine : Machine σ) : Value -> String
  | .symbol id => machine.symbolText id
  | .function id => machine.renderFunction id
  | .object id =>
      match machine.kind? id with
      | some .error => machine.renderError id
      | some (.promise _) => "[object Promise]"
      | some (.coroutine _) => "[object Generator]"
      | some (.arrayIterator _ _ _) => "[object Array Iterator]"
      | some .arguments => "[object Arguments]"
      | _ => "[object Object]"
  | value => value.text

/-- A value renders as a text inside the arrays that are being rendered around it. -/
inductive Renders (machine : Machine σ) : List ObjectId -> Value -> String -> Prop
  | plain
    {visiting : List ObjectId}
    {value : Value}
    (single : ∀ id, value = .object id -> machine.elements? id = none) :
    Renders machine visiting value (machine.plainRendering value)
  | enclosed
    {visiting : List ObjectId}
    {id : ObjectId}
    {elements : List Value}
    (array : machine.elements? id = some elements)
    (inside : id ∈ visiting) :
    Renders machine visiting (.object id) ""
  /-- Each element renders by itself: the texts of the others make no difference. -/
  | array
    {visiting : List ObjectId}
    {id : ObjectId}
    {elements : List Value}
    (array : machine.elements? id = some elements)
    (outside : id ∉ visiting)
    (texts : Value -> String)
    (silent : ∀ element ∈ elements, element.isSilent = true -> texts element = "")
    (spoken : ∀ element ∈ elements, element.isSilent = false ->
      Renders machine (id :: visiting) element (texts element)) :
    Renders machine visiting (.object id) (",".intercalate (elements.map texts))

variable {machine : Machine σ} {value : Value} {visiting : List ObjectId} {elements : List Value}
  {id : ObjectId}

/-- There is only one rendering. -/
theorem Renders.unique
    {first second : String}
    (renders : machine.Renders visiting value first)
    (also : machine.Renders visiting value second) :
    first = second := by
  induction renders generalizing second with
  | plain single =>
      cases also with
      | plain _ => rfl
      | enclosed array _ => cases array.symm.trans (single _ rfl)
      | array array _ _ _ _ => cases array.symm.trans (single _ rfl)
  | enclosed array inside =>
      cases also with
      | plain single => cases array.symm.trans (single _ rfl)
      | enclosed _ _ => rfl
      | array _ outside _ _ _ => exact absurd inside outside
  | array array outside texts silent spoken same =>
      cases also with
      | plain single => cases array.symm.trans (single _ rfl)
      | enclosed _ inside => exact absurd inside outside
      | array again _ others quiet heard =>
          obtain rfl := Option.some.inj (array.symm.trans again)
          congr 1
          refine List.map_congr_left fun element member => ?_
          cases mute : element.isSilent with
          | true => rw [silent element member mute, quiet element member mute]
          | false => exact same element member mute (heard element member mute)

/-- Of the arrays around a value only those matter that it reaches. -/
theorem Renders.congr
    {before after : List ObjectId}
    {text : String}
    (renders : machine.Renders before value text)
    (agree : ∀ inner, machine.Reaches value inner -> (inner ∈ before ↔ inner ∈ after)) :
    machine.Renders after value text := by
  induction renders generalizing after with
  | plain single => exact .plain single
  | enclosed array inside => exact .enclosed array ((agree _ ⟨_, rfl, .refl⟩).1 inside)
  | @array visiting id elements array outside texts silent _ step =>
      refine .array array (fun inside => outside ((agree _ ⟨_, rfl, .refl⟩).2 inside)) texts silent
        fun element member speaks => step element member speaks fun inner reached => ?_
      obtain ⟨nested, rfl, below⟩ := reached
      have reaches : machine.Reaches (.object id) inner :=
        ⟨id, rfl, .head ⟨elements, array, member⟩ below⟩
      rw [List.mem_cons, List.mem_cons, agree inner reaches]

/-! ## Enough fuel -/

/-- The objects that are not among those that are being rendered. -/
def fresh (machine : Machine σ) (visiting : List ObjectId) : Finset Nat :=
  (Finset.range machine.heap.objects.size).filter fun index => (⟨index⟩ : ObjectId) ∉ visiting

theorem mem_fresh (array : machine.elements? id = some elements) (outside : id ∉ visiting) :
    id.index ∈ machine.fresh visiting := by
  obtain ⟨store, kind, -⟩ := exists_store array
  obtain ⟨object, live, -⟩ := Option.map_eq_some_iff.1 kind
  exact Finset.mem_filter.2 ⟨Finset.mem_range.2 (Heap.index_lt_of_get? live), outside⟩

/-- Every array that is entered leaves fewer fresh ones. -/
theorem card_fresh_lt (member : id.index ∈ machine.fresh visiting) :
    (machine.fresh (id :: visiting)).card < (machine.fresh visiting).card := by
  refine Finset.card_lt_card ((Finset.ssubset_iff_of_subset fun index kept => ?_).2
    ⟨id.index, member, fun kept => (Finset.mem_filter.1 kept).2 List.mem_cons_self⟩)
  rw [fresh, Finset.mem_filter] at kept ⊢
  exact ⟨kept.1, fun inside => kept.2 (List.mem_cons_of_mem _ inside)⟩

theorem single_or_array (machine : Machine σ) (value : Value) :
    (∀ id, value = .object id -> machine.elements? id = none) ∨
      ∃ id elements, value = .object id ∧ machine.elements? id = some elements := by
  cases value with
  | object id =>
      cases array : machine.elements? id with
      | none => exact .inl fun _ named => by cases named; exact array
      | some elements => exact .inr ⟨id, elements, rfl, array⟩
  | _ => exact .inl nofun

theorem render_of_plain
    (single : ∀ id, value = .object id -> machine.elements? id = none)
    (fuel : Nat)
    (visiting : List ObjectId) :
    machine.render fuel visiting value = machine.plainRendering value := by
  rw [render.eq_def]
  cases value with
  | object id =>
      have kind := single id rfl
      unfold elements? at kind
      unfold plainRendering
      dsimp only at kind ⊢
      split <;> simp_all
  | _ => rfl

theorem render_of_enclosed
    (array : machine.elements? id = some elements)
    (inside : id ∈ visiting)
    (fuel : Nat) :
    machine.render fuel visiting (.object id) = "" := by
  obtain ⟨store, kind, -⟩ := exists_store array
  rw [render.eq_def]
  simp only [kind, List.contains_iff_mem.2 inside, if_true]

theorem render_of_array
    (array : machine.elements? id = some elements)
    (outside : id ∉ visiting)
    (fuel : Nat) :
    machine.render (fuel + 1) visiting (.object id) =
      ",".intercalate (elements.map fun element =>
        if element.isSilent then "" else machine.render fuel (id :: visiting) element) := by
  obtain ⟨store, kind, rfl⟩ := exists_store array
  rw [render.eq_def]
  simp only [kind, List.contains_iff_mem, outside, if_false]
  congr 1
  refine List.map_congr_left fun element _ => ?_
  cases element <;> rfl

/-- With fuel for all fresh arrays nothing is cut off. -/
theorem renders_render
    {fuel : Nat}
    (enough : (machine.fresh visiting).card <= fuel)
    (value : Value) :
    machine.Renders visiting value (machine.render fuel visiting value) := by
  induction fuel generalizing visiting value with
  | zero =>
      rcases machine.single_or_array value with single | ⟨id, elements, rfl, array⟩
      · exact render_of_plain single 0 visiting ▸ .plain single
      · have inside : id ∈ visiting := by
          by_contra outside
          have member := mem_fresh array outside
          rw [Finset.card_eq_zero.1 (Nat.le_zero.1 enough)] at member
          exact absurd member (Finset.notMem_empty _)
        exact render_of_enclosed array inside 0 ▸ .enclosed array inside
  | succ fuel step =>
      rcases machine.single_or_array value with single | ⟨id, elements, rfl, array⟩
      · exact render_of_plain single _ visiting ▸ .plain single
      · by_cases inside : id ∈ visiting
        · exact render_of_enclosed array inside _ ▸ .enclosed array inside
        · rw [render_of_array array inside]
          have fewer := card_fresh_lt (mem_fresh array inside)
          refine .array array inside _ (fun element _ mute => if_pos mute)
            fun element _ speaks => ?_
          rw [if_neg (Bool.eq_false_iff.1 speaks)]
          exact step (by omega) element

theorem card_fresh_le (visiting : List ObjectId) :
    (machine.fresh visiting).card <= machine.heap.objects.size :=
  (Finset.card_filter_le _ _).trans_eq (Finset.card_range _)

/-- An array that is on no circle of arrays does not reach the arrays around it. -/
theorem not_reaches_of_acyclic
    (around : ∀ outer ∈ visiting, Relation.TransGen machine.Nests outer id)
    (acyclic : ¬ Relation.TransGen machine.Nests id id)
    {inner : ObjectId}
    (reached : machine.Reaches (.object id) inner) :
    inner ∉ visiting := by
  intro inside
  obtain ⟨_, named, below⟩ := reached
  cases named
  exact acyclic (.trans_right below (around inner inside))

end Machine

/-- Every value has one rendering inside any arrays. The short form of a value is its rendering
inside none; the request for it answers it and leaves the machine as it is. A rendering depends on
no array around the value but those that the value reaches, so an array that is on no circle is
rendered in full wherever it is an element. -/
theorem renderings_depend_on_enclosing_arrays (machine : Machine σ) :
    (∀ visiting value, ∃! text, machine.Renders visiting value text) ∧
    (∀ value, machine.Renders [] value (machine.display value)) ∧
    (∀ value env, Exec.answer (.display value) env machine = .ok (machine.display value) machine) ∧
    (∀ before after value text,
      (∀ inner, machine.Reaches value inner -> (inner ∈ before ↔ inner ∈ after)) ->
      machine.Renders before value text -> machine.Renders after value text) ∧
    ∀ visiting id, (∀ outer ∈ visiting, Relation.TransGen machine.Nests outer id) ->
      ¬ Relation.TransGen machine.Nests id id ->
      machine.Renders visiting (.object id) (machine.display (.object id)) := by
  have shown : ∀ value, machine.Renders [] value (machine.display value) :=
    Machine.renders_render (Machine.card_fresh_le [])
  refine ⟨fun visiting value => ?_, shown, fun _ _ => rfl,
    fun before after value text agree renders => renders.congr agree,
    fun visiting id around acyclic => (shown (.object id)).congr fun inner reached => ?_⟩
  · exact ⟨_, Machine.renders_render (Machine.card_fresh_le visiting) value,
      fun text renders => renders.unique (Machine.renders_render (Machine.card_fresh_le visiting) value)⟩
  · exact iff_of_false List.not_mem_nil
      (Machine.not_reaches_of_acyclic around acyclic reached)

end ScriptVM

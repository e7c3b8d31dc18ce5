import Mathlib.Data.List.Induction
import Mathlib.Data.List.Perm.Subperm
import ScriptVM.Proofs.CacheEntries

/-!
# Calls of an inline cache

Whatever form it takes, an inline cache that was new is a map from at most four shapes to places:
a shape has the place of the last update that no eviction followed. An update of one more shape
makes the cache give up for good.
-/

namespace ScriptVM
namespace InlineCache

/-! ## Calls -/

/-- A call of an inline cache. -/
inductive Call
  | update (shape : ShapeId) (hit : CacheHit)
  | evict (shape : ShapeId)
  | lookup (shape : ShapeId)
  deriving DecidableEq

/-- The call replaces or removes the place of a shape. -/
def Call.concerns (shape : ShapeId) : Call -> Bool
  | .update updated _ => updated == shape
  | .evict evicted => evicted == shape
  | .lookup _ => false

/-- The cache after a call. -/
def perform (cache : InlineCache) : Call -> InlineCache
  | .update shape hit => cache.update shape hit
  | .evict shape => cache.evict shape
  | .lookup _ => cache

/-- A new cache after some calls. -/
def afterCalls (calls : List Call) : InlineCache :=
  calls.foldl perform uninitialized

/-- The shapes that a cache holds. -/
def shapes (cache : InlineCache) : List ShapeId :=
  cache.entries.map Prod.fst

/-- The place of the last update of a shape, if no eviction followed it. -/
def lastPlace? (calls : List Call) (shape : ShapeId) : Option CacheHit :=
  match calls.reverse.find? (Call.concerns shape) with
  | some (.update _ hit) => some hit
  | _ => none

/-- A shape has no place while as many others as a cache holds have one. -/
def Exceeds (calls : List Call) (shape : ShapeId) : Prop :=
  lastPlace? calls shape = none ∧
    ∃ known : List ShapeId, known.Nodup ∧ known.length = limit ∧
      ∀ other ∈ known, (lastPlace? calls other).isSome = true

/-- Some update meets a new shape while as many as a cache holds are there. -/
def Overflows (calls : List Call) : Prop :=
  ∃ before shape hit later, calls = before ++ .update shape hit :: later ∧ Exceeds before shape

variable {cache : InlineCache} {calls : List Call} {shape other : ShapeId} {hit : CacheHit}

theorem afterCalls_append_singleton (calls : List Call) (call : Call) :
    afterCalls (calls ++ [call]) = (afterCalls calls).perform call := by
  simp [afterCalls]

theorem lastPlace?_append_update :
    lastPlace? (calls ++ [.update shape hit]) other =
      if shape = other then some hit else lastPlace? calls other := by
  by_cases same : shape = other <;> simp [lastPlace?, Call.concerns, same]

theorem lastPlace?_append_evict :
    lastPlace? (calls ++ [.evict shape]) other =
      if shape = other then none else lastPlace? calls other := by
  by_cases same : shape = other <;> simp [lastPlace?, Call.concerns, same]

theorem lastPlace?_append_lookup :
    lastPlace? (calls ++ [.lookup shape]) other = lastPlace? calls other := by
  simp [lastPlace?, Call.concerns]

/-- An overflow stays one. -/
theorem Overflows.append (overflows : Overflows calls) (later : List Call) :
    Overflows (calls ++ later) := by
  obtain ⟨before, shape, hit, rest, rfl, exceeds⟩ := overflows
  exact ⟨before, shape, hit, rest ++ later, by simp, exceeds⟩

theorem Overflows.last {call : Call} (overflows : Overflows (calls ++ [call])) :
    Overflows calls ∨ ∃ shape hit, call = .update shape hit ∧ Exceeds calls shape := by
  obtain ⟨before, shape, hit, later, split, exceeds⟩ := overflows
  rcases List.eq_nil_or_concat later with rfl | ⟨later, last, rfl⟩
  · obtain ⟨rfl, same⟩ := List.append_inj' split rfl
    exact .inr ⟨shape, hit, List.singleton_inj.1 same, exceeds⟩
  · have joined : calls ++ [call] = (before ++ .update shape hit :: later) ++ [last] := by
      simpa using split
    obtain ⟨rfl, _⟩ := List.append_inj' joined rfl
    exact .inl ⟨before, shape, hit, later, rfl, exceeds⟩

/-! ## Entries -/

/-- Whatever form a cache has, it is searched for the entry of a shape. -/
theorem lookup?_eq (cache : InlineCache) (shape : ShapeId) :
    cache.lookup? shape = cache.entries.lookup shape := by
  cases cache with
  | monomorphic cached hit =>
      show (if cached == shape then some hit else none) = [(cached, hit)].lookup shape
      rw [List.lookup_cons, List.lookup_nil, BEq.comm]
      cases shape == cached <;> rfl
  | _ => rfl

theorem mem_shapes_iff : shape ∈ cache.shapes ↔ (cache.lookup? shape).isSome = true := by
  rw [lookup?_eq, shapes, List.lookup_isSome_iff, List.mem_map]
  constructor
  · rintro ⟨entry, member, rfl⟩
    exact ⟨entry, member, beq_self_eq_true _⟩
  · rintro ⟨entry, member, same⟩
    exact ⟨entry, member, (eq_of_beq same).symm⟩

theorem not_mem_shapes_iff : shape ∉ cache.shapes ↔ cache.lookup? shape = none := by
  rw [mem_shapes_iff, Option.not_isSome_iff_eq_none]

/-- Replacing a place leaves the shapes as they are. -/
theorem map_fst_replace
    (shape : ShapeId)
    (hit : CacheHit)
    (entries : List (ShapeId × CacheHit)) :
    (replace shape hit entries).map Prod.fst = entries.map Prod.fst := by
  unfold replace
  rw [List.map_map]
  refine List.map_congr_left fun entry _ => ?_
  simp only [Function.comp_apply]
  split
  · next same => exact (eq_of_beq same).symm
  · rfl

theorem lookup_replace (entries : List (ShapeId × CacheHit)) :
    (replace shape hit entries).lookup other =
      (entries.lookup other).map fun place => if shape = other then hit else place := by
  induction entries with
  | nil => rfl
  | cons entry rest step =>
      obtain ⟨first, place⟩ := entry
      have cons : replace shape hit ((first, place) :: rest) =
          (if first == shape then (shape, hit) else (first, place)) :: replace shape hit rest := rfl
      rw [cons]
      by_cases found : other = first
      · subst found
        by_cases here : other = shape
        · simp [here]
        · simp [here, Ne.symm here]
      · have missed : (other == first) = false := beq_false_of_ne found
        by_cases here : first = shape
        · subst here
          simp [List.lookup_cons, missed, step]
        · simp [here, List.lookup_cons, missed, step]

/-- Only the removed place is gone. -/
theorem lookup_filter (entries : List (ShapeId × CacheHit)) :
    (entries.filter fun entry => entry.1 != shape).lookup other =
      if shape = other then none else entries.lookup other := by
  induction entries with
  | nil => simp
  | cons entry rest step =>
      obtain ⟨first, place⟩ := entry
      rw [List.filter_cons, List.lookup_cons]
      grind

/-- An update of a shape that the cache holds replaces its place. -/
theorem update_of_known (hit : CacheHit) (known : (cache.lookup? shape).isSome = true) :
    cache.update shape hit ≠ megamorphic ∧
      (cache.update shape hit).entries = replace shape hit cache.entries := by
  cases cache with
  | uninitialized | megamorphic => cases known
  | monomorphic cached cachedHit =>
      unfold lookup? at known
      dsimp only at known
      split at known
      · next same =>
          obtain rfl := eq_of_beq same
          simp [update, entries, replace]
      · cases known
  | polymorphic entries =>
      have there : (entries.lookup shape).isSome = true := known
      simp [update, InlineCache.entries, there]

/-- An update of a new shape adds it where there is room. -/
theorem update_of_new
    (hit : CacheHit)
    (defined : cache ≠ megamorphic)
    (new : cache.lookup? shape = none)
    (room : cache.shapes.length < limit) :
    cache.update shape hit ≠ megamorphic ∧
      (cache.update shape hit).entries = cache.entries ++ [(shape, hit)] := by
  cases cache with
  | uninitialized => exact ⟨nofun, rfl⟩
  | megamorphic => exact absurd rfl defined
  | monomorphic cached cachedHit =>
      unfold lookup? at new
      dsimp only at new
      split at new
      · cases new
      · next other => simp [update, entries, other]
  | polymorphic entries =>
      have missing : entries.lookup shape = none := new
      have size : entries.length < limit := by simpa [shapes, InlineCache.entries] using room
      simp [update, InlineCache.entries, missing, size]

/-- Where there is no room, the cache gives up. -/
theorem update_of_full
    (new : cache.lookup? shape = none)
    (full : limit <= cache.shapes.length) :
    cache.update shape hit = megamorphic := by
  cases cache with
  | uninitialized | monomorphic => simp [shapes, entries, limit] at full
  | megamorphic => rfl
  | polymorphic entries =>
      have missing : entries.lookup shape = none := new
      have size : ¬ entries.length < limit := by
        simpa [shapes, InlineCache.entries] using full
      unfold update
      dsimp only
      rw [missing, if_neg (by simp), if_neg size]

theorem entries_evict (cache : InlineCache) (shape : ShapeId) :
    (cache.evict shape).entries = cache.entries.filter fun entry => entry.1 != shape := by
  cases cache with
  | monomorphic cached hit =>
      unfold evict
      dsimp only
      split
      · next same =>
          obtain rfl := eq_of_beq same
          simp [entries]
      · next other => simp [entries, other, bne]
  | _ => rfl

theorem evict_ne_megamorphic (defined : cache ≠ megamorphic) (shape : ShapeId) :
    cache.evict shape ≠ megamorphic := by
  cases cache with
  | megamorphic => exact absurd rfl defined
  | monomorphic cached hit =>
      unfold evict
      dsimp only
      split <;> exact nofun
  | _ => exact nofun

/-! ## Maps -/

/-- The cache is a map from at most four shapes to their places after some calls. -/
structure Maps (cache : InlineCache) (calls : List Call) : Prop where
  defined : cache ≠ megamorphic
  distinct : cache.shapes.Nodup
  bounded : cache.shapes.length <= limit
  places : ∀ shape, cache.lookup? shape = lastPlace? calls shape

namespace Maps

/-- A shape exceeds the cache if it is new where there is no room. -/
theorem exceeds_iff (maps : cache.Maps calls) :
    Exceeds calls shape ↔ cache.lookup? shape = none ∧ limit <= cache.shapes.length := by
  unfold Exceeds
  rw [maps.places]
  refine and_congr_right fun _ => ⟨?_, fun full => ?_⟩
  · rintro ⟨known, distinct, size, placed⟩
    have held : known ⊆ cache.shapes := fun other member => by
      rw [mem_shapes_iff, maps.places]
      exact placed other member
    exact size ▸ (List.subperm_of_subset distinct held).length_le
  · refine ⟨cache.shapes, maps.distinct, Nat.le_antisymm maps.bounded full, fun other member => ?_⟩
    rw [← maps.places]
    exact mem_shapes_iff.1 member

theorem evict (maps : cache.Maps calls) (shape : ShapeId) :
    (cache.evict shape).Maps (calls ++ [.evict shape]) := by
  have sublist : (cache.evict shape).shapes.Sublist cache.shapes := by
    unfold shapes
    rw [entries_evict]
    exact List.filter_sublist.map _
  refine ⟨evict_ne_megamorphic maps.defined shape, maps.distinct.sublist sublist,
    Nat.le_trans sublist.length_le maps.bounded, fun other => ?_⟩
  rw [lookup?_eq, entries_evict, lookup_filter, lastPlace?_append_evict, ← lookup?_eq, maps.places]

theorem update_of_known
    (maps : cache.Maps calls)
    (known : (cache.lookup? shape).isSome = true) :
    (cache.update shape hit).Maps (calls ++ [.update shape hit]) := by
  obtain ⟨defined, entries⟩ := InlineCache.update_of_known hit known
  have same : (cache.update shape hit).shapes = cache.shapes := by
    unfold shapes
    rw [entries, map_fst_replace]
  refine ⟨defined, same ▸ maps.distinct, same ▸ maps.bounded, fun other => ?_⟩
  rw [lookup?_eq, entries, lookup_replace, lastPlace?_append_update, ← lookup?_eq, ← maps.places]
  split
  · next here =>
      obtain ⟨place, found⟩ := Option.isSome_iff_exists.1 known
      rw [← here, found]
      rfl
  · exact Option.map_id'

theorem update_of_new
    (maps : cache.Maps calls)
    (new : cache.lookup? shape = none)
    (room : cache.shapes.length < limit) :
    (cache.update shape hit).Maps (calls ++ [.update shape hit]) := by
  obtain ⟨defined, entries⟩ := InlineCache.update_of_new hit maps.defined new room
  have more : (cache.update shape hit).shapes = cache.shapes ++ [shape] := by
    unfold shapes
    rw [entries, List.map_append]
    rfl
  refine ⟨defined, ?_, ?_, fun other => ?_⟩
  · rw [more]
    rw [← List.concat_eq_append]
    exact maps.distinct.concat (not_mem_shapes_iff.2 new)
  · rw [more, List.length_append]
    exact room
  · rw [lookup?_eq, entries, List.lookup_append, lastPlace?_append_update, ← lookup?_eq]
    split
    · next here =>
        subst here
        rw [new]
        simp
    · next apart =>
        rw [maps.places, List.lookup_cons, beq_false_of_ne (Ne.symm apart), List.lookup_nil,
          Option.or_none]

end Maps

/-- After any calls a new cache is the map of the last places, or it met an overflow and has given
up. -/
theorem maps_or_overflows (calls : List Call) :
    (¬ Overflows calls ∧ (afterCalls calls).Maps calls) ∨
      (Overflows calls ∧ afterCalls calls = megamorphic) := by
  induction calls using List.reverseRecOn with
  | nil =>
      refine .inl ⟨?_, nofun, .nil, Nat.zero_le _, fun _ => rfl⟩
      rintro ⟨before, shape, hit, later, split, _⟩
      simp at split
  | append_singleton calls call step =>
      rw [afterCalls_append_singleton]
      rcases step with ⟨fits, maps⟩ | ⟨overflows, gaveUp⟩
      · have fitting : (∀ shape hit, call = .update shape hit -> ¬ Exceeds calls shape) ->
            ¬ Overflows (calls ++ [call]) := by
          intro within overflows
          rcases overflows.last with earlier | ⟨shape, hit, same, exceeds⟩
          · exact fits earlier
          · exact within shape hit same exceeds
        cases call with
        | lookup shape =>
            refine .inl ⟨fitting nofun, maps.defined, maps.distinct, maps.bounded, fun other => ?_⟩
            rw [lastPlace?_append_lookup]
            exact maps.places other
        | evict shape => exact .inl ⟨fitting nofun, maps.evict shape⟩
        | update shape hit =>
            cases found : (afterCalls calls).lookup? shape with
            | some place =>
                have known : ((afterCalls calls).lookup? shape).isSome = true := by rw [found]; rfl
                refine .inl ⟨fitting ?_, maps.update_of_known known⟩
                rintro _ _ ⟨⟩ exceeds
                cases found.symm.trans (maps.exceeds_iff.1 exceeds).1
            | none =>
                by_cases room : (afterCalls calls).shapes.length < limit
                · refine .inl ⟨fitting ?_, maps.update_of_new found room⟩
                  rintro _ _ ⟨⟩ exceeds
                  exact absurd (maps.exceeds_iff.1 exceeds).2 (Nat.not_le.2 room)
                · have full := Nat.le_of_not_lt room
                  exact .inr ⟨⟨calls, shape, hit, [], rfl, maps.exceeds_iff.2 ⟨found, full⟩⟩,
                    update_of_full found full⟩
      · refine .inr ⟨overflows.append [call], ?_⟩
        rw [gaveUp]
        cases call <;> rfl

/-- A cache that was new holds distinct shapes, no more than its limit. As long as no update met a
new shape while it was full, each shape has the place of its last update that no eviction followed,
if there is one; after such an update the cache has given up for good and finds nothing. -/
theorem caches_are_bounded_maps (calls : List Call) :
    (afterCalls calls).shapes.Nodup ∧ (afterCalls calls).shapes.length <= limit ∧
    (¬ Overflows calls -> ∀ shape,
      (afterCalls calls).lookup? shape = lastPlace? calls shape ∧
        (shape ∈ (afterCalls calls).shapes ↔ (lastPlace? calls shape).isSome = true)) ∧
    (Overflows calls -> ∀ later,
      afterCalls (calls ++ later) = megamorphic ∧
        ∀ shape, (afterCalls (calls ++ later)).lookup? shape = none) := by
  refine ⟨?_, ?_, fun fits shape => ?_, fun overflows later => ?_⟩
  · rcases maps_or_overflows calls with ⟨_, maps⟩ | ⟨_, gaveUp⟩
    · exact maps.distinct
    · rw [gaveUp]
      exact .nil
  · rcases maps_or_overflows calls with ⟨_, maps⟩ | ⟨_, gaveUp⟩
    · exact maps.bounded
    · rw [gaveUp]
      exact Nat.zero_le _
  · rcases maps_or_overflows calls with ⟨_, maps⟩ | ⟨overflows, _⟩
    · rw [mem_shapes_iff, maps.places]
      exact ⟨rfl, .rfl⟩
    · exact absurd overflows fits
  · rcases maps_or_overflows (calls ++ later) with ⟨fits, _⟩ | ⟨_, gaveUp⟩
    · exact absurd (overflows.append later) fits
    · rw [gaveUp]
      exact ⟨rfl, fun _ => rfl⟩

/-- Four shapes, of which the first makes way for a fifth one; the sixth is one too many. -/
def crowdedCalls : List Call :=
  [.update ⟨0⟩ (.own 0), .update ⟨1⟩ (.own 1), .update ⟨2⟩ (.own 2), .update ⟨3⟩ (.own 3),
    .evict ⟨0⟩, .update ⟨4⟩ (.own 4), .update ⟨5⟩ (.own 5)]

/-- The fifth shape has its place and the first one has none, until the sixth shape comes. -/
theorem caches_are_bounded_maps_crowdedCalls :
    (afterCalls (crowdedCalls.take 6)).lookup? ⟨4⟩ = some (.own 4) ∧
      (⟨0⟩ : ShapeId) ∉ (afterCalls (crowdedCalls.take 6)).shapes ∧
      ∀ later shape, (afterCalls (crowdedCalls ++ later)).lookup? shape = none := by
  have fits : ¬ Overflows (crowdedCalls.take 6) := by
    rcases maps_or_overflows (crowdedCalls.take 6) with ⟨fits, _⟩ | ⟨_, gaveUp⟩
    · exact fits
    · exact absurd gaveUp (by decide)
  have overflows : Overflows crowdedCalls :=
    ⟨crowdedCalls.take 6, ⟨5⟩, .own 5, [], rfl, rfl, [⟨1⟩, ⟨2⟩, ⟨3⟩, ⟨4⟩], by decide, rfl,
      by decide⟩
  obtain ⟨-, -, places, -⟩ := caches_are_bounded_maps (crowdedCalls.take 6)
  obtain ⟨-, -, -, gaveUp⟩ := caches_are_bounded_maps crowdedCalls
  refine ⟨(places fits ⟨4⟩).1, ?_, fun later => (gaveUp overflows later).2⟩
  exact (places fits ⟨0⟩).2.not.2 (by decide)

end InlineCache
end ScriptVM

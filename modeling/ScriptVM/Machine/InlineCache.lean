import ScriptVM.Heap.Shape

/-!
# Inline caches

A cache remembers for a few receiver shapes where a property was found. It holds
one shape, then several, and gives up for good when a new shape does not fit any
more.
-/

namespace ScriptVM

/-- Where a property was found. -/
inductive CacheHit
  /-- In the receiver, at an offset. -/
  | own (offset : Nat)
  /-- In the receiver's prototype, which had a certain shape. -/
  | inherited (holder : ObjectId) (holderShape : ShapeId) (offset : Nat)
  deriving DecidableEq, Repr

/-- What one property access remembers. -/
inductive InlineCache
  | uninitialized
  | monomorphic (shape : ShapeId) (hit : CacheHit)
  | polymorphic (entries : List (ShapeId × CacheHit))
  | megamorphic
  deriving DecidableEq, Repr, Inhabited

namespace InlineCache

/-- The most shapes that a cache holds. -/
def limit : Nat := 4

/-- The place remembered for a receiver shape. -/
def lookup? (cache : InlineCache) (shape : ShapeId) : Option CacheHit :=
  match cache with
  | uninitialized | megamorphic => none
  | monomorphic cached hit => if cached == shape then some hit else none
  | polymorphic entries => entries.lookup shape

/-- Replace the place of a shape that is among the entries. -/
def replace (shape : ShapeId) (hit : CacheHit) (entries : List (ShapeId × CacheHit)) :
    List (ShapeId × CacheHit) :=
  entries.map fun entry => if entry.1 == shape then (shape, hit) else entry

/-- Remember a place for a receiver shape. -/
def update (cache : InlineCache) (shape : ShapeId) (hit : CacheHit) : InlineCache :=
  match cache with
  | uninitialized => monomorphic shape hit
  | monomorphic cached cachedHit =>
      if cached == shape then monomorphic shape hit
      else polymorphic [(cached, cachedHit), (shape, hit)]
  | polymorphic entries =>
      if (entries.lookup shape).isSome then polymorphic (replace shape hit entries)
      else if entries.length < limit then polymorphic (entries ++ [(shape, hit)])
      else megamorphic
  | megamorphic => megamorphic

/-- Forget the place of a receiver shape. -/
def evict (cache : InlineCache) (shape : ShapeId) : InlineCache :=
  match cache with
  | uninitialized => uninitialized
  | monomorphic cached hit =>
      if cached == shape then uninitialized else monomorphic cached hit
  | polymorphic entries => polymorphic (entries.filter fun entry => entry.1 != shape)
  | megamorphic => megamorphic

/-- The cache gave up. -/
def isMegamorphic : InlineCache -> Bool
  | megamorphic => true
  | _ => false

end InlineCache
end ScriptVM

import ScriptVM.Heap.Basic

/-!
# Garbage collection

Marking starts from the roots and follows prototype links, own properties and the
references that the internal slots report. The sweep frees every object that was
not marked and forgets the empty shape of each freed prototype.
-/

namespace ScriptVM
namespace Heap

variable {K : Type}

/-- Counts of one collection. -/
structure CollectionStats where
  marked : Nat
  freed : Nat
  deriving DecidableEq, Repr

/-- Every object that an object refers to. -/
def references (trace : K -> List ObjectId) (object : HeapObject K) : List ObjectId :=
  object.prototype.toList ++ object.properties.values.filterMap Value.objectId? ++
    trace object.payload

theorem count_set_lt (marks : Array Bool) (index : Nat) (bound : index < marks.size)
    (unmarked : marks[index] = false) :
    (marks.set index true).count false < marks.count false := by
  have found : 0 < marks.count false :=
    Array.count_pos_iff.2 (unmarked ▸ Array.getElem_mem bound)
  rw [Array.count_set bound, unmarked]
  exact Nat.sub_lt found Nat.one_pos

/-- Mark everything reachable from the pending handles. Handles that are dead,
out of range or marked already are skipped. -/
def mark (heap : Heap K) (trace : K -> List ObjectId) (marks : Array Bool) :
    List ObjectId -> Array Bool
  | [] => marks
  | id :: pending =>
      if bound : id.index < marks.size then
        if unmarked : marks[id.index] = false then
          match heap.get? id with
          | none => heap.mark trace marks pending
          | some object =>
              heap.mark trace (marks.set id.index true)
                (references trace object ++ pending)
        else heap.mark trace marks pending
      else heap.mark trace marks pending
  termination_by pending => (marks.count false, pending.length)
  decreasing_by
    all_goals simp_wf
    · exact Prod.Lex.right _ (by simp)
    · exact Prod.Lex.left _ _ (count_set_lt marks id.index bound unmarked)
    · exact Prod.Lex.right _ (by simp)
    · exact Prod.Lex.right _ (by simp)

/-- The handles of live objects that were not marked, in ascending order. -/
def unmarked (heap : Heap K) (marks : Array Bool) : List ObjectId :=
  ((List.range heap.objects.size).map ObjectId.mk).filter fun id =>
    heap.contains id && !(marks[id.index]?).getD false

/-- Free one object. -/
def release (heap : Heap K) (id : ObjectId) : Heap K :=
  { objects := heap.objects.setIfInBounds id.index none
    free := id.index :: heap.free
    shapes := heap.shapes.forgetPrototype id
    stats := { heap.stats with live := heap.stats.live - 1 } }

/-- Free every object that is not reachable from the roots. -/
def collect (heap : Heap K) (trace : K -> List ObjectId) (roots : List ObjectId) :
    CollectionStats × Heap K :=
  let marks := heap.mark trace (Array.replicate heap.objects.size false) roots
  let freed := heap.unmarked marks
  let heap := freed.foldl release heap
  let stats :=
    { heap.stats with
      allocatedSinceCollection := 0
      collections := heap.stats.collections + 1 }
  ({ marked := marks.count true, freed := freed.length }, { heap with stats })

end Heap
end ScriptVM

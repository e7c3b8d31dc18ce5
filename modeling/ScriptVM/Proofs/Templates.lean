import Mathlib.Data.List.Nodup
import ScriptVM.Proofs.Coherence

/-!
# Templates of a machine

A chunk is made into a family of templates that are numbered one after the other. In a
run no two templates have the same number, each nests what its chunk nests, and under
its number a machine keeps as many inline caches as its chunk asks for.
-/

namespace ScriptVM

/-! ## Families -/

namespace Template

mutual

/-- A template and all that is nested in it, in the order of identities. -/
def family : Template -> List Template
  | { id, chunk, nested } => { id, chunk, nested } :: families nested

/-- The families of several templates, one after the other. -/
def families : List Template -> List Template
  | [] => []
  | template :: rest => template.family ++ families rest

end

/-- Templates that are numbered from `next` on, with the cache slots of each. -/
structure Numbered
    (next : Nat)
    (family : List Template)
    (slots : List Nat) : Prop where
  ids : family.map (fun template => template.id.index) = List.range' next slots.length
  slots : family.map (fun template => template.chunk.cacheSlots) = slots
  nested : ∀ template ∈ family, template.nested.map chunk = template.chunk.functions

namespace Numbered

variable {template : Template}

theorem nil (next : Nat) : Numbered next [] [] where
  ids := rfl
  slots := rfl
  nested _ member := by cases member

theorem cons
    {rest : List Template}
    {slots : List Nat}
    (nested : template.nested.map chunk = template.chunk.functions)
    (numbered : Numbered (template.id.index + 1) rest slots) :
    Numbered template.id.index (template :: rest) (template.chunk.cacheSlots :: slots) where
  ids := by rw [List.map_cons, numbered.ids, List.length_cons, List.range'_succ]
  slots := by rw [List.map_cons, numbered.slots]
  nested := by
    intro other member
    cases member with
    | head => exact nested
    | tail _ later => exact numbered.nested other later

theorem append
    {next : Nat}
    {first second : List Template}
    {firstSlots secondSlots : List Nat}
    (earlier : Numbered next first firstSlots)
    (later : Numbered (next + firstSlots.length) second secondSlots) :
    Numbered next (first ++ second) (firstSlots ++ secondSlots) where
  ids := by
    rw [List.map_append, earlier.ids, later.ids, List.length_append]
    exact List.range'_append_1
  slots := by rw [List.map_append, earlier.slots, later.slots]
  nested := by
    intro template member
    rcases List.mem_append.1 member with left | right
    · exact earlier.nested template left
    · exact later.nested template right

variable {next : Nat} {family : List Template} {slots : List Nat}

variable (numbered : Numbered next family slots)
include numbered

theorem id_bounds
    (member : template ∈ family) :
    next <= template.id.index ∧ template.id.index < next + slots.length := by
  have listed : template.id.index ∈ List.range' next slots.length := by
    rw [← numbered.ids]
    exact List.mem_map_of_mem member
  exact List.mem_range'_1.1 listed

theorem eq_of_id_eq
    {left right : Template}
    (leftMember : left ∈ family)
    (rightMember : right ∈ family)
    (same : left.id = right.id) :
    left = right := by
  have distinct : (family.map fun template => template.id.index).Nodup := by
    rw [numbered.ids]
    exact List.nodup_range'
  exact List.inj_on_of_nodup_map distinct leftMember rightMember
    (congrArg TemplateId.index same)

theorem slots_at
    (member : template ∈ family) :
    slots[template.id.index - next]? = some template.chunk.cacheSlots := by
  obtain ⟨place, within, found⟩ := List.getElem_of_mem member
  have inFamily : family[place]? = some template := List.getElem?_eq_some_iff.2 ⟨within, found⟩
  have number : (List.range' next slots.length)[place]? = some template.id.index := by
    rw [← numbered.ids, List.getElem?_map, inFamily]
    rfl
  obtain ⟨_, counted⟩ := List.getElem?_eq_some_iff.1 number
  rw [List.getElem_range', Nat.one_mul] at counted
  have slot : (family.map fun template => template.chunk.cacheSlots)[place]? =
      some template.chunk.cacheSlots := by
    rw [List.getElem?_map, inFamily]
    rfl
  rw [numbered.slots] at slot
  rwa [← counted, Nat.add_sub_cancel_left]

end Numbered

/-- The templates that a chunk is made into mirror it and are numbered from `next` on. -/
theorem numbered_ofChunk :
    (∀ next chunk, (ofChunk next chunk).1.chunk = chunk ∧
      Numbered next (ofChunk next chunk).1.family (ofChunk next chunk).2) ∧
    ∀ next chunks, (ofChunks next chunks).1.map chunk = chunks ∧
      Numbered next (families (ofChunks next chunks).1) (ofChunks next chunks).2 := by
  apply ofChunk.mutual_induct
  case case1 =>
    intro next info code constants registerCount cacheSlots functions nested slots _ step
    unfold ofChunk
    refine ⟨rfl, ?_⟩
    unfold family
    exact @Numbered.cons ⟨⟨next⟩, _, _⟩ _ _ step.1 step.2
  case case2 =>
    intro next
    unfold ofChunks families
    exact ⟨rfl, .nil next⟩
  case case3 =>
    intro next chunk rest template slots made nested nestedSlots madeRest head tail
    unfold ofChunks families
    rw [made] at head
    dsimp only
    rw [made]
    refine ⟨?_, head.2.append tail.2⟩
    rw [List.map_cons, head.1, tail.1]

theorem mem_family_self (template : Template) : template ∈ template.family := by
  cases template
  unfold family
  exact .head _

theorem mem_families
    {templates : List Template}
    {outer inner : Template}
    (member : outer ∈ templates)
    (within : inner ∈ outer.family) :
    inner ∈ families templates := by
  induction templates with
  | nil => cases member
  | cons template rest step =>
      unfold families
      cases member with
      | head => exact List.mem_append_left _ within
      | tail _ later => exact List.mem_append_right _ (step later)

/-- What is nested in a member of a family is a member too. -/
theorem nested_mem_family {middle inner : Template} (nests : inner ∈ middle.nested) :
    (∀ outer : Template, middle ∈ outer.family -> inner ∈ outer.family) ∧
      ∀ templates : List Template, middle ∈ families templates -> inner ∈ families templates := by
  apply family.mutual_induct
  case case1 =>
    intro id chunk nested step member
    unfold family at member ⊢
    refine .tail _ ?_
    cases member with
    | head => exact mem_families nests inner.mem_family_self
    | tail _ later => exact step later
  case case2 =>
    intro member
    unfold families at member
    cases member
  case case3 =>
    intro template rest head tail member
    unfold families at member ⊢
    rcases List.mem_append.1 member with left | right
    · exact List.mem_append_left _ (head left)
    · exact List.mem_append_right _ (tail right)

theorem Within.mem_family {outer inner : Template} (within : outer.Within inner) :
    inner ∈ outer.family := by
  induction within with
  | self => exact outer.mem_family_self
  | nested _ member step => exact (nested_mem_family member).1 outer step

end Template

/-! ## Caches -/

namespace Machine

variable {σ : Type}

/-- The number of inline caches that a machine keeps for each template. -/
def cacheCounts (machine : Machine σ) : List Nat :=
  machine.caches.toList.map Array.size

theorem cacheCounts_setCache
    (machine : Machine σ)
    (template : TemplateId)
    (slot : Nat)
    (cache : InlineCache) :
    (machine.setCache template slot cache).cacheCounts = machine.cacheCounts := by
  unfold setCache cacheCounts
  dsimp only
  refine List.ext_getElem? fun index => ?_
  rw [Array.toList_modify, List.getElem?_map, List.getElem?_map, List.getElem?_modify]
  split <;> cases machine.caches.toList[index]? <;> simp

theorem cacheCounts_cachedLookup
    (machine : Machine σ)
    (id : ObjectId)
    (key : PropertyKey)
    (template : TemplateId)
    (slot : Nat) :
    (machine.cachedLookup id key template slot).2.cacheCounts = machine.cacheCounts := by
  unfold cachedLookup
  split
  · rfl
  · split
    · dsimp only
      split
      · rfl
      · exact machine.cacheCounts_setCache template slot _
    · rfl

theorem cacheCounts_rememberOwn
    (machine : Machine σ)
    (id : ObjectId)
    (key : PropertyKey)
    (template : TemplateId)
    (slot : Nat) :
    (machine.rememberOwn id key template slot).cacheCounts = machine.cacheCounts := by
  unfold rememberOwn
  split
  · split
    · exact machine.cacheCounts_setCache template slot _
    · rfl
  · rfl

theorem cacheCounts_addTemplate (machine : Machine σ) (chunk : Chunk) :
    (machine.addTemplate chunk).2.cacheCounts =
      machine.cacheCounts ++ (Template.ofChunk machine.caches.size chunk).2 := by
  unfold addTemplate cacheCounts
  simp [Function.comp_def]

end Machine

/-! ## Files of templates -/

variable {σ : Type}

/-- The templates that came up are kept apart by their numbers, each nests what its
chunk nests, and the machine has the caches of each. -/
structure Stage.Filed (stage : Stage σ) : Prop where
  nested : ∀ template, stage.origins.template template ->
    template.nested.map Template.chunk = template.chunk.functions
  cached : ∀ template, stage.origins.template template ->
    stage.machine.cacheCounts[template.id.index]? = some template.chunk.cacheSlots
  distinct : ∀ left right, stage.origins.template left -> stage.origins.template right ->
    left.id = right.id -> left = right

namespace Stage.Filed

theorem none (machine : Machine σ) : Filed ⟨.none, machine⟩ where
  nested _ impossible := impossible.elim
  cached _ impossible := impossible.elim
  distinct _ _ impossible := impossible.elim

/-- Only templates and the number of caches matter. -/
theorem same
    {before after : Stage σ}
    (filed : before.Filed)
    (templates : after.origins.template = before.origins.template)
    (counts : after.machine.cacheCounts = before.machine.cacheCounts) :
    after.Filed where
  nested template known := filed.nested template (by rwa [templates] at known)
  cached template known := by
    rw [counts]
    exact filed.cached template (by rwa [templates] at known)
  distinct left right knownLeft knownRight :=
    filed.distinct left right (by rwa [templates] at knownLeft)
      (by rwa [templates] at knownRight)

theorem load
    {origins : Origins}
    {machine : Machine σ}
    (filed : Filed ⟨origins, machine⟩)
    (chunk : Chunk) :
    Filed ⟨origins.withTemplate (machine.addTemplate chunk).1,
      (machine.addTemplate chunk).2⟩ := by
  have numbered := (Template.numbered_ofChunk.1 machine.caches.size chunk).2
  have count : machine.cacheCounts.length = machine.caches.size := by
    unfold Machine.cacheCounts
    simp
  have old : ∀ template, origins.template template ->
      template.id.index < machine.caches.size := by
    intro template known
    rw [← count]
    exact (List.getElem?_eq_some_iff.1 (filed.cached template known)).1
  refine ⟨?_, ?_, ?_⟩
  · rintro template (known | within)
    · exact filed.nested template known
    · exact numbered.nested template within.mem_family
  · intro template known
    dsimp only
    rw [machine.cacheCounts_addTemplate chunk]
    rcases known with known | within
    · rw [List.getElem?_append_left (by rw [count]; exact old template known)]
      exact filed.cached template known
    · have member := Template.Within.mem_family within
      have bounds := (numbered.id_bounds member).1
      rw [List.getElem?_append_right (by rw [count]; exact bounds), count]
      exact numbered.slots_at member
  · rintro left right (knownLeft | withinLeft) (knownRight | withinRight) same
    · exact filed.distinct left right knownLeft knownRight same
    · have := (numbered.id_bounds withinRight.mem_family).1
      have := old left knownLeft
      rw [same] at this
      omega
    · have := (numbered.id_bounds withinLeft.mem_family).1
      have := old right knownRight
      rw [← same] at this
      omega
    · exact numbered.eq_of_id_eq withinLeft.mem_family withinRight.mem_family same

end Stage.Filed

/-- A transition keeps the templates filed. -/
theorem Transition.filed
    {before after : Stage σ}
    (filed : before.Filed)
    (transition : Transition before after) :
    after.Filed := by
  cases transition with
  | load origins machine chunk => exact filed.load chunk
  | consult origins machine id name template slot =>
      exact filed.same rfl (machine.cacheCounts_cachedLookup id name template.id slot)
  | remember origins machine id name template slot =>
      exact filed.same rfl (machine.cacheCounts_rememberOwn id name template.id slot)
  | replace origins machine top frame =>
      refine filed.same rfl ?_
      unfold Machine.popFrame
      split <;> rfl
  | pop origins machine =>
      refine filed.same rfl ?_
      unfold Machine.popFrame
      split <;> rfl
  | capture origins machine top nested =>
      refine filed.same rfl ?_
      unfold Machine.captureClosure
      split <;> rfl
  | detach origins machine first =>
      refine filed.same rfl ?_
      unfold Machine.detachFrom
      split <;> rfl
  | collect origins machine kept =>
      refine filed.same rfl ?_
      unfold Machine.collectGarbage
      split <;> rfl
  | _ => exact filed.same rfl rfl

end ScriptVM

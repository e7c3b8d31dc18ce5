import ScriptVM.Proofs.Trails

/-!
# The `this` of derived constructors

The `this` of a derived constructor comes from its parent. Until a super call gives it a value,
it is unknown, and the scope of the constructor refers to it by a cell that arrow functions
share. A cell is written once: no transition forgets a value that is known, and each value
comes from a super call of the innermost frame. No two scopes refer to the same cell.
-/

namespace ScriptVM

variable {σ α : Type}

/-! ## Cells -/

/-- The cells of a `this` stay, and so does a `this` that is known. -/
structure Cells.KeepsThis (before after : Cells) : Prop where
  size : before.thisCells.size <= after.thisCells.size
  known {index : Nat} {value : Value} : before.thisCells[index]? = some (some value) ->
    after.thisCells[index]? = some (some value)

namespace Cells

variable {cells : Cells} {scope : Scope}

theorem this?_of_bound {value : Value} (bound : scope.this = .bound value) :
    cells.this? scope = some value := by
  unfold this?
  rw [bound]

theorem this?_of_pending {cell : ThisCellId} (pending : scope.this = .pending cell) :
    cells.this? scope = (cells.thisCells[cell.index]?).join := by
  unfold this?
  rw [pending]

theorem this?_congr
    {first second : Cells}
    (same : second.thisCells = first.thisCells)
    (scope : Scope) :
    second.this? scope = first.this? scope := by
  unfold this?
  rw [same]

namespace KeepsThis

variable {first second third : Cells}

theorem of_same (same : second.thisCells = first.thisCells) : first.KeepsThis second where
  size := Nat.le_of_eq (congrArg Array.size same.symm)
  known known := same ▸ known

theorem trans (earlier : first.KeepsThis second) (later : second.KeepsThis third) :
    first.KeepsThis third where
  size := Nat.le_trans earlier.size later.size
  known known := later.known (earlier.known known)

/-- A scope whose `this` is known keeps it. -/
theorem this?
    (keeps : first.KeepsThis second)
    {scope : Scope}
    {value : Value}
    (known : first.this? scope = some value) :
    second.this? scope = some value := by
  cases place : scope.this with
  | bound this =>
      rw [this?_of_bound place] at known ⊢
      exact known
  | pending cell =>
      rw [this?_of_pending place] at known ⊢
      exact Option.join_eq_some_iff.2 (keeps.known (Option.join_eq_some_iff.1 known))

end KeepsThis

/-- A new cell is the last one, and nothing is known about it. -/
theorem keepsThis_push
    {before after : Cells}
    (pushed : after.thisCells = before.thisCells.push none) :
    before.KeepsThis after where
  size := by
    rw [pushed, Array.size_push]
    exact Nat.le_succ _
  known known := by
    obtain ⟨bound, known⟩ := Array.getElem?_eq_some_iff.1 known
    rw [pushed, Array.getElem?_push_lt bound, known]

/-- What a scope is given changes at most its cell, and only if nothing was known. -/
theorem thisCells_bindThis (cells : Cells) (scope : Scope) (this : Value) :
    (cells.bindThis scope this).2.thisCells = cells.thisCells ∨
      ∃ cell, scope.this = .pending cell ∧ cells.this? scope = none ∧
        (cells.bindThis scope this).2.thisCells =
          cells.thisCells.setIfInBounds cell.index (some this) := by
  unfold bindThis
  split
  · exact Or.inl rfl
  · next cell pending =>
      split
      · exact Or.inl rfl
      · next unbound =>
          exact Or.inr ⟨cell, pending, (this?_of_pending pending).trans unbound, rfl⟩

theorem keepsThis_bindThis (cells : Cells) (scope : Scope) (this : Value) :
    cells.KeepsThis (cells.bindThis scope this).2 := by
  rcases cells.thisCells_bindThis scope this with same | ⟨cell, pending, unbound, written⟩
  · exact .of_same same
  · refine ⟨?_, fun {index value} known => ?_⟩
    · rw [written]
      exact Nat.le_of_eq Array.size_setIfInBounds.symm
    · have apart : cell.index ≠ index := by
        rintro rfl
        rw [this?_of_pending pending, known] at unbound
        cases unbound
      rwa [written, Array.getElem?_setIfInBounds_ne apart]

/-- A scope whose cell is in place and whose `this` is unknown gets it. -/
theorem this?_bindThis
    (unbound : cells.this? scope = none)
    (placed : ∀ cell, scope.this = .pending cell -> cell.index < cells.thisCells.size)
    (this : Value) :
    (cells.bindThis scope this).1 = true ∧
      (cells.bindThis scope this).2.this? scope = some this := by
  cases place : scope.this with
  | bound value =>
      rw [this?_of_bound place] at unbound
      cases unbound
  | pending cell =>
      rw [this?_of_pending place] at unbound
      have bound : cells.bindThis scope this = (true, { cells with
          thisCells := cells.thisCells.setIfInBounds cell.index (some this) }) := by
        unfold bindThis
        rw [place]
        dsimp only
        rw [unbound]
      rw [bound]
      refine ⟨rfl, (this?_of_pending place).trans ?_⟩
      rw [Array.getElem?_setIfInBounds_self_of_lt (placed cell place)]
      rfl

/-- A scope whose `this` is known does not get another one. -/
theorem bindThis_of_known
    {value : Value}
    (known : cells.this? scope = some value)
    (this : Value) :
    cells.bindThis scope this = (false, cells) := by
  unfold bindThis
  cases place : scope.this with
  | bound value => rfl
  | pending cell =>
      rw [this?_of_pending place] at known
      dsimp only
      rw [known]

end Cells

/-! ## Cells that nothing else writes -/

theorem CellsChange.thisCells {before after : Cells} (change : CellsChange before after) :
    after.thisCells = before.thisCells := by
  cases change with
  | setUpvalue id value =>
      unfold Cells.setUpvalue
      split <;> rfl
  | _ => rfl

namespace Machine

theorem thisCells_fillRegisters
    (values : List Value)
    (cells : Cells)
    (window : WindowId)
    (register : Register) :
    (fillRegisters cells window register values).thisCells = cells.thisCells := by
  induction values generalizing cells register with
  | nil => rfl
  | cons value rest step => exact step (cells.setRegister window register value) (register + 1)

theorem thisCells_openFrame
    (machine : Machine σ)
    (function : ObjectId)
    (closure : Closure)
    (scope : Scope)
    (arguments : List Value)
    (returnTo : ReturnTo) :
    (machine.openFrame function closure scope arguments returnTo).2.cells.thisCells =
      machine.cells.thisCells := by
  unfold openFrame
  dsimp only
  split <;> exact thisCells_fillRegisters ..

theorem cells_collectGarbage (machine : Machine σ) (kept : List Value) :
    (machine.collectGarbage kept).2.cells = machine.cells := by
  unfold collectGarbage
  split <;> rfl

end Machine

/-! ## Transitions -/

/-- A super call that the innermost frame has fetched gives the cell of its scope, of which
nothing was known, a value, and does nothing else. -/
def Machine.BindsThis
    (before : Machine σ)
    (cell : ThisCellId)
    (this : Value)
    (after : Machine σ) : Prop :=
  ∃ top destination first count, before.top? = some top ∧
    top.HasFetched (.superCall destination first count) ∧ top.scope.this = .pending cell ∧
    before.cells.this? top.scope = none ∧
    after = { before with cells := (before.cells.bindThis top.scope this).2 }

namespace Machine.BindsThis

variable {before after : Machine σ} {cell : ThisCellId} {this : Value}

theorem keepsThis (binds : before.BindsThis cell this after) :
    before.cells.KeepsThis after.cells := by
  obtain ⟨top, _, _, _, _, _, _, _, rfl⟩ := binds
  exact before.cells.keepsThis_bindThis top.scope this

/-- Only the scopes that refer to the cell get a value, and that is the value that the super
call gives. -/
theorem of_known
    (binds : before.BindsThis cell this after)
    {scope : Scope}
    {place : ThisCellId}
    {value : Value}
    (pending : scope.this = .pending place)
    (unbound : before.cells.this? scope = none)
    (bound : after.cells.this? scope = some value) :
    place = cell ∧ value = this := by
  obtain ⟨top, _, _, _, _, _, refers, _, rfl⟩ := binds
  rcases before.cells.thisCells_bindThis top.scope this with same | ⟨written, same, -, cells⟩
  · rw [Cells.this?_of_pending pending] at unbound bound
    rw [same, unbound] at bound
    cases bound
  · cases refers.symm.trans same
    rw [Cells.this?_of_pending pending] at unbound bound
    rw [cells] at bound
    by_cases index : cell.index = place.index
    · obtain rfl : cell = place := by
        cases cell
        cases place
        cases index
        rfl
      rw [Array.getElem?_setIfInBounds] at bound
      rw [if_pos rfl] at bound
      split at bound
      · cases bound
        exact ⟨rfl, rfl⟩
      · cases bound
    · rw [Array.getElem?_setIfInBounds_ne index, unbound] at bound
      cases bound

end Machine.BindsThis

/-- What a transition does to the `this` of scopes. -/
inductive Stage.Rebinds (before after : Stage σ) : Prop
  | same :
      after.machine.cells.thisCells = before.machine.cells.thisCells ->
      after.origins.scope = before.origins.scope -> Rebinds before after
  /-- A scope begins with a new cell. -/
  | begins (scope : Scope) :
      scope.this = .pending ⟨before.machine.cells.thisCells.size⟩ ->
      after.machine.cells.thisCells = before.machine.cells.thisCells.push none ->
      after.origins.scope = (before.origins.withScope scope).scope -> Rebinds before after
  /-- A super call gives a cell its value. -/
  | binds (cell : ThisCellId) (this : Value) :
      before.machine.BindsThis cell this after.machine ->
      after.origins.scope = before.origins.scope -> Rebinds before after

theorem Transition.rebinds {before after : Stage σ} (transition : Transition before after) :
    before.Rebinds after := by
  cases transition with
  | cells origins machine cells change => exact .same change.thisCells rfl
  | scope origins machine scope pending => exact .begins scope pending rfl rfl
  | bindThis origins machine top destination first count this standing fetched =>
      rcases machine.cells.thisCells_bindThis top.scope this with
        same | ⟨cell, pending, unbound, _⟩
      · exact .same same rfl
      · exact .binds cell this
          ⟨top, destination, first, count, standing, fetched, pending, unbound, rfl⟩ rfl
  | consult origins machine id name template slot =>
      obtain ⟨caches, same⟩ := machine.cachedLookup_machine id name template.id slot
      rw [same]
      exact .same rfl rfl
  | remember origins machine id name template slot =>
      obtain ⟨caches, same⟩ := machine.rememberOwn_machine id name template.id slot
      rw [same]
      exact .same rfl rfl
  | replace origins machine => exact .same machine.recaptures_popFrame.thisCells rfl
  | pop origins machine => exact .same machine.recaptures_popFrame.thisCells rfl
  | capture origins machine top nested =>
      exact .same (machine.recaptures_captureClosure nested).thisCells rfl
  | detach origins machine first => exact .same (machine.recaptures_detachFrom first).thisCells rfl
  | collect origins machine kept =>
      exact .same (congrArg Cells.thisCells (machine.cells_collectGarbage kept)) rfl
  | _ => exact .same rfl rfl

namespace Stage

variable {before after : Stage σ}

theorem Rebinds.keepsThis (rebinds : before.Rebinds after) :
    before.machine.cells.KeepsThis after.machine.cells := by
  cases rebinds with
  | same cells => exact .of_same cells
  | begins scope pending cells => exact Cells.keepsThis_push cells
  | binds cell this binds => exact binds.keepsThis

/-- Whatever a run does, a `this` that is known stays. -/
theorem Leads.keepsThis (leads : before.Leads after) :
    before.machine.cells.KeepsThis after.machine.cells := by
  induction leads with
  | refl => exact .of_same rfl
  | tail _ transition earlier => exact earlier.trans transition.rebinds.keepsThis

/-- A `this` that becomes known comes from a super call. -/
theorem Rebinds.bindsThis
    (rebinds : before.Rebinds after)
    {scope : Scope}
    {cell : ThisCellId}
    {this : Value}
    (pending : scope.this = .pending cell)
    (unbound : before.machine.cells.this? scope = none)
    (bound : after.machine.cells.this? scope = some this) :
    before.machine.BindsThis cell this after.machine := by
  cases rebinds with
  | same cells =>
      rw [Cells.this?_of_pending pending] at unbound bound
      rw [cells, unbound] at bound
      cases bound
  | begins new _ cells =>
      rw [Cells.this?_of_pending pending] at unbound bound
      rw [cells, Array.getElem?_push] at bound
      split at bound
      · cases bound
      · rw [unbound] at bound
        cases bound
  | binds written value binds =>
      obtain ⟨rfl, rfl⟩ := binds.of_known pending unbound bound
      exact binds

/-- Each scope that began without a `this` has a cell of its own that is in place. -/
structure CellsApart (stage : Stage σ) : Prop where
  placed : ∀ scope, stage.origins.scope scope ->
    ∃ cell, scope.this = .pending cell ∧ cell.index < stage.machine.cells.thisCells.size
  distinct : ∀ scope other, stage.origins.scope scope -> stage.origins.scope other ->
    scope.this = other.this -> scope = other

theorem CellsApart.rebinds (apart : before.CellsApart) (rebinds : before.Rebinds after) :
    after.CellsApart := by
  have size := rebinds.keepsThis.size
  have kept : ∀ scope, before.origins.scope scope ->
      ∃ cell, scope.this = .pending cell ∧
        cell.index < after.machine.cells.thisCells.size := fun scope known => by
    obtain ⟨cell, pending, within⟩ := apart.placed scope known
    exact ⟨cell, pending, Nat.lt_of_lt_of_le within size⟩
  cases rebinds with
  | same _ scopes | binds _ _ _ scopes =>
      refine ⟨fun scope known => kept scope (scopes ▸ known), fun scope other known came => ?_⟩
      exact apart.distinct scope other (scopes ▸ known) (scopes ▸ came)
  | begins new pending cells scopes =>
      -- The cell of a scope that came up before lies below the new one.
      have fresh : ∀ scope, before.origins.scope scope -> scope.this ≠ new.this := by
        intro scope known same
        obtain ⟨cell, place, within⟩ := apart.placed scope known
        cases (place.symm.trans same).trans pending
        exact Nat.lt_irrefl _ within
      refine ⟨fun scope known => ?_, fun scope other known came same => ?_⟩
      · rw [scopes] at known
        rcases known with old | rfl
        · exact kept scope old
        · refine ⟨_, pending, ?_⟩
          rw [cells, Array.size_push]
          exact Nat.lt_succ_self _
      · rw [scopes] at known came
        rcases known, came with ⟨old | rfl, older | rfl⟩
        · exact apart.distinct scope other old older same
        · exact absurd same (fresh scope old)
        · exact absurd same.symm (fresh other older)
        · rfl

theorem cellsApart_blank (intrinsics : Intrinsics) (config : Config) (world : σ) :
    (blank intrinsics config world).CellsApart where
  placed _ impossible := impossible.elim
  distinct _ _ impossible := impossible.elim

end Stage
end ScriptVM

import ExpressionChecker.Scopes

namespace ExpressionChecker

/-!
# Scopes as lists of symbols

The index of a scope is exact, so nothing about a scope depends on it: looking a name up, declaring
one and changing a symbol can all be said of the list of symbols.  An analysis enters no scope, and
as long as none has been entered the whole table is one such list.
-/

namespace Scope

/-- The slot of a symbol is the one that the index gives for its name. -/
theorem slot_of_symbol (scope : Scope) {slot : Nat} {symbol : Symbol}
    (found : scope.symbols[slot]? = some symbol) : scope.slots[symbol.name]? = some slot := by
  apply (scope.slots_exact symbol.name slot).mpr
  rw [found]
  rfl

/-- What the index gives for a name is the slot of a symbol of that name. -/
theorem symbol_of_slot (scope : Scope) {slot : Nat} {name : String}
    (known : scope.slots[name]? = some slot) :
    ∃ symbol, scope.symbols[slot]? = some symbol ∧ symbol.name = name := by
  have named := (scope.slots_exact name slot).mp known
  exact Option.map_eq_some_iff.mp named

theorem find?_eq_some_iff (scope : Scope) {name : String} {symbol : Symbol} :
    scope.find? name = some symbol ↔ symbol ∈ scope.symbols.toList ∧ symbol.name = name := by
  constructor
  · intro found
    rcases Option.bind_eq_some_iff.mp found with ⟨slot, known, present⟩
    rcases scope.symbol_of_slot known with ⟨symbol', present', named⟩
    rw [present, Option.some.injEq] at present'
    subst present'
    have listed : scope.symbols.toList[slot]? = some symbol := by
      rw [Array.getElem?_toList, present]
    exact ⟨List.mem_of_getElem? listed, named⟩
  · rintro ⟨listed, rfl⟩
    rcases List.getElem?_of_mem listed with ⟨slot, present⟩
    rw [Array.getElem?_toList] at present
    rw [find?, scope.slot_of_symbol present, Option.bind_some, present]

/-- Looking a name up in a scope is looking it up in the list of symbols. -/
theorem find?_eq (scope : Scope) (name : String) :
    scope.find? name = scope.symbols.toList.find? fun symbol => symbol.name = name := by
  cases found : scope.find? name with
  | none =>
      symm
      rw [List.find?_eq_none]
      intro symbol listed named
      have known := scope.find?_eq_some_iff.mpr ⟨listed, of_decide_eq_true named⟩
      rw [found] at known
      cases known
  | some symbol =>
      rcases scope.find?_eq_some_iff.mp found with ⟨listed, named⟩
      cases other : scope.symbols.toList.find? (fun symbol => symbol.name = name) with
      | none => exact absurd (decide_eq_true named) (List.find?_eq_none.mp other symbol listed)
      | some symbol' =>
          have matched := List.find?_some other
          rw [decide_eq_true_eq] at matched
          have known := scope.find?_eq_some_iff.mpr ⟨List.mem_of_find?_eq_some other, matched⟩
          exact found.symm.trans known

/-- The symbol after a change to the one of a name. -/
def changedNamed (name : String) (change : Symbol → Symbol) (symbol : Symbol) : Symbol :=
  if symbol.name = name then symbol.changed change else symbol

theorem toList_update (scope : Scope) (name : String) (change : Symbol → Symbol) :
    (scope.update name change).symbols.toList =
      scope.symbols.toList.map (changedNamed name change) := by
  apply List.ext_getElem?
  intro slot
  rw [List.getElem?_map, Array.getElem?_toList, Array.getElem?_toList]
  unfold update
  split
  · rename_i changedSlot known
    rw [Array.getElem?_modify]
    cases present : scope.symbols[slot]? with
    | none => split <;> rfl
    | some symbol =>
        have slotOf := scope.slot_of_symbol present
        by_cases named : symbol.name = name
        · rw [named, known, Option.some.injEq] at slotOf
          simp only [if_pos slotOf, Option.map_some, changedNamed, if_pos named]
        · have other : changedSlot ≠ slot := by
            rintro rfl
            rcases scope.symbol_of_slot known with ⟨symbol', present', named'⟩
            rw [present, Option.some.injEq] at present'
            exact named (present' ▸ named')
          simp only [if_neg other, Option.map_some, changedNamed, if_neg named]
  · rename_i unknown
    cases present : scope.symbols[slot]? with
    | none => rfl
    | some symbol =>
        have other : symbol.name ≠ name := by
          rintro rfl
          rw [scope.slot_of_symbol present] at unknown
          cases unknown
        simp only [Option.map_some, changedNamed, if_neg other]

theorem declare_of_unknown (scope : Scope) {name : String} (unknown : scope.find? name = none)
    (type : DataType) (position : Position) :
    ∃ scope', scope.declare name type position = .ok scope' ∧
      scope'.symbols = scope.symbols.push { name, type, position } := by
  unfold declare
  split
  · rename_i previous known
    rw [unknown] at known
    cases known
  · exact ⟨_, rfl, rfl⟩

theorem declare_of_known (scope : Scope) {name : String} {previous : Symbol}
    (known : scope.find? name = some previous) (type : DataType) (position : Position) :
    scope.declare name type position = .error ⟨name, previous.position⟩ := by
  unfold declare
  split
  · rename_i found present
    cases known.symm.trans present
    rfl
  · rename_i absent
    rw [absent] at known
    cases known

end Scope

namespace Scopes

/-- No scope has been entered, and the global one holds the given symbols. -/
structure Holds (scopes : Scopes) (symbols : List Symbol) : Prop where
  noneEntered : scopes.entered = []
  listed : scopes.global.symbols.toList = symbols

namespace Holds

variable {scopes : Scopes} {symbols : List Symbol}

theorem empty : Holds .empty [] :=
  ⟨rfl, rfl⟩

theorem symbols_eq (holds : Holds scopes symbols) : scopes.symbols = symbols := by
  rw [Scopes.symbols, all, holds.noneEntered, ← holds.listed]
  simp

theorem lookup?_eq (holds : Holds scopes symbols) (name : String) :
    scopes.lookup? name = symbols.find? fun symbol => symbol.name = name := by
  have alone : scopes.lookup? name = scopes.global.find? name := by
    rw [lookup?, all, holds.noneEntered, List.nil_append, List.findSome?_singleton]
  rw [alone, Scope.find?_eq, holds.listed]

theorem update (holds : Holds scopes symbols) (name : String) (change : Symbol → Symbol) :
    Holds (scopes.update name change) (symbols.map (Scope.changedNamed name change)) := by
  have alone : scopes.update name change = ⟨[], scopes.global.update name change⟩ := by
    rw [Scopes.update, holds.noneEntered, updateFirst]
  rw [alone]
  exact ⟨rfl, by rw [Scope.toList_update, holds.listed]⟩

/-- A name that no symbol has can be declared. -/
theorem declare (holds : Holds scopes symbols) {name : String}
    (unknown : ∀ symbol ∈ symbols, symbol.name ≠ name) (type : DataType) (position : Position) :
    ∃ scopes', scopes.declare name type position = .ok scopes' ∧
      Holds scopes' (symbols ++ [⟨name, type, position, false, false⟩]) := by
  have missing : scopes.global.find? name = none := by
    rw [Scope.find?_eq, holds.listed, List.find?_eq_none]
    intro symbol listed named
    exact unknown symbol listed (of_decide_eq_true named)
  rcases scopes.global.declare_of_unknown missing type position with ⟨global, declared, pushed⟩
  refine ⟨{ scopes with global }, ?_, holds.noneEntered, ?_⟩
  · simp only [Scopes.declare, holds.noneEntered, declared]
    rfl
  · rw [pushed, Array.toList_push, holds.listed]

/-- A name that a symbol has is refused, with the position of that symbol. -/
theorem declare_known (holds : Holds scopes symbols) {name : String} {previous : Symbol}
    (known : symbols.find? (fun symbol => symbol.name = name) = some previous) (type : DataType)
    (position : Position) :
    scopes.declare name type position = .error ⟨name, previous.position⟩ := by
  have found : scopes.global.find? name = some previous := by
    rw [Scope.find?_eq, holds.listed, known]
  simp only [Scopes.declare, holds.noneEntered, scopes.global.declare_of_known found]
  rfl

end Holds
end Scopes
end ExpressionChecker

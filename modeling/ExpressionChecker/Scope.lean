import ExpressionChecker.DataType
import ExpressionChecker.Position
import Std.Data.TreeMap

namespace ExpressionChecker

/-!
# One scope of declarations

A scope keeps its symbols in the order of their declaration.  An index leads from each declared
name to the slot of its symbol.  The index is exact by construction: it knows a name with a slot
if and only if the symbol in that slot has the name.  Hence no name is declared twice and no slot
lies out of bounds.
-/

/-- A declared variable: its name, the type it was declared with, where that was, and whether it
has been read and assigned since. -/
structure Symbol where
  name : String
  type : DataType
  position : Position
  used : Bool := false
  initialized : Bool := false
deriving DecidableEq, Repr, Inhabited

namespace Symbol

/-- The listing entry of a symbol. -/
def text (symbol : Symbol) : String :=
  s!"{symbol.name}: {symbol.type.name} (line {symbol.position.line}, " ++
    s!"column {symbol.position.column})" ++ if symbol.used then "" else " [UNUSED]"

/-- Applies a change to a symbol, except that its name and the place of its declaration stay. -/
def changed (change : Symbol → Symbol) (symbol : Symbol) : Symbol :=
  { change symbol with name := symbol.name, position := symbol.position }

/-- The symbol marked as read. -/
def asUsed (symbol : Symbol) : Symbol := { symbol with used := true }

/-- The symbol marked as assigned. -/
def asInitialized (symbol : Symbol) : Symbol := { symbol with initialized := true }

/-- The symbol with another type. -/
def retyped (type : DataType) (symbol : Symbol) : Symbol := { symbol with type }

end Symbol

/-- A declaration that was refused because its scope has the name already, with the position of
the declaration that came first. -/
structure DuplicateDeclaration where
  name : String
  previous : Position
deriving DecidableEq, Repr

namespace DuplicateDeclaration

/-- The wording of a refusal. -/
def message (duplicate : DuplicateDeclaration) : String :=
  s!"Variable '{duplicate.name}' already declared at line {duplicate.previous.line}, " ++
    s!"column {duplicate.previous.column}"

end DuplicateDeclaration

/-- The symbols of a scope with an exact index of their names. -/
structure Scope where
  symbols : Array Symbol
  slots : Std.TreeMap String Nat
  slots_exact : ∀ name slot, slots[name]? = some slot ↔ symbols[slot]?.map Symbol.name = some name

namespace Scope

/-- The scope without declarations. -/
def empty : Scope := ⟨#[], ∅, by simp⟩

/-- The symbol of a name. -/
def find? (scope : Scope) (name : String) : Option Symbol :=
  scope.slots[name]?.bind (scope.symbols[·]?)

/-- A name that the index does not know is the name of no symbol. -/
theorem name_ne_of_unknown (scope : Scope) {name : String} (unknown : scope.slots[name]? = none)
    (slot : Nat) : scope.symbols[slot]?.map Symbol.name ≠ some name := by
  intro found
  rw [(scope.slots_exact name slot).mpr found] at unknown
  contradiction

/-- The index of a scope that gains a symbol of a new name. -/
theorem slots_exact_push (scope : Scope) (symbol : Symbol)
    (unknown : scope.slots[symbol.name]? = none) (name : String) (slot : Nat) :
    (scope.slots.insert symbol.name scope.symbols.size)[name]? = some slot ↔
      (scope.symbols.push symbol)[slot]?.map Symbol.name = some name := by
  rw [Std.TreeMap.getElem?_insert, Array.getElem?_push]
  by_cases same : symbol.name = name
  · subst same
    by_cases last : slot = scope.symbols.size
    · simp [last]
    · have absent := scope.name_ne_of_unknown unknown slot
      simp [last, absent, Ne.symm last]
  · have differs : compare symbol.name name ≠ .eq :=
      fun equal => same (Std.LawfulEqOrd.eq_of_compare equal)
    by_cases last : slot = scope.symbols.size
    · have outside := scope.slots_exact name slot
      simp_all
    · simp [differs, last, scope.slots_exact name slot]

/-- Declares a name that the scope does not have yet. -/
def declare (scope : Scope) (name : String) (type : DataType) (position : Position) :
    Except DuplicateDeclaration Scope :=
  match known : scope.find? name with
  | some previous => .error ⟨name, previous.position⟩
  | none =>
    let symbol : Symbol := { name, type, position }
    .ok ⟨scope.symbols.push symbol, scope.slots.insert name scope.symbols.size,
      scope.slots_exact_push symbol (by
        cases found : scope.slots[name]? with
        | none => rfl
        | some slot =>
          have named := (scope.slots_exact name slot).mp found
          cases present : scope.symbols[slot]? <;> simp_all [find?])⟩

/-- The index of a scope after a change to one symbol. -/
theorem slots_exact_modify (scope : Scope) (changedSlot : Nat) (change : Symbol → Symbol)
    (name : String) (slot : Nat) :
    scope.slots[name]? = some slot ↔
      (scope.symbols.modify changedSlot (Symbol.changed change))[slot]?.map Symbol.name =
        some name := by
  rw [scope.slots_exact name slot, Array.getElem?_modify]
  split <;> cases scope.symbols[slot]? <;> simp [Symbol.changed]

/-- Changes the symbol of a name, if the scope has one. -/
def update (scope : Scope) (name : String) (change : Symbol → Symbol) : Scope :=
  match scope.slots[name]? with
  | some slot =>
    ⟨scope.symbols.modify slot (Symbol.changed change), scope.slots,
      scope.slots_exact_modify slot change⟩
  | none => scope

/-- The listing of a scope at a level of nesting. -/
def text (scope : Scope) (level : Nat) : String :=
  let entries := scope.symbols.toList.map fun symbol => s!"  {symbol.text}\n"
  s!"Scope {level}:\n" ++ if entries = [] then "  (empty)\n" else String.join entries

end Scope
end ExpressionChecker

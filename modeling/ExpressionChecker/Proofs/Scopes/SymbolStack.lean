import ExpressionChecker.Proofs.Scopes
import Mathlib.Data.List.Nodup

namespace ExpressionChecker

/-!
# Scopes as a stack of lists

What scopes are for can be said without an index and without slots: they are a stack of lists of
symbols.  A name is declared behind the symbols of the innermost list, and it stands for the first
symbol of that name from the inside out.  Scopes and their stack go in step through any sequence of
operations, and everything that can be observed of the scopes is observed of the stack.
-/

/-- Lists of symbols, the innermost first, each in the order of its declarations. -/
abbrev SymbolStack := List (List Symbol)

namespace SymbolStack

/-! ## Operations on a stack -/

/-- A single list without symbols. -/
def empty : SymbolStack := [[]]

def enter (stack : SymbolStack) : SymbolStack := [] :: stack

/-- The outermost list cannot be left. -/
def leave : SymbolStack → SymbolStack
  | _ :: next :: outer => next :: outer
  | stack => stack

/-- The first symbol of a name in a list. -/
def named? (symbols : List Symbol) (name : String) : Option Symbol :=
  symbols.find? fun symbol => symbol.name = name

/-- Declares a name behind the symbols of the innermost list, unless one of them has it. -/
def declare (stack : SymbolStack) (name : String) (type : DataType) (position : Position) :
    Except DuplicateDeclaration SymbolStack :=
  match named? (stack.headD []) name with
  | some first => .error ⟨name, first.position⟩
  | none => .ok ((stack.headD [] ++ [{ name, type, position }]) :: stack.tail)

def lookup? (stack : SymbolStack) (name : String) : Option Symbol :=
  stack.findSome? (named? · name)

/-- The list with a change to its first symbol of a name, if it has one. -/
def changed? (name : String) (change : Symbol → Symbol) : List Symbol → Option (List Symbol)
  | [] => none
  | symbol :: later =>
    if symbol.name = name then some (symbol.changed change :: later)
    else (changed? name change later).map (symbol :: ·)

/-- Changes the symbol that a name stands for and no other. -/
def update (name : String) (change : Symbol → Symbol) : SymbolStack → SymbolStack
  | [] => []
  | symbols :: outer =>
    match changed? name change symbols with
    | some symbols' => symbols' :: outer
    | none => symbols :: update name change outer

/-- Every symbol, the outermost list first. -/
def symbols (stack : SymbolStack) : List Symbol := stack.reverse.flatten

def size (stack : SymbolStack) : Nat := stack.flatten.length

/-- The listing of a list at a level of nesting. -/
def listText (level : Nat) (symbols : List Symbol) : String :=
  s!"Scope {level}:\n" ++
    if symbols = [] then "  (empty)\n"
    else String.join (symbols.map fun symbol => s!"  {symbol.text}\n")

def text : SymbolStack → String
  | [] => ""
  | symbols :: outer => listText outer.length symbols ++ text outer

end SymbolStack

/-! ## One scope -/

namespace Scope

/-- The index leads from the names of the symbols, and from no others, each to the slot of its
symbol, and no two symbols have one name. -/
structure Indexed (scope : Scope) : Prop where
  known : ∀ name, name ∈ scope.slots ↔ name ∈ scope.symbols.toList.map Symbol.name
  within : ∀ (name : String) (slot : Nat), scope.slots[name]? = some slot →
    ∃ symbol, scope.symbols[slot]? = some symbol ∧ symbol.name = name
  distinct : (scope.symbols.toList.map Symbol.name).Nodup

theorem mem_slots_iff (scope : Scope) {name : String} :
    name ∈ scope.slots ↔ name ∈ scope.symbols.toList.map Symbol.name := by
  rw [Std.TreeMap.mem_iff_isSome_getElem?, Option.isSome_iff_exists, List.mem_map]
  constructor
  · rintro ⟨slot, known⟩
    rcases scope.symbol_of_slot known with ⟨symbol, present, named⟩
    exact ⟨symbol, Array.mem_toList_iff.mpr (Array.mem_of_getElem? present), named⟩
  · rintro ⟨symbol, listed, rfl⟩
    rcases List.getElem?_of_mem listed with ⟨slot, present⟩
    rw [Array.getElem?_toList] at present
    exact ⟨slot, scope.slot_of_symbol present⟩

/-- Symbols of one name would have one slot. -/
theorem names_nodup (scope : Scope) : (scope.symbols.toList.map Symbol.name).Nodup := by
  rw [List.nodup_iff_getElem?_ne_getElem?]
  intro first second before bounded same
  rw [List.getElem?_map, List.getElem?_map, Array.getElem?_toList, Array.getElem?_toList] at same
  rw [List.length_map, Array.length_toList] at bounded
  have present := Array.getElem?_eq_getElem bounded
  rw [present, Option.map_some] at same
  have slot := (scope.slots_exact _ _).mpr same
  have slot' := scope.slot_of_symbol present
  rw [slot, Option.some.injEq] at slot'
  omega

theorem indexed (scope : Scope) : scope.Indexed where
  known _ := scope.mem_slots_iff
  within _ _ := scope.symbol_of_slot
  distinct := scope.names_nodup

theorem update_of_unknown (scope : Scope) {name : String} (unknown : scope.find? name = none)
    (change : Symbol → Symbol) : scope.update name change = scope := by
  unfold update
  split
  · rename_i slot known
    rcases scope.symbol_of_slot known with ⟨symbol, present, named⟩
    rw [find?, known, Option.bind_some, present] at unknown
    cases unknown
  · rfl

end Scope

namespace SymbolStack

/-- Where no two symbols have one name, to change the first symbol of a name is to change all. -/
theorem changed?_eq {symbols : List Symbol} (distinct : (symbols.map Symbol.name).Nodup)
    (name : String) (change : Symbol → Symbol) :
    changed? name change symbols =
      (named? symbols name).map fun _ => symbols.map (Scope.changedNamed name change) := by
  induction symbols with
  | nil => rfl
  | cons symbol later inductionHypothesis =>
      rw [List.map_cons, List.nodup_cons] at distinct
      by_cases named : symbol.name = name
      · have others : later.map (Scope.changedNamed name change) = later := by
          rw [List.map_congr_left (g := id), List.map_id]
          intro other listed
          have differs : other.name ≠ name := by
            rintro rfl
            exact distinct.1 (named ▸ List.mem_map_of_mem listed)
          exact if_neg differs
        simp [changed?, named?, named, Scope.changedNamed, others]
      · rw [changed?, if_neg named, inductionHypothesis distinct.2]
        simp [named?, named, Scope.changedNamed, Function.comp_def]

/-- The name has no symbol, or the first one from the inside out is the only one that changes. -/
def ChangesOne (stack stack' : SymbolStack) (name : String) (change : Symbol → Symbol) : Prop :=
  (stack.lookup? name = none ∧ stack' = stack) ∨
  ∃ inner before symbol later outer, stack = inner ++ (before ++ symbol :: later) :: outer ∧
    (∀ other ∈ inner.flatten ++ before, other.name ≠ name) ∧ symbol.name = name ∧
    stack.lookup? name = some symbol ∧
    stack' = inner ++ (before ++ symbol.changed change :: later) :: outer

theorem changed?_eq_none {symbols : List Symbol} {name : String} {change : Symbol → Symbol}
    (unchanged : changed? name change symbols = none) : ∀ other ∈ symbols, other.name ≠ name := by
  induction symbols with
  | nil => exact fun _ impossible => (List.not_mem_nil impossible).elim
  | cons symbol later inductionHypothesis =>
      rw [changed?] at unchanged
      split at unchanged
      · cases unchanged
      · rename_i differs
        exact List.forall_mem_cons.mpr
          ⟨differs, inductionHypothesis (Option.map_eq_none_iff.mp unchanged)⟩

theorem changed?_eq_some {symbols symbols' : List Symbol} {name : String}
    {change : Symbol → Symbol} (changes : changed? name change symbols = some symbols') :
    ∃ before symbol later, symbols = before ++ symbol :: later ∧
      (∀ other ∈ before, other.name ≠ name) ∧ symbol.name = name ∧
      named? symbols name = some symbol ∧ symbols' = before ++ symbol.changed change :: later := by
  induction symbols generalizing symbols' with
  | nil => cases changes
  | cons symbol later inductionHypothesis =>
      rw [changed?] at changes
      split at changes
      · rename_i same
        cases changes
        refine ⟨[], symbol, later, rfl, fun _ impossible => (List.not_mem_nil impossible).elim,
          same, ?_, rfl⟩
        simp only [named?, List.find?_cons, same, decide_true]
      · rename_i differs
        rcases Option.map_eq_some_iff.mp changes with ⟨later', changes', rfl⟩
        rcases inductionHypothesis changes' with
          ⟨before, other, behind, rfl, earlier, same, found, rfl⟩
        refine ⟨symbol :: before, other, behind, rfl, List.forall_mem_cons.mpr ⟨differs, earlier⟩,
          same, ?_, rfl⟩
        simpa only [named?, List.find?_cons, differs, decide_false] using found

theorem update_changesOne (stack : SymbolStack) (name : String) (change : Symbol → Symbol) :
    stack.ChangesOne (stack.update name change) name change := by
  induction stack with
  | nil => exact Or.inl ⟨rfl, rfl⟩
  | cons symbols outer inductionHypothesis =>
      rw [update]
      cases changes : changed? name change symbols with
      | some symbols' =>
          rcases changed?_eq_some changes with
            ⟨before, symbol, later, rfl, earlier, same, found, rfl⟩
          refine Or.inr ⟨[], before, symbol, later, outer, rfl, earlier, same, ?_, rfl⟩
          rw [lookup?, List.findSome?_cons, found]
      | none =>
          have others := changed?_eq_none changes
          have missing : named? symbols name = none := by
            rw [named?, List.find?_eq_none]
            exact fun other listed same => others other listed (of_decide_eq_true same)
          have further : lookup? (symbols :: outer) name = lookup? outer name := by
            rw [lookup?, List.findSome?_cons, missing]
            rfl
          rw [ChangesOne, further]
          rcases inductionHypothesis with ⟨unknown, unchanged⟩ |
            ⟨inner, before, symbol, later, outer', rfl, earlier, same, found, changed⟩
          · exact Or.inl ⟨unknown, congrArg _ unchanged⟩
          · refine Or.inr ⟨symbols :: inner, before, symbol, later, outer', rfl, ?_, same, found,
              congrArg _ changed⟩
            rw [List.flatten_cons, List.append_assoc, List.forall_mem_append]
            exact ⟨others, earlier⟩

theorem declare_eq_error_iff (stack : SymbolStack) (name : String) (type : DataType)
    (position : Position) {duplicate : DuplicateDeclaration} :
    stack.declare name type position = .error duplicate ↔
      ∃ first, named? (stack.headD []) name = some first ∧ duplicate = ⟨name, first.position⟩ := by
  rw [declare]
  cases named? (stack.headD []) name with
  | none => simp
  | some first => simp [eq_comm]

end SymbolStack

/-! ## Scopes and their stack -/

namespace Scopes

/-- The stack of lists that scopes are. -/
def stack (scopes : Scopes) : SymbolStack :=
  scopes.all.map (·.symbols.toList)

variable (scopes : Scopes)

theorem stack_enter : scopes.enter.stack = scopes.stack.enter := rfl

theorem stack_leave : scopes.leave.stack = scopes.stack.leave := by
  rcases scopes with ⟨_ | ⟨innermost, _ | ⟨next, outer⟩⟩, global⟩ <;> rfl

theorem lookup?_eq_stack (name : String) : scopes.lookup? name = scopes.stack.lookup? name := by
  rw [lookup?, SymbolStack.lookup?, stack, List.findSome?_map]
  congr 1
  funext scope
  exact scope.find?_eq name

theorem stack_declare (name : String) (type : DataType) (position : Position) :
    (scopes.declare name type position).map stack =
      scopes.stack.declare name type position := by
  have innermost (scope : Scope) (outer : SymbolStack) :
      (scope.declare name type position).map (fun scope' => scope'.symbols.toList :: outer) =
        SymbolStack.declare (scope.symbols.toList :: outer) name type position := by
    have looked : SymbolStack.named? scope.symbols.toList name = scope.find? name :=
      (scope.find?_eq name).symm
    simp only [SymbolStack.declare, List.headD_cons, List.tail_cons, looked]
    cases found : scope.find? name with
    | some first =>
        rw [scope.declare_of_known found]
        rfl
    | none =>
        rcases scope.declare_of_unknown found type position with ⟨scope', declares, pushed⟩
        rw [declares]
        simp only [Except.map, pushed, Array.toList_push]
  rcases scopes with ⟨_ | ⟨scope, outer⟩, global⟩
  · refine Eq.trans ?_ (innermost global [])
    simp only [Scopes.declare]
    cases global.declare name type position <;> rfl
  · refine Eq.trans ?_ (innermost scope (stack ⟨outer, global⟩))
    simp only [Scopes.declare]
    cases scope.declare name type position <;> rfl

theorem stack_update (name : String) (change : Symbol → Symbol) :
    (scopes.update name change).stack = scopes.stack.update name change := by
  have changed (scope : Scope) : SymbolStack.changed? name change scope.symbols.toList =
      (scope.find? name).map fun _ => (scope.update name change).symbols.toList := by
    rw [SymbolStack.changed?_eq scope.names_nodup, scope.toList_update, scope.find?_eq]
    rfl
  rcases scopes with ⟨entered, global⟩
  rw [update]
  induction entered with
  | nil =>
      have alone : stack ⟨[], global⟩ = [global.symbols.toList] := rfl
      rw [updateFirst, alone, SymbolStack.update, changed]
      cases found : global.find? name with
      | some symbol => rfl
      | none =>
          rw [global.update_of_unknown found]
          rfl
  | cons scope outer inductionHypothesis =>
      have innermost : stack ⟨scope :: outer, global⟩ =
          scope.symbols.toList :: stack ⟨outer, global⟩ := rfl
      rw [updateFirst, innermost, SymbolStack.update, changed]
      cases found : scope.find? name with
      | some symbol => rfl
      | none => exact congrArg _ inductionHypothesis

theorem symbols_eq_stack : scopes.symbols = scopes.stack.symbols := by
  rw [symbols, SymbolStack.symbols, stack, ← List.map_reverse, List.flatMap_def]

theorem depth_eq_stack : scopes.depth = scopes.stack.length := by
  rw [depth, stack, List.length_map]

theorem size_eq_stack : scopes.size = scopes.stack.size := by
  rw [size, symbols_eq_stack, SymbolStack.symbols, SymbolStack.size, List.length_flatten,
    List.length_flatten, List.map_reverse, List.sum_reverse]

theorem text_eq_stack : scopes.text = scopes.stack.text := by
  have lines (scope : Scope) (level : Nat) :
      scope.text level = SymbolStack.listText level scope.symbols.toList := by
    simp only [Scope.text, SymbolStack.listText, List.map_eq_nil_iff]
  have listed (scopes : List Scope) :
      listing scopes = SymbolStack.text (scopes.map (·.symbols.toList)) := by
    induction scopes with
    | nil => rfl
    | cons scope outer inductionHypothesis =>
        rw [listing, inductionHypothesis, lines, List.map_cons, SymbolStack.text, List.length_map]
  exact listed scopes.all

end Scopes
end ExpressionChecker

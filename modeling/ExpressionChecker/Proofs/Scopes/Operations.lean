import ExpressionChecker.Proofs.Scopes.SymbolStack

namespace ExpressionChecker

/-!
# Sequences of operations on scopes

Whatever is done with scopes is a sequence of a few operations, each of which has an answer.  The
same sequence can be carried out on any states that have these operations.  Carried out on scopes
and on a stack of lists, it has the same answers, and it leads to scopes and to the stack that they
are.
-/

/-! ## Operations and answers -/

/-- An operation on nested scopes.  A change applies to the symbol that a name stands for. -/
inductive Operation where
  | enter
  | leave
  | declare (name : String) (type : DataType) (position : Position)
  | lookup (name : String)
  | update (name : String) (change : Symbol → Symbol)

/-- The answer to an operation: that it was carried out, that a declaration was refused, or the
symbol that a name stands for. -/
inductive Answer where
  | done
  | refused (duplicate : DuplicateDeclaration)
  | found (symbol : Option Symbol)
deriving DecidableEq, Repr

/-- The operations on states of one kind. -/
structure Operations (State : Type) where
  enter : State → State
  leave : State → State
  declare : State → String → DataType → Position → Except DuplicateDeclaration State
  lookup? : State → String → Option Symbol
  update : State → String → (Symbol → Symbol) → State

namespace Operations

variable {State : Type} (operations : Operations State)

/-- Carries out an operation.  A declaration that is refused changes nothing, and a change is
answered with the symbol as it is afterwards.  -/
def perform (state : State) : Operation → Answer × State
  | .enter => (.done, operations.enter state)
  | .leave => (.done, operations.leave state)
  | .declare name type position =>
    match operations.declare state name type position with
    | .ok next => (.done, next)
    | .error duplicate => (.refused duplicate, state)
  | .lookup name => (.found (operations.lookup? state name), state)
  | .update name change =>
    let next := operations.update state name change
    (.found (operations.lookup? next name), next)

/-- Carries out one operation after the other. -/
def run (state : State) : List Operation → List Answer × State
  | [] => ([], state)
  | operation :: later =>
    let step := operations.perform state operation
    let rest := run step.2 later
    (step.1 :: rest.1, rest.2)

end Operations

/-- The operations on scopes. -/
def Scopes.operations : Operations Scopes where
  enter := enter
  leave := leave
  declare := declare
  lookup? := lookup?
  update := update

/-- The operations on a stack of lists. -/
def SymbolStack.operations : Operations SymbolStack where
  enter := enter
  leave := leave
  declare := declare
  lookup? := lookup?
  update stack name change := stack.update name change

/-! ## In step -/

namespace Scopes

theorem perform_stack (scopes : Scopes) (operation : Operation) :
    (operations.perform scopes operation).map id stack =
      SymbolStack.operations.perform scopes.stack operation := by
  cases operation with
  | enter => exact congrArg _ scopes.stack_enter
  | leave => exact congrArg _ scopes.stack_leave
  | declare name type position =>
      have declares := scopes.stack_declare name type position
      simp only [Operations.perform, operations, SymbolStack.operations, ← declares]
      cases scopes.declare name type position <;> rfl
  | lookup name =>
      simp only [Operations.perform, operations, SymbolStack.operations, lookup?_eq_stack]
      rfl
  | update name change =>
      simp only [Operations.perform, operations, SymbolStack.operations, lookup?_eq_stack,
        Prod.map, stack_update, id]

theorem run_stack (scopes : Scopes) (sequence : List Operation) :
    (operations.run scopes sequence).map id stack =
      SymbolStack.operations.run scopes.stack sequence := by
  induction sequence generalizing scopes with
  | nil => rfl
  | cons operation later inductionHypothesis =>
      have step := scopes.perform_stack operation
      have rest := inductionHypothesis (operations.perform scopes operation).2
      simp only [Operations.run, ← step, Prod.map_snd, ← rest]
      rfl

theorem leave_of_global {scopes : Scopes} (alone : scopes.depth = 1) :
    scopes.leave = scopes := by
  rcases scopes with ⟨entered, global⟩
  have noneEntered : entered = [] := by
    simpa [depth, all] using alone
  rw [noneEntered]
  rfl

/-- Scopes show nothing but a stack of lists.  There is at least one scope, and the global one is
never left; every index is exact; a name can be declared unless the innermost list has it, and then
the first declaration is cited; a name stands for the first symbol from the inside out, which is the
only one that an update changes; and the contents and the listing are those of the lists.  -/
structure Shows (scopes : Scopes) (stack : SymbolStack) : Prop where
  lists : scopes.all.map (·.symbols.toList) = stack
  indexed : ∀ scope ∈ scopes.all, scope.Indexed
  present : 1 ≤ scopes.depth
  global : scopes.depth = 1 → scopes.leave = scopes
  refuses : ∀ name type position duplicate, scopes.declare name type position = .error duplicate ↔
    ∃ first, SymbolStack.named? (stack.headD []) name = some first ∧
      duplicate = ⟨name, first.position⟩
  looksUp : ∀ name, scopes.lookup? name = stack.lookup? name
  changes : ∀ name change,
    stack.ChangesOne ((scopes.update name change).all.map (·.symbols.toList)) name change
  symbols : scopes.symbols = stack.symbols
  depth : scopes.depth = stack.length
  size : scopes.size = stack.size
  isEmpty : scopes.isEmpty = true ↔ ∀ symbols ∈ stack, symbols = []
  text : scopes.text = stack.text

theorem shows_stack (scopes : Scopes) : scopes.Shows scopes.stack where
  lists := rfl
  indexed scope _ := scope.indexed
  present := by
    rw [depth, all, List.length_append]
    exact Nat.le_add_left 1 _
  global := leave_of_global
  refuses name type position duplicate := by
    rw [← SymbolStack.declare_eq_error_iff _ name type position, ← stack_declare]
    cases scopes.declare name type position <;> simp [Except.map]
  looksUp := scopes.lookup?_eq_stack
  changes name change := by
    change scopes.stack.ChangesOne (scopes.update name change).stack name change
    rw [stack_update]
    exact scopes.stack.update_changesOne name change
  symbols := scopes.symbols_eq_stack
  depth := scopes.depth_eq_stack
  size := scopes.size_eq_stack
  isEmpty := by
    rw [Scopes.isEmpty, decide_eq_true_eq, Scopes.size, symbols_eq_stack, SymbolStack.symbols,
      List.length_eq_zero_iff, List.flatten_eq_nil_iff]
    simp only [List.mem_reverse]
  text := scopes.text_eq_stack

/-- Any sequence of operations, carried out on new scopes, has the answers that it has on a single
empty list, and leads to scopes that show the stack it leads to there. -/
theorem run_refines_stack (sequence : List Operation) :
    (operations.run .empty sequence).1 = (SymbolStack.operations.run .empty sequence).1 ∧
      (operations.run .empty sequence).2.Shows (SymbolStack.operations.run .empty sequence).2 := by
  have inStep := run_stack .empty sequence
  have empty : Scopes.empty.stack = SymbolStack.empty := rfl
  rw [empty] at inStep
  rw [← inStep]
  exact ⟨rfl, shows_stack _⟩

end Scopes
end ExpressionChecker

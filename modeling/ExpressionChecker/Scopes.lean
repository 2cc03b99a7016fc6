import ExpressionChecker.Scope

namespace ExpressionChecker

/-!
# Nested scopes

Scopes are entered and left like a stack above one global scope that is always there.  A name is
declared in the innermost scope and looked up from the inside out, so an inner declaration hides
an outer one for as long as its scope lasts.
-/

/-- The global scope and the scopes entered since, innermost first. -/
structure Scopes where
  entered : List Scope
  global : Scope

namespace Scopes

/-- The global scope alone, without declarations. -/
def empty : Scopes := ⟨[], .empty⟩

/-- All scopes, innermost first. -/
def all (scopes : Scopes) : List Scope :=
  scopes.entered ++ [scopes.global]

/-! ## Entering and leaving -/

/-- Enters a new scope. -/
def enter (scopes : Scopes) : Scopes :=
  { scopes with entered := .empty :: scopes.entered }

/-- Leaves the innermost scope.  The global scope cannot be left. -/
def leave (scopes : Scopes) : Scopes :=
  { scopes with entered := scopes.entered.tail }

/-! ## Declaring and looking up -/

/-- Declares a name in the innermost scope. -/
def declare (scopes : Scopes) (name : String) (type : DataType) (position : Position) :
    Except DuplicateDeclaration Scopes :=
  match scopes.entered with
  | [] =>
    (scopes.global.declare name type position).map fun scope => { scopes with global := scope }
  | innermost :: outer =>
    (innermost.declare name type position).map fun scope =>
      { scopes with entered := scope :: outer }

/-- The symbol that a name stands for. -/
def lookup? (scopes : Scopes) (name : String) : Option Symbol :=
  scopes.all.findSome? (·.find? name)

/-- Changes the symbol of a name in the first of the scopes that declares it. -/
def updateFirst (name : String) (change : Symbol → Symbol) : List Scope → Scope → Scopes
  | [], global => ⟨[], global.update name change⟩
  | scope :: outer, global =>
    if (scope.find? name).isSome then ⟨scope.update name change :: outer, global⟩
    else
      let rest := updateFirst name change outer global
      { rest with entered := scope :: rest.entered }

/-- Changes the symbol that a name stands for, if it is declared. -/
def update (scopes : Scopes) (name : String) (change : Symbol → Symbol) : Scopes :=
  updateFirst name change scopes.entered scopes.global

/-! ## Contents -/

/-- Every symbol, the outermost scope first and each scope in the order of its declarations. -/
def symbols (scopes : Scopes) : List Symbol :=
  scopes.all.reverse.flatMap (·.symbols.toList)

/-- The number of scopes. -/
def depth (scopes : Scopes) : Nat :=
  scopes.all.length

/-- The number of symbols. -/
def size (scopes : Scopes) : Nat :=
  scopes.symbols.length

/-- Whether nothing is declared. -/
def isEmpty (scopes : Scopes) : Bool :=
  scopes.size = 0

/-- The listing of scopes that are numbered downwards to zero, innermost first. -/
def listing : List Scope → String
  | [] => ""
  | scope :: outer => scope.text outer.length ++ listing outer

/-- The listing of all scopes. -/
def text (scopes : Scopes) : String :=
  listing scopes.all

end Scopes
end ExpressionChecker

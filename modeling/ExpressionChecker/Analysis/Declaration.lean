import ExpressionChecker.Diagnostic
import ExpressionChecker.Scopes
import ExpressionChecker.Tree
import ExpressionChecker.Typing.KnownFunction
import ExpressionChecker.Typing.OperatorClass

namespace ExpressionChecker

/-!
# The declaration pass

The first pass over a tree declares the target of every assignment with the type that its value
would have there, and reports nothing but targets that are declared already.  It visits a node
before the nodes below it.  Calls must not be nested deeper than a limit.  At the first node that
is, the pass is interrupted and keeps what it has gathered.
-/

/-- The reason for interrupting a pass: a node below more calls than the limit allows. -/
structure DepthExceeded where
  limit : Nat
  position : Position
deriving DecidableEq, Repr

namespace DepthExceeded

/-- The wording of the reason. -/
def message (exceeded : DepthExceeded) : String :=
  s!"Calls nested deeper than {exceeded.limit} levels"

/-- The finding that reports an interrupted pass. -/
def diagnostic (exceeded : DepthExceeded) : Diagnostic :=
  .report .internalError exceeded.position
    s!"Internal error during analysis: {exceeded.message}"

end DepthExceeded

/-- What the declaration pass has gathered. -/
structure Declarations where
  scopes : Scopes
  diagnostics : List Diagnostic

namespace Declarations

/-- Nothing declared and nothing found. -/
def empty : Declarations := ⟨.empty, []⟩

/-- Declares a name, or reports that it is declared already. -/
def add (gathered : Declarations) (name : String) (type : DataType) (position : Position) :
    Declarations :=
  match gathered.scopes.declare name type position with
  | .ok scopes => { gathered with scopes }
  | .error duplicate =>
    { gathered with
      diagnostics :=
        gathered.diagnostics ++ [.report .duplicateVariable position duplicate.message] }

end Declarations

/-- An interrupted declaration pass: why it stopped and what it had gathered until then. -/
structure Interruption where
  reason : DepthExceeded
  gathered : Declarations

namespace Tree

/-- The type that a tree below `depth` calls would have, from the declarations alone.  Nothing is
reported, and no name counts as read. -/
def inferType (limit depth : Nat) (scopes : Scopes) (tree : Tree) :
    Except DepthExceeded DataType :=
  if limit < depth then .error ⟨limit, tree.position⟩
  else
    match tree with
    | identifier name _ => .ok (((scopes.lookup? name).map Symbol.type).getD .undefined)
    | number literal _ => .ok (.ofNumber literal)
    | unary operator operand _ =>
      match OperatorClass.of? operator with
      | some operatorClass => (inferType limit depth scopes operand).map operatorClass.resultType
      | none => .ok .undefined
    | binary operator left _ _ =>
      match OperatorClass.of? operator with
      | some operatorClass => (inferType limit depth scopes left).map operatorClass.resultType
      | none => .ok .undefined
    | call name _ _ =>
      .ok (((KnownFunction.ofName? name).map KnownFunction.returnType).getD .undefined)
    | assignment _ value _ => inferType limit depth scopes value

/-- Declares the target of an assignment, if it is a name. -/
def declareTarget (limit depth : Nat) (target value : Tree) (gathered : Declarations) :
    Except Interruption Declarations :=
  match target with
  | identifier name note =>
    match inferType limit depth gathered.scopes value with
    | .ok type => .ok (gathered.add name type note.position)
    | .error reason => .error ⟨reason, gathered⟩
  | _ => .ok gathered

mutual

/-- Declares the targets of all assignments in a tree below `depth` calls. -/
def declare (limit depth : Nat) (tree : Tree) (gathered : Declarations) :
    Except Interruption Declarations :=
  if limit < depth then .error ⟨⟨limit, tree.position⟩, gathered⟩
  else
    match tree with
    | identifier .. | number .. => .ok gathered
    | unary _ operand _ => declare limit depth operand gathered
    | binary _ left right _ => do
      let gathered ← declare limit depth left gathered
      declare limit depth right gathered
    | call _ arguments _ => declareAll limit (depth + 1) arguments gathered
    | assignment target value _ => do
      let gathered ← declareTarget limit depth target value gathered
      let gathered ← declare limit depth target gathered
      declare limit depth value gathered

/-- Declares the targets of all assignments in several trees below `depth` calls. -/
def declareAll (limit depth : Nat) (trees : List Tree) (gathered : Declarations) :
    Except Interruption Declarations :=
  match trees with
  | [] => .ok gathered
  | tree :: later => do
    let gathered ← declare limit depth tree gathered
    declareAll limit depth later gathered

end

end Tree
end ExpressionChecker

import ExpressionChecker.DataType
import ExpressionChecker.Operator
import ExpressionChecker.Position

namespace ExpressionChecker

/-!
# Expression trees

A tree owns its parts, so there are no cycles and nothing is shared.  Trees are read from source
text or built directly, and a tree that is built directly may use any operator, any number of
arguments and assignments anywhere.  Every node carries a note with its position and, once it has
been checked, its type.
-/

/-- What is written down at a node besides its contents: where it stands in the source and the
type inferred for it, if it has been checked. -/
structure Note where
  position : Position
  inferred : Option DataType := none
deriving DecidableEq, Repr, Inhabited

/-- An expression or an assignment. -/
inductive Tree where
  | identifier (name : String) (note : Note)
  | number (literal : String) (note : Note)
  | unary (operator : Operator) (operand : Tree) (note : Note)
  | binary (operator : Operator) (left right : Tree) (note : Note)
  | call (name : String) (arguments : List Tree) (note : Note)
  | assignment (target value : Tree) (note : Note)
deriving Repr, Inhabited

namespace Tree

/-! ## Parts of a node -/

/-- The note at the root. -/
def note : Tree → Note
  | identifier _ note | number _ note | unary _ _ note | binary _ _ _ note | call _ _ note
  | assignment _ _ note => note

/-- The position of the root. -/
def position (tree : Tree) : Position := tree.note.position

/-- The type inferred for the root, if it has been checked. -/
def inferred (tree : Tree) : Option DataType := tree.note.inferred

/-- The tree with another note at its root. -/
def withNote : Tree → Note → Tree
  | identifier name _, note => identifier name note
  | number literal _, note => number literal note
  | unary operator operand _, note => unary operator operand note
  | binary operator left right _, note => binary operator left right note
  | call name arguments _, note => call name arguments note
  | assignment target value _, note => assignment target value note

/-- The tree with a type inferred for its root. -/
def withType (tree : Tree) (type : DataType) : Tree :=
  tree.withNote ⟨tree.position, some type⟩

/-- The name of a node's kind. -/
def kindName : Tree → String
  | identifier .. => "IDENTIFIER"
  | number .. => "NUMBER"
  | unary .. | binary .. => "OPERATOR"
  | call .. => "FUNCTION_CALL"
  | assignment .. => "ASSIGNMENT"

/-- The source text that a node itself stands for: a name, a literal, or a symbol. -/
def value : Tree → String
  | identifier name _ | call name _ _ => name
  | number literal _ => literal
  | unary operator _ _ | binary operator _ _ _ => operator.symbol
  | assignment .. => "="

/-- The trees directly below a node, from left to right. -/
def children : Tree → List Tree
  | identifier .. | number .. => []
  | unary _ operand _ => [operand]
  | binary _ left right _ => [left, right]
  | call _ arguments _ => arguments
  | assignment target value _ => [target, value]

/-! ## Counting nodes -/

mutual

/-- One node together with the nodes of everything below it. -/
def nodeCount : Tree → Nat
  | identifier .. | number .. => 1
  | unary _ operand _ => 1 + nodeCount operand
  | binary _ left right _ => 1 + (nodeCount left + nodeCount right)
  | call _ arguments _ => 1 + nodeCountOfAll arguments
  | assignment target value _ => 1 + (nodeCount target + nodeCount value)

/-- The nodes of several trees. -/
def nodeCountOfAll : List Tree → Nat
  | [] => 0
  | tree :: trees => nodeCount tree + nodeCountOfAll trees

end

/-- The nodes of two lists of trees add up. -/
theorem nodeCountOfAll_append (first second : List Tree) :
    nodeCountOfAll (first ++ second) = nodeCountOfAll first + nodeCountOfAll second := by
  induction first with
  | nil => simp [nodeCountOfAll]
  | cons tree trees inductionHypothesis =>
    simp only [List.cons_append, nodeCountOfAll, inductionHypothesis, Nat.add_assoc]

/-- A tree has one node more than the trees below it. -/
theorem nodeCount_eq (tree : Tree) : nodeCount tree = 1 + nodeCountOfAll tree.children := by
  cases tree <;> simp [nodeCount, nodeCountOfAll, children]

/-- A count of nodes that is under way: how many were counted, and the trees that wait.  They are a
stack with its top at the end, so a long chain needs no deep recursion. -/
structure Count where
  counted : Nat
  waiting : List Tree

namespace Count

/-- The count of a tree before its first turn. -/
def start (tree : Tree) : Count :=
  ⟨0, [tree]⟩

/-- The next turn takes off the tree on top, counts its root and puts its children on the stack, the
last one on top.  If no tree waits, there is none. -/
def turn? (count : Count) : Option Count :=
  count.waiting.getLast?.map fun tree =>
    ⟨count.counted + 1, count.waiting.dropLast ++ tree.children⟩

/-- How many nodes are still to be counted. -/
def nodesLeft (count : Count) : Nat :=
  nodeCountOfAll count.waiting

/-- After a turn none but the counted node is gone from the stack. -/
theorem nodesLeft_turn {count later : Count} (isNext : count.turn? = some later) :
    later.nodesLeft + 1 = count.nodesLeft := by
  rcases Option.map_eq_some_iff.mp isNext with ⟨tree, isTop, rfl⟩
  rcases List.getLast?_eq_some_iff.mp isTop with ⟨below, stack⟩
  simp only [nodesLeft, stack, List.dropLast_concat, nodeCountOfAll_append, nodeCountOfAll,
    nodeCount_eq tree]
  omega

/-- The number of nodes that have been counted when no tree waits any more. -/
def finish (count : Count) : Nat :=
  match _isNext : count.turn? with
  | none => count.counted
  | some later => later.finish
termination_by count.nodesLeft
decreasing_by
  rw [← nodesLeft_turn _isNext]
  exact Nat.lt_succ_self _

end Count

/-- The number of nodes of a tree. -/
def size (tree : Tree) : Nat :=
  (Count.start tree).finish

end Tree
end ExpressionChecker

import ExpressionChecker.Tree
import Mathlib.Logic.Basic

namespace ExpressionChecker

/-!
# Trees under other labels

What a tree carries besides its structure are labels: the names of its variables, the positions of
its nodes, and the types that have been written down at them.  Other labels leave the structure
alone.  The name of a function is no label, because it stands for that function.
-/

/-- The move that puts everything at the start of the text. -/
def Position.forgotten (_ : Position) : Position :=
  .start

/-- A change of labels: of the names of variables, of positions, and of the types written down.
What is not mentioned stays as it is. -/
structure Relabeling where
  name : String → String := id
  position : Position → Position := id
  inferred : Option DataType → Option DataType := id

namespace Relabeling

/-- Forgets the types that have been written down. -/
def untyped : Relabeling where
  inferred := fun _ => none

/-- Moves every node to another position. -/
def moved (move : Position → Position) : Relabeling where
  position := move

/-- Forgets all that is written down at a node. -/
def bare : Relabeling where
  position := Position.forgotten
  inferred := fun _ => none

end Relabeling

/-- The note with other labels. -/
def Note.relabeled (labels : Relabeling) (note : Note) : Note :=
  ⟨labels.position note.position, labels.inferred note.inferred⟩

namespace Tree

mutual

/-- The tree with other labels. -/
def relabeled (labels : Relabeling) : Tree → Tree
  | identifier name note => identifier (labels.name name) (note.relabeled labels)
  | number literal note => number literal (note.relabeled labels)
  | unary operator operand note =>
    unary operator (operand.relabeled labels) (note.relabeled labels)
  | binary operator left right note =>
    binary operator (left.relabeled labels) (right.relabeled labels) (note.relabeled labels)
  | call name arguments note => call name (relabeledAll labels arguments) (note.relabeled labels)
  | assignment target value note =>
    assignment (target.relabeled labels) (value.relabeled labels) (note.relabeled labels)

def relabeledAll (labels : Relabeling) : List Tree → List Tree
  | [] => []
  | tree :: later => tree.relabeled labels :: relabeledAll labels later

end

variable (labels : Relabeling)

theorem relabeledAll_eq_map (trees : List Tree) :
    relabeledAll labels trees = trees.map (relabeled labels) := by
  induction trees with
  | nil => rfl
  | cons tree later inductionHypothesis =>
      rw [relabeledAll, inductionHypothesis, List.map_cons]

mutual

/-- Where nothing is renamed, moved or forgotten, nothing changes. -/
theorem relabeled_id (tree : Tree) : tree.relabeled {} = tree := by
  cases tree with
  | identifier name note => rfl
  | number literal note => rfl
  | unary operator operand note => exact congrArg (unary operator · note) (relabeled_id operand)
  | binary operator left right note =>
      exact congrArg₂ (binary operator · · note) (relabeled_id left) (relabeled_id right)
  | call name arguments note => exact congrArg (call name · note) (relabeledAll_id arguments)
  | assignment target value note =>
      exact congrArg₂ (assignment · · note) (relabeled_id target) (relabeled_id value)

theorem relabeledAll_id (trees : List Tree) : relabeledAll {} trees = trees := by
  cases trees with
  | nil => rfl
  | cons tree later => exact congrArg₂ List.cons (relabeled_id tree) (relabeledAll_id later)

end

theorem position_relabeled (tree : Tree) :
    (tree.relabeled labels).position = labels.position tree.position := by
  cases tree <;> rfl

theorem kindName_relabeled (tree : Tree) : (tree.relabeled labels).kindName = tree.kindName := by
  cases tree <;> rfl

/-- The tree at its new positions. -/
def moved (move : Position → Position) (tree : Tree) : Tree :=
  tree.relabeled (.moved move)

/-- The tree apart from where its nodes stand. -/
abbrev unplaced : Tree → Tree :=
  moved Position.forgotten

end Tree
end ExpressionChecker

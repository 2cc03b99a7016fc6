import ExpressionChecker.Proofs.Tree.Relabeling
import ExpressionChecker.Tree.Rendering

namespace ExpressionChecker
namespace Tree

/-!
# The shape of a tree

The shape of a tree is what is left of it when its notes are disregarded: neither where a node stood
in the source nor the type that was inferred for it belongs to the shape.  Rendering sees nothing
but the shape.
-/

/-- The note that carries nothing. -/
def noNote : Note := ⟨.start, none⟩

/-- The tree with all its notes replaced by the one that carries nothing. -/
def bare (tree : Tree) : Tree :=
  tree.relabeled .bare

/-- The shapes of several trees. -/
def bareAll (trees : List Tree) : List Tree :=
  relabeledAll .bare trees

section Equations

variable (name literal : String) (operator : Operator) (tree left right : Tree)
  (trees : List Tree) (note : Note)

@[simp]
theorem bare_identifier : (identifier name note).bare = identifier name noNote := rfl

@[simp]
theorem bare_number : (number literal note).bare = number literal noNote := rfl

@[simp]
theorem bare_unary : (unary operator tree note).bare = unary operator tree.bare noNote := rfl

@[simp]
theorem bare_binary :
    (binary operator left right note).bare = binary operator left.bare right.bare noNote := rfl

@[simp]
theorem bare_call : (call name trees note).bare = call name (bareAll trees) noNote := rfl

@[simp]
theorem bare_assignment :
    (assignment left right note).bare = assignment left.bare right.bare noNote := rfl

@[simp]
theorem bareAll_nil : bareAll [] = [] := rfl

@[simp]
theorem bareAll_cons : bareAll (tree :: trees) = tree.bare :: bareAll trees := rfl

end Equations

/-! ## Rendering -/

section Rendering

variable {labels : Relabeling}

theorem strength_relabeled (labels : Relabeling) (tree : Tree) :
    (tree.relabeled labels).strength = tree.strength := by
  cases tree <;> rfl

theorem strength_bare (tree : Tree) : tree.bare.strength = tree.strength :=
  strength_relabeled .bare tree

mutual

/-- A tree is rendered alike wherever its nodes stand and whatever is written down at them. -/
theorem render_relabeled (named : labels.name = id) (tree : Tree) :
    (tree.relabeled labels).render = tree.render := by
  cases tree with
  | identifier name note =>
      rw [relabeled, named]
      rfl
  | number literal note => rfl
  | unary operator operand note =>
      rw [relabeled, render, render, strength_relabeled, render_relabeled named operand]
  | binary operator left right note =>
      rw [relabeled, render, render, strength_relabeled, strength_relabeled,
        render_relabeled named left, render_relabeled named right]
  | call name arguments note =>
      rw [relabeled, render, render, renderAll_relabeledAll named arguments]
  | assignment target value note =>
      rw [relabeled, render, render, render_relabeled named target, render_relabeled named value]

theorem renderAll_relabeledAll (named : labels.name = id) (trees : List Tree) :
    renderAll (relabeledAll labels trees) = renderAll trees := by
  match trees with
  | [] => rfl
  | [tree] => exact render_relabeled named tree
  | tree :: next :: later =>
      have remaining := renderAll_relabeledAll named (next :: later)
      simp only [relabeledAll] at remaining
      simp only [relabeledAll, renderAll, render_relabeled named tree, remaining]

end

theorem render_bare (tree : Tree) : tree.bare.render = tree.render :=
  render_relabeled rfl tree

end Rendering

/-- Trees of one shape are rendered alike. -/
theorem render_eq_of_bare_eq {first second : Tree} (alike : first.bare = second.bare) :
    first.render = second.render := by
  rw [← render_bare first, alike, render_bare]

/-! ## Kinds of nodes -/

/-- The tree is an assignment. -/
def IsAssignment (tree : Tree) : Prop :=
  ∃ target value note, tree = assignment target value note

/-- Whether the tree is a call. -/
def isCall : Tree → Bool
  | call .. => true
  | _ => false

/-! ## Counting operators -/

mutual

/-- The number of nodes that apply an operator. -/
def operatorCount : Tree → Nat
  | identifier .. | number .. => 0
  | unary _ operand _ => 1 + operand.operatorCount
  | binary _ left right _ => left.operatorCount + 1 + right.operatorCount
  | call _ arguments _ => operatorCountOfAll arguments
  | assignment target value _ => target.operatorCount + value.operatorCount

def operatorCountOfAll : List Tree → Nat
  | [] => 0
  | tree :: trees => tree.operatorCount + operatorCountOfAll trees

end

/-! ## Calls above a node -/

mutual

/-- The calls above the node of a tree that lies below most of them. -/
def callsAbove : Tree → Nat
  | identifier .. | number .. => 0
  | unary _ operand _ => operand.callsAbove
  | binary _ left right _ => max left.callsAbove right.callsAbove
  | call _ arguments _ => callsAboveArguments arguments
  | assignment target value _ => max target.callsAbove value.callsAbove

def callsAboveArguments : List Tree → Nat
  | [] => 0
  | argument :: later => max (argument.callsAbove + 1) (callsAboveArguments later)

end

/-! ## Nodes in order -/

mutual

/-- The nodes of a tree, each behind the nodes below it. -/
def postorder : Tree → List Tree
  | identifier name note => [identifier name note]
  | number literal note => [number literal note]
  | unary operator operand note => operand.postorder ++ [unary operator operand note]
  | binary operator left right note =>
    left.postorder ++ (right.postorder ++ [binary operator left right note])
  | call name arguments note => postorderOfAll arguments ++ [call name arguments note]
  | assignment target value note =>
    target.postorder ++ (value.postorder ++ [assignment target value note])

def postorderOfAll : List Tree → List Tree
  | [] => []
  | tree :: later => tree.postorder ++ postorderOfAll later

end

/-- The name that a node reads, if it is one. -/
def name? : Tree → Option String
  | identifier name _ => some name
  | _ => none

theorem name?_relabeled (labels : Relabeling) (tree : Tree) :
    (tree.relabeled labels).name? = tree.name?.map labels.name := by
  cases tree <;> rfl

/-- The names that are read in an expression, in order. -/
def reads (tree : Tree) : List String :=
  tree.postorder.filterMap name?

theorem reads_binary (operator : Operator) (left right : Tree) (note : Note) :
    (binary operator left right note).reads = left.reads ++ right.reads := by
  simp only [reads, postorder, List.filterMap_append, List.filterMap_cons, List.filterMap_nil,
    name?, List.append_nil]

theorem reads_call (name : String) (argument : Tree) (note : Note) :
    (call name [argument] note).reads = argument.reads := by
  simp only [reads, postorder, postorderOfAll, List.filterMap_append, List.filterMap_cons,
    List.filterMap_nil, name?, List.append_nil]

end Tree
end ExpressionChecker

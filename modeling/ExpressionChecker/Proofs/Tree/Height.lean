import ExpressionChecker.Proofs.Grammar.Image
import ExpressionChecker.Proofs.Tree.Traversal
import Mathlib.Data.List.Basic
import Mathlib.Order.Bounds.Basic

namespace ExpressionChecker

/-!
# The height of trees

The height of a tree is the number of nodes on a longest path that leads down from its root.  In the
tree of a statement every node that has others below it is an operator, a call or the assignment at
the root.  A chain of operators may lean as far as the limit on operators lets it, and calls may be
nested on top of that as far as the limit on nesting, so the two limits bound the height together,
whatever the number of tokens.
-/

namespace Tree

/-! ## Heights -/

mutual

/-- The number of nodes on a longest path from the root down. -/
def height : Tree → Nat
  | identifier .. | number .. => 1
  | unary _ operand _ => operand.height + 1
  | binary _ left right _ => max left.height right.height + 1
  | call _ arguments _ => heightOfAll arguments + 1
  | assignment target value _ => max target.height value.height + 1

/-- The height of the highest of several trees. -/
def heightOfAll : List Tree → Nat
  | [] => 0
  | tree :: later => max tree.height (heightOfAll later)

end

theorem height_eq (tree : Tree) : tree.height = heightOfAll tree.children + 1 := by
  cases tree <;> simp only [height, heightOfAll, children, Nat.max_zero]

theorem height_le_heightOfAll {child : Tree} {trees : List Tree} (isOne : child ∈ trees) :
    child.height ≤ heightOfAll trees := by
  induction trees with
  | nil => cases isOne
  | cons tree later inductionHypothesis =>
      rw [heightOfAll]
      rcases List.mem_cons.mp isOne with rfl | isLater
      · exact Nat.le_max_left _ _
      · exact Nat.le_trans (inductionHypothesis isLater) (Nat.le_max_right _ _)

theorem height_lt_of_mem_children {tree child : Tree} (below : child ∈ tree.children) :
    child.height < tree.height := by
  rw [height_eq tree]
  exact Nat.lt_succ_of_le (height_le_heightOfAll below)

theorem exists_highest {trees : List Tree} (positive : heightOfAll trees ≠ 0) :
    ∃ tree ∈ trees, tree.height = heightOfAll trees := by
  induction trees with
  | nil => exact absurd rfl positive
  | cons tree later inductionHypothesis =>
      rw [heightOfAll]
      rcases Nat.le_total (heightOfAll later) tree.height with first | behind
      · exact ⟨tree, List.mem_cons_self, (Nat.max_eq_left first).symm⟩
      · have present : heightOfAll later ≠ 0 := by
          have root := height_eq tree
          omega
        rcases inductionHypothesis present with ⟨highest, isLater, same⟩
        exact ⟨highest, List.mem_cons_of_mem _ isLater, same.trans (Nat.max_eq_right behind).symm⟩

/-! ## Paths -/

/-- The nodes lead from the root of a tree downwards, each standing directly below the last. -/
inductive IsPath : Tree → List Tree → Prop where
  | root (tree : Tree) : IsPath tree [tree]
  | down {tree child : Tree} {nodes : List Tree} (below : child ∈ tree.children)
      (later : IsPath child nodes) : IsPath tree (tree :: nodes)

theorem IsPath.length_le {tree : Tree} {nodes : List Tree} (path : tree.IsPath nodes) :
    nodes.length ≤ tree.height := by
  induction path with
  | root tree =>
      rw [height_eq]
      exact Nat.succ_pos _
  | down below later inductionHypothesis =>
      exact Nat.lt_of_le_of_lt inductionHypothesis (height_lt_of_mem_children below)

/-- The height is the length of a longest path. -/
theorem isGreatest_height (tree : Tree) :
    IsGreatest {length | ∃ nodes, tree.IsPath nodes ∧ nodes.length = length} tree.height := by
  constructor
  · induction whole : tree.height generalizing tree with
    | zero =>
        rw [height_eq] at whole
        cases whole
    | succ below inductionHypothesis =>
        have children : heightOfAll tree.children = below := by
          rw [height_eq] at whole
          exact Nat.succ.inj whole
        by_cases none : below = 0
        · exact ⟨[tree], .root tree, by rw [none]; rfl⟩
        · -- A longest path goes on into a highest child.
          rcases exists_highest (children ▸ none) with ⟨child, isChild, same⟩
          rcases inductionHypothesis child (same.trans children) with ⟨nodes, path, length⟩
          exact ⟨tree :: nodes, .down isChild path, congrArg Nat.succ length⟩
  · rintro length ⟨nodes, path, rfl⟩
    exact path.length_le

/-! ## Trees of sums -/

/-- The tree is made of names, numbers, operators between two operands and calls with one
argument. -/
inductive IsOrdinary : Tree → Prop where
  | identifier (name : String) (note : Note) : IsOrdinary (.identifier name note)
  | number (literal : String) (note : Note) : IsOrdinary (.number literal note)
  | binary {left right : Tree} (operator : Operator) (note : Note) (isLeft : IsOrdinary left)
      (isRight : IsOrdinary right) : IsOrdinary (.binary operator left right note)
  | call {argument : Tree} (name : String) (note : Note) (isArgument : IsOrdinary argument) :
      IsOrdinary (.call name [argument] note)

namespace IsOrdinary

variable {tree : Tree}

/-- Only a name or a number is neither an operator nor a call, and it ends a path. -/
theorem height_le (ordinary : tree.IsOrdinary) :
    tree.height ≤ tree.operatorCount + tree.callsAbove + 1 := by
  induction ordinary with
  | identifier name note => exact Nat.le_refl 1
  | number literal note => exact Nat.le_refl 1
  | binary operator note isLeft isRight left right =>
      simp only [height, operatorCount, callsAbove]
      omega
  | call name note isArgument argument =>
      simp only [height, heightOfAll, operatorCount, operatorCountOfAll, callsAbove,
        callsAboveArguments]
      omega

/-- Below every call there is a node, so the calls on a path all stand above one. -/
theorem countP_isCall_le (ordinary : tree.IsOrdinary) {nodes : List Tree}
    (path : tree.IsPath nodes) : nodes.countP isCall ≤ tree.callsAbove := by
  induction ordinary generalizing nodes with
  | identifier name note =>
      cases path with
      | root => exact Nat.le_refl 0
      | down below => cases below
  | number literal note =>
      cases path with
      | root => exact Nat.le_refl 0
      | down below => cases below
  | binary operator note isLeft isRight left right =>
      rw [callsAbove]
      cases path with
      | root => exact Nat.zero_le _
      | down below later =>
          rw [List.countP_cons_of_neg Bool.false_ne_true]
          rcases List.mem_pair.mp below with rfl | rfl
          · exact Nat.le_trans (left later) (Nat.le_max_left _ _)
          · exact Nat.le_trans (right later) (Nat.le_max_right _ _)
  | call name note isArgument argument =>
      rw [callsAbove, callsAboveArguments, callsAboveArguments, Nat.max_zero]
      cases path with
      | root => exact Nat.succ_pos _
      | down below later =>
          rw [List.countP_cons_of_pos rfl]
          cases List.mem_singleton.mp below
          exact Nat.succ_le_succ (argument later)

theorem not_isAssignment (ordinary : tree.IsOrdinary) : ¬ tree.IsAssignment := by
  rintro ⟨target, value, note, rfl⟩
  cases ordinary

theorem not_isAssignment_of_mem (ordinary : tree.IsOrdinary) :
    ∀ node ∈ tree.preorder, ¬ node.IsAssignment := by
  induction ordinary with
  | identifier name note =>
      exact List.forall_mem_singleton.mpr (IsOrdinary.identifier name note).not_isAssignment
  | number literal note =>
      exact List.forall_mem_singleton.mpr (IsOrdinary.number literal note).not_isAssignment
  | binary operator note isLeft isRight left right =>
      rw [preorder_binary, List.forall_mem_cons, List.forall_mem_append]
      exact ⟨(IsOrdinary.binary operator note isLeft isRight).not_isAssignment, left, right⟩
  | call name note isArgument argument =>
      rw [preorder_call, preorderOfAll_cons, List.forall_mem_cons, List.forall_mem_append]
      exact ⟨(IsOrdinary.call name note isArgument).not_isAssignment, argument, nofun⟩

end IsOrdinary
end Tree

namespace Grammar

mutual

theorem Factor.isOrdinary_tree (factor : Factor) : factor.tree.IsOrdinary := by
  cases factor with
  | call callee opening argument closing named opens closes =>
      exact .call _ _ (Sum.isOrdinary_tree argument)
  | group opening content closing opens closes => exact Sum.isOrdinary_tree content
  | name token named => exact .identifier _ _
  | number token numeric => exact .number _ _

theorem ProductRest.isOrdinary_treeFrom (further : ProductRest) {left : Tree}
    (isLeft : left.IsOrdinary) : (further.treeFrom left).IsOrdinary := by
  cases further with
  | done => exact isLeft
  | more operator token right later spelt multiplicative =>
      exact ProductRest.isOrdinary_treeFrom later
        (.binary _ _ isLeft (Factor.isOrdinary_tree right))

theorem Product.isOrdinary_tree (product : Product) : product.tree.IsOrdinary := by
  cases product with
  | of first further => exact ProductRest.isOrdinary_treeFrom further (Factor.isOrdinary_tree first)

theorem SumRest.isOrdinary_treeFrom (further : SumRest) {left : Tree} (isLeft : left.IsOrdinary) :
    (further.treeFrom left).IsOrdinary := by
  cases further with
  | done => exact isLeft
  | more operator token right later spelt additive =>
      exact SumRest.isOrdinary_treeFrom later (.binary _ _ isLeft (Product.isOrdinary_tree right))

/-- The syntax tree of a sum is ordinary, whatever its tokens are called. -/
theorem Sum.isOrdinary_tree (sum : Sum) : sum.tree.IsOrdinary := by
  cases sum with
  | of first further => exact SumRest.isOrdinary_treeFrom further (Product.isOrdinary_tree first)

end

namespace Statement

variable (statement : Statement)

/-- One node for each operator, one for each call on the way, a name or a number, and an
assignment. -/
theorem height_tree_le :
    statement.tree.height ≤ statement.operatorCount + statement.nesting + 2 := by
  have operators := statement.operatorCount_tree
  have calls := statement.callsAbove_le
  cases statement with
  | assignment target equals value named assigns =>
      have inside := value.isOrdinary_tree.height_le
      simp only [Statement.tree, Tree.height, Tree.operatorCount, Tree.callsAbove] at *
      omega
  | expression value =>
      have whole := value.isOrdinary_tree.height_le
      simp only [Statement.tree] at *
      omega

theorem countP_isCall_le {nodes : List Tree} (path : statement.tree.IsPath nodes) :
    nodes.countP Tree.isCall ≤ statement.nesting := by
  refine Nat.le_trans ?_ statement.callsAbove_le
  cases statement with
  | assignment target equals value named assigns =>
      rw [Statement.tree, Tree.callsAbove, Tree.callsAbove, Nat.zero_max]
      cases path with
      | root => exact Nat.zero_le _
      | down below later =>
          rw [List.countP_cons_of_neg Bool.false_ne_true]
          rcases List.mem_pair.mp below with rfl | rfl
          · exact Nat.le_trans ((Tree.IsOrdinary.identifier _ _).countP_isCall_le later)
              (Nat.zero_le _)
          · exact value.isOrdinary_tree.countP_isCall_le later
  | expression value => exact value.isOrdinary_tree.countP_isCall_le path

/-- Only the root of a statement can be an assignment. -/
theorem not_isAssignment_below : ∀ node ∈ statement.tree.preorder.tail, ¬ node.IsAssignment := by
  cases statement with
  | assignment target equals value named assigns =>
      rw [Statement.tree, Tree.preorder_assignment, List.tail_cons, List.forall_mem_append]
      exact ⟨(Tree.IsOrdinary.identifier _ _).not_isAssignment_of_mem,
        value.isOrdinary_tree.not_isAssignment_of_mem⟩
  | expression value =>
      intro node below
      exact value.isOrdinary_tree.not_isAssignment_of_mem node (List.mem_of_mem_tail below)

end Statement
end Grammar
end ExpressionChecker

import ExpressionChecker.Proofs.Tree.Address
import ExpressionChecker.Proofs.Tree.Traversal
import Mathlib.Algebra.GroupWithZero.Nat

namespace ExpressionChecker
namespace Tree

/-!
# The size of trees

The nodes of a tree are counted without recursion.  Trees wait on a stack, and each turn takes off the
one on top, counts its root and puts its children there instead.  The stack can grow at every turn, so
its height does not tell when the count ends.  What does is the number of nodes of all the trees on it:
a turn leaves one node less, whatever is on top.  So a count takes as many turns as the tree has nodes,
and that is also how many lines its outline has.
-/

/-! ## Nodes in pre-order -/

theorem nodeCountOfAll_eq_sum (trees : List Tree) :
    nodeCountOfAll trees = (trees.map nodeCount).sum := by
  induction trees with
  | nil => rfl
  | cons tree later inductionHypothesis =>
      rw [nodeCountOfAll, inductionHypothesis, List.map_cons, List.sum_cons]

theorem preorderOfAll_singleton (tree : Tree) : preorderOfAll [tree] = tree.preorder := by
  rw [preorderOfAll_cons]
  exact List.append_nil tree.preorder

theorem preorder_eq (tree : Tree) : tree.preorder = tree :: preorderOfAll tree.children := by
  cases tree with
  | identifier name note => rfl
  | number literal note => rfl
  | unary operator operand note => rw [preorder_unary, children, preorderOfAll_singleton]
  | binary operator left right note =>
      rw [preorder_binary, children, preorderOfAll_cons, preorderOfAll_singleton]
  | call name arguments note => exact preorder_call name arguments note
  | assignment target value note =>
      rw [preorder_assignment, children, preorderOfAll_cons, preorderOfAll_singleton]

theorem length_preorderOfAll (trees : List Tree) :
    (preorderOfAll trees).length = nodeCountOfAll trees := by
  induction trees using forest_induction with
  | nil => rfl
  | cons tree later ofChildren ofLater =>
      rw [preorderOfAll_cons, preorder_eq, nodeCountOfAll, nodeCount_eq, List.length_append,
        List.length_cons, ofChildren, ofLater, Nat.add_comm 1]

/-- The outline lists the nodes in pre-order. -/
theorem nodes_outlineAllAt (depth : Nat) (trees : List Tree) :
    (outlineAllAt depth trees).map Entry.node = preorderOfAll trees := by
  induction trees using forest_induction generalizing depth with
  | nil => rfl
  | cons tree later ofChildren ofLater =>
      rw [outlineAllAt, outlineAt_eq, preorderOfAll_cons, preorder_eq, List.map_append,
        List.map_cons, ofChildren, ofLater]

theorem nodes_outline (tree : Tree) : tree.outline.map Entry.node = tree.preorder := by
  have alone := nodes_outlineAllAt 0 [tree]
  rwa [outlineAllAt, outlineAllAt, List.append_nil, preorderOfAll_singleton] at alone

theorem length_outline (tree : Tree) : tree.outline.length = tree.size := by
  rw [← List.length_map (f := Entry.node), nodes_outline, preorder_eq, List.length_cons,
    length_preorderOfAll, size_eq_nodeCount, nodeCount_eq, Nat.add_comm]

/-! ## Turns of a count -/

namespace Count

/-- The count after so many turns, if there are as many. -/
def afterTurns? (count : Count) : Nat → Option Count
  | 0 => some count
  | turns + 1 => count.turn?.bind fun later => later.afterTurns? turns

/-- So many turns later, as many nodes more are counted, and as many fewer are left. -/
structure Advances (count : Count) (turns : Nat) (later : Count) : Prop where
  counted : later.counted = count.counted + turns
  nodesLeft : later.nodesLeft + turns = count.nodesLeft

variable {count later : Count} {turns : Nat}

theorem advances_turn (isNext : count.turn? = some later) : count.Advances 1 later :=
  ⟨counted_turn isNext, nodesLeft_turn isNext⟩

theorem advances_afterTurns (found : count.afterTurns? turns = some later) :
    count.Advances turns later := by
  induction turns generalizing count with
  | zero =>
      cases found
      exact ⟨rfl, rfl⟩
  | succ turns inductionHypothesis =>
      rcases Option.bind_eq_some_iff.mp found with ⟨next, isNext, further⟩
      have first := advances_turn isNext
      have others := inductionHypothesis further
      constructor
      · rw [others.counted, first.counted]
        omega
      · rw [← first.nodesLeft, ← others.nodesLeft]
        omega

/-- There are as many turns as nodes to count. -/
theorem isSome_afterTurns?_iff :
    (count.afterTurns? turns).isSome = true ↔ turns ≤ count.nodesLeft := by
  -- By the number of turns, as the stack may be higher after a turn than before it.
  induction turns generalizing count with
  | zero => exact ⟨fun _ => Nat.zero_le _, fun _ => rfl⟩
  | succ turns inductionHypothesis =>
      cases next : count.turn? with
      | none =>
          have nothing := turn?_eq_none_iff.mp next
          rw [afterTurns?, next, Option.bind_none, nothing]
          exact ⟨nofun, nofun⟩
      | some later =>
          have left := (advances_turn next).nodesLeft
          rw [afterTurns?, next, Option.bind_some, inductionHypothesis]
          omega

/-- The count ends when every node has been counted. -/
theorem afterTurns?_nodesLeft :
    count.afterTurns? count.nodesLeft = some ⟨count.counted + count.nodesLeft, []⟩ := by
  rcases Option.isSome_iff_exists.mp (isSome_afterTurns?_iff.mpr (Nat.le_refl count.nodesLeft)) with
    ⟨⟨counted, waiting⟩, found⟩
  have advances := advances_afterTurns found
  have nothing : waiting = [] := waiting_eq_nil_iff.mpr (Nat.add_eq_right.mp advances.nodesLeft)
  rw [found, nothing, ← advances.counted]

theorem nodesLeft_start (tree : Tree) : (start tree).nodesLeft = tree.size := by
  rw [size_eq_nodeCount]
  exact Nat.add_zero _

end Count

/-- A count ends after as many turns as the tree has nodes, which is one more than its children have
together, and the outline shows that many nodes, each in front of those below it. -/
theorem size_counts_nodes (tree : Tree) :
    (∀ turns, ((Count.start tree).afterTurns? turns).isSome = true ↔ turns ≤ tree.size) ∧
    (Count.start tree).afterTurns? tree.size = some ⟨tree.size, []⟩ ∧
    tree.size = tree.nodeCount ∧
    tree.nodeCount = 1 + (tree.children.map nodeCount).sum ∧
    ∃ entries : List Entry, tree.outlineText = String.join (entries.map Entry.line) ∧
      entries.map Entry.node = tree.preorder ∧ entries.length = tree.size := by
  refine ⟨fun turns => ?_, ?_, tree.size_eq_nodeCount, ?_, tree.outline, rfl, tree.nodes_outline,
    tree.length_outline⟩
  · rw [Count.isSome_afterTurns?_iff, Count.nodesLeft_start]
  · have ends := (Count.start tree).afterTurns?_nodesLeft
    rwa [Count.nodesLeft_start, Count.start, Nat.zero_add] at ends
  · rw [nodeCount_eq, nodeCountOfAll_eq_sum]

end Tree
end ExpressionChecker

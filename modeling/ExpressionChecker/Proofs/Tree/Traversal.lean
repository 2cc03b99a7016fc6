import ExpressionChecker.Proofs.Tree.Shape
import ExpressionChecker.Tree.Equality
import Mathlib.Data.List.Count

namespace ExpressionChecker
namespace Tree

/-!
# The order in which nodes are visited

A tree is visited in two ways.  In pre-order every node comes before the nodes below it, and each is
visited with the number of calls above it.  In the order of evaluation a node comes after the nodes
below it, except that the invalid target of an assignment comes after the assignment.  A name that is
assigned to is not evaluated, so it has no place in that order; it is the only kind of node that has
none.  Other labels change neither order.
-/

/-! ## Pre-order -/

/-- A node with the number of calls that it stands below. -/
structure Visit where
  calls : Nat
  node : Tree

mutual

/-- The visits of a tree below so many calls, each before those of the nodes below it. -/
def visitsBelow (calls : Nat) : Tree → List Visit
  | identifier name note => [⟨calls, identifier name note⟩]
  | number literal note => [⟨calls, number literal note⟩]
  | unary operator operand note => ⟨calls, unary operator operand note⟩ :: operand.visitsBelow calls
  | binary operator left right note =>
    ⟨calls, binary operator left right note⟩ :: (left.visitsBelow calls ++ right.visitsBelow calls)
  | call name arguments note =>
    ⟨calls, call name arguments note⟩ :: visitsBelowAll (calls + 1) arguments
  | assignment target value note =>
    ⟨calls, assignment target value note⟩ ::
      (target.visitsBelow calls ++ value.visitsBelow calls)

def visitsBelowAll (calls : Nat) : List Tree → List Visit
  | [] => []
  | tree :: later => tree.visitsBelow calls ++ visitsBelowAll calls later

end

/-- The visits of a whole tree. -/
def visits (tree : Tree) : List Visit :=
  tree.visitsBelow 0

/-- The nodes of a tree, each before the nodes below it. -/
def preorder (tree : Tree) : List Tree :=
  tree.visits.map Visit.node

mutual

/-- Which nodes are visited does not depend on the calls above them. -/
theorem nodes_visitsBelow (calls calls' : Nat) (tree : Tree) :
    (tree.visitsBelow calls).map Visit.node = (tree.visitsBelow calls').map Visit.node := by
  cases tree with
  | identifier name note => rfl
  | number literal note => rfl
  | unary operator operand note =>
      simp only [visitsBelow, List.map_cons, nodes_visitsBelow calls calls' operand]
  | binary operator left right note =>
      simp only [visitsBelow, List.map_cons, List.map_append, nodes_visitsBelow calls calls' left,
        nodes_visitsBelow calls calls' right]
  | call name arguments note =>
      simp only [visitsBelow, List.map_cons,
        nodes_visitsBelowAll (calls + 1) (calls' + 1) arguments]
  | assignment target value note =>
      simp only [visitsBelow, List.map_cons, List.map_append, nodes_visitsBelow calls calls' target,
        nodes_visitsBelow calls calls' value]

theorem nodes_visitsBelowAll (calls calls' : Nat) (trees : List Tree) :
    (visitsBelowAll calls trees).map Visit.node =
      (visitsBelowAll calls' trees).map Visit.node := by
  cases trees with
  | nil => rfl
  | cons tree later =>
      simp only [visitsBelowAll, List.map_append, nodes_visitsBelow calls calls' tree,
        nodes_visitsBelowAll calls calls' later]

end

/-- The nodes of several trees, one tree after the other. -/
def preorderOfAll (trees : List Tree) : List Tree :=
  (visitsBelowAll 0 trees).map Visit.node

theorem preorder_unary (operator : Operator) (operand : Tree) (note : Note) :
    (unary operator operand note).preorder = unary operator operand note :: operand.preorder :=
  rfl

theorem preorder_binary (operator : Operator) (left right : Tree) (note : Note) :
    (binary operator left right note).preorder =
      binary operator left right note :: (left.preorder ++ right.preorder) := by
  simp only [preorder, visits, visitsBelow, List.map_cons, List.map_append]

theorem preorder_call (name : String) (arguments : List Tree) (note : Note) :
    (call name arguments note).preorder =
      call name arguments note :: preorderOfAll arguments := by
  simp only [preorder, visits, visitsBelow, List.map_cons, preorderOfAll,
    nodes_visitsBelowAll (0 + 1) 0]

theorem preorder_assignment (target value : Tree) (note : Note) :
    (assignment target value note).preorder =
      assignment target value note :: (target.preorder ++ value.preorder) := by
  simp only [preorder, visits, visitsBelow, List.map_cons, List.map_append]

theorem preorderOfAll_cons (tree : Tree) (later : List Tree) :
    preorderOfAll (tree :: later) = tree.preorder ++ preorderOfAll later := by
  simp only [preorder, visits, preorderOfAll, visitsBelowAll, List.map_append]

/-- The visit of a tree itself comes first. -/
theorem visitsBelow_root (calls : Nat) (tree : Tree) :
    ∃ later, tree.visitsBelow calls = ⟨calls, tree⟩ :: later := by
  cases tree <;> exact ⟨_, rfl⟩

/-- Behind a visit come those of the nodes below its node, wherever it stands among the visits. -/
def Nested (visits : List Visit) : Prop :=
  ∀ before visit later, visits = before ++ visit :: later →
    visit.node.visitsBelow visit.calls <+: visit :: later

namespace Nested

theorem nil : Nested [] :=
  fun _ _ _ split => (List.append_ne_nil_of_right_ne_nil _ (List.cons_ne_nil _ _) split.symm).elim

theorem cons {visit : Visit} {visits : List Visit}
    (whole : visit.node.visitsBelow visit.calls = visit :: visits) (nested : Nested visits) :
    Nested (visit :: visits) := by
  intro before visit' later split
  cases before with
  | nil =>
      cases split
      exact whole ▸ List.prefix_rfl
  | cons first before =>
      cases split
      exact nested before visit' later rfl

theorem append {first second : List Visit} (inFirst : Nested first) (inSecond : Nested second) :
    Nested (first ++ second) := by
  intro before visit later split
  rcases List.append_eq_append_iff.mp split with ⟨between, _, behind⟩ | ⟨between, front, behind⟩
  · exact inSecond between visit later behind
  · cases between with
    | nil => exact inSecond [] visit later behind.symm
    | cons visit' between =>
        cases behind
        exact (inFirst before visit between front).trans (List.prefix_append _ second)

end Nested

mutual

theorem nested_visitsBelow (calls : Nat) (tree : Tree) : Nested (tree.visitsBelow calls) := by
  cases tree with
  | identifier name note => exact .cons rfl .nil
  | number literal note => exact .cons rfl .nil
  | unary operator operand note => exact .cons rfl (nested_visitsBelow calls operand)
  | binary operator left right note =>
      exact .cons rfl ((nested_visitsBelow calls left).append (nested_visitsBelow calls right))
  | call name arguments note => exact .cons rfl (nested_visitsBelowAll (calls + 1) arguments)
  | assignment target value note =>
      exact .cons rfl ((nested_visitsBelow calls target).append (nested_visitsBelow calls value))

theorem nested_visitsBelowAll (calls : Nat) (trees : List Tree) :
    Nested (visitsBelowAll calls trees) := by
  cases trees with
  | nil => exact .nil
  | cons tree later =>
      exact (nested_visitsBelow calls tree).append (nested_visitsBelowAll calls later)

end

/-- In pre-order, behind a node come the nodes below it. -/
theorem exists_visits_of_preorder {tree node : Tree} {before later : List Tree}
    (visited : tree.preorder = before ++ node :: later) :
    ∃ calls rest, node :: later = (node.visitsBelow calls).map Visit.node ++ rest := by
  rcases List.map_eq_append_iff.mp visited with ⟨first, second, visits, _, isSecond⟩
  rcases List.map_eq_cons_iff.mp isSecond with ⟨visit, behind, rfl, rfl, rfl⟩
  rcases nested_visitsBelow 0 tree first visit behind visits with ⟨rest, whole⟩
  refine ⟨visit.calls, rest.map Visit.node, ?_⟩
  rw [← List.map_append, whole]
  rfl

/-! ## Evaluation order -/

mutual

/-- The nodes that are evaluated, from left to right and each behind its operands.  In an assignment
the value comes first, then the assignment, and then its target, unless that is a name. -/
def evaluation : Tree → List Tree
  | identifier name note => [identifier name note]
  | number literal note => [number literal note]
  | unary operator operand note => operand.evaluation ++ [unary operator operand note]
  | binary operator left right note =>
    left.evaluation ++ right.evaluation ++ [binary operator left right note]
  | call name arguments note => evaluationOfAll arguments ++ [call name arguments note]
  | assignment target value note =>
    value.evaluation ++ assignment target value note ::
      match target with
      | identifier _ _ => []
      | _ => target.evaluation

def evaluationOfAll : List Tree → List Tree
  | [] => []
  | tree :: later => tree.evaluation ++ evaluationOfAll later

end

/-- The name that an assignment assigns to, as a node. -/
def assignedName? : Tree → Option Tree
  | assignment (identifier name note) _ _ => some (identifier name note)
  | _ => none

theorem evaluation_assignment {target : Tree} (other : target.name? = none) (value : Tree)
    (note : Note) : (assignment target value note).evaluation =
      value.evaluation ++ assignment target value note :: target.evaluation := by
  cases target with
  | identifier name note' => cases other
  | _ => rfl

theorem assignedName?_assignment {target : Tree} (other : target.name? = none) (value : Tree)
    (note : Note) : (assignment target value note).assignedName? = none := by
  cases target with
  | identifier name note' => cases other
  | _ => rfl

/-! ## Every node is evaluated or assigned to -/

/-- The nodes are those that are evaluated and the names that are assigned to. -/
def Covers (evaluated nodes : List Tree) : Prop :=
  nodes.Perm (evaluated ++ nodes.filterMap assignedName?)

namespace Covers

variable {evaluated evaluated' nodes nodes' : List Tree} {node : Tree}

theorem append (first : Covers evaluated nodes) (second : Covers evaluated' nodes') :
    Covers (evaluated ++ evaluated') (nodes ++ nodes') := by
  unfold Covers at first second ⊢
  rw [List.perm_iff_count] at first second ⊢
  intro counted
  have inFirst := first counted
  have inSecond := second counted
  simp only [List.filterMap_append, List.count_append] at inFirst inSecond ⊢
  omega

/-- A node that assigns to no name may be evaluated anywhere among the nodes below it. -/
theorem insert (below : Covers (evaluated ++ evaluated') nodes) (plain : node.assignedName? = none) :
    Covers (evaluated ++ node :: evaluated') (node :: nodes) := by
  unfold Covers at below ⊢
  rw [List.filterMap_cons_none plain, List.append_assoc, List.cons_append]
  rw [List.append_assoc] at below
  exact (below.cons node).trans List.perm_middle.symm

theorem perm_evaluated (covers : Covers evaluated nodes) (same : evaluated.Perm evaluated') :
    Covers evaluated' nodes :=
  covers.trans (same.append_right _)

theorem behind (below : Covers evaluated nodes) (plain : node.assignedName? = none) :
    Covers (evaluated ++ [node]) (node :: nodes) :=
  insert ((List.append_nil evaluated).symm ▸ below) plain

/-- An assignment to a name is evaluated behind its value, and the name is not evaluated. -/
theorem assign (below : Covers evaluated nodes) (name : String) (note note' : Note) (value : Tree) :
    Covers (evaluated ++ [assignment (identifier name note) value note'])
      (assignment (identifier name note) value note' :: identifier name note :: nodes) := by
  unfold Covers at below ⊢
  rw [List.perm_iff_count] at below ⊢
  intro counted
  have inValue := below counted
  simp only [List.filterMap_cons, assignedName?, List.count_append, List.count_cons,
    List.count_nil] at inValue ⊢
  omega

end Covers

mutual

theorem covers_visitsBelow (calls : Nat) (tree : Tree) :
    Covers tree.evaluation ((tree.visitsBelow calls).map Visit.node) := by
  cases tree with
  | identifier name note => exact List.Perm.refl _
  | number literal note => exact List.Perm.refl _
  | unary operator operand note => exact (covers_visitsBelow calls operand).behind rfl
  | binary operator left right note =>
      simp only [visitsBelow, List.map_cons, List.map_append]
      exact ((covers_visitsBelow calls left).append (covers_visitsBelow calls right)).behind rfl
  | call name arguments note => exact (covers_visitsBelowAll (calls + 1) arguments).behind rfl
  | assignment target value note =>
      have below := covers_visitsBelow calls value
      cases named : target.name? with
      | some name =>
          cases target with
          | identifier name' note' => exact below.assign name' note' note value
          | _ => cases named
      | none =>
          have beside := covers_visitsBelow calls target
          have both := (beside.append below).perm_evaluated List.perm_append_comm
          simp only [visitsBelow, List.map_cons, List.map_append, evaluation_assignment named]
          exact both.insert (assignedName?_assignment named value note)

theorem covers_visitsBelowAll (calls : Nat) (trees : List Tree) :
    Covers (evaluationOfAll trees) ((visitsBelowAll calls trees).map Visit.node) := by
  cases trees with
  | nil => exact List.Perm.refl _
  | cons tree later =>
      simp only [visitsBelowAll, List.map_append]
      exact (covers_visitsBelow calls tree).append (covers_visitsBelowAll calls later)

end

/-- Every node of a tree is evaluated once or is a name that is assigned to. -/
theorem preorder_perm (tree : Tree) :
    tree.preorder.Perm (tree.evaluation ++ tree.preorder.filterMap assignedName?) :=
  covers_visitsBelow 0 tree

/-! ## Visiting under other labels -/

variable (labels : Relabeling)

/-- The visit of the node with other labels. -/
def Visit.relabeled (visit : Visit) : Visit :=
  ⟨visit.calls, visit.node.relabeled labels⟩

mutual

theorem visitsBelow_relabeled (calls : Nat) (tree : Tree) :
    (tree.relabeled labels).visitsBelow calls =
      (tree.visitsBelow calls).map (Visit.relabeled labels) := by
  cases tree with
  | identifier name note => rfl
  | number literal note => rfl
  | unary operator operand note =>
      have below := visitsBelow_relabeled calls operand
      simp only [relabeled, visitsBelow, List.map_cons, below]
      rfl
  | binary operator left right note =>
      have inLeft := visitsBelow_relabeled calls left
      have inRight := visitsBelow_relabeled calls right
      simp only [relabeled, visitsBelow, List.map_cons, List.map_append, inLeft, inRight]
      rfl
  | call name arguments note =>
      have below := visitsBelowAll_relabeled (calls + 1) arguments
      simp only [relabeled, visitsBelow, List.map_cons, below]
      rfl
  | assignment target value note =>
      have inTarget := visitsBelow_relabeled calls target
      have inValue := visitsBelow_relabeled calls value
      simp only [relabeled, visitsBelow, List.map_cons, List.map_append, inTarget, inValue]
      rfl

theorem visitsBelowAll_relabeled (calls : Nat) (trees : List Tree) :
    visitsBelowAll calls (relabeledAll labels trees) =
      (visitsBelowAll calls trees).map (Visit.relabeled labels) := by
  cases trees with
  | nil => rfl
  | cons tree later =>
      have first := visitsBelow_relabeled calls tree
      have others := visitsBelowAll_relabeled calls later
      simp only [relabeledAll, visitsBelowAll, List.map_append, first, others]

end

/-- The nodes are visited in the same order, whatever their labels. -/
theorem visits_relabeled (tree : Tree) :
    (tree.relabeled labels).visits = tree.visits.map (Visit.relabeled labels) :=
  visitsBelow_relabeled labels 0 tree

theorem preorder_relabeled (tree : Tree) :
    (tree.relabeled labels).preorder = tree.preorder.map (relabeled labels) := by
  rw [preorder, preorder, visits_relabeled, List.map_map, List.map_map]
  rfl

mutual

/-- The nodes are evaluated in the same order, whatever their labels. -/
theorem evaluation_relabeled (tree : Tree) :
    (tree.relabeled labels).evaluation = tree.evaluation.map (relabeled labels) := by
  cases tree with
  | identifier name note => rfl
  | number literal note => rfl
  | unary operator operand note =>
      have below := evaluation_relabeled operand
      simp only [relabeled, evaluation, List.map_append, below]
      rfl
  | binary operator left right note =>
      have inLeft := evaluation_relabeled left
      have inRight := evaluation_relabeled right
      simp only [relabeled, evaluation, List.map_append, inLeft, inRight]
      rfl
  | call name arguments note =>
      have below := evaluationOfAll_relabeled arguments
      simp only [relabeled, evaluation, List.map_append, below]
      rfl
  | assignment target value note =>
      have inValue := evaluation_relabeled value
      cases named : target.name? with
      | some name =>
          cases target with
          | identifier name note' =>
              simp only [relabeled, evaluation, List.map_append, inValue]
              rfl
          | _ => cases named
      | none =>
          have inTarget := evaluation_relabeled target
          have other : (target.relabeled labels).name? = none := by
            rw [name?_relabeled, named]
            rfl
          rw [relabeled, evaluation_assignment other, evaluation_assignment named,
            List.map_append, List.map_cons, inValue, inTarget]
          rfl

theorem evaluationOfAll_relabeled (trees : List Tree) :
    evaluationOfAll (relabeledAll labels trees) =
      (evaluationOfAll trees).map (relabeled labels) := by
  cases trees with
  | nil => rfl
  | cons tree later =>
      have first := evaluation_relabeled tree
      have others := evaluationOfAll_relabeled later
      simp only [relabeledAll, evaluationOfAll, List.map_append, first, others]

end

end Tree
end ExpressionChecker

import ExpressionChecker.Tree.Outline
import Mathlib.Data.List.Forall2
import Mathlib.Data.List.Lex

namespace ExpressionChecker
namespace Tree

/-!
# Addresses of nodes

The address of a node says which way leads to it from the root: at each node on the way, the number of
the child to go on with.  An address is longer than that of the node above it by one number.  Ordered
like the words of a dictionary, the addresses put every node in front of those below it, and those
below one child in front of those below the next, so pre-order is the order of the addresses.
-/

/-! ## The trees directly below a tree -/

theorem nodeCount_le_nodeCountOfAll {child : Tree} {trees : List Tree} (isOne : child ∈ trees) :
    child.nodeCount ≤ nodeCountOfAll trees := by
  induction trees with
  | nil => cases isOne
  | cons tree later inductionHypothesis =>
      rw [nodeCountOfAll]
      rcases List.mem_cons.mp isOne with rfl | isLater
      · exact Nat.le_add_right _ _
      · exact Nat.le_add_left_of_le (inductionHypothesis isLater)

theorem nodeCount_lt_of_mem_children {tree child : Tree} (below : child ∈ tree.children) :
    child.nodeCount < tree.nodeCount := by
  rw [nodeCount_eq tree, Nat.add_comm]
  exact Nat.lt_succ_of_le (nodeCount_le_nodeCountOfAll below)

/-- What holds of a tree as soon as it holds of the trees directly below it holds of all trees. -/
theorem children_induction {motive : Tree → Prop}
    (step : ∀ tree, (∀ child ∈ tree.children, motive child) → motive tree) (tree : Tree) :
    motive tree :=
  step tree fun child _below => children_induction step child
termination_by tree.nodeCount
decreasing_by exact nodeCount_lt_of_mem_children _below

/-- What holds of no trees, and of a tree with others behind it as soon as it holds of its children
and of the others, holds of all lists of trees. -/
theorem forest_induction {motive : List Tree → Prop} (nil : motive [])
    (cons : ∀ tree later, motive tree.children → motive later → motive (tree :: later))
    (trees : List Tree) : motive trees :=
  match trees with
  | [] => nil
  | tree :: later =>
      cons tree later (forest_induction nil cons tree.children) (forest_induction nil cons later)
termination_by nodeCountOfAll trees
decreasing_by all_goals
  rw [nodeCountOfAll, nodeCount_eq]
  omega

namespace Count

variable {count later : Count}

theorem waiting_eq_nil_iff : count.waiting = [] ↔ count.nodesLeft = 0 := by
  cases waiting : count.waiting with
  | nil => simp only [nodesLeft, waiting, nodeCountOfAll]
  | cons tree later =>
      rw [nodesLeft, waiting, nodeCountOfAll, nodeCount_eq]
      constructor
      · intro impossible
        cases impossible
      · intro nothing
        omega

theorem turn?_eq_none_iff : count.turn? = none ↔ count.nodesLeft = 0 := by
  rw [turn?, Option.map_eq_none_iff, List.getLast?_eq_none_iff, waiting_eq_nil_iff]

theorem counted_turn (isNext : count.turn? = some later) : later.counted = count.counted + 1 := by
  rcases Option.map_eq_some_iff.mp isNext with ⟨tree, -, rfl⟩
  rfl

theorem finish_eq (count : Count) : count.finish = count.counted + count.nodesLeft := by
  fun_induction finish count with
  | case1 count isLast => rw [turn?_eq_none_iff.mp isLast, Nat.add_zero]
  | case2 count later isNext inductionHypothesis =>
      rw [inductionHypothesis, counted_turn isNext, ← nodesLeft_turn isNext, Nat.add_assoc,
        Nat.add_comm 1]

end Count

/-- Every node has its turn once. -/
theorem size_eq_nodeCount (tree : Tree) : tree.size = tree.nodeCount := by
  rw [size, Count.finish_eq, Count.start, Count.nodesLeft, nodeCountOfAll, nodeCountOfAll,
    Nat.zero_add, Nat.add_zero]

theorem outlineAt_eq (depth : Nat) (tree : Tree) :
    tree.outlineAt depth = ⟨depth, tree⟩ :: outlineAllAt (depth + 1) tree.children := by
  cases tree <;> simp only [outlineAt, outlineAllAt, children, List.append_nil]

/-! ## Addresses -/

/-- The part of a tree at an address, if the address does not lead out of the tree. -/
def at? (tree : Tree) : List Nat → Option Tree
  | [] => some tree
  | place :: later => tree.children[place]?.bind (·.at? later)

mutual

/-- The addresses of the nodes of a tree, each before those of the nodes below it. -/
def addresses : Tree → List (List Nat)
  | identifier .. | number .. => [[]]
  | unary _ operand _ => [] :: operand.addresses.map (0 :: ·)
  | binary _ left right _ =>
    [] :: (left.addresses.map (0 :: ·) ++ right.addresses.map (1 :: ·))
  | call _ arguments _ => [] :: addressesOfAll 0 arguments
  | assignment target value _ =>
    [] :: (target.addresses.map (0 :: ·) ++ value.addresses.map (1 :: ·))

/-- The addresses of the nodes below a node in several of its children, the first of which has the
given number. -/
def addressesOfAll (place : Nat) : List Tree → List (List Nat)
  | [] => []
  | tree :: later => tree.addresses.map (place :: ·) ++ addressesOfAll (place + 1) later

end

theorem addresses_eq (tree : Tree) : tree.addresses = [] :: addressesOfAll 0 tree.children := by
  cases tree <;> simp only [addresses, addressesOfAll, children, List.append_nil, Nat.zero_add]

theorem cons_mem_addressesOfAll {trees : List Tree} {child : Tree} {place : Nat} {later : List Nat}
    (isChild : trees[place]? = some child) (inside : later ∈ child.addresses) (first : Nat) :
    (first + place) :: later ∈ addressesOfAll first trees := by
  induction trees generalizing first place with
  | nil => cases isChild
  | cons tree trees inductionHypothesis =>
      rw [addressesOfAll]
      cases place with
      | zero =>
          cases isChild
          exact List.mem_append_left _ (List.mem_map_of_mem inside)
      | succ place =>
          refine List.mem_append_right _ ?_
          rw [Nat.add_comm place, ← Nat.add_assoc]
          exact inductionHypothesis isChild (first + 1)

theorem exists_of_mem_addressesOfAll {trees : List Tree} {first : Nat} {address : List Nat}
    (listed : address ∈ addressesOfAll first trees) :
    ∃ place later child, trees[place]? = some child ∧ later ∈ child.addresses ∧
      address = (first + place) :: later := by
  induction trees generalizing first with
  | nil => cases listed
  | cons tree trees inductionHypothesis =>
      rw [addressesOfAll] at listed
      rcases List.mem_append.mp listed with here | further
      · rcases List.mem_map.mp here with ⟨later, inside, rfl⟩
        exact ⟨0, later, tree, rfl, inside, rfl⟩
      · rcases inductionHypothesis further with ⟨place, later, child, isChild, inside, rfl⟩
        exact ⟨place + 1, later, child, isChild, inside, by rw [Nat.add_assoc, Nat.add_comm place]⟩

/-- The addresses of a tree are those that do not lead out of it. -/
theorem mem_addresses_iff (tree : Tree) {address : List Nat} :
    address ∈ tree.addresses ↔ (tree.at? address).isSome = true := by
  induction tree using children_induction generalizing address with
  | step tree inductionHypothesis =>
      rw [addresses_eq, List.mem_cons]
      cases address with
      | nil => exact ⟨fun _ => rfl, fun _ => .inl rfl⟩
      | cons place later =>
          rw [at?]
          constructor
          · rintro (impossible | listed)
            · cases impossible
            · rcases exists_of_mem_addressesOfAll listed with
                ⟨place', later', child, isChild, inside, same⟩
              rw [Nat.zero_add] at same
              cases same
              rw [isChild, Option.bind_some]
              exact (inductionHypothesis child (List.mem_of_getElem? isChild)).mp inside
          · intro present
            rcases Option.isSome_iff_exists.mp present with ⟨node, found⟩
            rcases Option.bind_eq_some_iff.mp found with ⟨child, isChild, isNode⟩
            have inside := (inductionHypothesis child (List.mem_of_getElem? isChild)).mpr
              (Option.isSome_iff_exists.mpr ⟨node, isNode⟩)
            have listed := cons_mem_addressesOfAll isChild inside 0
            rw [Nat.zero_add] at listed
            exact .inr listed

theorem addressesOfAll_pairwise {trees : List Tree}
    (each : ∀ tree ∈ trees, tree.addresses.Pairwise (· < ·)) (first : Nat) :
    (addressesOfAll first trees).Pairwise (· < ·) := by
  induction trees generalizing first with
  | nil => exact .nil
  | cons tree trees inductionHypothesis =>
      rcases List.forall_mem_cons.mp each with ⟨here, further⟩
      rw [addressesOfAll, List.pairwise_append, List.pairwise_map]
      refine ⟨here.imp fun ascends => List.Lex.cons ascends,
        inductionHypothesis further (first + 1), ?_⟩
      intro address inFirst address' inLater
      rcases List.mem_map.mp inFirst with ⟨_, _, rfl⟩
      rcases exists_of_mem_addressesOfAll inLater with ⟨place, _, _, _, _, rfl⟩
      exact List.Lex.rel (by omega)

/-- The addresses ascend in the order of a dictionary. -/
theorem addresses_pairwise (tree : Tree) : tree.addresses.Pairwise (· < ·) := by
  induction tree using children_induction with
  | step tree inductionHypothesis =>
      rw [addresses_eq, List.pairwise_cons]
      refine ⟨fun address below => ?_, addressesOfAll_pairwise inductionHypothesis 0⟩
      rcases exists_of_mem_addressesOfAll below with ⟨place, later, _, _, _, rfl⟩
      exact List.nil_lt_cons _ _

theorem length_addressesOfAll {trees : List Tree}
    (each : ∀ tree ∈ trees, tree.addresses.length = tree.nodeCount) (first : Nat) :
    (addressesOfAll first trees).length = nodeCountOfAll trees := by
  induction trees generalizing first with
  | nil => rfl
  | cons tree trees inductionHypothesis =>
      rcases List.forall_mem_cons.mp each with ⟨here, further⟩
      rw [addressesOfAll, nodeCountOfAll, List.length_append, List.length_map, here,
        inductionHypothesis further]

/-- There are as many addresses as nodes. -/
theorem length_addresses (tree : Tree) : tree.addresses.length = tree.size := by
  rw [size_eq_nodeCount]
  induction tree using children_induction with
  | step tree inductionHypothesis =>
      rw [addresses_eq, nodeCount_eq, List.length_cons,
        length_addressesOfAll inductionHypothesis, Nat.add_comm]

/-! ## The outline by addresses -/

/-- The entry lists the node at an address of a tree whose root stands at the given depth. -/
structure Entry.StandsAt (tree : Tree) (depth : Nat) (entry : Entry) (address : List Nat) : Prop where
  node : tree.at? address = some entry.node
  depth : entry.depth = depth + address.length

/-- What stands at an address of a child stands at the longer address of the tree. -/
theorem Entry.StandsAt.below {tree child : Tree} {depth place : Nat} {entry : Entry}
    {address : List Nat} (isChild : tree.children[place]? = some child)
    (stands : entry.StandsAt child (depth + 1) address) :
    entry.StandsAt tree depth (place :: address) where
  node := by rw [at?, isChild, Option.bind_some, stands.node]
  depth := by rw [stands.depth, List.length_cons, Nat.add_assoc, Nat.add_comm 1]

theorem outlineAllAt_standsAt {tree : Tree} {trees : List Tree} {depth : Nat} (before : List Tree)
    (whole : tree.children = before ++ trees)
    (each : ∀ child ∈ trees, List.Forall₂ (Entry.StandsAt child (depth + 1))
      (child.outlineAt (depth + 1)) child.addresses) :
    List.Forall₂ (Entry.StandsAt tree depth) (outlineAllAt (depth + 1) trees)
      (addressesOfAll before.length trees) := by
  induction trees generalizing before with
  | nil => exact .nil
  | cons child trees inductionHypothesis =>
      rcases List.forall_mem_cons.mp each with ⟨here, further⟩
      have isChild : tree.children[before.length]? = some child := by
        rw [whole, List.getElem?_append_right (Nat.le_refl _), Nat.sub_self]
        rfl
      rw [outlineAllAt, addressesOfAll]
      refine List.rel_append ?_ ?_
      · rw [List.forall₂_map_right_iff]
        exact here.imp fun _ _ stands => stands.below isChild
      · have rest := inductionHypothesis (before ++ [child])
          (whole.trans (List.append_assoc before [child] trees).symm) further
        rwa [List.length_append] at rest

/-- The outline lists the nodes in the order of their addresses, and it indents them by the lengths
of these. -/
theorem outlineAt_standsAt (tree : Tree) (depth : Nat) :
    List.Forall₂ (Entry.StandsAt tree depth) (tree.outlineAt depth) tree.addresses := by
  induction tree using children_induction generalizing depth with
  | step tree inductionHypothesis =>
      rw [outlineAt_eq, addresses_eq]
      refine .cons ⟨rfl, rfl⟩ ?_
      exact outlineAllAt_standsAt [] rfl
        fun child below => inductionHypothesis child below (depth + 1)

end Tree
end ExpressionChecker

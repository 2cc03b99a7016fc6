import ExpressionChecker.Proofs.Analysis.Declaration
import Mathlib.Data.List.Forall2

namespace ExpressionChecker
namespace Tree

/-!
# Trees with parts made unknown

A part of a tree is made unknown by putting a name in its place that nothing is assigned to.  The
part must not hold an assignment, because then a declaration would go with it, and it must not be
assigned to itself.  Everything around the part stays as it is.  This can be said of one part in its
surroundings, which are the nodes above it from the inside out.  Arguments about the tree go by a
relation that allows any number of parts and follows the tree from its root.
-/

/-! ## Surroundings -/

/-- A node with one of the places below it left open. -/
inductive Frame where
  | onlyOperand (operator : Operator) (note : Note)
  | leftOperand (operator : Operator) (right : Tree) (note : Note)
  | rightOperand (operator : Operator) (left : Tree) (note : Note)
  | argument (name : String) (before after : List Tree) (note : Note)
  | assignedTarget (value : Tree) (note : Note)
  | assignedValue (target : Tree) (note : Note)

namespace Frame

/-- The node with a tree in its open place. -/
def fill : Frame → Tree → Tree
  | onlyOperand operator note, tree => unary operator tree note
  | leftOperand operator right note, tree => binary operator tree right note
  | rightOperand operator left note, tree => binary operator left tree note
  | argument name before after note, tree => call name (before ++ tree :: after) note
  | assignedTarget value note, tree => assignment tree value note
  | assignedValue target note, tree => assignment target tree note

/-- Whether the open place is that of the target of an assignment. -/
def isTarget : Frame → Bool
  | assignedTarget .. => true
  | _ => false

end Frame

/-- The tree in its surroundings, which are listed from the inside out. -/
def inside (tree : Tree) (surroundings : List Frame) : Tree :=
  surroundings.foldl (fun inner frame => frame.fill inner) tree

/-! ## Nodes of a part -/

theorem mem_evaluationOfAll {node tree : Tree} (evaluated : node ∈ tree.evaluation)
    {trees : List Tree} (listed : tree ∈ trees) : node ∈ evaluationOfAll trees := by
  induction listed with
  | head later => exact List.mem_append_left _ evaluated
  | tail first _ inductionHypothesis => exact List.mem_append_right _ inductionHypothesis

/-- What is evaluated in a place is evaluated in the node around it, unless it is a name that is
assigned to. -/
theorem mem_evaluation_fill {node tree : Tree} (evaluated : node ∈ tree.evaluation) (frame : Frame)
    (noTarget : frame.isTarget = true → tree.name? = none) :
    node ∈ (frame.fill tree).evaluation := by
  cases frame with
  | onlyOperand operator note => exact List.mem_append_left _ evaluated
  | leftOperand operator right note =>
      exact List.mem_append_left _ (List.mem_append_left _ evaluated)
  | rightOperand operator left note =>
      exact List.mem_append_left _ (List.mem_append_right _ evaluated)
  | argument name before after note =>
      have listed : tree ∈ before ++ tree :: after := List.mem_append_right _ List.mem_cons_self
      exact List.mem_append_left _ (mem_evaluationOfAll evaluated listed)
  | assignedTarget value note =>
      rw [Frame.fill, evaluation_assignment (noTarget rfl)]
      exact List.mem_append_right _ (List.mem_cons_of_mem _ evaluated)
  | assignedValue target note => exact List.mem_append_left _ evaluated

/-- A filled node is no name, so whatever is around it may have it as a target. -/
theorem name?_fill (frame : Frame) (tree : Tree) : (frame.fill tree).name? = none := by
  cases frame <;> rfl

theorem mem_evaluation_inside {node tree : Tree} (evaluated : node ∈ tree.evaluation)
    (surroundings : List Frame)
    (noTarget : ∀ frame ∈ surroundings.head?, frame.isTarget = true → tree.name? = none) :
    node ∈ (tree.inside surroundings).evaluation := by
  induction surroundings generalizing tree with
  | nil => exact evaluated
  | cons frame outer inductionHypothesis =>
      refine inductionHypothesis (mem_evaluation_fill evaluated frame (noTarget frame rfl)) ?_
      exact fun _ _ _ => name?_fill frame tree

/-! ## Nodes that declare a name -/

/-- Those of several nodes that assign to a name. -/
def declaring (nodes : List Tree) : List Tree :=
  nodes.filter fun node => node.target?.isSome

theorem declaring_append (first second : List Tree) :
    declaring (first ++ second) = declaring first ++ declaring second :=
  List.filter_append first second

theorem declaring_cons_of_none {node : Tree} (noTarget : node.target? = none) (later : List Tree) :
    declaring (node :: later) = declaring later := by
  rw [declaring, List.filter_cons, noTarget]
  rfl

theorem target?_invalidTarget {target : Tree} (other : target.name? = none) (value : Tree)
    (note : Note) : (assignment target value note).target? = none := by
  cases target with
  | identifier name note' => cases other
  | _ => rfl

/-! ## Blurred trees -/

/-- Nothing is assigned to in the tree. -/
def IsPlain (tree : Tree) : Prop :=
  ∀ node ∈ tree.preorder, ∀ target value note, node ≠ assignment target value note

/-- No node of a plain tree declares a name. -/
theorem IsPlain.declaring_eq {tree : Tree} (plain : tree.IsPlain) :
    declaring tree.preorder = [] := by
  rw [declaring, List.filter_eq_nil_iff]
  intro node visited
  cases node with
  | assignment target value note => exact (plain _ visited target value note rfl).elim
  | _ => exact Bool.false_ne_true

/-- The second tree is the first one with names in place of some parts.  The names are not among the
assigned ones, and the parts are plain and no targets. -/
inductive Blurred (assigned : List String) : Tree → Tree → Prop where
  | part {tree : Tree} {name : String} (plain : tree.IsPlain) (unknown : name ∉ assigned)
      (note : Note) : Blurred assigned tree (identifier name note)
  | identifier (name : String) (note : Note) :
      Blurred assigned (identifier name note) (identifier name note)
  | number (literal : String) (note : Note) :
      Blurred assigned (number literal note) (number literal note)
  | unary (operator : Operator) {operand operand' : Tree} (note : Note)
      (inOperand : Blurred assigned operand operand') :
      Blurred assigned (unary operator operand note) (unary operator operand' note)
  | binary (operator : Operator) {left left' right right' : Tree} (note : Note)
      (inLeft : Blurred assigned left left') (inRight : Blurred assigned right right') :
      Blurred assigned (binary operator left right note) (binary operator left' right' note)
  | call (name : String) {arguments arguments' : List Tree} (note : Note)
      (inArguments : List.Forall₂ (Blurred assigned) arguments arguments') :
      Blurred assigned (call name arguments note) (call name arguments' note)
  | named (name : String) (note note' : Note) {value value' : Tree}
      (inValue : Blurred assigned value value') :
      Blurred assigned (assignment (identifier name note) value note')
        (assignment (identifier name note) value' note')
  | invalid {target target' value value' : Tree} (note : Note) (other : target.name? = none)
      (other' : target'.name? = none) (inTarget : Blurred assigned target target')
      (inValue : Blurred assigned value value') :
      Blurred assigned (assignment target value note) (assignment target' value' note)

namespace Blurred

variable {assigned : List String}

mutual

theorem refl (tree : Tree) : Blurred assigned tree tree := by
  cases tree with
  | identifier name note => exact .identifier name note
  | number literal note => exact .number literal note
  | unary operator operand note => exact .unary operator note (refl operand)
  | binary operator left right note => exact .binary operator note (refl left) (refl right)
  | call name arguments note => exact .call name note (reflAll arguments)
  | assignment target value note =>
      cases named : target.name? with
      | none => exact .invalid note named named (refl target) (refl value)
      | some name =>
          cases target with
          | identifier name note' => exact .named name note' note (refl value)
          | _ => cases named

theorem reflAll (trees : List Tree) : List.Forall₂ (Blurred assigned) trees trees := by
  cases trees with
  | nil => exact .nil
  | cons tree later => exact .cons (refl tree) (reflAll later)

end

/-- What is blurred in a place is blurred in the node around it. -/
theorem fill {tree tree' : Tree} (blurred : Blurred assigned tree tree') (frame : Frame)
    (noTarget : frame.isTarget = true → tree.name? = none ∧ tree'.name? = none) :
    Blurred assigned (frame.fill tree) (frame.fill tree') := by
  cases frame with
  | onlyOperand operator note => exact .unary operator note blurred
  | leftOperand operator right note => exact .binary operator note blurred (refl right)
  | rightOperand operator left note => exact .binary operator note (refl left) blurred
  | argument name before after note =>
      exact .call name note (List.rel_append (reflAll before) (.cons blurred (reflAll after)))
  | assignedTarget value note =>
      exact .invalid note (noTarget rfl).1 (noTarget rfl).2 blurred (refl value)
  | assignedValue target note =>
      cases named : target.name? with
      | none => exact .invalid note named named (refl target) blurred
      | some name =>
          cases target with
          | identifier name note' => exact .named name note' note blurred
          | _ => cases named

theorem inside {tree tree' : Tree} (blurred : Blurred assigned tree tree')
    (surroundings : List Frame)
    (noTarget : ∀ frame ∈ surroundings.head?, frame.isTarget = true →
      tree.name? = none ∧ tree'.name? = none) :
    Blurred assigned (tree.inside surroundings) (tree'.inside surroundings) := by
  induction surroundings generalizing tree tree' with
  | nil => exact blurred
  | cons frame outer inductionHypothesis =>
      refine inductionHypothesis (blurred.fill frame (noTarget frame rfl)) ?_
      exact fun _ _ _ => ⟨name?_fill frame tree, name?_fill frame tree'⟩

/-- A plain part that is no target may be made unknown in its surroundings. -/
theorem part_inside {part : Tree} (plain : part.IsPlain) {name : String} (unknown : name ∉ assigned)
    (note : Note) (surroundings : List Frame)
    (noTarget : ∀ frame ∈ surroundings.head?, frame.isTarget = false) :
    Blurred assigned (part.inside surroundings)
      ((Tree.identifier name note).inside surroundings) := by
  refine inside (.part plain unknown note) surroundings fun frame innermost isTarget => ?_
  rw [noTarget frame innermost] at isTarget
  cases isTarget

/-! ## Visits -/

mutual

/-- A blurred tree has no node below more calls. -/
theorem within {limit calls : Nat} {tree tree' : Tree} (blurred : Blurred assigned tree tree')
    (shallow : ∀ visit ∈ tree.visitsBelow calls, visit.calls ≤ limit) :
    ∀ visit ∈ tree'.visitsBelow calls, visit.calls ≤ limit := by
  cases blurred with
  | part plain unknown note =>
      rcases tree.visitsBelow_root calls with ⟨later, visits⟩
      rw [visits, List.forall_mem_cons] at shallow
      exact List.forall_mem_singleton.mpr shallow.1
  | identifier name note => exact shallow
  | number literal note => exact shallow
  | unary operator note inOperand =>
      simp only [visitsBelow, List.forall_mem_cons] at shallow ⊢
      exact ⟨shallow.1, within inOperand shallow.2⟩
  | binary operator note inLeft inRight =>
      simp only [visitsBelow, List.forall_mem_cons, List.forall_mem_append] at shallow ⊢
      exact ⟨shallow.1, within inLeft shallow.2.1, within inRight shallow.2.2⟩
  | call name note inArguments =>
      simp only [visitsBelow, List.forall_mem_cons] at shallow ⊢
      exact ⟨shallow.1, withinAll inArguments shallow.2⟩
  | named name note note' inValue =>
      simp only [visitsBelow, List.forall_mem_cons, List.forall_mem_append] at shallow ⊢
      exact ⟨shallow.1, shallow.2.1, within inValue shallow.2.2⟩
  | invalid note other other' inTarget inValue =>
      simp only [visitsBelow, List.forall_mem_cons, List.forall_mem_append] at shallow ⊢
      exact ⟨shallow.1, within inTarget shallow.2.1, within inValue shallow.2.2⟩

theorem withinAll {limit calls : Nat} {trees trees' : List Tree}
    (blurred : List.Forall₂ (Blurred assigned) trees trees')
    (shallow : ∀ visit ∈ visitsBelowAll calls trees, visit.calls ≤ limit) :
    ∀ visit ∈ visitsBelowAll calls trees', visit.calls ≤ limit := by
  cases blurred with
  | nil => exact shallow
  | cons first others =>
      simp only [visitsBelowAll, List.forall_mem_append] at shallow ⊢
      exact ⟨within first shallow.1, withinAll others shallow.2⟩

end

mutual

/-- The nodes that declare names correspond to each other. -/
theorem declaring_preorder {tree tree' : Tree} (blurred : Blurred assigned tree tree') :
    List.Forall₂ (Blurred assigned) (declaring tree.preorder) (declaring tree'.preorder) := by
  cases blurred with
  | part plain unknown note =>
      rw [plain.declaring_eq]
      exact .nil
  | identifier name note => exact .nil
  | number literal note => exact .nil
  | unary operator note inOperand =>
      rw [preorder_unary, preorder_unary, declaring_cons_of_none rfl, declaring_cons_of_none rfl]
      exact declaring_preorder inOperand
  | binary operator note inLeft inRight =>
      rw [preorder_binary, preorder_binary, declaring_cons_of_none rfl, declaring_cons_of_none rfl,
        declaring_append, declaring_append]
      exact List.rel_append (declaring_preorder inLeft) (declaring_preorder inRight)
  | call name note inArguments =>
      rw [preorder_call, preorder_call, declaring_cons_of_none rfl, declaring_cons_of_none rfl]
      exact declaring_preorderOfAll inArguments
  | named name note note' inValue =>
      rw [preorder_assignment, preorder_assignment]
      exact .cons (.named name note note' inValue) (declaring_preorder inValue)
  | invalid note other other' inTarget inValue =>
      rw [preorder_assignment, preorder_assignment,
        declaring_cons_of_none (target?_invalidTarget other _ note),
        declaring_cons_of_none (target?_invalidTarget other' _ note), declaring_append,
        declaring_append]
      exact List.rel_append (declaring_preorder inTarget) (declaring_preorder inValue)

theorem declaring_preorderOfAll {trees trees' : List Tree}
    (blurred : List.Forall₂ (Blurred assigned) trees trees') :
    List.Forall₂ (Blurred assigned) (declaring (preorderOfAll trees))
      (declaring (preorderOfAll trees')) := by
  cases blurred with
  | nil => exact .nil
  | cons first others =>
      rw [preorderOfAll_cons, preorderOfAll_cons, declaring_append, declaring_append]
      exact List.rel_append (declaring_preorder first) (declaring_preorderOfAll others)

end

/-- A node that corresponds to one that declares a name declares the same name. -/
theorem exists_named {node node' : Tree} (blurred : Blurred assigned node node')
    (declares : node'.target?.isSome = true) :
    ∃ name note note' value value', node = assignment (.identifier name note) value note' ∧
      node' = assignment (.identifier name note) value' note' ∧ Blurred assigned value value' := by
  cases blurred with
  | named name note note' inValue => exact ⟨name, note, note', _, _, rfl, rfl, inValue⟩
  | invalid note other other' inTarget inValue =>
      rw [target?_invalidTarget other'] at declares
      cases declares
  | _ => cases declares

end Blurred
end Tree
end ExpressionChecker

import ExpressionChecker.Analysis.Verification
import ExpressionChecker.Proofs.Tree.Address
import ExpressionChecker.Proofs.Tree.Height
import Mathlib.Logic.Function.Iterate

namespace ExpressionChecker

/-!
# How deep the passes over a tree go

The body of a pass is what it does at a single node, where it may ask for its result on the trees
directly below.  To repeat the body a number of times is to run the pass down so many levels and no
further, with anything at all for a result that would have to be fetched from below them.  As many
levels as the tree is high are enough, so on a tree that was read from tokens every pass keeps to
the number of levels that the limits leave.
-/

/-- Two answers are the same on the trees directly below a tree. -/
def AgreeBelow {Result : Type} (first second : Tree → Result) (tree : Tree) : Prop :=
  ∀ child ∈ tree.children, first child = second child

namespace AgreeBelow

variable {Result : Type} {first second : Tree → Result} {note : Note}

theorem unary {operator : Operator} {operand : Tree}
    (agree : AgreeBelow first second (.unary operator operand note)) :
    first operand = second operand :=
  agree operand List.mem_cons_self

theorem binary {operator : Operator} {left right : Tree}
    (agree : AgreeBelow first second (.binary operator left right note)) :
    first left = second left ∧ first right = second right :=
  ⟨agree left List.mem_cons_self, agree right (List.mem_cons_of_mem _ List.mem_cons_self)⟩

theorem call {name : String} {arguments : List Tree}
    (agree : AgreeBelow first second (.call name arguments note)) :
    arguments.map first = arguments.map second :=
  List.map_congr_left agree

theorem assignment {target value : Tree}
    (agree : AgreeBelow first second (.assignment target value note)) :
    first target = second target ∧ first value = second value :=
  ⟨agree target List.mem_cons_self, agree value (List.mem_cons_of_mem _ List.mem_cons_self)⟩

end AgreeBelow

/-- A pass over trees with its body.  The body asks only about the trees directly below a node. -/
structure Pass (Result : Type) where
  run : Tree → Result
  body : (Tree → Result) → Tree → Result
  run_eq : ∀ tree, run tree = body run tree
  asksBelow : ∀ {first second : Tree → Result} {tree : Tree},
    AgreeBelow first second tree → body first tree = body second tree

namespace Pass

/-- Whatever is found beyond the levels, the result is the one of the whole pass. -/
theorem iterate_body {Result : Type} (pass : Pass Result) (beyond : Tree → Result) {levels : Nat}
    {tree : Tree} (reaches : tree.height ≤ levels) :
    pass.body^[levels] beyond tree = pass.run tree := by
  induction levels generalizing tree with
  | zero =>
      have positive := tree.height_eq
      omega
  | succ levels inductionHypothesis =>
      rw [Function.iterate_succ_apply', pass.run_eq]
      apply pass.asksBelow
      intro child below
      have lower := Tree.height_lt_of_mem_children below
      exact inductionHypothesis (by omega)

/-! ## Rendering -/

/-- Texts separated by commas. -/
def commaSeparated : List String → String
  | [] => ""
  | [text] => text
  | text :: later => text ++ ", " ++ commaSeparated later

theorem renderAll_eq (trees : List Tree) :
    Tree.renderAll trees = commaSeparated (trees.map Tree.render) := by
  induction trees with
  | nil => rfl
  | cons tree later inductionHypothesis =>
      cases later with
      | nil => rfl
      | cons next later =>
          rw [Tree.renderAll, inductionHypothesis]
          · rfl
          · exact List.cons_ne_nil _ _

/-- Renders a node. -/
def renderNode (ask : Tree → String) : Tree → String
  | .identifier name _ => name
  | .number literal _ => literal
  | .unary operator operand _ =>
    operator.symbol ++ Tree.parenthesized (operand.strength < operator.strength) (ask operand)
  | .binary operator left right _ =>
    Tree.parenthesized (left.strength < operator.strength) (ask left) ++
      " " ++ operator.symbol ++ " " ++
      Tree.parenthesized (right.strength ≤ operator.strength) (ask right)
  | .call name arguments _ => name ++ "(" ++ commaSeparated (arguments.map ask) ++ ")"
  | .assignment target value _ => ask target ++ " = " ++ ask value

def rendering : Pass String where
  run := Tree.render
  body := renderNode
  run_eq := by
    intro tree
    cases tree with
    | call name arguments note => rw [Tree.render, renderAll_eq, renderNode]
    | _ => rfl
  asksBelow := by
    intro first second tree agree
    cases tree with
    | identifier name note => rfl
    | number literal note => rfl
    | unary operator operand note => simp only [renderNode, agree.unary]
    | binary operator left right note => simp only [renderNode, agree.binary]
    | call name arguments note => simp only [renderNode, agree.call]
    | assignment target value note => simp only [renderNode, agree.assignment]

/-! ## Outlines -/

/-- Lists a node at a depth, and behind it what is listed for the trees below it. -/
def outlineNode (ask : Tree → Nat → List Tree.Entry) (tree : Tree) (depth : Nat) :
    List Tree.Entry :=
  ⟨depth, tree⟩ :: (tree.children.map ask).flatMap (· (depth + 1))

theorem outlineAllAt_eq (depth : Nat) (trees : List Tree) :
    Tree.outlineAllAt depth trees =
      (trees.map fun tree depth => tree.outlineAt depth).flatMap (· depth) := by
  induction trees with
  | nil => rfl
  | cons tree later inductionHypothesis =>
      rw [Tree.outlineAllAt, inductionHypothesis, List.map_cons, List.flatMap_cons]

def outlining : Pass (Nat → List Tree.Entry) where
  run tree depth := tree.outlineAt depth
  body := outlineNode
  run_eq := by
    intro tree
    funext depth
    rw [Tree.outlineAt_eq, outlineAllAt_eq, outlineNode]
  asksBelow := by
    intro first second tree agree
    funext depth
    rw [outlineNode, outlineNode, List.map_congr_left agree]

/-! ## Declaring -/

/-- The two results of the declaration pass on a tree: its type, and what is gathered there. -/
structure Declaring where
  infer : Nat → Scopes → Except DepthExceeded DataType
  declare : Nat → Declarations → Except Interruption Declarations

/-- Infers the type of a node. -/
def inferNode (limit : Nat) (ask : Tree → Declaring) (tree : Tree) (depth : Nat)
    (scopes : Scopes) : Except DepthExceeded DataType :=
  if limit < depth then .error ⟨limit, tree.position⟩
  else
    match tree with
    | .identifier name _ => .ok (((scopes.lookup? name).map Symbol.type).getD .undefined)
    | .number literal _ => .ok (.ofNumber literal)
    | .unary operator operand _ | .binary operator operand _ _ =>
      match OperatorClass.of? operator with
      | some operatorClass => ((ask operand).infer depth scopes).map operatorClass.resultType
      | none => .ok .undefined
    | .call name _ _ =>
      .ok (((KnownFunction.ofName? name).map KnownFunction.returnType).getD .undefined)
    | .assignment _ value _ => (ask value).infer depth scopes

/-- Declares the target of an assignment, if it is a name. -/
def declareTargetNode (ask : Tree → Declaring) (target value : Tree) (depth : Nat)
    (gathered : Declarations) : Except Interruption Declarations :=
  match target with
  | .identifier name note =>
    match (ask value).infer depth gathered.scopes with
    | .ok type => .ok (gathered.add name type note.position)
    | .error reason => .error ⟨reason, gathered⟩
  | _ => .ok gathered

/-- Declares the target of a node, and then those of the trees below it. -/
def declareNode (limit : Nat) (ask : Tree → Declaring) (tree : Tree) (depth : Nat)
    (gathered : Declarations) : Except Interruption Declarations :=
  if limit < depth then .error ⟨⟨limit, tree.position⟩, gathered⟩
  else
    match tree with
    | .identifier .. | .number .. => .ok gathered
    | .unary _ operand _ => (ask operand).declare depth gathered
    | .binary _ left right _ => do
      let gathered ← (ask left).declare depth gathered
      (ask right).declare depth gathered
    | .call _ arguments _ =>
      (arguments.map ask).foldlM (fun gathered asked => asked.declare (depth + 1) gathered) gathered
    | .assignment target value _ => do
      let gathered ← declareTargetNode ask target value depth gathered
      let gathered ← (ask target).declare depth gathered
      (ask value).declare depth gathered

/-- What the declaration pass does on a whole tree. -/
def declaringOf (limit : Nat) (tree : Tree) : Declaring where
  infer depth scopes := tree.inferType limit depth scopes
  declare depth gathered := tree.declare limit depth gathered

theorem declareAll_eq (limit depth : Nat) (trees : List Tree) (gathered : Declarations) :
    Tree.declareAll limit depth trees gathered =
      (trees.map (declaringOf limit)).foldlM (fun gathered asked => asked.declare depth gathered)
        gathered := by
  induction trees generalizing gathered with
  | nil => rfl
  | cons tree later inductionHypothesis =>
      rw [Tree.declareAll, List.map_cons, List.foldlM_cons]
      exact congrArg _ (funext inductionHypothesis)

theorem inferType_eq (limit depth : Nat) (scopes : Scopes) (tree : Tree) :
    tree.inferType limit depth scopes =
      inferNode limit (declaringOf limit) tree depth scopes := by
  cases tree <;> rfl

theorem declare_eq (limit depth : Nat) (gathered : Declarations) (tree : Tree) :
    tree.declare limit depth gathered =
      declareNode limit (declaringOf limit) tree depth gathered := by
  cases tree with
  | call name arguments note => rw [Tree.declare, declareNode, declareAll_eq]
  | _ => rfl

theorem inferNode_congr (limit depth : Nat) (scopes : Scopes) {first second : Tree → Declaring}
    {tree : Tree} (agree : AgreeBelow first second tree) :
    inferNode limit first tree depth scopes = inferNode limit second tree depth scopes := by
  cases tree with
  | identifier name note => rfl
  | number literal note => rfl
  | unary operator operand note => simp only [inferNode, agree.unary]
  | binary operator left right note => simp only [inferNode, agree.binary]
  | call name arguments note => rfl
  | assignment target value note => simp only [inferNode, agree.assignment]

theorem declareNode_congr (limit depth : Nat) (gathered : Declarations)
    {first second : Tree → Declaring} {tree : Tree} (agree : AgreeBelow first second tree) :
    declareNode limit first tree depth gathered = declareNode limit second tree depth gathered := by
  cases tree with
  | identifier name note => rfl
  | number literal note => rfl
  | unary operator operand note => simp only [declareNode, agree.unary]
  | binary operator left right note => simp only [declareNode, agree.binary]
  | call name arguments note => simp only [declareNode, agree.call]
  | assignment target value note =>
      simp only [declareNode, declareTargetNode, agree.assignment]

def declaring (limit : Nat) : Pass Declaring where
  run := declaringOf limit
  body ask tree := ⟨inferNode limit ask tree, declareNode limit ask tree⟩
  run_eq := by
    intro tree
    rw [declaringOf]
    congr 1
    · funext depth scopes
      exact inferType_eq limit depth scopes tree
    · funext depth gathered
      exact declare_eq limit depth gathered tree
  asksBelow := by
    intro first second tree agree
    congr 1
    · funext depth scopes
      exact inferNode_congr limit depth scopes agree
    · funext depth gathered
      exact declareNode_congr limit depth gathered agree

/-! ## Verifying -/

/-- Verifies the arguments of a call one after the other. -/
def verifyArguments (depth : Nat) :
    List (Position × (Nat → Scopes → Except DepthExceeded Verified)) → Scopes →
      Except DepthExceeded VerifiedArguments
  | [], scopes => .ok ⟨[], [], scopes, []⟩
  | (position, asked) :: later, scopes => do
    let verified ← asked depth scopes
    let rest ← verifyArguments depth later verified.scopes
    .ok
      { trees := verified.tree :: rest.trees
        arguments := ⟨position, verified.type⟩ :: rest.arguments
        scopes := rest.scopes
        diagnostics := verified.diagnostics ++ rest.diagnostics }

/-- Verifies a node behind the trees below it. -/
def verifyNode (limit : Nat) (ask : Tree → Nat → Scopes → Except DepthExceeded Verified)
    (tree : Tree) (depth : Nat) (scopes : Scopes) : Except DepthExceeded Verified :=
  if limit < depth then .error ⟨limit, tree.position⟩
  else
    match tree with
    | .identifier name note => .ok (Tree.verifyIdentifier name note scopes)
    | .number literal note =>
      let judgement := Judgement.ofNumber literal note.position
      .ok
        { tree := .number literal ⟨note.position, some judgement.type⟩
          type := judgement.type
          scopes := scopes
          diagnostics := judgement.findings }
    | .unary operator operand note => do
      let operand ← ask operand depth scopes
      let judgement := Judgement.ofOperation operator note.position operand.type none
      .ok
        { tree := .unary operator operand.tree ⟨note.position, some judgement.type⟩
          type := judgement.type
          scopes := operand.scopes
          diagnostics := operand.diagnostics ++ judgement.findings }
    | .binary operator left right note => do
      let left ← ask left depth scopes
      let right ← ask right depth left.scopes
      let judgement := Judgement.ofOperation operator note.position left.type (some right.type)
      .ok
        { tree := .binary operator left.tree right.tree ⟨note.position, some judgement.type⟩
          type := judgement.type
          scopes := right.scopes
          diagnostics := left.diagnostics ++ right.diagnostics ++ judgement.findings }
    | .call name arguments note => do
      let asked := (arguments.map Tree.position).zip (arguments.map ask)
      let verified ← verifyArguments (depth + 1) asked scopes
      let judgement := Judgement.ofCall name note.position verified.arguments
      .ok
        { tree := .call name verified.trees ⟨note.position, some judgement.type⟩
          type := judgement.type
          scopes := verified.scopes
          diagnostics := verified.diagnostics ++ judgement.findings }
    | .assignment target value note => do
      let value ← ask value depth scopes
      match target with
      | .identifier name targetNote => .ok (Tree.verifyNamedTarget name targetNote note value)
      | other =>
        let invalid := Judgement.invalidTarget other.kindName note.position
        let target ← ask other depth value.scopes
        .ok
          { tree := .assignment target.tree value.tree ⟨note.position, some .undefined⟩
            type := .undefined
            scopes := target.scopes
            diagnostics := value.diagnostics ++ invalid :: target.diagnostics }

/-- What the verification pass does on a whole tree. -/
def verifyingOf (limit : Nat) (tree : Tree) (depth : Nat) (scopes : Scopes) :
    Except DepthExceeded Verified :=
  tree.verify limit depth scopes

theorem verifyAll_eq (limit depth : Nat) (trees : List Tree) (scopes : Scopes) :
    Tree.verifyAll limit depth trees scopes =
      verifyArguments depth ((trees.map Tree.position).zip (trees.map (verifyingOf limit)))
        scopes := by
  induction trees generalizing scopes with
  | nil => rfl
  | cons tree later inductionHypothesis =>
      simp only [Tree.verifyAll, List.map_cons, List.zip_cons_cons, verifyArguments,
        inductionHypothesis, verifyingOf]

def verifying (limit : Nat) : Pass (Nat → Scopes → Except DepthExceeded Verified) where
  run := verifyingOf limit
  body := verifyNode limit
  run_eq := by
    intro tree
    funext depth scopes
    cases tree with
    | call name arguments note =>
        simp only [verifyingOf, Tree.verify, verifyAll_eq, verifyNode]
    | assignment target value note =>
        -- Only a target that is no name is verified.
        cases target <;> rfl
    | _ => rfl
  asksBelow := by
    intro first second tree agree
    funext depth scopes
    cases tree with
    | identifier name note => rfl
    | number literal note => rfl
    | unary operator operand note => simp only [verifyNode, agree.unary]
    | binary operator left right note => simp only [verifyNode, agree.binary]
    | call name arguments note => simp only [verifyNode, agree.call]
    | assignment target value note =>
        cases target <;> simp only [verifyNode, agree.assignment]

end Pass

/-! ## Trees that were read -/

namespace Tree

/-- The limits bound the operators of a tree that was read, the calls on every path and with them
its height, which is the length of a longest path, however many tokens there were, and no pass goes
deeper than that. -/
theorem height_le_of_ofTokens {limits : Limits} {tokens : List Token} {tree : Tree}
    (success : ofTokens limits tokens = .ok tree) :
    tree.operatorCount ≤ limits.operators ∧
      (∀ nodes, tree.IsPath nodes → nodes.countP isCall ≤ limits.depth ∧
        nodes.length ≤ limits.operators + limits.depth + 2) ∧
      (∀ node ∈ tree.preorder.tail, ¬ node.IsAssignment) ∧
      IsGreatest {length | ∃ nodes, tree.IsPath nodes ∧ nodes.length = length} tree.height ∧
      tree.height ≤ limits.operators + limits.depth + 2 ∧
      (∀ beyond, Pass.rendering.body^[limits.operators + limits.depth + 2] beyond tree =
        tree.render) ∧
      (∀ beyond, Pass.outlining.body^[limits.operators + limits.depth + 2] beyond tree =
        fun depth => tree.outlineAt depth) ∧
      ∀ limit,
        (∀ beyond, (Pass.declaring limit).body^[limits.operators + limits.depth + 2] beyond tree =
          ⟨fun depth scopes => tree.inferType limit depth scopes,
            fun depth gathered => tree.declare limit depth gathered⟩) ∧
        (∀ beyond, (Pass.verifying limit).body^[limits.operators + limits.depth + 2] beyond tree =
          fun depth scopes => tree.verify limit depth scopes) := by
  rcases exists_statement_of_ofTokens success with ⟨statement, rest, -, -, keeps, rfl⟩
  have few := keeps.few
  have shallow := keeps.shallow
  have high := statement.height_tree_le
  have reaches : statement.tree.height ≤ limits.operators + limits.depth + 2 := by omega
  have highest := statement.tree.isGreatest_height
  refine ⟨?_, ?_, statement.not_isAssignment_below, highest, reaches, ?_, ?_, ?_⟩
  · rw [statement.operatorCount_tree]
    exact few
  · intro nodes path
    exact ⟨Nat.le_trans (statement.countP_isCall_le path) shallow,
      Nat.le_trans (highest.2 ⟨nodes, path, rfl⟩) reaches⟩
  · intro beyond
    exact Pass.rendering.iterate_body beyond reaches
  · intro beyond
    exact Pass.outlining.iterate_body beyond reaches
  · intro limit
    exact ⟨fun beyond => (Pass.declaring limit).iterate_body beyond reaches,
      fun beyond => (Pass.verifying limit).iterate_body beyond reaches⟩

/-- An assignment of a call with an operator in its argument is as high as the limits let it be. -/
theorem height_le_of_ofTokens_reached : ∃ tree,
    ofTokens ⟨1, 1⟩ [⟨.name, "y", ⟨1, 1⟩⟩, ⟨.assign, "=", ⟨1, 3⟩⟩, ⟨.name, "f", ⟨1, 5⟩⟩,
        ⟨.openParenthesis, "(", ⟨1, 6⟩⟩, ⟨.name, "a", ⟨1, 7⟩⟩, ⟨.arithmetic, "+", ⟨1, 9⟩⟩,
        ⟨.name, "b", ⟨1, 11⟩⟩, ⟨.closeParenthesis, ")", ⟨1, 12⟩⟩] = .ok tree ∧
      tree.height = 4 ∧ (∀ nodes, tree.IsPath nodes → nodes.length ≤ 4) ∧
      ∀ beyond, Pass.rendering.body^[4] beyond tree = "y = f(a + b)" := by
  have success : ofTokens ⟨1, 1⟩ [⟨.name, "y", ⟨1, 1⟩⟩, ⟨.assign, "=", ⟨1, 3⟩⟩,
      ⟨.name, "f", ⟨1, 5⟩⟩, ⟨.openParenthesis, "(", ⟨1, 6⟩⟩, ⟨.name, "a", ⟨1, 7⟩⟩,
      ⟨.arithmetic, "+", ⟨1, 9⟩⟩, ⟨.name, "b", ⟨1, 11⟩⟩, ⟨.closeParenthesis, ")", ⟨1, 12⟩⟩] =
      .ok (.assignment (.identifier "y" ⟨⟨1, 1⟩, none⟩)
        (.call "f" [.binary .add (.identifier "a" ⟨⟨1, 7⟩, none⟩)
          (.identifier "b" ⟨⟨1, 11⟩, none⟩) ⟨⟨1, 9⟩, none⟩] ⟨⟨1, 5⟩, none⟩) ⟨⟨1, 3⟩, none⟩) := rfl
  rcases height_le_of_ofTokens success with ⟨-, paths, -, -, -, rendered, -⟩
  refine ⟨_, success, rfl, fun nodes path => (paths nodes path).2, ?_⟩
  intro beyond
  exact (rendered beyond).trans (by decide +kernel)

end Tree
end ExpressionChecker

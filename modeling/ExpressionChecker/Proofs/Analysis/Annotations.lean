import ExpressionChecker.Proofs.Analysis.Relabeling

namespace ExpressionChecker

/-!
# What is written down in a tree is never read

An analysis writes a type down at every node and reads none.  So a tree that has been analyzed
before, under whatever limits, is as good as a fresh one.  Both passes are functions of what the
tree is once the written types are forgotten, and forgetting them undoes all that an analysis does
to a tree.
-/

namespace Tree

/-! ## Nodes -/

variable (declared : String → Option DataType) (node : Tree)

theorem annotated_untyped :
    (node.relabeled .untyped).annotated declared = node.annotated declared :=
  (annotated_relabeled (fun _ => rfl) node).trans (relabeled_id _)

mutual

/-- Forgetting the types undoes what has been written down. -/
theorem untyped_annotated (tree : Tree) :
    (tree.annotated declared).relabeled .untyped = tree.relabeled .untyped := by
  cases tree with
  | identifier name note => rfl
  | number literal note => rfl
  | unary operator operand note =>
      have below := untyped_annotated operand
      simp only [annotated, relabeled, below]
      rfl
  | binary operator left right note =>
      have inLeft := untyped_annotated left
      have inRight := untyped_annotated right
      simp only [annotated, relabeled, inLeft, inRight]
      rfl
  | call name arguments note =>
      have below := untypedAll_annotatedAll arguments
      simp only [annotated, relabeled, below]
      rfl
  | assignment target value note =>
      have inTarget := untyped_annotated target
      have inValue := untyped_annotated value
      simp only [annotated, relabeled, inTarget, inValue]
      rfl

theorem untypedAll_annotatedAll (trees : List Tree) :
    relabeledAll .untyped (annotatedAll declared trees) = relabeledAll .untyped trees := by
  cases trees with
  | nil => rfl
  | cons tree later =>
      have first := untyped_annotated tree
      have others := untypedAll_annotatedAll later
      simp only [annotatedAll, relabeledAll, first, others]

end

theorem settledType_untyped :
    (node.relabeled .untyped).settledType declared = node.settledType declared :=
  settledType_relabeled (fun _ => rfl) node

theorem ownFindings_untyped :
    (node.relabeled .untyped).ownFindings declared = node.ownFindings declared := by
  have type := settledType_untyped declared
  cases node with
  | identifier name note => rfl
  | number literal note => rfl
  | unary operator operand note =>
      simp only [relabeled, ownFindings, type]
      rfl
  | binary operator left right note =>
      simp only [relabeled, ownFindings, type]
      rfl
  | call name arguments note =>
      simp only [relabeled, ownFindings, relabeledAll_eq_map, List.map_map, Function.comp_def, type,
        position_relabeled]
      rfl
  | assignment target value note =>
      cases target with
      | identifier name note' =>
          simp only [relabeled, ownFindings, type]
          rfl
      | _ => rfl

end Tree

theorem Declarations.behind_untyped (gathered : Declarations) (node : Tree) :
    gathered.behind (node.relabeled .untyped) = gathered.behind node := by
  cases node with
  | assignment target value note =>
      cases target with
      | identifier name note' =>
          have type : (value.relabeled .untyped).impliedType gathered.scopes.typeOf =
              value.impliedType gathered.scopes.typeOf :=
            Tree.impliedType_relabeled (fun _ => rfl) value
          simp only [Tree.relabeled, behind, type]
          rfl
      | _ => rfl
  | _ => rfl

theorem Scopes.behind_untyped (scopes : Scopes) (node : Tree) :
    scopes.behind (node.relabeled .untyped) = scopes.behind node := by
  cases node with
  | assignment target value note => cases target <;> rfl
  | _ => rfl

/-! ## Passes -/

theorem Declarations.foldl_untyped (gathered : Declarations) (nodes : List Tree) :
    (nodes.map (Tree.relabeled .untyped)).foldl behind gathered = nodes.foldl behind gathered := by
  rw [List.foldl_map]
  simp only [behind_untyped]

theorem Tree.declareVisits_untyped (limit : Nat) (visits : List Visit) (gathered : Declarations) :
    declareVisits limit (visits.map (Visit.relabeled .untyped)) gathered =
      declareVisits limit visits gathered := by
  induction visits generalizing gathered with
  | nil => rfl
  | cons visit later inductionHypothesis =>
      simp only [List.map_cons, declareVisits, Visit.relabeled, position_relabeled,
        Declarations.behind_untyped, inductionHypothesis]
      rfl

theorem Tree.declare_untyped (limit : Nat) (tree : Tree) (gathered : Declarations) :
    (tree.relabeled .untyped).declare limit 0 gathered = tree.declare limit 0 gathered := by
  rw [declare_eq_declareVisits, declare_eq_declareVisits, visitsBelow_relabeled,
    declareVisits_untyped]

theorem Tree.verifiedIn_untyped (scopes : Scopes) (tree : Tree) :
    (tree.relabeled .untyped).verifiedIn scopes = tree.verifiedIn scopes := by
  simp only [verifiedIn, annotated_untyped, settledType_untyped, evaluation_relabeled,
    List.foldl_map, Scopes.behind_untyped, List.flatMap_map, ownFindings_untyped]

/-- The passes come equally far and find the same, whatever is written down in the tree. -/
theorem Passes.run_untyped (limits : Limits) (tree : Tree) :
    run limits (tree.relabeled .untyped) = run limits tree := by
  rcases tree.within_or_first_deep limits.depth with
    within | ⟨before, deep, later, visits, within, tooDeep⟩
  · have within' : ∀ visit ∈ (tree.relabeled .untyped).visits, visit.calls ≤ limits.depth := by
      rw [Tree.visits_relabeled]
      exact List.forall_mem_map.mpr within
    simp only [run_eq_of_within within, run_eq_of_within within', Tree.preorder_relabeled,
      Declarations.foldl_untyped, Tree.verifiedIn_untyped]
  · rw [run, run, Tree.declare_untyped, Tree.declare_of_deep visits within tooDeep]

/-! ## Analyses -/

namespace Analysis

/-- What an analysis tells besides the tree. -/
def result (analysis : Analysis) : Bool × List Diagnostic × Scopes :=
  (analysis.succeeded, analysis.diagnostics, analysis.scopes)

/-- The analyses of a tree under different limits, each of the tree that the one before left. -/
def inTurn : List Limits → Tree → List Analysis
  | [], _ => []
  | limits :: later, tree => ofTree limits tree :: inTurn later (ofTree limits tree).tree

variable {limits : Limits} {tree tree' : Tree}

theorem run_eq_of_untyped (same : tree.relabeled .untyped = tree'.relabeled .untyped) :
    Passes.run limits tree = Passes.run limits tree' := by
  rw [← Passes.run_untyped limits tree, same, Passes.run_untyped]

/-- An analysis depends on what is written down in the tree only in what it leaves there when it is
interrupted. -/
theorem result_eq_of_untyped (same : tree.relabeled .untyped = tree'.relabeled .untyped) :
    (ofTree limits tree).result = (ofTree limits tree').result := by
  rw [ofTree, ofTree, run_eq_of_untyped same]
  cases Passes.run limits tree' <;> rfl

theorem ofTree_eq_of_untyped (same : tree.relabeled .untyped = tree'.relabeled .untyped)
    (complete : .internalError ∉ (ofTree limits tree).codes) :
    ofTree limits tree = ofTree limits tree' := by
  have run := Passes.run_eq_of_within (within_of_complete complete)
  have run' := (run_eq_of_untyped same).symm.trans run
  rw [ofTree_of_run run, ofTree_of_run run']
  rfl

/-- An analysis changes nothing in a tree but what is written down there. -/
theorem untyped_ofTree (limits : Limits) (tree : Tree) :
    (ofTree limits tree).tree.relabeled .untyped = tree.relabeled .untyped := by
  rcases tree.within_or_first_deep limits.depth with
    within | ⟨before, deep, later, visits, within, tooDeep⟩
  · rw [ofTree_of_run (Passes.run_eq_of_within within)]
    exact tree.untyped_annotated _
  · rcases Passes.run_of_deep visits within tooDeep with ⟨gathered, symbols, run, gathers⟩
    rw [ofTree_of_run run]
    rfl

/-- In a series of analyses each tells what it would tell of a fresh tree, and leaves the tree that
it would leave then unless it is interrupted. -/
theorem inTurn_forall₂ (runs : List Limits)
    (same : tree'.relabeled .untyped = tree.relabeled .untyped) :
    List.Forall₂ (fun limits analysis => analysis.result = (ofTree limits tree).result ∧
      (.internalError ∉ analysis.codes → analysis = ofTree limits tree)) runs
      (inTurn runs tree') := by
  induction runs generalizing tree' with
  | nil => exact .nil
  | cons limits later inductionHypothesis =>
      refine .cons ⟨result_eq_of_untyped same, ofTree_eq_of_untyped same⟩ (inductionHypothesis ?_)
      exact (untyped_ofTree limits tree').trans same

theorem ofTree_again (limits : Limits) (tree : Tree) :
    ofTree limits (ofTree limits tree).tree = ofTree limits tree := by
  by_cases complete : .internalError ∈ (ofTree limits tree).codes
  · rcases Tree.exists_first_deep (internalError_mem_codes_iff.mp complete) with
      ⟨before, deep, later, visits, within, tooDeep⟩
    rcases Passes.run_of_deep visits within tooDeep with ⟨gathered, symbols, run, gathers⟩
    rw [ofTree_of_run run]
    exact ofTree_of_run run
  · exact (ofTree_eq_of_untyped (untyped_ofTree limits tree).symm complete).symm

/-- What is written down in a tree has no part in its analysis.  Trees that differ in nothing else
have the same verdict, findings and symbols, and unless the analysis is interrupted the types
written down are the same too.  Apart from them the tree stays as it was.  So in a series of
analyses of one tree each is what it would be of a fresh tree, and a second one under the same
limits changes nothing. -/
theorem independent_of_annotations (limits : Limits) (tree : Tree) :
    (∀ tree', tree.relabeled .untyped = tree'.relabeled .untyped →
      (ofTree limits tree).result = (ofTree limits tree').result ∧
      (.internalError ∉ (ofTree limits tree).codes →
        (ofTree limits tree).tree = (ofTree limits tree').tree)) ∧
    (ofTree limits tree).tree.relabeled .untyped = tree.relabeled .untyped ∧
    (∀ runs, List.Forall₂ (fun limits analysis => analysis.result = (ofTree limits tree).result ∧
      (.internalError ∉ analysis.codes → analysis = ofTree limits tree)) runs
      (inTurn runs tree)) ∧
    ofTree limits (ofTree limits tree).tree = ofTree limits tree := by
  refine ⟨?_, untyped_ofTree limits tree, fun runs => inTurn_forall₂ runs rfl,
    ofTree_again limits tree⟩
  intro tree' same
  exact ⟨result_eq_of_untyped same, fun complete => congrArg _ (ofTree_eq_of_untyped same complete)⟩

/-- The types that a complete analysis has written down are still there after an interrupted one,
which tells the same of the fresh tree. -/
theorem independent_of_annotations_mixed :
    Tree.mixed.relabeled .untyped = (ofTree ⟨2, 0⟩ .mixed).tree.relabeled .untyped ∧
      (ofTree ⟨2, 0⟩ .mixed).tree ≠ .mixed ∧
      (ofTree ⟨1, 0⟩ (ofTree ⟨2, 0⟩ .mixed).tree).tree = (ofTree ⟨2, 0⟩ .mixed).tree ∧
      (ofTree ⟨1, 0⟩ .mixed).result = (ofTree ⟨1, 0⟩ (ofTree ⟨2, 0⟩ .mixed).tree).result ∧
      (ofTree ⟨3, 0⟩ .mixed).tree = (ofTree ⟨3, 0⟩ (ofTree ⟨2, 0⟩ .mixed).tree).tree := by
  have same : Tree.mixed.relabeled .untyped =
      (ofTree ⟨2, 0⟩ .mixed).tree.relabeled .untyped := by
    decide +kernel
  have complete : .internalError ∉ (ofTree ⟨3, 0⟩ .mixed).codes := by decide +kernel
  exact ⟨same, by decide +kernel, by decide +kernel,
    ((independent_of_annotations ⟨1, 0⟩ .mixed).1 _ same).1,
    ((independent_of_annotations ⟨3, 0⟩ .mixed).1 _ same).2 complete⟩

end Analysis
end ExpressionChecker

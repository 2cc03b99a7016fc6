import ExpressionChecker.Proofs.Analysis.DeclaredTypes
import ExpressionChecker.Proofs.Limits

namespace ExpressionChecker

/-!
# Types in a statement that was read

Nothing is assigned to inside the statement of a text, so there both passes type its expression by
one rule.  The declaration pass knows no name at all, and the verification pass knows the target, but
by no other type than the one that the first pass has found.  If the expression takes its type from
the target itself that type is unknown, and stays so.  Numbers and known functions are the only
source of other types, which is why no type but that of a number ever occurs.
-/

open OperatorClass (arithmetic)

theorem OperatorClass.accepts_arithmetic_iff {type : DataType} :
    arithmetic.accepts type = true ↔ type ∈ [.integer, .decimal, .undefined] := by
  cases type <;> simp [accepts]

namespace Tree

/-! ## Expressions -/

/-- Both passes type an expression by one rule. -/
theorem IsExpression.settledType_eq {tree : Tree} (isExpression : tree.IsExpression)
    (declared : String → Option DataType) :
    tree.settledType declared = tree.impliedType fun name => (declared name).getD .undefined := by
  induction isExpression with
  | identifier free => rfl
  | number spelt => rfl
  | @binary operator left right note joins isLeft isRight leftHypothesis rightHypothesis =>
      exact congrArg (OperatorClass.operationType operator) leftHypothesis
  | call free isArgument inductionHypothesis => rfl

/-- The nodes of an expression are expressions. -/
theorem IsExpression.visitsBelow {tree : Tree} (isExpression : tree.IsExpression) (calls : Nat) :
    ∀ visit ∈ tree.visitsBelow calls, visit.node.IsExpression := by
  induction isExpression generalizing calls with
  | identifier free => exact List.forall_mem_singleton.mpr (.identifier free)
  | number spelt => exact List.forall_mem_singleton.mpr (.number spelt)
  | binary joins isLeft isRight leftHypothesis rightHypothesis =>
      rw [Tree.visitsBelow, List.forall_mem_cons, List.forall_mem_append]
      exact ⟨.binary joins isLeft isRight, leftHypothesis calls, rightHypothesis calls⟩
  | call free isArgument inductionHypothesis =>
      rw [Tree.visitsBelow, List.forall_mem_cons, visitsBelowAll, visitsBelowAll, List.append_nil]
      exact ⟨.call free isArgument, inductionHypothesis (calls + 1)⟩

section Accepted

variable {declared : String → Option DataType}
  (accepted : ∀ name, arithmetic.accepts ((declared name).getD .undefined) = true)

include accepted

theorem IsExpression.settledType_accepted {tree : Tree} (isExpression : tree.IsExpression) :
    arithmetic.accepts (tree.settledType declared) = true := by
  rw [isExpression.settledType_eq]
  exact isExpression.impliedType_accepted accepted

/-- If every declared type is that of a number or unknown, then so is the type of every node. -/
theorem IsStatement.settledType_accepted {tree : Tree} (isStatement : tree.IsStatement) :
    ∀ node ∈ tree.preorder, arithmetic.accepts (node.settledType declared) = true := by
  have inExpression {tree : Tree} (isExpression : tree.IsExpression) :
      ∀ node ∈ tree.preorder, arithmetic.accepts (node.settledType declared) = true :=
    List.forall_mem_map.mpr fun visit visited =>
      (isExpression.visitsBelow 0 visit visited).settledType_accepted accepted
  cases isStatement with
  | expression isExpression => exact inExpression isExpression
  | @assignment name note note' value free isExpression =>
      have nodes : (Tree.assignment (.identifier name note) value note').preorder =
          .assignment (.identifier name note) value note' :: .identifier name note ::
            value.preorder := rfl
      rw [nodes, List.forall_mem_cons, List.forall_mem_cons]
      exact ⟨accepted name, accepted name, inExpression isExpression⟩

end Accepted

/-! ## The table -/

/-- The declaration pass over a statement declares its target, if it has one, with the type that the
value has without knowing any name. -/
theorem IsStatement.declared_accepted {limits : Limits} {tree : Tree}
    (isStatement : tree.IsStatement) (within : tree.callsAbove ≤ limits.depth)
    {gathered : Declarations} (declares : tree.declare limits.depth 0 .empty = .ok gathered) :
    ∀ name, arithmetic.accepts ((gathered.scopes.declaredType? name).getD .undefined) = true := by
  intro other
  cases isStatement with
  | expression isExpression =>
      rw [isExpression.declare_eq (by omega)] at declares
      cases declares
      exact congrArg (arithmetic.accepts ·) (congrFun Scopes.Holds.empty.typeOf_eq other)
  | @assignment name note note' value free isExpression =>
      simp only [callsAbove] at within
      rcases declare_assignment isExpression (show value.callsAbove ≤ limits.depth by omega)
        name note note' with ⟨scopes, declares', holds⟩
      rw [declares'] at declares
      cases declares
      have accepted := isExpression.typeIn_accepted name note other
      rw [← holds.typeOf_eq] at accepted
      exact accepted

/-- The target of an assignment is declared with a type, and with the target declared so its value
has that type. -/
theorem IsExpression.declaredType?_target {limit : Nat} {value : Tree}
    (isExpression : value.IsExpression) (within : value.callsAbove ≤ limit) (name : String)
    (note note' : Note) {gathered : Declarations}
    (declares : declare limit 0 (.assignment (.identifier name note) value note') .empty =
      .ok gathered) :
    gathered.scopes.declaredType? name =
      some (value.settledType gathered.scopes.declaredType?) := by
  rcases declare_assignment isExpression within name note note' with ⟨scopes, declares', holds⟩
  rw [declares'] at declares
  cases declares
  have typeOf := holds.typeOf_eq
  have type := isExpression.impliedType_declared name note
  rw [← typeOf] at type
  have named : decide ((targetSymbol name note value).name = name) = true := decide_eq_true rfl
  have found := holds.lookup?_eq name
  rw [List.find?_singleton, if_pos named] at found
  rw [isExpression.settledType_eq, Scopes.declaredType?, found, Option.map_some]
  exact congrArg some type.symm

end Tree

/-! ## Texts -/

theorem Outcome.eq_analyzed {outcome : Outcome} {analysis : Analysis}
    (isAnalysis : outcome.analysis? = some analysis) : outcome = .analyzed analysis := by
  cases outcome with
  | rejected rejection => cases isAnalysis
  | analyzed other => exact congrArg Outcome.analyzed (Option.some.inj isAnalysis)

namespace Report

/-- In a statement that assigns to a name, four types are the same: the one that the declaration pass
gives the name, and those that the verification pass writes down at the assignment, at its target and
at its value.  That holds also where the value reads the name itself.  No node of any statement has
another type than that of a number or the unknown one. -/
theorem assignment_typed_alike {limits : Limits} {text : String} {analysis : Analysis}
    (analyzed : (Report.ofText limits text).outcome = .analyzed analysis) :
    ∃ tree gathered verified, Tree.ofTokens limits (Token.stream text) = .ok tree ∧
      Passes.run limits tree = .complete gathered verified ∧
      analysis = .ofPasses tree (.complete gathered verified) ∧
      (∀ target value note, tree = .assignment target value note →
        ∃ name targetNote type typedValue, target = .identifier name targetNote ∧
          gathered.scopes.declaredType? name = some type ∧
          analysis.tree = .assignment (.identifier name ⟨targetNote.position, some type⟩) typedValue
            ⟨note.position, some type⟩ ∧
          typedValue.inferred = some type) ∧
      ∀ node ∈ analysis.tree.preorder, ∃ type ∈ [.integer, .decimal, .undefined],
        node.inferred = some type := by
  simp only [ofText, Outcome.ofTokens] at analyzed
  split at analyzed
  · rename_i tree read
    cases analyzed
    have image := Tree.isStatement_of_ofTokens read
    have within := Analysis.within_of_complete (Analysis.complete_of_ofTokens read)
    have run := Passes.run_eq_of_within within
    have declares := Tree.declare_of_within within .empty
    refine ⟨tree, _, _, read, run, Analysis.ofTree_of_run run, ?_, ?_⟩
    · rintro target value note rfl
      cases image.1 with
      | expression isExpression => cases isExpression
      | @assignment name targetNote _ _ free isExpression =>
          have shallow : value.callsAbove ≤ limits.depth := by
            have whole := image.2
            simp only [Tree.callsAbove] at whole
            omega
          have declared := isExpression.declaredType?_target shallow name targetNote note declares
          refine ⟨name, targetNote, _, _, rfl, declared, ?_, Tree.inferred_annotated _ value⟩
          rw [Analysis.ofTree_of_run run]
          simp only [Analysis.ofPasses, Tree.verifiedIn, Tree.annotated, Tree.settledType, declared,
            Option.getD_some]
    · have accepted := image.1.declared_accepted image.2 declares
      rw [Analysis.ofTree_of_run run]
      intro node visited
      simp only [Analysis.ofPasses, Tree.verifiedIn, Tree.preorder, Tree.visits,
        Tree.visitsBelow_annotated, List.mem_map] at visited
      rcases visited with ⟨visit, visited, rfl⟩
      have typed := image.1.settledType_accepted accepted visit.node
        (List.mem_map_of_mem visited)
      exact ⟨_, OperatorClass.accepts_arithmetic_iff.mp typed, Tree.inferred_annotated _ _⟩
  · cases analyzed

/-- The statement reads its target and an undeclared name, and calls an unknown function. -/
theorem assignment_typed_alike_selfReference : ∃ analysis,
    (Report.ofText ⟨1, 2⟩ "x = 2.5 - f(x) * y").outcome = .analyzed analysis ∧
      analysis.tree.inferred = some .decimal ∧
      ∃ tree gathered verified,
        Tree.ofTokens ⟨1, 2⟩ (Token.stream "x = 2.5 - f(x) * y") = .ok tree ∧
        Passes.run ⟨1, 2⟩ tree = .complete gathered verified ∧
        ∀ node ∈ analysis.tree.preorder, ∃ type ∈ [.integer, .decimal, .undefined],
          node.inferred = some type := by
  have typed : (Report.ofText ⟨1, 2⟩ "x = 2.5 - f(x) * y").outcome.analysis?.map
      (·.tree.inferred) = some (some .decimal) := by
    decide +kernel
  rcases Option.map_eq_some_iff.mp typed with ⟨analysis, isAnalysis, isTyped⟩
  have analyzed := Outcome.eq_analyzed isAnalysis
  rcases assignment_typed_alike analyzed with ⟨tree, gathered, verified, read, run, _, _, nodes⟩
  exact ⟨analysis, analyzed, isTyped, tree, gathered, verified, read, run, nodes⟩

end Report
end ExpressionChecker

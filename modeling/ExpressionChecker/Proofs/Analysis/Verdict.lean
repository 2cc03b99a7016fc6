import ExpressionChecker.Proofs.Analysis.Expression
import ExpressionChecker.Proofs.Grammar.Image
import ExpressionChecker.Report

namespace ExpressionChecker

/-!
# The verdict on a text

What an analysis finds in the statement of a text can be told from the syntax tree alone.  The only
name that can be declared is the target of the statement, so every other name is found wrong where
it is read.  A call is found wrong for its name only.  The target is warned of if nothing reads it.
Nothing else is ever found: the type of the target is the one that its value turns out to have, and
parentheses that are not nested too deep for the tree to be read do not interrupt a pass either.
-/

namespace Tree

/-! ## What can be found -/

/-- The name that a statement assigns to, with its position. -/
def target? : Tree → Option (String × Position)
  | assignment (identifier name note) _ _ => some (name, note.position)
  | _ => none

/-- The expression that a statement evaluates. -/
def evaluated : Tree → Tree
  | assignment (identifier _ _) value _ => value
  | tree => tree

/-- The names that are declared where a statement is evaluated. -/
def declaredNames (tree : Tree) : List String :=
  (tree.target?.map Prod.fst).toList

/-- The warning about a target that is not read. -/
def unusedTarget (tree : Tree) : List Diagnostic :=
  match tree.target? with
  | some (name, position) =>
    if name ∈ tree.evaluated.reads then []
    else
      [.report .unusedVariable position s!"Variable '{name}' is declared but never used"]
  | none => []

/-- All that is found in a statement: what is wrong with the nodes of its expression, from the
operands up, and the warning about its target. -/
def verdict (tree : Tree) : List Diagnostic :=
  tree.evaluated.postorder.flatMap (nodeFindings tree.declaredNames) ++ tree.unusedTarget

theorem IsExpression.target?_eq_none {tree : Tree} (isExpression : tree.IsExpression) :
    tree.target? = none := by
  cases isExpression <;> rfl

theorem IsExpression.evaluated_eq {tree : Tree} (isExpression : tree.IsExpression) :
    tree.evaluated = tree := by
  cases isExpression <;> rfl

end Tree

/-! ## The passes over a statement -/

theorem Analysis.diagnostics_of_complete {limits : Limits} {tree : Tree} {declared : Declarations}
    {verified : Verified} (declares : tree.declare limits.depth 0 .empty = .ok declared)
    (verifies : tree.verify limits.depth 0 declared.scopes = .ok verified) :
    (Analysis.ofTree limits tree).diagnostics =
      declared.diagnostics ++ verified.diagnostics ++ verified.scopes.unusedWarnings := by
  simp only [ofTree, Passes.run, declares, verifies, ofPasses]

theorem Scopes.Holds.unusedWarnings_eq {scopes : Scopes} {symbols : List Symbol}
    (holds : scopes.Holds symbols) :
    scopes.unusedWarnings = (symbols.filter (!·.used)).map fun symbol =>
      .report .unusedVariable symbol.position
        s!"Variable '{symbol.name}' is declared but never used" := by
  rw [unusedWarnings, holds.symbols_eq]

theorem Scopes.Holds.unusedWarnings_single {scopes : Scopes} {symbol : Symbol}
    (holds : scopes.Holds [symbol]) :
    scopes.unusedWarnings = if symbol.used then [] else
      [.report .unusedVariable symbol.position
        s!"Variable '{symbol.name}' is declared but never used"] := by
  rw [holds.unusedWarnings_eq]
  cases used : symbol.used with
  | false => simp only [List.filter, used, Bool.not_false, List.map, Bool.false_eq_true, if_false]
  | true => simp only [List.filter, used, Bool.not_true, List.map, if_true]

namespace Tree

theorem typeIn_nil : typeIn [] = fun _ => .undefined := by
  funext name
  rfl

theorem IsExpression.diagnostics_eq {limits : Limits} {tree : Tree}
    (isExpression : tree.IsExpression) (within : tree.callsAbove ≤ limits.depth) :
    (Analysis.ofTree limits tree).diagnostics = tree.verdict := by
  have within' : 0 + tree.callsAbove ≤ limits.depth := by omega
  have declares := isExpression.declare_eq within' .empty
  rcases isExpression.exists_verifiedIn within' Scopes.Holds.empty
    (fun name => by rw [typeIn_nil]; rfl) with ⟨verified, verifies, isVerified⟩
  rw [Analysis.diagnostics_of_complete declares verifies, isVerified.diagnostics,
    isVerified.holds.unusedWarnings_eq]
  simp only [verdict, unusedTarget, declaredNames, isExpression.target?_eq_none,
    isExpression.evaluated_eq]
  rfl

/-- The symbol of the target of an assignment, when it has just been declared. -/
def targetSymbol (name : String) (note : Note) (value : Tree) : Symbol :=
  ⟨name, value.impliedType (typeIn []), note.position, false, false⟩

/-- The type of a value does not depend on whether the target is declared with it already. -/
theorem IsExpression.impliedType_declared {value : Tree} (isExpression : value.IsExpression)
    (name : String) (note : Note) :
    value.impliedType (typeIn [targetSymbol name note value]) =
      (targetSymbol name note value).type := by
  rcases isExpression.impliedType_leftmost with ⟨leftmost, isName⟩ | ⟨type, _, isType⟩
  · have unknown : (targetSymbol name note value).type = .undefined := isName _
    rw [isName, typeIn, List.find?_singleton]
    split
    · rfl
    · rw [unknown]
      rfl
  · rw [isType, targetSymbol, isType]

/-- With the target declared, every name may be an operand. -/
theorem IsExpression.typeIn_accepted {value : Tree} (isExpression : value.IsExpression)
    (name : String) (note : Note) (other : String) :
    OperatorClass.arithmetic.accepts (typeIn [targetSymbol name note value] other) = true := by
  have unknown : ∀ name, OperatorClass.arithmetic.accepts (typeIn [] name) = true := fun _ => rfl
  rw [typeIn, List.find?_singleton]
  split
  · exact isExpression.impliedType_accepted unknown
  · rfl

/-- An assignment declares its target with the type of its value, and nothing else. -/
theorem declare_assignment {limit : Nat} {value : Tree} (isExpression : value.IsExpression)
    (within : value.callsAbove ≤ limit) (name : String) (note note' : Note) :
    ∃ scopes, declare limit 0 (assignment (identifier name note) value note') .empty =
        .ok ⟨scopes, []⟩ ∧ scopes.Holds [targetSymbol name note value] := by
  have inferred := inferType_eq (Nat.zero_le limit) Scopes.empty value
  rw [Scopes.Holds.empty.typeOf_eq] at inferred
  rcases Scopes.Holds.empty.declare (fun symbol impossible => absurd impossible List.not_mem_nil)
    (value.impliedType (typeIn [])) note.position with ⟨scopes, declared, holds⟩
  refine ⟨scopes, ?_, holds⟩
  have added : declareTarget limit 0 (identifier name note) value .empty = .ok ⟨scopes, []⟩ := by
    simp only [declareTarget, Declarations.empty, inferred, Declarations.add, declared]
  have target : declare limit 0 (identifier name note) ⟨scopes, []⟩ = .ok ⟨scopes, []⟩ := by
    rw [declare, if_neg (Nat.not_lt_zero _)]
  have rest := isExpression.declare_eq (show 0 + value.callsAbove ≤ limit by omega) ⟨scopes, []⟩
  rw [declare, if_neg (Nat.not_lt_zero _)]
  simp only [added, target, rest, bind, Except.bind]

theorem verify_assignment {limit depth : Nat} (within : depth ≤ limit) {value : Tree}
    {scopes : Scopes} {value' : Verified} (verifies : value.verify limit depth scopes = .ok value')
    (name : String) (note note' : Note) :
    verify limit depth (assignment (identifier name note) value note') scopes =
      .ok (verifyNamedTarget name note note' value') := by
  rw [verify, if_neg (Nat.not_lt_of_le within)]
  simp only [verifies, bind, Except.bind]

section NamedTarget

variable {value : Verified} {symbol : Symbol}

/-- A value of the type of the target is not refused. -/
theorem verifyNamedTarget_diagnostics (holds : value.scopes.Holds [symbol])
    (typed : value.type = symbol.type) (note note' : Note) :
    (verifyNamedTarget symbol.name note note' value).diagnostics = value.diagnostics := by
  have found := holds.lookup?_eq symbol.name
  rw [List.find?_singleton, if_pos (decide_eq_true rfl)] at found
  have accepted : symbol.type.accepts value.type = true := by
    rw [typed]
    simp [DataType.accepts]
  simp only [verifyNamedTarget, found, Option.map_some, Judgement.ofAssignment, if_pos accepted,
    List.append_nil]

/-- Being assigned to is not being read. -/
theorem verifyNamedTarget_unusedWarnings (holds : value.scopes.Holds [symbol])
    (note note' : Note) :
    (verifyNamedTarget symbol.name note note' value).scopes.unusedWarnings =
      if symbol.used then [] else
        [.report .unusedVariable symbol.position
          s!"Variable '{symbol.name}' is declared but never used"] := by
  have after := holds.update symbol.name Symbol.asInitialized
  rw [List.map_singleton, Scope.changedNamed, if_pos rfl] at after
  exact after.unusedWarnings_single

end NamedTarget

/-- In an assignment, the names other than its target are found wrong, and the target is warned of
if it is not among the names. -/
theorem assignment_diagnostics_eq {limits : Limits} {name : String} {note note' : Note}
    {value : Tree} (isExpression : value.IsExpression) (within : value.callsAbove ≤ limits.depth) :
    (Analysis.ofTree limits (assignment (identifier name note) value note')).diagnostics =
      (assignment (identifier name note) value note').verdict := by
  rcases declare_assignment isExpression within name note note' with ⟨scopes, declares, declared⟩
  rcases isExpression.exists_verifiedIn (show 0 + value.callsAbove ≤ limits.depth by omega)
    declared (isExpression.typeIn_accepted name note) with ⟨value', verifies, isVerified⟩
  let symbol := (targetSymbol name note value).afterReading value.reads
  have named : symbol.name = name := Symbol.afterReading_name _ _
  have typed : value'.type = symbol.type := by
    rw [isVerified.type, isExpression.impliedType_declared]
    exact (Symbol.afterReading_type _ _).symm
  have holds : value'.scopes.Holds [symbol] := isVerified.holds
  have findings := verifyNamedTarget_diagnostics holds typed note note'
  have warnings := verifyNamedTarget_unusedWarnings holds note note'
  have position : symbol.position = note.position := Symbol.afterReading_position _ _
  have used : symbol.used = decide (name ∈ value.reads) := Symbol.afterReading_used _ _
  rw [named] at findings
  rw [named, position, used] at warnings
  rw [Analysis.diagnostics_of_complete declares
    (verify_assignment (Nat.zero_le _) verifies name note note'), findings, warnings,
    isVerified.diagnostics]
  simp only [verdict, unusedTarget, target?, evaluated, decide_eq_true_eq]
  rfl

/-- Everything that is found in a statement that can be rendered is in its verdict. -/
theorem IsStatement.diagnostics_eq {limits : Limits} {tree : Tree}
    (isStatement : tree.IsStatement) (within : tree.callsAbove ≤ limits.depth) :
    (Analysis.ofTree limits tree).diagnostics = tree.verdict := by
  cases isStatement with
  | expression isExpression => exact isExpression.diagnostics_eq within
  | assignment free isExpression =>
      simp only [callsAbove] at within
      exact assignment_diagnostics_eq isExpression (by omega)

/-! ## Codes -/

/-- The codes of what can be found. -/
def verdictCodes : List DiagnosticCode :=
  [.undeclaredVariable, .undefinedFunction, .wrongArgumentCount, .unusedVariable]

theorem nodeFindings_isError (declared : List String) (node : Tree) :
    ∀ diagnostic ∈ nodeFindings declared node,
      diagnostic.code ∈ verdictCodes ∧ diagnostic.isError = true := by
  intro diagnostic found
  cases node with
  | identifier name note =>
      by_cases known : name ∈ declared
      · rw [nodeFindings, if_pos known] at found
        cases found
      · rw [nodeFindings, if_neg known, List.mem_singleton] at found
        subst found
        exact ⟨by simp only [verdictCodes, Diagnostic.report]; decide, rfl⟩
  | call name arguments note =>
      by_cases fits : name = "sqrt" ∨ name = "print"
      · rw [nodeFindings, if_pos fits] at found
        cases found
      by_cases power : name = "pow"
      · rw [nodeFindings, if_neg fits, if_pos power, List.mem_singleton] at found
        subst found
        exact ⟨by simp only [verdictCodes, Diagnostic.report]; decide, rfl⟩
      · rw [nodeFindings, if_neg fits, if_neg power, List.mem_singleton] at found
        subst found
        exact ⟨by simp only [verdictCodes, Diagnostic.report]; decide, rfl⟩
  | _ => cases found

theorem nodeFindings_identifier_eq_nil_iff {declared : List String} {name : String} {note : Note} :
    nodeFindings declared (.identifier name note) = [] ↔ name ∈ declared := by
  by_cases known : name ∈ declared
  · simp only [nodeFindings, known, if_true]
  · simp only [nodeFindings, known, if_false, List.cons_ne_nil]

theorem nodeFindings_call_eq_nil_iff {declared : List String} {name : String}
    {arguments : List Tree} {note : Note} :
    nodeFindings declared (.call name arguments note) = [] ↔ name = "sqrt" ∨ name = "print" := by
  by_cases fits : name = "sqrt" ∨ name = "print"
  · simp only [nodeFindings, fits, if_true]
  by_cases power : name = "pow"
  · simp only [nodeFindings, fits, if_false, if_pos power, List.cons_ne_nil]
  · simp only [nodeFindings, fits, if_false, if_neg power, List.cons_ne_nil]

/-- The warning about the target is only a warning. -/
theorem unusedTarget_isError (tree : Tree) : ∀ diagnostic ∈ tree.unusedTarget,
    diagnostic.code ∈ verdictCodes ∧ diagnostic.isError = false := by
  intro diagnostic found
  unfold unusedTarget at found
  split at found
  · split at found
    · cases found
    · rw [List.mem_singleton] at found
      subst found
      exact ⟨by simp only [verdictCodes, Diagnostic.report]; decide, rfl⟩
  · cases found

theorem verdict_code (tree : Tree) :
    ∀ diagnostic ∈ tree.verdict, diagnostic.code ∈ verdictCodes := by
  intro diagnostic found
  rcases List.mem_append.mp found with ofNode | ofTarget
  · rcases List.mem_flatMap.mp ofNode with ⟨node, _, wrong⟩
    exact (nodeFindings_isError _ node diagnostic wrong).1
  · exact (unusedTarget_isError tree diagnostic ofTarget).1

/-- A verdict is free of errors if nothing is wrong with any node. -/
theorem anyError_verdict_eq_false_iff (tree : Tree) :
    Diagnostic.anyError tree.verdict = false ↔
      ∀ node ∈ tree.evaluated.postorder, nodeFindings tree.declaredNames node = [] := by
  rw [Diagnostic.anyError, List.any_eq_false]
  constructor
  · intro noError node isNode
    apply List.eq_nil_iff_forall_not_mem.mpr
    intro diagnostic wrong
    have found : diagnostic ∈ tree.verdict :=
      List.mem_append_left _ (List.mem_flatMap.mpr ⟨node, isNode, wrong⟩)
    exact noError diagnostic found (nodeFindings_isError _ node diagnostic wrong).2
  · intro fine diagnostic found
    rcases List.mem_append.mp found with ofNode | ofTarget
    · rcases List.mem_flatMap.mp ofNode with ⟨node, isNode, wrong⟩
      rw [fine node isNode] at wrong
      cases wrong
    · rw [(unusedTarget_isError tree diagnostic ofTarget).2]
      exact Bool.false_ne_true

theorem nodeFindings_eq_nil_iff (declared : List String) (nodes : List Tree) :
    (∀ node ∈ nodes, nodeFindings declared node = []) ↔
      (∀ name note, .identifier name note ∈ nodes → name ∈ declared) ∧
      ∀ name arguments note, .call name arguments note ∈ nodes →
        name = "sqrt" ∨ name = "print" := by
  constructor
  · intro fine
    constructor
    · intro name note isNode
      exact nodeFindings_identifier_eq_nil_iff.mp (fine _ isNode)
    · intro name arguments note isNode
      exact nodeFindings_call_eq_nil_iff.mp (fine _ isNode)
  · rintro ⟨names, calls⟩ node isNode
    cases node with
    | identifier name note => exact nodeFindings_identifier_eq_nil_iff.mpr (names name note isNode)
    | call name arguments note =>
        exact nodeFindings_call_eq_nil_iff.mpr (calls name arguments note isNode)
    | _ => rfl

end Tree

/-! ## Texts -/

namespace Report

/-- Whatever the limits, an analyzed text holds a statement, and what is found in it is the verdict
on its tree: a pass is never interrupted, and no other code occurs.  The analysis succeeds exactly
if no name but the target is read and no function but `sqrt` and `print` is called. -/
theorem analyzed_verdict {limits : Limits} {text : String} {analysis : Analysis}
    (analyzed : (Report.ofText limits text).outcome = .analyzed analysis) :
    ∃ tree, Tree.ofTokens limits (Token.stream text) = .ok tree ∧ tree.IsStatement ∧
      analysis.diagnostics = tree.verdict ∧
      (∀ diagnostic ∈ analysis.diagnostics, diagnostic.code ∈
        [.undeclaredVariable, .undefinedFunction, .wrongArgumentCount, .unusedVariable]) ∧
      (analysis.succeeded = true ↔
        (∀ name note, .identifier name note ∈ tree.evaluated.postorder →
          name ∈ tree.declaredNames) ∧
        ∀ name arguments note, .call name arguments note ∈ tree.evaluated.postorder →
          name = "sqrt" ∨ name = "print") := by
  simp only [ofText, Outcome.ofTokens] at analyzed
  split at analyzed
  · rename_i tree read
    cases analyzed
    have image := Tree.isStatement_of_ofTokens read
    have found := image.1.diagnostics_eq image.2
    refine ⟨tree, read, image.1, found, ?_, ?_⟩
    · rw [found]
      exact tree.verdict_code
    · rw [Analysis.succeeded, found, Bool.not_eq_true', Tree.anyError_verdict_eq_false_iff,
        Tree.nodeFindings_eq_nil_iff]
  · cases analyzed

/-- The statement reads a name that is not declared, calls two functions wrongly and does not read
its target, with as many operators and parentheses as the limits allow. -/
theorem analyzed_verdict_mixed : ∃ analysis,
    (Report.ofText ⟨1, 1⟩ "x = pow(y) + f(2)").outcome = .analyzed analysis ∧
      analysis.codes =
        [.undeclaredVariable, .wrongArgumentCount, .undefinedFunction, .unusedVariable] ∧
      ∃ tree, Tree.ofTokens ⟨1, 1⟩ (Token.stream "x = pow(y) + f(2)") = .ok tree ∧
        tree.IsStatement ∧ analysis.diagnostics = tree.verdict := by
  have codes : (Report.ofText ⟨1, 1⟩ "x = pow(y) + f(2)").outcome.analysis?.map Analysis.codes =
      some [.undeclaredVariable, .wrongArgumentCount, .undefinedFunction, .unusedVariable] := by
    decide +kernel
  rcases Option.map_eq_some_iff.mp codes with ⟨analysis, isAnalysis, isCodes⟩
  have analyzed : (Report.ofText ⟨1, 1⟩ "x = pow(y) + f(2)").outcome = .analyzed analysis := by
    unfold Outcome.analysis? at isAnalysis
    split at isAnalysis
    · cases isAnalysis
    · rename_i same
      cases isAnalysis
      exact same
  rcases analyzed_verdict analyzed with ⟨tree, read, isStatement, found, _⟩
  exact ⟨analysis, analyzed, isCodes, tree, read, isStatement, found⟩

end Report
end ExpressionChecker

import ExpressionChecker.Proofs.Analysis.Verification

namespace ExpressionChecker

/-!
# How an analysis ends

There are two ways.  If every node stands below no more calls than the limit allows, both passes are
complete: what the declaration pass asks for is all that the verification pass asks for.  Otherwise
the declaration pass stops at the first node that stands too deep.  Nothing has been verified then,
so no symbol is marked and the tree is untouched.  The code of an internal error tells the two
apart, because no other finding has it.
-/

/-! ## Codes -/

/-- All findings have one of the codes. -/
def Coded (codes : List DiagnosticCode) (findings : List Diagnostic) : Prop :=
  ∀ finding ∈ findings, finding.code ∈ codes

namespace Coded

variable {codes : List DiagnosticCode} {first second : List Diagnostic}

theorem nil : Coded codes [] :=
  fun _ impossible => (List.not_mem_nil impossible).elim

theorem single {code : DiagnosticCode} (listed : code ∈ codes) (position : Position)
    (message : String) : Coded codes [.report code position message] := by
  intro finding found
  cases List.mem_singleton.mp found
  exact listed

theorem append (isFirst : Coded codes first) (isSecond : Coded codes second) :
    Coded codes (first ++ second) :=
  List.forall_mem_append.mpr ⟨isFirst, isSecond⟩

theorem ite {condition : Prop} [Decidable condition] (isFirst : Coded codes first)
    (isSecond : Coded codes second) : Coded codes (if condition then first else second) := by
  split
  · exact isFirst
  · exact isSecond

theorem mono {codes' : List DiagnosticCode} (coded : Coded codes first) (among : codes ⊆ codes') :
    Coded codes' first :=
  fun finding found => among (coded finding found)

theorem of_code {code : DiagnosticCode} (alike : ∀ finding ∈ first, finding.code = code) :
    Coded [code] first :=
  fun finding found => List.mem_singleton.mpr (alike finding found)

/-- A code that is not among them picks none of the findings. -/
theorem filter_eq_nil {code : DiagnosticCode} (coded : Coded codes first) (other : code ∉ codes) :
    first.filter (·.code = code) = [] := by
  rw [List.filter_eq_nil_iff]
  intro finding found same
  exact other (of_decide_eq_true same ▸ coded finding found)

end Coded

/-- The codes of what can be wrong with a node. -/
def Tree.nodeCodes : Tree → List DiagnosticCode
  | identifier .. => [.undeclaredVariable]
  | number .. => [.invalidNumber]
  | unary .. | binary .. => [.unknownOperator, .operandType, .incompatibleTypes]
  | call .. => [.undefinedFunction, .wrongArgumentCount, .argumentType]
  | assignment .. => [.invalidAssignment, .incompatibleAssignment]

namespace Judgement

theorem ofIdentifier_coded (name : String) (declared : Option DataType) (position : Position) :
    Coded [.undeclaredVariable] (ofIdentifier name declared position).findings := by
  cases declared with
  | none => exact .single (by decide) _ _
  | some type => exact .nil

theorem ofNumber_coded (literal : String) (position : Position) :
    Coded [.invalidNumber] (ofNumber literal position).findings :=
  .ite .nil (.single (by decide) _ _)

theorem ofOperation_coded (operator : Operator) (position : Position) (left : DataType)
    (right : Option DataType) :
    Coded [.unknownOperator, .operandType, .incompatibleTypes]
      (ofOperation operator position left right).findings := by
  have operand (operatorClass : OperatorClass) (side : String) (type : DataType) :
      Coded [.unknownOperator, .operandType, .incompatibleTypes]
        (operandFindings operator operatorClass position side type) :=
    .ite .nil (.single (by decide) _ _)
  unfold ofOperation
  cases OperatorClass.of? operator with
  | none => exact .single (by decide) _ _
  | some operatorClass =>
      cases right with
      | none => exact (operand operatorClass "left" left).append .nil
      | some right =>
          have compared : Coded [.unknownOperator, .operandType, .incompatibleTypes]
              (comparisonFindings operator operatorClass position left right) :=
            .ite (.single (by decide) _ _) .nil
          exact (operand operatorClass "left" left).append
            ((operand operatorClass "right" right).append compared)

theorem argumentFindings_coded (function : KnownFunction) (number : Nat)
    (parameters : List DataType) (arguments : List Argument) :
    Coded [.argumentType] (argumentFindings function number parameters arguments) := by
  induction parameters generalizing number arguments with
  | nil => exact .nil
  | cons expected parameters inductionHypothesis =>
      cases arguments with
      | nil => exact .nil
      | cons argument arguments =>
          exact .append (.ite .nil (.single (by decide) _ _)) (inductionHypothesis _ _)

theorem ofCall_coded (name : String) (position : Position) (arguments : List Argument) :
    Coded [.undefinedFunction, .wrongArgumentCount, .argumentType]
      (ofCall name position arguments).findings := by
  unfold ofCall
  cases KnownFunction.ofName? name with
  | none => exact .single (by decide) _ _
  | some function =>
      exact .ite ((argumentFindings_coded _ _ _ _).mono (by decide)) (.single (by decide) _ _)

theorem ofAssignment_coded (name : String) (declared : Option DataType) (position : Position)
    (value : DataType) :
    Coded [.incompatibleAssignment] (ofAssignment name declared position value).findings := by
  cases declared with
  | none => exact .nil
  | some type => exact .ite .nil (.single (by decide) _ _)

end Judgement

namespace Tree

/-- What is wrong with a node has a code of nodes of its kind. -/
theorem ownFindings_coded (declared : String → Option DataType) (node : Tree) :
    Coded node.nodeCodes (node.ownFindings declared) := by
  cases node with
  | identifier name note => exact Judgement.ofIdentifier_coded _ _ _
  | number literal note => exact Judgement.ofNumber_coded _ _
  | unary operator operand note => exact Judgement.ofOperation_coded _ _ _ _
  | binary operator left right note => exact Judgement.ofOperation_coded _ _ _ _
  | call name arguments note => exact Judgement.ofCall_coded _ _ _
  | assignment target value note =>
      cases named : target.name? with
      | some name =>
          cases target with
          | identifier name note' =>
              exact (Judgement.ofAssignment_coded _ _ _ _).mono (List.subset_cons_self _ _)
          | _ => cases named
      | none =>
          rw [ownFindings_invalidTarget named]
          exact .single List.mem_cons_self _ _

/-- A finding about a single node is neither about a second declaration nor about a missing use, and
it is no internal error. -/
theorem code_of_ownFinding {declared : String → Option DataType} {nodes : List Tree}
    {finding : Diagnostic} (found : finding ∈ nodes.flatMap (ownFindings declared)) :
    finding.code ≠ .duplicateVariable ∧ finding.code ≠ .unusedVariable ∧
      finding.code ≠ .internalError := by
  have table (node : Tree) : ∀ code ∈ node.nodeCodes, code ≠ .duplicateVariable ∧
      code ≠ .unusedVariable ∧ code ≠ .internalError := by
    cases node <;> simp [nodeCodes]
  rcases List.mem_flatMap.mp found with ⟨node, _, own⟩
  exact table node _ (node.ownFindings_coded declared finding own)

end Tree

theorem Target.duplicates_code (targets : List Target) :
    ∀ finding ∈ duplicates targets, finding.code = .duplicateVariable := by
  have after (before : List Target) :
      ∀ finding ∈ duplicatesAfter before targets, finding.code = .duplicateVariable := by
    induction targets generalizing before with
    | nil => exact fun _ impossible => (List.not_mem_nil impossible).elim
    | cons target later inductionHypothesis =>
        intro finding found
        rcases List.mem_append.mp found with here | behind
        · rcases Option.map_eq_some_iff.mp (Option.mem_toList.mp here) with ⟨first, _, rfl⟩
          rfl
        · exact inductionHypothesis _ finding behind
  exact after []

theorem Scopes.unusedWarnings_code (scopes : Scopes) :
    ∀ finding ∈ scopes.unusedWarnings, finding.code = .unusedVariable := by
  intro finding found
  rcases List.mem_map.mp found with ⟨symbol, _, rfl⟩
  rfl

/-! ## The two ends -/

namespace Declarations.Gathers

variable {gathered : Declarations} {targets : List Target} {symbols : List Symbol}

/-- The names of the symbols are those of the targets. -/
theorem mem_names_iff (gathers : Gathers gathered targets symbols) {name : String} :
    name ∈ symbols.map Symbol.name ↔ name ∈ targets.map Prod.fst := by
  have names : symbols.map Symbol.name = (Target.firsts targets).map Prod.fst := by
    rw [← gathers.declared, List.map_map]
    rfl
  rw [names, Target.mem_map_firsts]

/-- Behind the nodes of a whole tree, every name that is assigned to has a symbol. -/
theorem assigns {tree : Tree} (gathers : Gathers gathered (targetsAt tree.preorder) symbols) :
    Tree.Assigns gathered.scopes.declaredType? tree.evaluation := by
  intro name assigned
  rw [gathers.holds.isSome_declaredType?, gathers.mem_names_iff]
  have visited : tree.evaluation ⊆ tree.preorder :=
    fun node evaluated => tree.preorder_perm.mem_iff.mpr (List.mem_append_left _ evaluated)
  exact List.map_subset _ (List.filterMap_subset _ visited) assigned

end Declarations.Gathers

namespace Passes

variable {limits : Limits} {tree : Tree}

/-- If no node stands below too many calls, both passes are complete, and the limits have no part in
what they find. -/
theorem run_eq_of_within (within : ∀ visit ∈ tree.visits, visit.calls ≤ limits.depth) :
    let gathered := tree.preorder.foldl Declarations.behind .empty
    run limits tree = .complete gathered (tree.verifiedIn gathered.scopes) := by
  rcases Declarations.Gathers.empty.foldl tree.preorder with ⟨symbols, gathers⟩
  rw [List.nil_append] at gathers
  have verifies := Tree.verify_eq tree gathers.holds within gathers.assigns
  simp only [run, Tree.declare_of_within within, verifies]

theorem run_of_within (within : ∀ visit ∈ tree.visits, visit.calls ≤ limits.depth) :
    ∃ gathered symbols, run limits tree = .complete gathered (tree.verifiedIn gathered.scopes) ∧
      gathered.Gathers (Declarations.targetsAt tree.preorder) symbols := by
  rcases Declarations.Gathers.empty.foldl tree.preorder with ⟨symbols, gathers⟩
  rw [List.nil_append] at gathers
  exact ⟨_, symbols, run_eq_of_within within, gathers⟩

/-- At the first node that stands below too many calls, the declaration pass is interrupted. -/
theorem run_of_deep {before later : List Tree.Visit} {deep : Tree.Visit}
    (visits : tree.visits = before ++ deep :: later)
    (within : ∀ visit ∈ before, visit.calls ≤ limits.depth) (tooDeep : limits.depth < deep.calls) :
    ∃ gathered symbols,
      run limits tree = .undeclared ⟨⟨limits.depth, deep.node.position⟩, gathered⟩ ∧
      gathered.Gathers (Declarations.targetsAt (before.map Tree.Visit.node)) symbols := by
  rcases Declarations.Gathers.empty.foldl (before.map Tree.Visit.node) with ⟨symbols, gathers⟩
  rw [List.nil_append] at gathers
  refine ⟨_, symbols, ?_, gathers⟩
  simp only [run, Tree.declare_of_deep visits within tooDeep]

end Passes

/-- Of visits some of which stand below too many calls, one is the first. -/
theorem Tree.exists_first_deep {limit : Nat} {visits : List Visit}
    (deep : ∃ visit ∈ visits, limit < visit.calls) :
    ∃ before deep later, visits = before ++ deep :: later ∧
      (∀ visit ∈ before, visit.calls ≤ limit) ∧ limit < deep.calls := by
  have found : (visits.find? fun visit => limit < visit.calls).isSome = true := by
    simpa only [List.find?_isSome, decide_eq_true_eq] using deep
  rcases Option.isSome_iff_exists.mp found with ⟨first, isFirst⟩
  rcases List.find?_eq_some_iff_append.mp isFirst with ⟨tooDeep, before, later, visits, shallow⟩
  refine ⟨before, first, later, visits, ?_, of_decide_eq_true tooDeep⟩
  intro visit earlier
  simpa using shallow visit earlier

/-- Of a tree in which not every visit stands below few enough calls, one visit is the first that
does not. -/
theorem Tree.within_or_first_deep (limit : Nat) (tree : Tree) :
    (∀ visit ∈ tree.visits, visit.calls ≤ limit) ∨
      ∃ before deep later, tree.visits = before ++ deep :: later ∧
        (∀ visit ∈ before, visit.calls ≤ limit) ∧ limit < deep.calls := by
  by_cases deep : ∃ visit ∈ tree.visits, limit < visit.calls
  · exact .inr (exists_first_deep deep)
  · exact .inl fun visit visited => Nat.le_of_not_lt fun tooDeep => deep ⟨visit, visited, tooDeep⟩

/-- Where the declaration pass is complete, so is the verification pass. -/
theorem Tree.exists_verify_of_declare {limit : Nat} {tree : Tree} {gathered : Declarations}
    (declares : tree.declare limit 0 .empty = .ok gathered) :
    ∃ verified, tree.verify limit 0 gathered.scopes = .ok verified := by
  rcases tree.within_or_first_deep limit with
    within | ⟨before, first, later, visits, within, tooDeep⟩
  · rcases Declarations.Gathers.empty.foldl tree.preorder with ⟨symbols, gathers⟩
    rw [declare_of_within within] at declares
    cases declares
    exact ⟨_, verify_eq tree gathers.holds within gathers.assigns⟩
  · rw [declare_of_deep visits within tooDeep] at declares
    cases declares

/-- The tree of `(x = 1) + (x = 2) + f(g(q) = y)`, which no text has. -/
def Tree.mixed : Tree :=
  .binary .add
    (.binary .add
      (.assignment (.identifier "x" ⟨⟨1, 2⟩, none⟩) (.number "1" ⟨⟨1, 6⟩, none⟩) ⟨⟨1, 4⟩, none⟩)
      (.assignment (.identifier "x" ⟨⟨1, 12⟩, none⟩) (.number "2" ⟨⟨1, 16⟩, none⟩) ⟨⟨1, 14⟩, none⟩)
      ⟨⟨1, 9⟩, none⟩)
    (.call "f"
      [.assignment (.call "g" [.identifier "q" ⟨⟨1, 25⟩, none⟩] ⟨⟨1, 23⟩, none⟩)
        (.identifier "y" ⟨⟨1, 30⟩, none⟩) ⟨⟨1, 28⟩, none⟩]
      ⟨⟨1, 21⟩, none⟩)
    ⟨⟨1, 19⟩, none⟩

namespace Analysis

variable {limits : Limits} {tree : Tree}

theorem ofTree_of_run {passes : Passes} (run : Passes.run limits tree = passes) :
    ofTree limits tree = ofPasses tree passes :=
  congrArg _ run

theorem anyError_of_mem {findings : List Diagnostic} {finding : Diagnostic}
    (found : finding ∈ findings) (isError : finding.isError = true) :
    Diagnostic.anyError findings = true :=
  List.any_eq_true.mpr ⟨finding, found, isError⟩

theorem codes_of_within (within : ∀ visit ∈ tree.visits, visit.calls ≤ limits.depth) :
    .internalError ∉ (ofTree limits tree).codes := by
  rcases Passes.run_of_within within with ⟨gathered, symbols, run, gathers⟩
  rw [ofTree_of_run run, codes, List.mem_map]
  rintro ⟨finding, found, internal⟩
  rcases List.mem_append.mp found with earlier | unused
  · rcases List.mem_append.mp earlier with duplicate | own
    · rw [gathers.reported] at duplicate
      rw [Target.duplicates_code _ finding duplicate] at internal
      cases internal
    · exact (Tree.code_of_ownFinding own).2.2 internal
  · rw [Scopes.unusedWarnings_code _ finding unused] at internal
    cases internal

/-- An internal error is reported exactly if a node stands below more calls than allowed. -/
theorem internalError_mem_codes_iff :
    .internalError ∈ (ofTree limits tree).codes ↔
      ∃ visit ∈ tree.visits, limits.depth < visit.calls := by
  constructor
  · intro reported
    by_contra none
    refine codes_of_within (fun visit visited => ?_) reported
    exact Nat.le_of_not_lt fun deep => none ⟨visit, visited, deep⟩
  · intro deep
    rcases Tree.exists_first_deep deep with ⟨before, first, later, visits, within, tooDeep⟩
    rcases Passes.run_of_deep visits within tooDeep with ⟨gathered, symbols, run, gathers⟩
    rw [ofTree_of_run run, codes, List.mem_map]
    exact ⟨_, List.mem_append_right _ (List.mem_singleton.mpr rfl), rfl⟩

theorem within_of_complete (complete : .internalError ∉ (ofTree limits tree).codes) :
    ∀ visit ∈ tree.visits, visit.calls ≤ limits.depth := by
  intro visit visited
  refine Nat.le_of_not_lt fun tooDeep => complete ?_
  exact internalError_mem_codes_iff.mpr ⟨visit, visited, tooDeep⟩

/-- An analysis is interrupted exactly if a node stands below more calls than allowed.  The internal
error is then the last finding and stands at the first such node in pre-order; every other finding
is about a name that is assigned to again; the tree is as it was; and the symbols are those of the
targets in front of that node, none of them marked.  Only the declaration pass can be interrupted:
where it is complete the verification pass is, and inferring a type is never what interrupts it. -/
theorem interruption_exact (limits : Limits) (tree : Tree) :
    (.internalError ∈ (ofTree limits tree).codes ↔
      ∃ visit ∈ tree.visits, limits.depth < visit.calls) ∧
    (.internalError ∈ (ofTree limits tree).codes →
      ∃ before deep later, tree.visits = before ++ deep :: later ∧
        (∀ visit ∈ before, visit.calls ≤ limits.depth) ∧ limits.depth < deep.calls ∧
        (ofTree limits tree).diagnostics =
          Target.duplicates (Declarations.targetsAt (before.map Tree.Visit.node)) ++
            [(DepthExceeded.mk limits.depth deep.node.position).diagnostic] ∧
        (∀ finding ∈ (ofTree limits tree).diagnostics.dropLast,
          finding.code = .duplicateVariable) ∧
        (ofTree limits tree).tree = tree ∧
        (ofTree limits tree).scopes.symbols.map Symbol.target =
          Target.firsts (Declarations.targetsAt (before.map Tree.Visit.node)) ∧
        (∀ symbol ∈ (ofTree limits tree).scopes.symbols,
          symbol.used = false ∧ symbol.initialized = false) ∧
        (ofTree limits tree).succeeded = false) ∧
    (∀ gathered, tree.declare limits.depth 0 .empty = .ok gathered →
      ∃ verified, tree.verify limits.depth 0 gathered.scopes = .ok verified) ∧
    (∀ visit ∈ tree.visits, visit.calls ≤ limits.depth → ∀ scopes,
      ∃ type, visit.node.inferType limits.depth visit.calls scopes = .ok type) := by
  refine ⟨internalError_mem_codes_iff, ?_, ?_, ?_⟩
  · intro reported
    rcases Tree.exists_first_deep (internalError_mem_codes_iff.mp reported) with
      ⟨before, deep, later, visits, within, tooDeep⟩
    rcases Passes.run_of_deep visits within tooDeep with ⟨gathered, symbols, run, gathers⟩
    rw [ofTree_of_run run]
    refine ⟨before, deep, later, visits, within, tooDeep, ?_, ?_, rfl, ?_, ?_, ?_⟩
    · simp only [ofPasses, gathers.reported]
    · simp only [ofPasses, gathers.reported, List.dropLast_concat]
      exact Target.duplicates_code _
    · simp only [ofPasses, gathers.holds.symbols_eq, gathers.declared]
    · simp only [ofPasses, gathers.holds.symbols_eq]
      exact gathers.untouched
    · have isError : Diagnostic.anyError (gathered.diagnostics ++
          [(DepthExceeded.mk limits.depth deep.node.position).diagnostic]) = true :=
        anyError_of_mem (List.mem_append_right _ (List.mem_singleton.mpr rfl)) rfl
      simp only [succeeded, ofPasses, isError, Bool.not_true]
  · exact fun gathered => Tree.exists_verify_of_declare
  · intro visit _ within scopes
    exact ⟨_, Tree.inferType_eq within scopes visit.node⟩

/-- Below `f` and `g` the name `q` stands too deep, behind the second target `x`. -/
theorem interruption_exact_mixed :
    .internalError ∈ (ofTree ⟨1, 0⟩ .mixed).codes ∧ (ofTree ⟨1, 0⟩ .mixed).tree = .mixed ∧
      (ofTree ⟨1, 0⟩ .mixed).succeeded = false := by
  have reported : .internalError ∈ (ofTree ⟨1, 0⟩ .mixed).codes := by decide +kernel
  rcases (interruption_exact ⟨1, 0⟩ .mixed).2.1 reported with
    ⟨_, _, _, _, _, _, _, _, untouched, _, _, failed⟩
  exact ⟨reported, untouched, failed⟩

end Analysis
end ExpressionChecker

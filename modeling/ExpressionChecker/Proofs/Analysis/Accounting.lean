import ExpressionChecker.Proofs.Analysis.Interruption
import Mathlib.Data.List.Basic

namespace ExpressionChecker

/-!
# What a complete analysis accounts for

A complete analysis says three things one after the other: which names are assigned to again, what is
wrong with single nodes, and which variables are never read.  The table it returns accounts for all
of it.  The types of the nodes and the findings about them are a function of the types in the table,
and the table itself, its marks included, is a function of the names that are assigned to and read.
-/

/-! ## Types written down -/

namespace Tree

variable (declared : String → Option DataType)

theorem inferred_annotated (tree : Tree) :
    (tree.annotated declared).inferred = some (tree.settledType declared) := by
  cases tree <;> rfl

/-- What has been written down changes no type. -/
theorem settledType_annotated (tree : Tree) :
    (tree.annotated declared).settledType declared = tree.settledType declared := by
  cases tree with
  | identifier name note => rfl
  | number literal note => rfl
  | unary operator operand note =>
      exact congrArg (OperatorClass.operationType operator) (settledType_annotated operand)
  | binary operator left right note =>
      exact congrArg (OperatorClass.operationType operator) (settledType_annotated left)
  | call name arguments note => rfl
  | assignment target value note => cases target <;> rfl

mutual

theorem visitsBelow_annotated (calls : Nat) (tree : Tree) :
    ((tree.annotated declared).visitsBelow calls).map Visit.node =
      (tree.visitsBelow calls).map fun visit => visit.node.annotated declared := by
  cases tree with
  | identifier name note => rfl
  | number literal note => rfl
  | unary operator operand note =>
      have below := visitsBelow_annotated calls operand
      simp only [annotated, visitsBelow, List.map_cons, below]
  | binary operator left right note =>
      have inLeft := visitsBelow_annotated calls left
      have inRight := visitsBelow_annotated calls right
      simp only [annotated, visitsBelow, List.map_cons, List.map_append, inLeft, inRight]
  | call name arguments note =>
      have below := visitsBelowAll_annotated (calls + 1) arguments
      simp only [annotated, visitsBelow, List.map_cons, below]
  | assignment target value note =>
      have inTarget := visitsBelow_annotated calls target
      have inValue := visitsBelow_annotated calls value
      simp only [annotated, visitsBelow, List.map_cons, List.map_append, inTarget, inValue]

theorem visitsBelowAll_annotated (calls : Nat) (trees : List Tree) :
    (visitsBelowAll calls (annotatedAll declared trees)).map Visit.node =
      (visitsBelowAll calls trees).map fun visit => visit.node.annotated declared := by
  cases trees with
  | nil => rfl
  | cons tree later =>
      have first := visitsBelow_annotated calls tree
      have others := visitsBelowAll_annotated calls later
      simp only [annotatedAll, visitsBelowAll, List.map_append, first, others]

end

/-- The type written down at a node is the one that the node then has. -/
theorem inferred_of_mem_preorder {tree node : Tree}
    (visited : node ∈ (tree.annotated declared).preorder) :
    node.inferred = some (node.settledType declared) := by
  rw [preorder, visits, visitsBelow_annotated] at visited
  rcases List.mem_map.mp visited with ⟨visit, _, rfl⟩
  rw [inferred_annotated, settledType_annotated]

end Tree

/-! ## Names that are read without being declared -/

namespace Tree

/-- The finding about a name that is read though nothing is assigned to it. -/
def undeclared? (assigned : List String) : Tree → Option Diagnostic
  | identifier name note =>
    if name ∈ assigned then none
    else some (.report .undeclaredVariable note.position s!"Variable '{name}' is not declared")
  | _ => none

/-- Among the findings about a node, those about a missing declaration. -/
theorem filter_ownFindings {declared : String → Option DataType} {assigned : List String}
    (isDeclared : ∀ name, (declared name).isSome = true ↔ name ∈ assigned) (node : Tree) :
    (node.ownFindings declared).filter (·.code = .undeclaredVariable) =
      (node.undeclared? assigned).toList := by
  cases node with
  | identifier name note =>
      have known := isDeclared name
      cases found : declared name with
      | none =>
          rw [found] at known
          have unknown : name ∉ assigned := fun listed => Bool.false_ne_true (known.mpr listed)
          simp only [undeclared?, if_neg unknown, ownFindings, found]
          rfl
      | some type =>
          rw [found] at known
          simp only [undeclared?, if_pos (known.mp rfl), ownFindings, found]
          rfl
  | _ => exact (ownFindings_coded declared _).filter_eq_nil (by simp [nodeCodes])

/-- An assignment is always evaluated, so every target is met again. -/
theorem assignedAt_preorder_subset (tree : Tree) :
    assignedAt tree.preorder ⊆ assignedAt tree.evaluation := by
  have noTarget (node target : Tree) (assigned : node.assignedName? = some target) :
      target.target? = none := by
    unfold assignedName? at assigned
    split at assigned
    · cases assigned
      rfl
    · cases assigned
  intro name listed
  rcases List.mem_map.mp listed with ⟨target, isTarget, rfl⟩
  rcases List.mem_filterMap.mp isTarget with ⟨node, visited, isTarget⟩
  refine List.mem_map.mpr ⟨target, List.mem_filterMap.mpr ⟨node, ?_, isTarget⟩, rfl⟩
  rcases List.mem_append.mp (tree.preorder_perm.mem_iff.mp visited) with evaluated | assigned
  · exact evaluated
  · rcases List.mem_filterMap.mp assigned with ⟨assignment, _, isNamed⟩
    rw [noTarget assignment node isNamed] at isTarget
    cases isTarget

end Tree

/-! ## Complete analyses -/

namespace Analysis

variable {limits : Limits} {tree : Tree}

/-- What a complete analysis yields, with the symbols as they were before they were marked. -/
structure Accounts (analysis : Analysis) (tree : Tree) (symbols : List Symbol) : Prop where
  declared : symbols.map Symbol.target = Target.firsts (Declarations.targetsAt tree.preorder)
  untouched : ∀ symbol ∈ symbols, symbol.used = false ∧ symbol.initialized = false
  marked : analysis.scopes.Holds (symbols.map (Symbol.marked tree.evaluation))
  annotated : analysis.tree = tree.annotated analysis.scopes.declaredType?
  reported : analysis.diagnostics = Target.duplicates (Declarations.targetsAt tree.preorder) ++
    tree.evaluation.flatMap (Tree.ownFindings analysis.scopes.declaredType?) ++
      analysis.scopes.unusedWarnings

theorem exists_accounts (complete : .internalError ∉ (ofTree limits tree).codes) :
    ∃ symbols, Accounts (ofTree limits tree) tree symbols := by
  rcases Passes.run_of_within (within_of_complete complete) with ⟨gathered, symbols, run, gathers⟩
  rw [ofTree_of_run run]
  have types := gathers.holds.declaredType?_foldl tree.evaluation
  refine ⟨symbols, gathers.declared, gathers.untouched, ?_, ?_, ?_⟩
  · exact gathers.holds.foldl_behind tree.evaluation
  · simp only [ofPasses, Tree.verifiedIn, types]
  · simp only [ofPasses, Tree.verifiedIn, types, gathers.reported]

namespace Accounts

variable {analysis : Analysis} {symbols : List Symbol}

theorem targets_eq (accounts : Accounts analysis tree symbols) :
    analysis.scopes.symbols.map Symbol.target =
      Target.firsts (Declarations.targetsAt tree.preorder) := by
  rw [accounts.marked.symbols_eq, List.map_map, ← accounts.declared]
  rfl

theorem isSome_declaredType? (accounts : Accounts analysis tree symbols) (name : String) :
    (analysis.scopes.declaredType? name).isSome = true ↔ name ∈ assignedAt tree.preorder := by
  have names : (symbols.map (Symbol.marked tree.evaluation)).map Symbol.name =
      (Target.firsts (Declarations.targetsAt tree.preorder)).map Prod.fst := by
    rw [← accounts.declared, List.map_map, List.map_map]
    rfl
  rw [accounts.marked.isSome_declaredType?, names, Target.mem_map_firsts, assignedAt]

theorem marks (accounts : Accounts analysis tree symbols) :
    ∀ symbol ∈ analysis.scopes.symbols, symbol.initialized = true ∧
      (symbol.used = true ↔ symbol.name ∈ readAt tree.evaluation) := by
  rw [accounts.marked.symbols_eq, List.forall_mem_map]
  intro symbol listed
  have assigned : symbol.name ∈ assignedAt tree.evaluation := by
    apply tree.assignedAt_preorder_subset
    rw [assignedAt, ← Target.mem_map_firsts, ← accounts.declared]
    exact List.mem_map.mpr ⟨symbol.target, List.mem_map.mpr ⟨symbol, listed, rfl⟩, rfl⟩
  rcases accounts.untouched symbol listed with ⟨unused, uninitialized⟩
  simp only [Symbol.marked, unused, uninitialized, assigned, Bool.false_or, decide_eq_true_eq,
    true_and]

theorem filter_undeclared (accounts : Accounts analysis tree symbols) :
    analysis.diagnostics.filter (·.code = .undeclaredVariable) =
      tree.evaluation.filterMap (Tree.undeclared? (assignedAt tree.preorder)) := by
  have noDuplicate : (Target.duplicates (Declarations.targetsAt tree.preorder)).filter
      (·.code = .undeclaredVariable) = [] :=
    (Coded.of_code (Target.duplicates_code _)).filter_eq_nil (by decide)
  have noWarning : analysis.scopes.unusedWarnings.filter (·.code = .undeclaredVariable) = [] :=
    (Coded.of_code analysis.scopes.unusedWarnings_code).filter_eq_nil (by decide)
  rw [accounts.reported, List.filter_append, List.filter_append, noDuplicate, noWarning,
    List.nil_append, List.append_nil, List.filter_flatMap, List.filterMap_eq_flatMap_toList]
  simp only [Tree.filter_ownFindings accounts.isSome_declaredType?]

end Accounts

/-- The table that a complete analysis returns tells the type of every node and what is found at it.
All findings but those about further assignments, in front, and those about missing uses, behind, are
the findings about the nodes in the order of evaluation. -/
theorem table_determines_types (complete : .internalError ∉ (ofTree limits tree).codes) :
    (ofTree limits tree).tree = tree.annotated (ofTree limits tree).scopes.declaredType? ∧
    (∀ node ∈ (ofTree limits tree).tree.preorder,
      node.inferred = some (node.settledType (ofTree limits tree).scopes.declaredType?)) ∧
    ∃ duplicates found warnings,
      (ofTree limits tree).diagnostics = duplicates ++ found ++ warnings ∧
      found = tree.evaluation.flatMap
        (Tree.ownFindings (ofTree limits tree).scopes.declaredType?) ∧
      (∀ finding ∈ duplicates, finding.code = .duplicateVariable) ∧
      (∀ finding ∈ warnings, finding.code = .unusedVariable) ∧
      ∀ finding ∈ found,
        finding.code ≠ .duplicateVariable ∧ finding.code ≠ .unusedVariable := by
  rcases exists_accounts complete with ⟨symbols, accounts⟩
  refine ⟨accounts.annotated, ?_, ?_⟩
  · intro node visited
    rw [accounts.annotated] at visited
    exact Tree.inferred_of_mem_preorder _ visited
  · refine ⟨_, _, _, accounts.reported, rfl, Target.duplicates_code _,
      Scopes.unusedWarnings_code _, ?_⟩
    intro finding own
    exact ⟨(Tree.code_of_ownFinding own).1, (Tree.code_of_ownFinding own).2.1⟩

/-- Two calls are allowed, and the types and findings are those that the first target `x` gives. -/
theorem table_determines_types_mixed :
    .internalError ∉ (ofTree ⟨2, 0⟩ .mixed).codes ∧
      (ofTree ⟨2, 0⟩ .mixed).tree.inferred = some .integer ∧
      (ofTree ⟨2, 0⟩ .mixed).tree =
        Tree.mixed.annotated (ofTree ⟨2, 0⟩ .mixed).scopes.declaredType? := by
  have complete : .internalError ∉ (ofTree ⟨2, 0⟩ .mixed).codes := by decide +kernel
  exact ⟨complete, by decide +kernel, (table_determines_types complete).1⟩

/-- A complete analysis accounts for every name.  The symbols are the first targets of the names that
are assigned to, all of them initialized, and used if the name is read anywhere.  The findings about
further targets come first, each citing the first target; the unused symbols are reported last; and
in between there is one finding about a missing declaration for each name that is read but nowhere
assigned to.  By `Tree.preorder_perm` a name is read wherever it stands but as a target. -/
theorem names_accounted (complete : .internalError ∉ (ofTree limits tree).codes) :
    (ofTree limits tree).scopes.symbols.map Symbol.target =
      Target.firsts (Declarations.targetsAt tree.preorder) ∧
    (∀ symbol ∈ (ofTree limits tree).scopes.symbols, symbol.initialized = true ∧
      (symbol.used = true ↔ symbol.name ∈ readAt tree.evaluation)) ∧
    (∃ found, (ofTree limits tree).diagnostics =
        Target.duplicates (Declarations.targetsAt tree.preorder) ++ found ++
          ((ofTree limits tree).scopes.symbols.filter (!·.used)).map (fun symbol =>
            .report .unusedVariable symbol.position
              s!"Variable '{symbol.name}' is declared but never used") ∧
      ∀ finding ∈ found,
        finding.code ≠ .duplicateVariable ∧ finding.code ≠ .unusedVariable) ∧
    (ofTree limits tree).diagnostics.filter (·.code = .undeclaredVariable) =
      tree.evaluation.filterMap (Tree.undeclared? (assignedAt tree.preorder)) := by
  rcases exists_accounts complete with ⟨symbols, accounts⟩
  refine ⟨accounts.targets_eq, accounts.marks, ⟨_, accounts.reported, ?_⟩,
    accounts.filter_undeclared⟩
  intro finding own
  exact ⟨(Tree.code_of_ownFinding own).1, (Tree.code_of_ownFinding own).2.1⟩

/-- The name `x` is assigned to twice and never read, and neither `y` nor `q` is declared. -/
theorem names_accounted_mixed :
    .internalError ∉ (ofTree ⟨2, 0⟩ .mixed).codes ∧
      (ofTree ⟨2, 0⟩ .mixed).scopes.symbols.map Symbol.target = [("x", ⟨1, 2⟩)] ∧
      (ofTree ⟨2, 0⟩ .mixed).codes = [.duplicateVariable, .undeclaredVariable, .invalidAssignment,
        .undeclaredVariable, .undefinedFunction, .undefinedFunction, .unusedVariable] := by
  have complete : .internalError ∉ (ofTree ⟨2, 0⟩ .mixed).codes := by decide +kernel
  exact ⟨complete, (names_accounted complete).1.trans (by decide +kernel), by decide +kernel⟩

end Analysis
end ExpressionChecker

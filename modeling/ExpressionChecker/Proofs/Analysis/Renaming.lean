import ExpressionChecker.Proofs.Analysis.Accounting
import ExpressionChecker.Proofs.Analysis.Annotations
import Mathlib.Algebra.Order.BigOperators.Group.List
import Mathlib.Algebra.Order.Group.Nat
import Mathlib.Data.Set.Function

namespace ExpressionChecker

/-!
# Renaming variables

An analysis knows a variable by its name and by nothing else, so it does not matter what the name is
as long as different variables keep different names.  Only the variables of the tree have to be kept
apart: whatever a renaming does with other names, some renaming does the same with those of the tree
and never gives one name to two.
-/

/-! ## Renaming some names -/

/-- A renaming that keeps some names apart does with them what one does that keeps all names
apart. -/
theorem exists_injective_of_injOn {names : List String} {rename : String → String}
    (distinct : Set.InjOn rename {name | name ∈ names}) :
    ∃ rename' : String → String, Function.Injective rename' ∧
      ∀ name ∈ names, rename' name = rename name := by
  -- Every other name is made longer than all the new ones of these.
  let bound := (names.map fun name => (rename name).length).sum
  let front := String.ofList (List.replicate (bound + 1) 'x')
  have differs {name : String} (listed : name ∈ names) (other : String) :
      rename name ≠ front ++ other := by
    intro same
    have short : (rename name).length ≤ bound := List.le_sum_of_mem (List.mem_map_of_mem listed)
    rw [same, String.length_append, String.length_ofList, List.length_replicate] at short
    omega
  refine ⟨fun name => if name ∈ names then rename name else front ++ name, ?_, ?_⟩
  · intro first second same
    by_cases inFirst : first ∈ names <;> by_cases inSecond : second ∈ names <;>
      simp only [inFirst, inSecond, if_true, if_false] at same
    · exact distinct inFirst inSecond same
    · exact absurd same (differs inFirst second)
    · exact absurd same.symm (differs inSecond first)
    · exact (String.append_right_inj front).mp same
  · intro name listed
    exact if_pos listed

namespace Tree

/-- The names of the variables of a tree, be they read or assigned to. -/
def variableNames (tree : Tree) : List String :=
  readAt tree.preorder

/-- The tree with other names for its variables.  Functions keep their names. -/
def renamed (rename : String → String) (tree : Tree) : Tree :=
  tree.relabeled { name := rename }

variable {rename rename' : String → String}

mutual

/-- What a renaming does with names that a tree does not have does not matter. -/
theorem renamed_congr {tree : Tree}
    (same : ∀ name ∈ tree.variableNames, rename' name = rename name) :
    tree.renamed rename' = tree.renamed rename := by
  unfold variableNames at same
  cases tree with
  | identifier name note =>
      exact congrArg (identifier · note) (same name List.mem_cons_self)
  | number literal note => rfl
  | unary operator operand note => exact congrArg (unary operator · note) (renamed_congr same)
  | binary operator left right note =>
      rw [preorder_binary, readAt, List.filterMap_cons_none rfl, ← readAt, readAt_append,
        List.forall_mem_append] at same
      exact congrArg₂ (binary operator · · note) (renamed_congr same.1) (renamed_congr same.2)
  | call name arguments note =>
      rw [preorder_call, readAt, List.filterMap_cons_none rfl, ← readAt] at same
      exact congrArg (call name · note) (renamedAll_congr same)
  | assignment target value note =>
      rw [preorder_assignment, readAt, List.filterMap_cons_none rfl, ← readAt, readAt_append,
        List.forall_mem_append] at same
      exact congrArg₂ (assignment · · note) (renamed_congr same.1) (renamed_congr same.2)

theorem renamedAll_congr {trees : List Tree}
    (same : ∀ name ∈ readAt (preorderOfAll trees), rename' name = rename name) :
    relabeledAll { name := rename' } trees = relabeledAll { name := rename } trees := by
  cases trees with
  | nil => rfl
  | cons tree later =>
      rw [preorderOfAll_cons, readAt_append, List.forall_mem_append] at same
      exact congrArg₂ List.cons (renamed_congr same.1) (renamedAll_congr same.2)

end

theorem variableNames_relabeled (labels : Relabeling) (tree : Tree) :
    (tree.relabeled labels).variableNames = tree.variableNames.map labels.name := by
  rw [variableNames, preorder_relabeled, readAt_relabeled, variableNames]

theorem inferred_renamed (tree : Tree) : (tree.renamed rename).inferred = tree.inferred := by
  cases tree <;> rfl

/-- A name that is assigned to is the name of a variable. -/
theorem assignedAt_preorder_subset_variableNames (tree : Tree) :
    assignedAt tree.preorder ⊆ tree.variableNames := by
  intro name listed
  rcases List.mem_map.mp listed with ⟨target, isTarget, rfl⟩
  rcases List.mem_filterMap.mp isTarget with ⟨node, visited, isTarget⟩
  unfold target? at isTarget
  split at isTarget
  · rename_i name note value note'
    cases isTarget
    have assigned : identifier name note ∈ tree.preorder.filterMap assignedName? :=
      List.mem_filterMap.mpr ⟨_, visited, rfl⟩
    have alsoVisited := tree.preorder_perm.mem_iff.mpr (List.mem_append_right _ assigned)
    exact List.mem_filterMap.mpr ⟨_, alsoVisited, rfl⟩
  · cases isTarget

end Tree

/-- Whether there is an error among the findings can be told from their severities. -/
theorem Corresponds.anyError_eq {labels : Relabeling} {found found' : List Diagnostic}
    (corresponds : Corresponds labels found found') :
    Diagnostic.anyError found' = Diagnostic.anyError found := by
  have severities := congrArg (List.any · fun entry => decide (entry.2.1 = .error)) corresponds
  simp only [List.any_map] at severities
  exact severities

namespace Symbol

/-- The symbol with another name. -/
def renamed (rename : String → String) (symbol : Symbol) : Symbol :=
  { symbol with name := rename symbol.name }

end Symbol

namespace Analysis

variable {limits : Limits} {tree : Tree}

/-- The symbols of an analysis, also of one that was interrupted, are variables of the tree. -/
theorem name_mem_variableNames :
    ∀ symbol ∈ (ofTree limits tree).scopes.symbols, symbol.name ∈ tree.variableNames := by
  intro symbol listed
  have target := List.mem_map_of_mem (f := Symbol.target) listed
  refine tree.assignedAt_preorder_subset_variableNames ?_
  rcases tree.within_or_first_deep limits.depth with
    within | ⟨before, deep, later, visits, within, tooDeep⟩
  · rcases exists_accounts (codes_of_within within) with ⟨symbols, accounts⟩
    rw [accounts.targets_eq] at target
    exact Target.mem_map_firsts.mp (List.mem_map_of_mem target)
  · rcases Passes.run_of_deep visits within tooDeep with ⟨gathered, symbols, run, gathers⟩
    rw [ofTree_of_run run] at target
    simp only [ofPasses, gathers.holds.symbols_eq, gathers.declared] at target
    have visited : before.map Tree.Visit.node ⊆ tree.preorder := by
      rw [Tree.preorder, visits, List.map_append]
      exact List.subset_append_left _ _
    have earlier := Target.mem_map_firsts.mp (List.mem_map_of_mem target)
    exact List.map_subset _ (List.filterMap_subset _ visited) earlier

/-- An analysis writes types down and leaves the variables of the tree as they are. -/
theorem variableNames_ofTree : (ofTree limits tree).tree.variableNames = tree.variableNames := by
  have names (tree : Tree) : (tree.relabeled .untyped).variableNames = tree.variableNames := by
    rw [Tree.variableNames_relabeled]
    exact List.map_id _
  rw [← names, untyped_ofTree, names]

/-- Renaming the variables of a tree, so that those of different names keep different names, changes
the analysis in these names only.  The new names may be those of known functions.  The verdict is
the same, and the findings have the same codes, severities and positions; every node has the same
type; and the symbols are the same in the same order under their new names. -/
theorem commutes_with_renaming {rename : String → String}
    (distinct : Set.InjOn rename {name | name ∈ tree.variableNames}) (limits : Limits) :
    let original := ofTree limits tree
    let analysis := ofTree limits (tree.renamed rename)
    analysis.succeeded = original.succeeded ∧
    analysis.diagnostics.map (fun finding => (finding.code, finding.severity, finding.position)) =
      original.diagnostics.map (fun finding =>
        (finding.code, finding.severity, finding.position)) ∧
    analysis.tree = original.tree.renamed rename ∧
    analysis.tree.preorder.map Tree.inferred = original.tree.preorder.map Tree.inferred ∧
    analysis.scopes.symbols = original.scopes.symbols.map (Symbol.renamed rename) := by
  intro original analysis
  rcases exists_injective_of_injOn distinct with ⟨rename', injective, same⟩
  have relabels : Relabels { name := rename' } original analysis := by
    change Relabels _ _ (ofTree limits (tree.renamed rename))
    rw [← Tree.renamed_congr same]
    exact ofTree_relabeled injective rfl limits tree
  have inOriginal : ∀ name ∈ original.tree.variableNames, rename' name = rename name := by
    rw [variableNames_ofTree]
    exact same
  have tree' : analysis.tree = original.tree.renamed rename :=
    relabels.tree.trans (Tree.renamed_congr inOriginal)
  refine ⟨?_, relabels.found, tree', ?_, ?_⟩
  · rw [succeeded, succeeded, relabels.found.anyError_eq]
  · rw [tree', Tree.renamed, Tree.preorder_relabeled, List.map_map]
    exact List.map_congr_left fun node _ => node.inferred_renamed
  · rw [relabels.symbols]
    refine List.map_congr_left fun symbol listed => ?_
    exact congrArg ({ symbol with name := · }) (same _ (name_mem_variableNames symbol listed))

/-- In `(x = 1) + (x = 2) + f(g(q) = y)` the variables get the names of a function, of the function
that is called, and of one another. -/
theorem commutes_with_renaming_mixed :
    let rename := fun name => if name = "x" then "sqrt" else if name = "q" then "x" else "g"
    Set.InjOn rename {name | name ∈ Tree.mixed.variableNames} ∧
      (ofTree ⟨2, 0⟩ (Tree.mixed.renamed rename)).tree =
        (ofTree ⟨2, 0⟩ .mixed).tree.renamed rename ∧
      (ofTree ⟨2, 0⟩ (Tree.mixed.renamed rename)).scopes.symbols =
        [⟨"sqrt", .integer, ⟨1, 2⟩, false, true⟩] := by
  intro rename
  have distinct : Set.InjOn rename {name | name ∈ Tree.mixed.variableNames} := by
    have table : ∀ first ∈ Tree.mixed.variableNames, ∀ second ∈ Tree.mixed.variableNames,
        rename first = rename second → first = second := by
      decide +kernel
    exact fun first inFirst second inSecond => table first inFirst second inSecond
  rcases commutes_with_renaming distinct ⟨2, 0⟩ with ⟨_, _, tree, _, symbols⟩
  exact ⟨distinct, tree, symbols.trans (by decide +kernel)⟩

end Analysis
end ExpressionChecker

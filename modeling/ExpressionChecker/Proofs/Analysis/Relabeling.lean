import ExpressionChecker.Proofs.Analysis.Interruption
import ExpressionChecker.Proofs.Tree.Relabeling
import Mathlib.Data.List.Basic

namespace ExpressionChecker

/-!
# Analyses under other labels

An analysis asks of two names only whether they are the same, never compares positions, and does not
read what is written down in the tree.  So other labels, of which no two names become one, change
the analysis in the labels and nowhere else.  Two runs are followed side by side: the tables keep in
step node by node, types agree where the tables do, and every finding about one tree is matched by
one about the other, though its wording may quote a label.
-/

variable {labels : Relabeling}

/-! ## Types -/

namespace Relabeling

/-- The same change, except that what is written down stays. -/
def keepingTypes (labels : Relabeling) : Relabeling :=
  { labels with inferred := id }

end Relabeling

namespace Tree

theorem impliedType_relabeled {typeOf typeOf' : String → DataType}
    (same : ∀ name, typeOf' (labels.name name) = typeOf name) (tree : Tree) :
    (tree.relabeled labels).impliedType typeOf' = tree.impliedType typeOf := by
  cases tree with
  | identifier name note => exact same name
  | number literal note => rfl
  | unary operator operand note =>
      have inside := impliedType_relabeled same operand
      simp only [relabeled, impliedType, inside]
  | binary operator left right note =>
      have inside := impliedType_relabeled same left
      simp only [relabeled, impliedType, inside]
  | call name arguments note => rfl
  | assignment target value note => exact impliedType_relabeled same value

variable {declared declared' : String → Option DataType}

theorem settledType_relabeled (same : ∀ name, declared' (labels.name name) = declared name)
    (tree : Tree) :
    (tree.relabeled labels).settledType declared' = tree.settledType declared := by
  cases tree with
  | identifier name note => exact congrArg (Option.getD · _) (same name)
  | number literal note => rfl
  | unary operator operand note =>
      exact congrArg (OperatorClass.operationType operator) (settledType_relabeled same operand)
  | binary operator left right note =>
      exact congrArg (OperatorClass.operationType operator) (settledType_relabeled same left)
  | call name arguments note => rfl
  | assignment target value note =>
      cases target with
      | identifier name note' => exact congrArg (Option.getD · _) (same name)
      | _ => rfl

mutual

/-- The types are written down beside the new labels, and nothing is left of what was written there
before. -/
theorem annotated_relabeled (same : ∀ name, declared' (labels.name name) = declared name)
    (tree : Tree) :
    (tree.relabeled labels).annotated declared' =
      (tree.annotated declared).relabeled labels.keepingTypes := by
  have type := settledType_relabeled same tree
  cases tree with
  | identifier name note =>
      simp only [relabeled, annotated] at type ⊢
      rw [type]
      rfl
  | number literal note => rfl
  | unary operator operand note =>
      have below := annotated_relabeled same operand
      simp only [relabeled, annotated] at type ⊢
      rw [type, below]
      rfl
  | binary operator left right note =>
      have inLeft := annotated_relabeled same left
      have inRight := annotated_relabeled same right
      simp only [relabeled, annotated] at type ⊢
      rw [type, inLeft, inRight]
      rfl
  | call name arguments note =>
      have below := annotatedAll_relabeled same arguments
      simp only [relabeled, annotated] at type ⊢
      rw [type, below]
      rfl
  | assignment target value note =>
      have inTarget := annotated_relabeled same target
      have inValue := annotated_relabeled same value
      simp only [relabeled, annotated] at type ⊢
      rw [type, inTarget, inValue]
      rfl

theorem annotatedAll_relabeled (same : ∀ name, declared' (labels.name name) = declared name)
    (trees : List Tree) :
    annotatedAll declared' (relabeledAll labels trees) =
      relabeledAll labels.keepingTypes (annotatedAll declared trees) := by
  cases trees with
  | nil => rfl
  | cons tree later =>
      have first := annotated_relabeled same tree
      have others := annotatedAll_relabeled same later
      simp only [relabeledAll, annotatedAll, first, others]

end

end Tree

/-! ## Findings -/

/-- The findings agree one by one in their codes and severities, and their positions are those of
the new labels. -/
def Corresponds (labels : Relabeling) (found found' : List Diagnostic) : Prop :=
  found'.map (fun finding => (finding.code, finding.severity, finding.position)) =
    found.map fun finding => (finding.code, finding.severity, labels.position finding.position)

namespace Corresponds

variable {found found' further further' : List Diagnostic}

theorem nil : Corresponds labels [] [] :=
  rfl

theorem single (code : DiagnosticCode) (position : Position) (message message' : String) :
    Corresponds labels [.report code position message]
      [.report code (labels.position position) message'] :=
  rfl

theorem append (first : Corresponds labels found found')
    (second : Corresponds labels further further') :
    Corresponds labels (found ++ further) (found' ++ further') := by
  unfold Corresponds at *
  rw [List.map_append, List.map_append, first, second]

theorem ite {condition : Prop} [Decidable condition] (first : Corresponds labels found found')
    (second : Corresponds labels further further') :
    Corresponds labels (if condition then found else further)
      (if condition then found' else further') := by
  split
  · exact first
  · exact second

theorem flatMap {find find' : Tree → List Diagnostic}
    (each : ∀ node : Tree, Corresponds labels (find node) (find' (node.relabeled labels)))
    (nodes : List Tree) :
    Corresponds labels (nodes.flatMap find)
      ((nodes.map (Tree.relabeled labels)).flatMap find') := by
  induction nodes with
  | nil => exact .nil
  | cons node later inductionHypothesis => exact (each node).append inductionHypothesis

theorem codes_eq (corresponds : Corresponds labels found found') :
    found'.map Diagnostic.code = found.map Diagnostic.code := by
  have codes := congrArg (List.map Prod.fst) corresponds
  rwa [List.map_map, List.map_map] at codes

end Corresponds

namespace Judgement

variable (labels) (position : Position)

theorem ofIdentifier_corresponds (name name' : String) (declared : Option DataType) :
    Corresponds labels (ofIdentifier name declared position).findings
      (ofIdentifier name' declared (labels.position position)).findings := by
  cases declared with
  | none => exact .single _ _ _ _
  | some type => exact .nil

theorem ofNumber_corresponds (literal : String) :
    Corresponds labels (ofNumber literal position).findings
      (ofNumber literal (labels.position position)).findings :=
  .ite .nil (.single _ _ _ _)

theorem ofOperation_corresponds (operator : Operator) (left : DataType) (right : Option DataType) :
    Corresponds labels (ofOperation operator position left right).findings
      (ofOperation operator (labels.position position) left right).findings := by
  have operand (operatorClass : OperatorClass) (side : String) (type : DataType) :
      Corresponds labels (operandFindings operator operatorClass position side type)
        (operandFindings operator operatorClass (labels.position position) side type) :=
    .ite .nil (.single _ _ _ _)
  unfold ofOperation
  cases OperatorClass.of? operator with
  | none => exact .single _ _ _ _
  | some operatorClass =>
      cases right with
      | none => exact (operand operatorClass "left" left).append .nil
      | some right =>
          have compared : Corresponds labels
              (comparisonFindings operator operatorClass position left right)
              (comparisonFindings operator operatorClass (labels.position position) left right) :=
            .ite (.single _ _ _ _) .nil
          exact (operand operatorClass "left" left).append
            ((operand operatorClass "right" right).append compared)

/-- The argument at its new position. -/
def Argument.relabeled (argument : Argument) : Argument :=
  ⟨labels.position argument.position, argument.type⟩

theorem argumentFindings_corresponds (function : KnownFunction) (number : Nat)
    (parameters : List DataType) (arguments : List Argument) :
    Corresponds labels (argumentFindings function number parameters arguments)
      (argumentFindings function number parameters
        (arguments.map (Argument.relabeled labels))) := by
  induction parameters generalizing number arguments with
  | nil => exact .nil
  | cons expected parameters inductionHypothesis =>
      cases arguments with
      | nil => exact .nil
      | cons argument arguments =>
          exact .append (.ite .nil (.single _ _ _ _)) (inductionHypothesis _ _)

theorem ofCall_corresponds (name : String) (arguments : List Argument) :
    Corresponds labels (ofCall name position arguments).findings
      (ofCall name (labels.position position)
        (arguments.map (Argument.relabeled labels))).findings := by
  unfold ofCall
  cases KnownFunction.ofName? name with
  | none => exact .single _ _ _ _
  | some function =>
      simp only [List.length_map]
      exact .ite (argumentFindings_corresponds _ _ _ _ _) (.single _ _ _ _)

theorem ofAssignment_corresponds (name name' : String) (declared : Option DataType)
    (value : DataType) :
    Corresponds labels (ofAssignment name declared position value).findings
      (ofAssignment name' declared (labels.position position) value).findings := by
  cases declared with
  | none => exact .nil
  | some type => exact .ite .nil (.single _ _ _ _)

end Judgement

/-- What is wrong with a node is wrong with it under other labels. -/
theorem Tree.ownFindings_corresponds {declared declared' : String → Option DataType}
    (same : ∀ name, declared' (labels.name name) = declared name) (node : Tree) :
    Corresponds labels (node.ownFindings declared)
      ((node.relabeled labels).ownFindings declared') := by
  have type := settledType_relabeled same
  cases node with
  | identifier name note =>
      simp only [relabeled, ownFindings, same]
      exact Judgement.ofIdentifier_corresponds labels note.position name _ _
  | number literal note => exact Judgement.ofNumber_corresponds labels note.position literal
  | unary operator operand note =>
      simp only [relabeled, ownFindings, type]
      exact Judgement.ofOperation_corresponds labels note.position operator _ _
  | binary operator left right note =>
      simp only [relabeled, ownFindings, type]
      exact Judgement.ofOperation_corresponds labels note.position operator _ _
  | call name arguments note =>
      have moved : (relabeledAll labels arguments).map (fun argument =>
          Judgement.Argument.mk argument.position (argument.settledType declared')) =
          (arguments.map fun argument =>
            Judgement.Argument.mk argument.position (argument.settledType declared)).map
              (Judgement.Argument.relabeled labels) := by
        rw [relabeledAll_eq_map, List.map_map, List.map_map]
        refine List.map_congr_left fun argument _ => ?_
        simp only [Function.comp, type, position_relabeled, Judgement.Argument.relabeled]
      simp only [relabeled, ownFindings, moved]
      exact Judgement.ofCall_corresponds labels note.position name _
  | assignment target value note =>
      cases named : target.name? with
      | some name =>
          cases target with
          | identifier name note' =>
              simp only [relabeled, ownFindings, type, same]
              exact Judgement.ofAssignment_corresponds labels note.position name _ _ _
          | _ => cases named
      | none =>
          have other : (target.relabeled labels).name? = none := by
            rw [name?_relabeled, named]
            rfl
          rw [relabeled, ownFindings_invalidTarget named, ownFindings_invalidTarget other,
            kindName_relabeled]
          exact .single _ _ _ _

/-! ## Tables -/

theorem readAt_relabeled (nodes : List Tree) :
    readAt (nodes.map (Tree.relabeled labels)) = (readAt nodes).map labels.name := by
  rw [readAt, readAt, List.filterMap_map, List.map_filterMap]
  exact List.filterMap_congr fun node _ => Tree.name?_relabeled labels node

theorem assignedAt_relabeled (nodes : List Tree) :
    assignedAt (nodes.map (Tree.relabeled labels)) = (assignedAt nodes).map labels.name := by
  have target (node : Tree) : (node.relabeled labels).target?.map Prod.fst =
      (node.target?.map Prod.fst).map labels.name := by
    cases node with
    | assignment target value note => cases target <;> rfl
    | _ => rfl
  rw [assignedAt, assignedAt, Declarations.targetsAt, Declarations.targetsAt, List.filterMap_map,
    List.map_filterMap, List.map_filterMap, List.map_filterMap]
  exact List.filterMap_congr fun node _ => target node

/-- The symbol with other labels. -/
def Symbol.relabeled (labels : Relabeling) (symbol : Symbol) : Symbol :=
  { symbol with name := labels.name symbol.name, position := labels.position symbol.position }

namespace Declarations

/-- What has been gathered under other labels is what has been gathered, with other labels. -/
structure Alike (labels : Relabeling) (gathered gathered' : Declarations) (symbols : List Symbol) :
    Prop where
  holds : gathered.scopes.Holds symbols
  holds' : gathered'.scopes.Holds (symbols.map (Symbol.relabeled labels))
  found : Corresponds labels gathered.diagnostics gathered'.diagnostics

theorem Alike.empty : Alike labels .empty .empty [] :=
  ⟨Scopes.Holds.empty, Scopes.Holds.empty, .nil⟩

end Declarations

section Injective

variable (injective : Function.Injective labels.name)

include injective

/-- A name finds its symbol under other labels, and no other name does. -/
theorem Symbol.find?_relabeled (symbols : List Symbol) (name : String) :
    (symbols.map (relabeled labels)).find? (fun symbol => decide (symbol.name = labels.name name)) =
      (symbols.find? fun symbol => decide (symbol.name = name)).map (relabeled labels) := by
  have named (symbol : Symbol) :
      (symbol.relabeled labels).name = labels.name name ↔ symbol.name = name :=
    injective.eq_iff
  rw [List.find?_map]
  simp only [Function.comp_def, named]

/-- A symbol is marked by the nodes under other labels as it was by the nodes. -/
theorem Symbol.marked_relabeled (nodes : List Tree) (symbol : Symbol) :
    (symbol.relabeled labels).marked (nodes.map (Tree.relabeled labels)) =
      (symbol.marked nodes).relabeled labels := by
  have listed (names : List String) : labels.name symbol.name ∈ names.map labels.name ↔
      symbol.name ∈ names :=
    List.mem_map_of_injective injective
  simp only [marked, Symbol.relabeled, readAt_relabeled, assignedAt_relabeled, listed]

namespace Scopes.Holds

variable {scopes scopes' : Scopes} {symbols : List Symbol}

theorem declaredType?_relabeled (holds : scopes.Holds symbols)
    (holds' : scopes'.Holds (symbols.map (Symbol.relabeled labels))) (name : String) :
    scopes'.declaredType? (labels.name name) = scopes.declaredType? name := by
  rw [declaredType?, declaredType?, holds.lookup?_eq, holds'.lookup?_eq,
    Symbol.find?_relabeled injective, Option.map_map]
  rfl

end Scopes.Holds

namespace Declarations

namespace Alike

variable {gathered gathered' : Declarations} {symbols : List Symbol}

theorem add (alike : Alike labels gathered gathered' symbols) (name : String) (type : DataType)
    (position : Position) :
    ∃ symbols', Alike labels (gathered.add name type position)
      (gathered'.add (labels.name name) type (labels.position position)) symbols' := by
  have found := Symbol.find?_relabeled injective symbols name
  cases known : symbols.find? fun symbol => decide (symbol.name = name) with
  | some previous =>
      rw [known, Option.map_some] at found
      have refused := alike.holds.declare_known known type position
      have refused' := alike.holds'.declare_known found type (labels.position position)
      refine ⟨symbols, ?_⟩
      simp only [Declarations.add, refused, refused']
      exact ⟨alike.holds, alike.holds', alike.found.append (.single _ _ _ _)⟩
  | none =>
      rw [known, Option.map_none] at found
      have unknown : ∀ symbol ∈ symbols, symbol.name ≠ name :=
        fun symbol listed named => List.find?_eq_none.mp known symbol listed (decide_eq_true named)
      have unknown' : ∀ symbol ∈ symbols.map (Symbol.relabeled labels),
          symbol.name ≠ labels.name name :=
        fun symbol listed named => List.find?_eq_none.mp found symbol listed (decide_eq_true named)
      rcases alike.holds.declare unknown type position with ⟨scopes, declared, holds⟩
      rcases alike.holds'.declare unknown' type (labels.position position) with
        ⟨scopes', declared', holds'⟩
      refine ⟨symbols ++ [⟨name, type, position, false, false⟩], ?_⟩
      simp only [Declarations.add, declared, declared']
      refine ⟨holds, ?_, alike.found⟩
      rw [List.map_append]
      exact holds'

theorem behind (alike : Alike labels gathered gathered' symbols) (node : Tree) :
    ∃ symbols', Alike labels (gathered.behind node) (gathered'.behind (node.relabeled labels))
      symbols' := by
  have types : ∀ name, gathered'.scopes.typeOf (labels.name name) = gathered.scopes.typeOf name :=
    fun name => congrArg (Option.getD · _)
      (alike.holds.declaredType?_relabeled injective alike.holds' name)
  cases node with
  | assignment target value note =>
      cases target with
      | identifier name note' =>
          simp only [Declarations.behind, Tree.relabeled, Tree.impliedType_relabeled types value]
          exact alike.add injective name _ note'.position
      | _ => exact ⟨symbols, alike⟩
  | _ => exact ⟨symbols, alike⟩

/-- The tables keep in step over any nodes. -/
theorem foldl (alike : Alike labels gathered gathered' symbols) (nodes : List Tree) :
    ∃ symbols', Alike labels (nodes.foldl Declarations.behind gathered)
      ((nodes.map (Tree.relabeled labels)).foldl Declarations.behind gathered') symbols' := by
  induction nodes generalizing gathered gathered' symbols with
  | nil => exact ⟨symbols, alike⟩
  | cons node later inductionHypothesis =>
      rcases alike.behind injective node with ⟨symbols', atNode⟩
      exact inductionHypothesis atNode

end Alike
end Declarations

end Injective

theorem Scopes.unusedWarnings_corresponds {scopes scopes' : Scopes}
    (symbols : scopes'.symbols = scopes.symbols.map (Symbol.relabeled labels)) :
    Corresponds labels scopes.unusedWarnings scopes'.unusedWarnings := by
  rw [Corresponds, unusedWarnings, unusedWarnings, symbols, List.filter_map, List.map_map,
    List.map_map, List.map_map]
  rfl

/-! ## Whole analyses -/

/-- The result of an analysis with other labels. -/
structure Analysis.Relabels (labels : Relabeling) (analysis analysis' : Analysis) : Prop where
  tree : analysis'.tree = analysis.tree.relabeled labels
  symbols : analysis'.scopes.symbols = analysis.scopes.symbols.map (Symbol.relabeled labels)
  found : Corresponds labels analysis.diagnostics analysis'.diagnostics

namespace Analysis

variable (injective : Function.Injective labels.name) {limits : Limits} {tree : Tree}

include injective

theorem ofTree_relabeled_of_deep {before later : List Tree.Visit} {deep : Tree.Visit}
    (visits : tree.visits = before ++ deep :: later)
    (within : ∀ visit ∈ before, visit.calls ≤ limits.depth) (tooDeep : limits.depth < deep.calls) :
    Relabels labels (ofTree limits tree) (ofTree limits (tree.relabeled labels)) := by
  have visits' : (tree.relabeled labels).visits = before.map (Tree.Visit.relabeled labels) ++
      deep.relabeled labels :: later.map (Tree.Visit.relabeled labels) := by
    rw [Tree.visits_relabeled, visits, List.map_append, List.map_cons]
  have within' : ∀ visit ∈ before.map (Tree.Visit.relabeled labels),
      visit.calls ≤ limits.depth :=
    List.forall_mem_map.mpr within
  have nodes : (before.map (Tree.Visit.relabeled labels)).map Tree.Visit.node =
      (before.map Tree.Visit.node).map (Tree.relabeled labels) := by
    rw [List.map_map, List.map_map]
    rfl
  rcases Declarations.Alike.empty.foldl injective (before.map Tree.Visit.node) with
    ⟨symbols, alike⟩
  have stops := Tree.declare_of_deep visits within tooDeep .empty
  have tooDeep' : limits.depth < (deep.relabeled labels).calls := tooDeep
  have stops' := Tree.declare_of_deep visits' within' tooDeep' .empty
  rw [nodes] at stops'
  simp only [ofTree, Passes.run, stops, stops', ofPasses]
  refine ⟨rfl, ?_, alike.found.append ?_⟩
  · rw [alike.holds.symbols_eq, alike.holds'.symbols_eq]
  · rw [Tree.Visit.relabeled, Tree.position_relabeled]
    exact .single _ _ _ _

theorem ofTree_relabeled_of_within (keeps : labels.inferred = id)
    (within : ∀ visit ∈ tree.visits, visit.calls ≤ limits.depth) :
    Relabels labels (ofTree limits tree) (ofTree limits (tree.relabeled labels)) := by
  have within' : ∀ visit ∈ (tree.relabeled labels).visits, visit.calls ≤ limits.depth := by
    rw [Tree.visits_relabeled]
    exact List.forall_mem_map.mpr within
  rcases Declarations.Alike.empty.foldl injective tree.preorder with ⟨symbols, alike⟩
  have types := alike.holds.declaredType?_relabeled injective alike.holds'
  have marked := alike.holds.foldl_behind tree.evaluation
  have marked' := alike.holds'.foldl_behind (tree.evaluation.map (Tree.relabeled labels))
  have table : ((tree.evaluation.map (Tree.relabeled labels)).foldl Scopes.behind
        ((tree.preorder.map (Tree.relabeled labels)).foldl Declarations.behind .empty).scopes
      ).symbols = (tree.evaluation.foldl Scopes.behind
        (tree.preorder.foldl Declarations.behind .empty).scopes).symbols.map
          (Symbol.relabeled labels) := by
    rw [marked.symbols_eq, marked'.symbols_eq, List.map_map, List.map_map]
    exact List.map_congr_left fun symbol _ => symbol.marked_relabeled injective _
  have keepsAll : labels.keepingTypes = labels := by
    rw [Relabeling.keepingTypes, ← keeps]
  rw [ofTree, ofTree, Passes.run_eq_of_within within, Passes.run_eq_of_within within']
  simp only [ofPasses, Tree.verifiedIn, Tree.preorder_relabeled, Tree.evaluation_relabeled]
  refine ⟨?_, table, ?_⟩
  · exact (Tree.annotated_relabeled types tree).trans (keepsAll ▸ rfl)
  · refine (alike.found.append ?_).append (Scopes.unusedWarnings_corresponds table)
    exact Corresponds.flatMap (Tree.ownFindings_corresponds types) tree.evaluation

/-- The analysis of a tree under other labels is its analysis under other labels, also where it is
interrupted. -/
theorem ofTree_relabeled (keeps : labels.inferred = id) (limits : Limits) (tree : Tree) :
    Relabels labels (ofTree limits tree) (ofTree limits (tree.relabeled labels)) := by
  rcases tree.within_or_first_deep limits.depth with
    within | ⟨before, deep, later, visits, within, tooDeep⟩
  · exact ofTree_relabeled_of_within injective keeps within
  · exact ofTree_relabeled_of_deep injective visits within tooDeep

end Analysis
end ExpressionChecker

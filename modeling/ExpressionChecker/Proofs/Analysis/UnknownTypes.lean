import ExpressionChecker.Proofs.Analysis.DeclaredTypes
import ExpressionChecker.Proofs.Tree.Blurring

namespace ExpressionChecker

/-!
# Unknown types cause no findings

A part of a tree whose type is unknown was found wrong where it stands, and is not found wrong again
by what is built on top of it.  Two analyses show this, one of a tree and one of the same tree with a
part made unknown.  Side by side, every type of the second is vaguer than the one of the first: the
types that names are declared with, and from them the types of all nodes.  A vaguer type never causes
a finding about types that the other one does not cause, and where it is known it causes the same.
-/

variable {assigned : List String}

/-! ## Types of blurred trees -/

namespace Tree.Blurred

/-- A blurred tree has a vaguer type, if less is known about the names and nothing about those that
stand in for parts. -/
theorem impliedType_vaguer {typeOf typeOf' : String → DataType}
    (vaguer : ∀ name, (typeOf' name).Vaguer (typeOf name))
    (unknown : ∀ name ∉ assigned, typeOf' name = .undefined) {tree tree' : Tree}
    (blurred : Blurred assigned tree tree') :
    (tree'.impliedType typeOf').Vaguer (tree.impliedType typeOf) := by
  cases blurred with
  | part plain isUnknown note => exact .inl (unknown _ isUnknown)
  | identifier name note => exact vaguer name
  | number literal note => exact .refl _
  | unary operator note inOperand =>
      exact (impliedType_vaguer vaguer unknown inOperand).operation operator
  | binary operator note inLeft inRight =>
      exact (impliedType_vaguer vaguer unknown inLeft).operation operator
  | call name note inArguments => exact .refl _
  | named name note note' inValue =>
      have ofValue := impliedType_vaguer vaguer unknown inValue
      exact ofValue
  | invalid note other other' inTarget inValue =>
      have ofValue := impliedType_vaguer vaguer unknown inValue
      exact ofValue

end Tree.Blurred

/-! ## Tables -/

/-- The second table declares the same names as the first with vaguer types, and none that stands in
for a part. -/
structure VaguerTable (assigned : List String) (declared declared' : String → Option DataType) :
    Prop where
  types : ∀ name, Option.Rel DataType.Vaguer (declared' name) (declared name)
  unknown : ∀ name ∉ assigned, declared' name = none

namespace VaguerTable

variable {declared declared' : String → Option DataType}

theorem getD (table : VaguerTable assigned declared declared') (name : String) :
    ((declared' name).getD .undefined).Vaguer ((declared name).getD .undefined) := by
  have types := table.types name
  generalize declared' name = type' at types ⊢
  generalize declared name = type at types ⊢
  cases types with
  | some vaguer => exact vaguer
  | none => exact .refl _

theorem getD_unknown (table : VaguerTable assigned declared declared') :
    ∀ name ∉ assigned, (declared' name).getD .undefined = .undefined := by
  intro name isUnknown
  rw [table.unknown name isUnknown]
  rfl

end VaguerTable

namespace Declarations

/-- The second table is the vaguer one. -/
abbrev VaguerBehind (assigned : List String) (gathered gathered' : Declarations) : Prop :=
  VaguerTable assigned gathered.scopes.declaredType? gathered'.scopes.declaredType?

theorem vaguerBehind_empty : VaguerBehind assigned .empty .empty :=
  ⟨fun _ => .none, fun _ _ => rfl⟩

variable {gathered gathered' : Declarations} {targets targets' : List Target}
  {symbols symbols' : List Symbol}

/-- A name that is declared in both tables, in the second one with a vaguer type, leaves it the
vaguer one. -/
theorem VaguerBehind.add (table : VaguerBehind assigned gathered gathered')
    (gathers : Gathers gathered targets symbols) (gathers' : Gathers gathered' targets' symbols')
    {name : String} (isAssigned : name ∈ assigned) {type type' : DataType}
    (vaguer : type'.Vaguer type) (position : Position) :
    VaguerBehind assigned (gathered.add name type position)
      (gathered'.add name type' position) := by
  constructor
  · intro other
    have types := table.types other
    rw [gathers.declaredType?_add, gathers'.declaredType?_add]
    generalize gathered'.scopes.declaredType? other = before' at types ⊢
    generalize gathered.scopes.declaredType? other = before at types ⊢
    cases types with
    | some known => exact .some known
    | none =>
        split
        · exact .some vaguer
        · exact .none
  · intro other isUnknown
    have different : other ≠ name := fun same => isUnknown (same ▸ isAssigned)
    rw [gathers'.declaredType?_add, table.unknown other isUnknown, if_neg different]
    rfl

theorem behindAll_declaring (nodes : List Tree) :
    behindAll (Tree.declaring nodes) = behindAll nodes := by
  have skips : (fun gathered node => if (Tree.target? node).isSome then behind gathered node
      else gathered) = behind := by
    funext gathered node
    split
    · rfl
    · rename_i noTarget
      unfold behind
      split
      · exact (noTarget rfl).elim
      · rfl
  rw [behindAll, behindAll, Tree.declaring, List.foldl_filter, skips]

theorem VaguerBehind.foldl (table : VaguerBehind assigned gathered gathered')
    (gathers : Gathers gathered targets symbols) (gathers' : Gathers gathered' targets' symbols')
    {nodes nodes' : List Tree} (blurred : List.Forall₂ (Tree.Blurred assigned) nodes nodes')
    (declares : ∀ node ∈ nodes', node.target?.isSome = true)
    (among : assignedAt nodes ⊆ assigned) :
    VaguerBehind assigned (nodes.foldl behind gathered) (nodes'.foldl behind gathered') := by
  induction blurred generalizing gathered gathered' targets targets' symbols symbols' with
  | nil => exact table
  | @cons node node' later later' first others inductionHypothesis =>
      rw [List.forall_mem_cons] at declares
      rcases first.exists_named declares.1 with
        ⟨name, note, note', value, value', rfl, rfl, inValue⟩
      rcases gathers.behind (.assignment (.identifier name note) value note') with ⟨_, next⟩
      rcases gathers'.behind (.assignment (.identifier name note) value' note') with ⟨_, next'⟩
      have whole := assignedAt_append [.assignment (.identifier name note) value note'] later
      rw [List.singleton_append] at whole
      rw [whole] at among
      have isAssigned : name ∈ assigned :=
        among (List.mem_append_left _ (List.mem_singleton.mpr rfl))
      have vaguer := inValue.impliedType_vaguer table.getD table.getD_unknown
      exact inductionHypothesis (table.add gathers gathers' isAssigned vaguer note.position) next
        next' declares.2 fun _ listed => among (List.mem_append_right _ listed)

/-- The declaration pass over a blurred tree makes a vaguer table. -/
theorem vaguerBehind_preorder {tree tree' : Tree}
    (blurred : Tree.Blurred (assignedAt tree.preorder) tree tree') :
    VaguerBehind (assignedAt tree.preorder) (behindAll tree.preorder)
      (behindAll tree'.preorder) := by
  rw [← behindAll_declaring tree.preorder, ← behindAll_declaring tree'.preorder]
  refine vaguerBehind_empty.foldl .empty .empty blurred.declaring_preorder ?_ ?_
  · exact fun node listed => (List.mem_filter.mp listed).2
  · exact List.map_subset _ (List.filterMap_subset _ (List.filter_subset_self _))

end Declarations

/-! ## Types and findings by the complete table -/

namespace Tree.Blurred

variable {declared declared' : String → Option DataType}

theorem settledType_vaguer (table : VaguerTable assigned declared declared') {tree tree' : Tree}
    (blurred : Blurred assigned tree tree') :
    (tree'.settledType declared').Vaguer (tree.settledType declared) := by
  cases blurred with
  | part plain isUnknown note => exact .inl (table.getD_unknown _ isUnknown)
  | identifier name note => exact table.getD name
  | number literal note => exact .refl _
  | unary operator note inOperand => exact (settledType_vaguer table inOperand).operation operator
  | binary operator note inLeft inRight => exact (settledType_vaguer table inLeft).operation operator
  | call name note inArguments => exact .refl _
  | named name note note' inValue => exact table.getD name
  | invalid note other other' inTarget inValue =>
      rw [settledType_invalidTarget other']
      exact .unknown _

/-- A blurred tree stands where the tree stood, unless it is unknown as a whole. -/
theorem position_eq_or_unknown (table : VaguerTable assigned declared declared') {tree tree' : Tree}
    (blurred : Blurred assigned tree tree') :
    tree'.settledType declared' = .undefined ∨ tree'.position = tree.position := by
  cases blurred with
  | part plain isUnknown note => exact .inl (table.getD_unknown _ isUnknown)
  | _ => exact .inr rfl

end Tree.Blurred

/-! ## Findings about types -/

/-- The codes of findings about types that do not go together. -/
def mismatchCodes : List DiagnosticCode :=
  [.operandType, .incompatibleTypes, .argumentType, .incompatibleAssignment]

/-- Those of several findings that are about types. -/
def mismatches (findings : List Diagnostic) : List Diagnostic :=
  findings.filter (·.code ∈ mismatchCodes)

theorem mismatches_append (first second : List Diagnostic) :
    mismatches (first ++ second) = mismatches first ++ mismatches second :=
  List.filter_append first second

theorem Coded.mismatches_eq_nil {codes : List DiagnosticCode} {findings : List Diagnostic}
    (coded : Coded codes findings) (others : ∀ code ∈ codes, code ∉ mismatchCodes) :
    mismatches findings = [] := by
  rw [mismatches, List.filter_eq_nil_iff]
  intro finding found listed
  exact others _ (coded finding found) (of_decide_eq_true listed)

namespace Judgement

/-- A vaguer argument is unknown or the same one. -/
def Argument.Vaguer (vague argument : Argument) : Prop :=
  vague.type = .undefined ∨ vague = argument

variable {left left' right right' value value' : DataType}

theorem operandFindings_sublist (operator : Operator) (operatorClass : OperatorClass)
    (position : Position) (side : String) (vaguer : left'.Vaguer left) :
    (operandFindings operator operatorClass position side left').Sublist
      (operandFindings operator operatorClass position side left) := by
  rcases vaguer with rfl | rfl
  · have accepted : operatorClass.accepts .undefined = true := by cases operatorClass <;> rfl
    rw [operandFindings, if_pos accepted]
    exact List.nil_sublist _
  · exact .refl _

theorem comparisonFindings_sublist (operator : Operator) (operatorClass : OperatorClass)
    (position : Position) (vaguerLeft : left'.Vaguer left) (vaguerRight : right'.Vaguer right) :
    (comparisonFindings operator operatorClass position left' right').Sublist
      (comparisonFindings operator operatorClass position left right) := by
  rcases vaguerLeft with rfl | rfl
  · rw [comparisonFindings, if_neg fun known => known.2.2.1 rfl]
    exact List.nil_sublist _
  · rcases vaguerRight with rfl | rfl
    · rw [comparisonFindings, if_neg fun known => known.2.2.2 rfl]
      exact List.nil_sublist _
    · exact .refl _

theorem ofOperation_sublist (operator : Operator) (position : Position)
    (vaguerLeft : left'.Vaguer left) {right right' : Option DataType}
    (vaguerRight : Option.Rel DataType.Vaguer right' right) :
    (ofOperation operator position left' right').findings.Sublist
      (ofOperation operator position left right).findings := by
  unfold ofOperation
  cases OperatorClass.of? operator with
  | none => exact .refl _
  | some operatorClass =>
      have onLeft := operandFindings_sublist operator operatorClass position "left" vaguerLeft
      cases vaguerRight with
      | none => exact onLeft.append (.refl _)
      | some vaguer =>
          have onRight := operandFindings_sublist operator operatorClass position "right" vaguer
          exact onLeft.append (onRight.append
            (comparisonFindings_sublist operator operatorClass position vaguerLeft vaguer))

theorem argumentFindings_sublist (function : KnownFunction) (number : Nat)
    (parameters : List DataType) {arguments arguments' : List Argument}
    (vaguer : List.Forall₂ Argument.Vaguer arguments' arguments) :
    (argumentFindings function number parameters arguments').Sublist
      (argumentFindings function number parameters arguments) := by
  induction vaguer generalizing number parameters with
  | nil => exact .refl _
  | @cons argument' argument later' later first others inductionHypothesis =>
      cases parameters with
      | nil => exact .refl _
      | cons expected parameters =>
          refine List.Sublist.append ?_ (inductionHypothesis (number + 1) parameters)
          rcases first with isUnknown | rfl
          · rw [isUnknown, if_pos (DataType.accepts_undefined _)]
            exact List.nil_sublist _
          · exact .refl _

theorem ofCall_sublist (name : String) (position : Position) {arguments arguments' : List Argument}
    (vaguer : List.Forall₂ Argument.Vaguer arguments' arguments) :
    (ofCall name position arguments').findings.Sublist
      (ofCall name position arguments).findings := by
  unfold ofCall
  cases KnownFunction.ofName? name with
  | none => exact .refl _
  | some function =>
      simp only [vaguer.length_eq]
      split
      · exact argumentFindings_sublist function 1 _ vaguer
      · exact .refl _

theorem ofAssignment_sublist (name : String) (position : Position)
    {declared declared' : Option DataType}
    (vaguerType : Option.Rel DataType.Vaguer declared' declared) (vaguer : value'.Vaguer value) :
    (ofAssignment name declared' position value').findings.Sublist
      (ofAssignment name declared position value).findings := by
  cases vaguerType with
  | none => exact .refl _
  | some known =>
      rcases known with rfl | rfl
      · exact List.nil_sublist _
      · rcases vaguer with rfl | rfl
        · rw [ofAssignment, if_pos (DataType.accepts_undefined _)]
          exact List.nil_sublist _
        · exact .refl _

end Judgement

namespace Tree

/-- The findings about types at several nodes. -/
def mismatchesAt (declared : String → Option DataType) (nodes : List Tree) : List Diagnostic :=
  mismatches (nodes.flatMap (ownFindings declared))

theorem mismatchesAt_append (declared : String → Option DataType) (first second : List Tree) :
    mismatchesAt declared (first ++ second) =
      mismatchesAt declared first ++ mismatchesAt declared second := by
  rw [mismatchesAt, List.flatMap_append, mismatches_append]
  rfl

theorem mismatchesAt_sublist {declared declared' : String → Option DataType} {node node' : Tree}
    (sublist : (node'.ownFindings declared').Sublist (node.ownFindings declared)) :
    (mismatchesAt declared' [node']).Sublist (mismatchesAt declared [node]) := by
  rw [mismatchesAt, mismatchesAt, List.flatMap_singleton, List.flatMap_singleton]
  exact sublist.filter _

/-- Where a name is read, nothing is found about types. -/
theorem mismatchesAt_identifier (declared : String → Option DataType) (name : String)
    (note : Note) : mismatchesAt declared [identifier name note] = [] := by
  rw [mismatchesAt, List.flatMap_singleton]
  exact (Judgement.ofIdentifier_coded _ _ _).mismatches_eq_nil (by decide)

/-- An invalid target is no matter of types. -/
theorem mismatchesAt_invalidTarget (declared : String → Option DataType) {target : Tree}
    (other : target.name? = none) (value : Tree) (note : Note) :
    mismatchesAt declared (assignment target value note).evaluation =
      mismatchesAt declared value.evaluation ++ mismatchesAt declared target.evaluation := by
  have nothing : mismatchesAt declared [assignment target value note] = [] := by
    rw [mismatchesAt, List.flatMap_singleton, ownFindings_invalidTarget other]
    rfl
  rw [evaluation_assignment other, ← List.singleton_append, mismatchesAt_append,
    mismatchesAt_append, nothing, List.nil_append]

namespace Blurred

variable {declared declared' : String → Option DataType}

theorem arguments_vaguer (table : VaguerTable assigned declared declared')
    {arguments arguments' : List Tree}
    (blurred : List.Forall₂ (Blurred assigned) arguments arguments') :
    List.Forall₂ Judgement.Argument.Vaguer
      (arguments'.map fun argument => ⟨argument.position, argument.settledType declared'⟩)
      (arguments.map fun argument => ⟨argument.position, argument.settledType declared⟩) := by
  induction blurred with
  | nil => exact .nil
  | cons first others inductionHypothesis =>
      refine .cons ?_ inductionHypothesis
      rcases first.settledType_vaguer table with isUnknown | sameType
      · exact .inl isUnknown
      · rcases first.position_eq_or_unknown table with isUnknown | samePosition
        · exact .inl isUnknown
        · refine .inr ?_
          simp only [sameType, samePosition]

mutual

/-- What is found about types in a blurred tree is found in the tree itself, in the same order. -/
theorem mismatchesAt_evaluation (table : VaguerTable assigned declared declared')
    {tree tree' : Tree} (blurred : Blurred assigned tree tree') :
    (mismatchesAt declared' tree'.evaluation).Sublist (mismatchesAt declared tree.evaluation) := by
  cases blurred with
  | part plain isUnknown note =>
      rw [evaluation, mismatchesAt_identifier]
      exact List.nil_sublist _
  | identifier name note =>
      rw [evaluation, mismatchesAt_identifier]
      exact List.nil_sublist _
  | number literal note => exact .refl _
  | unary operator note inOperand =>
      rw [evaluation, evaluation, mismatchesAt_append, mismatchesAt_append]
      refine (mismatchesAt_evaluation table inOperand).append (mismatchesAt_sublist ?_)
      exact Judgement.ofOperation_sublist _ _ (inOperand.settledType_vaguer table) .none
  | binary operator note inLeft inRight =>
      rw [evaluation, evaluation, mismatchesAt_append, mismatchesAt_append, mismatchesAt_append,
        mismatchesAt_append]
      refine ((mismatchesAt_evaluation table inLeft).append
        (mismatchesAt_evaluation table inRight)).append (mismatchesAt_sublist ?_)
      exact Judgement.ofOperation_sublist _ _ (inLeft.settledType_vaguer table)
        (.some (inRight.settledType_vaguer table))
  | call name note inArguments =>
      rw [evaluation, evaluation, mismatchesAt_append, mismatchesAt_append]
      refine (mismatchesAt_evaluationOfAll table inArguments).append (mismatchesAt_sublist ?_)
      exact Judgement.ofCall_sublist _ _ (arguments_vaguer table inArguments)
  | named name note note' inValue =>
      simp only [evaluation, mismatchesAt_append]
      refine (mismatchesAt_evaluation table inValue).append (mismatchesAt_sublist ?_)
      exact Judgement.ofAssignment_sublist _ _ (table.types name) (inValue.settledType_vaguer table)
  | invalid note other other' inTarget inValue =>
      rw [mismatchesAt_invalidTarget _ other, mismatchesAt_invalidTarget _ other']
      exact (mismatchesAt_evaluation table inValue).append (mismatchesAt_evaluation table inTarget)

theorem mismatchesAt_evaluationOfAll (table : VaguerTable assigned declared declared')
    {trees trees' : List Tree} (blurred : List.Forall₂ (Blurred assigned) trees trees') :
    (mismatchesAt declared' (evaluationOfAll trees')).Sublist
      (mismatchesAt declared (evaluationOfAll trees)) := by
  cases blurred with
  | nil => exact .refl _
  | cons first others =>
      rw [evaluationOfAll, evaluationOfAll, mismatchesAt_append, mismatchesAt_append]
      exact (mismatchesAt_evaluation table first).append (mismatchesAt_evaluationOfAll table others)

end

end Blurred

/-- The tree of `1 < 2` inside `sqrt(x) + (x = (1 < 2))`. -/
def comparedOnes : Tree :=
  .binary .less (.number "1" ⟨⟨1, 16⟩, none⟩) (.number "2" ⟨⟨1, 20⟩, none⟩) ⟨⟨1, 18⟩, none⟩

/-- What is around the value of `x` in `sqrt(x) + (x = (1 < 2))`, which no text has. -/
def aroundCompared : List Frame :=
  [.assignedValue (.identifier "x" ⟨⟨1, 11⟩, none⟩) ⟨⟨1, 13⟩, none⟩,
    .rightOperand .add (.call "sqrt" [.identifier "x" ⟨⟨1, 6⟩, none⟩] ⟨⟨1, 1⟩, none⟩)
      ⟨⟨1, 9⟩, none⟩]

end Tree

namespace Analysis

variable {limits : Limits} {tree : Tree}

/-- Of what a complete analysis reports, the findings about types are those at the nodes. -/
theorem mismatches_diagnostics (complete : .internalError ∉ (ofTree limits tree).codes) :
    mismatches (ofTree limits tree).diagnostics =
      Tree.mismatchesAt (ofTree limits tree).scopes.declaredType? tree.evaluation := by
  rcases exists_accounts complete with ⟨symbols, accounts⟩
  have noDuplicate := (Coded.of_code (Target.duplicates_code
    (Declarations.targetsAt tree.preorder))).mismatches_eq_nil (by decide)
  have noWarning := (Coded.of_code
    (ofTree limits tree).scopes.unusedWarnings_code).mismatches_eq_nil (by decide)
  rw [accounts.reported, mismatches_append, mismatches_append, noDuplicate, noWarning,
    List.nil_append, List.append_nil]
  rfl

/-- A name that has no type and is evaluated is reported. -/
theorem undeclared_mem_diagnostics (complete : .internalError ∉ (ofTree limits tree).codes)
    {name : String} {note : Note} (unknown : (ofTree limits tree).scopes.declaredType? name = none)
    (evaluated : .identifier name note ∈ tree.evaluation) :
    .report .undeclaredVariable note.position s!"Variable '{name}' is not declared" ∈
      (ofTree limits tree).diagnostics := by
  rcases exists_accounts complete with ⟨symbols, accounts⟩
  rw [accounts.reported]
  refine List.mem_append_left _ (List.mem_append_right _ ?_)
  refine List.mem_flatMap.mpr ⟨_, evaluated, ?_⟩
  rw [Tree.ownFindings, unknown]
  exact List.mem_singleton.mpr rfl

/-- A part of a tree that becomes unknown is found wrong once and makes nothing else wrong.  It is a
part in which nothing is assigned to and which is no target itself; it becomes unknown by having a
name in its place that nothing is assigned to.  The analysis stays complete, the name has no type
and is reported as undeclared, and whatever is found about types had been found before, with the
same positions and messages and in the same order. -/
theorem unknown_never_cascades {part : Tree} {surroundings : List Tree.Frame}
    (complete : .internalError ∉ (ofTree limits (part.inside surroundings)).codes)
    (plain : part.IsPlain) (noTarget : ∀ frame ∈ surroundings.head?, frame.isTarget = false)
    {name : String} (unknown : name ∉ assignedAt (part.inside surroundings).preorder)
    (note : Note) :
    let before := ofTree limits (part.inside surroundings)
    let after := ofTree limits ((Tree.identifier name note).inside surroundings)
    .internalError ∉ after.codes ∧
    after.scopes.declaredType? name = none ∧
    .report .undeclaredVariable note.position s!"Variable '{name}' is not declared" ∈
      after.diagnostics ∧
    (mismatches after.diagnostics).Sublist (mismatches before.diagnostics) := by
  have blurred := Tree.Blurred.part_inside plain unknown note surroundings noTarget
  have complete' := codes_of_within (blurred.within (within_of_complete complete))
  have table := Declarations.vaguerBehind_preorder blurred
  rw [Declarations.VaguerBehind, ← declaredType?_eq complete, ← declaredType?_eq complete'] at table
  have noType := table.unknown name unknown
  have evaluated : Tree.identifier name note ∈
      ((Tree.identifier name note).inside surroundings).evaluation := by
    refine Tree.mem_evaluation_inside List.mem_cons_self surroundings ?_
    intro frame innermost isTarget
    rw [noTarget frame innermost] at isTarget
    cases isTarget
  refine ⟨complete', noType, undeclared_mem_diagnostics complete' noType evaluated, ?_⟩
  rw [mismatches_diagnostics complete, mismatches_diagnostics complete']
  exact blurred.mismatchesAt_evaluation table

/-- As a truth value, `x` is no argument of `sqrt` and no operand of `+`.  Made unknown, it is only
reported for `q`. -/
theorem unknown_never_cascades_compared :
    let tree := Tree.comparedOnes.inside Tree.aroundCompared
    let before := ofTree {} tree
    let after := ofTree {} ((Tree.identifier "q" ⟨⟨1, 16⟩, none⟩).inside Tree.aroundCompared)
    .internalError ∉ before.codes ∧ Tree.comparedOnes.IsPlain ∧
      (∀ frame ∈ Tree.aroundCompared.head?, frame.isTarget = false) ∧
      "q" ∉ assignedAt tree.preorder ∧
      before.codes = [.argumentType, .operandType] ∧ after.codes = [.undeclaredVariable] ∧
      (mismatches after.diagnostics).Sublist (mismatches before.diagnostics) := by
  have complete : .internalError ∉
      (ofTree {} (Tree.comparedOnes.inside Tree.aroundCompared)).codes := by decide +kernel
  have plain : Tree.comparedOnes.IsPlain := by
    intro node visited target value note same
    simp [Tree.comparedOnes, Tree.preorder, Tree.visits, Tree.visitsBelow, same] at visited
  have noTarget : ∀ frame ∈ Tree.aroundCompared.head?, frame.isTarget = false := by
    intro frame innermost
    cases Option.mem_some_iff.mp innermost
    rfl
  have unknown : "q" ∉ assignedAt (Tree.comparedOnes.inside Tree.aroundCompared).preorder := by
    decide +kernel
  have conclusion := unknown_never_cascades complete plain noTarget unknown ⟨⟨1, 16⟩, none⟩
  exact ⟨complete, plain, noTarget, unknown, by decide +kernel, by decide +kernel,
    conclusion.2.2.2⟩

end Analysis
end ExpressionChecker

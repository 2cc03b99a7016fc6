import ExpressionChecker.Proofs.Analysis.Accounting

namespace ExpressionChecker

/-!
# The types that variables are declared with

The declaration pass gives a variable the type that the value of its first assignment has by the
table as it is then, and no later node changes that type.  The verification pass types the same value
by the complete table.  A name that was not declared yet is the one thing that the earlier table can
tell less about, so the declared type is vaguer than the type found later, and goes together with it.

The two passes part at one kind of value only.  Where the value is itself an assignment, the first
pass goes by what is assigned and the second by how the inner name was declared.  If that name had
been declared before with another type, the value need not fit the declaration that was made for it.
-/

/-! ## Vaguer types -/

namespace DataType

/-- A type is vaguer than another one if it is unknown or the same. -/
def Vaguer (vague type : DataType) : Prop :=
  vague = .undefined ∨ vague = type

theorem accepts_undefined (expected : DataType) : expected.accepts .undefined = true := by
  simp [accepts]

namespace Vaguer

theorem refl (type : DataType) : Vaguer type type :=
  .inr rfl

theorem unknown (type : DataType) : Vaguer .undefined type :=
  .inl rfl

/-- A vaguer type goes together with every value of the other one. -/
theorem accepts {vague type : DataType} (vaguer : Vaguer vague type) :
    vague.accepts type = true := by
  rcases vaguer with rfl | rfl <;> simp [DataType.accepts]

/-- The result of an operation is no less vague than its left operand, or known anyway. -/
theorem operation {vague type : DataType} (vaguer : Vaguer vague type) (operator : Operator) :
    Vaguer (OperatorClass.operationType operator vague)
      (OperatorClass.operationType operator type) := by
  unfold OperatorClass.operationType
  cases OperatorClass.of? operator with
  | none => exact .refl _
  | some operatorClass =>
      cases operatorClass with
      | arithmetic => exact vaguer
      | relational => exact .refl _
      | logical => exact .refl _
      | comparison => exact .refl _

end Vaguer
end DataType

/-- Where less is known about the names, less is known about a tree. -/
theorem Tree.impliedType_vaguer {typeOf typeOf' : String → DataType}
    (vaguer : ∀ name, (typeOf name).Vaguer (typeOf' name)) (tree : Tree) :
    (tree.impliedType typeOf).Vaguer (tree.impliedType typeOf') := by
  cases tree with
  | identifier name note => exact vaguer name
  | number literal note => exact .refl _
  | unary operator operand note => exact (impliedType_vaguer vaguer operand).operation operator
  | binary operator left right note => exact (impliedType_vaguer vaguer left).operation operator
  | call name arguments note => exact .refl _
  | assignment target value note => exact impliedType_vaguer vaguer value

/-! ## What is declared stays declared -/

namespace Scopes

variable {scopes : Scopes} {name : String}

theorem typeOf_of_declared {type : DataType} (known : scopes.declaredType? name = some type) :
    scopes.typeOf name = type :=
  congrArg (fun found => Option.getD found DataType.undefined) known

theorem typeOf_of_undeclared (unknown : scopes.declaredType? name = none) :
    scopes.typeOf name = .undefined :=
  congrArg (fun found => Option.getD found DataType.undefined) unknown

end Scopes

namespace Declarations

variable {gathered : Declarations} {targets : List Target} {symbols : List Symbol}

/-- What has been gathered behind certain nodes. -/
def behindAll (nodes : List Tree) : Declarations :=
  nodes.foldl behind .empty

theorem exists_gathers (nodes : List Tree) :
    ∃ symbols, Gathers (behindAll nodes) (targetsAt nodes) symbols :=
  Gathers.empty.foldl nodes

namespace Gathers

/-- Adding a target gives its name a type, unless the name has one already. -/
theorem declaredType?_add (gathers : Gathers gathered targets symbols) (name : String)
    (type : DataType) (position : Position) (other : String) :
    (gathered.add name type position).scopes.declaredType? other =
      (gathered.scopes.declaredType? other).or (if other = name then some type else none) := by
  have before := gathers.holds.lookup?_eq other
  cases known : symbols.find? fun symbol => decide (symbol.name = name) with
  | some previous =>
      have refused := gathers.holds.declare_known known type position
      simp only [Declarations.add, refused, Scopes.declaredType?, before]
      split
      · rename_i same
        rw [same, known]
        rfl
      · rw [Option.or_none]
  | none =>
      have unknown : ∀ symbol ∈ symbols, symbol.name ≠ name :=
        fun symbol listed named => List.find?_eq_none.mp known symbol listed (decide_eq_true named)
      rcases gathers.holds.declare unknown type position with ⟨scopes, declared, holds⟩
      simp only [Declarations.add, declared, Scopes.declaredType?, before, holds.lookup?_eq,
        List.find?_append, List.find?_singleton, Option.map_or, eq_comm (a := name)]
      split <;> simp_all

theorem declaredType?_behind (gathers : Gathers gathered targets symbols) (node : Tree)
    {name : String} {type : DataType} (known : gathered.scopes.declaredType? name = some type) :
    (gathered.behind node).scopes.declaredType? name = some type := by
  unfold Declarations.behind
  split
  · rw [gathers.declaredType?_add, known, Option.some_or]
  · exact known

theorem declaredType?_foldl (gathers : Gathers gathered targets symbols) (nodes : List Tree)
    {name : String} {type : DataType} (known : gathered.scopes.declaredType? name = some type) :
    (nodes.foldl Declarations.behind gathered).scopes.declaredType? name = some type := by
  induction nodes generalizing gathered targets symbols with
  | nil => exact known
  | cons node later inductionHypothesis =>
      rcases gathers.behind node with ⟨symbols', atNode⟩
      exact inductionHypothesis atNode (gathers.declaredType?_behind node known)

theorem declaredType?_eq_none (gathers : Gathers gathered targets symbols) {name : String}
    (free : name ∉ targets.map Prod.fst) : gathered.scopes.declaredType? name = none := by
  rw [← Option.not_isSome_iff_eq_none, gathers.holds.isSome_declaredType?, gathers.mem_names_iff]
  exact free

end Gathers

/-- The first assignment to a name declares it, with the type that the value has there. -/
theorem declaredType?_first {before : List Tree} {name : String} (first : name ∉ assignedAt before)
    (note note' : Note) (value : Tree) (later : List Tree) :
    (behindAll (before ++
      .assignment (.identifier name note) value note' :: later)).scopes.declaredType? name =
        some (value.impliedType (behindAll before).scopes.typeOf) := by
  rcases exists_gathers before with ⟨symbols, gathers⟩
  rcases gathers.behind (.assignment (.identifier name note) value note') with ⟨symbols', atNode⟩
  rw [behindAll, List.foldl_append, List.foldl_cons]
  apply atNode.declaredType?_foldl
  have added := gathers.declaredType?_add name
    (value.impliedType (behindAll before).scopes.typeOf) note.position name
  rw [gathers.declaredType?_eq_none first, if_pos rfl, Option.none_or] at added
  exact added

/-- Less is known about the names in front of further nodes than behind them. -/
theorem typeOf_vaguer (before later : List Tree) (name : String) :
    ((behindAll before).scopes.typeOf name).Vaguer
      ((behindAll (before ++ later)).scopes.typeOf name) := by
  rcases exists_gathers before with ⟨symbols, gathers⟩
  cases known : (behindAll before).scopes.declaredType? name with
  | none => exact .inl (Scopes.typeOf_of_undeclared known)
  | some type =>
      have stays := gathers.declaredType?_foldl later known
      rw [behindAll, ← List.foldl_append] at stays
      exact .inr ((Scopes.typeOf_of_declared known).trans (Scopes.typeOf_of_declared stays).symm)

end Declarations

/-! ## Where a value takes its type from -/

namespace Tree

/-- The part of a tree that it takes its type from: the leftmost operand of its arithmetic. -/
def typeSource : Tree → Tree
  | unary operator operand note =>
    if OperatorClass.of? operator = some .arithmetic then operand.typeSource
    else unary operator operand note
  | binary operator left right note =>
    if OperatorClass.of? operator = some .arithmetic then left.typeSource
    else binary operator left right note
  | other => other

theorem operationType_arithmetic {operator : Operator}
    (arithmetic : OperatorClass.of? operator = some .arithmetic) (type : DataType) :
    OperatorClass.operationType operator type = type := by
  simp only [OperatorClass.operationType, arithmetic, OperatorClass.resultType]

/-- Any other operation has the same type whatever its operands are. -/
theorem operationType_constant {operator : Operator}
    (other : OperatorClass.of? operator ≠ some .arithmetic) (type type' : DataType) :
    OperatorClass.operationType operator type = OperatorClass.operationType operator type' := by
  unfold OperatorClass.operationType
  cases isClass : OperatorClass.of? operator with
  | none => rfl
  | some operatorClass =>
      cases operatorClass with
      | arithmetic => exact (other isClass).elim
      | _ => rfl

theorem impliedType_typeSource (typeOf : String → DataType) (tree : Tree) :
    tree.typeSource.impliedType typeOf = tree.impliedType typeOf := by
  cases tree with
  | unary operator operand note =>
      rw [typeSource]
      split
      · rename_i arithmetic
        rw [impliedType_typeSource typeOf operand]
        exact (operationType_arithmetic arithmetic _).symm
      · rfl
  | binary operator left right note =>
      rw [typeSource]
      split
      · rename_i arithmetic
        rw [impliedType_typeSource typeOf left]
        exact (operationType_arithmetic arithmetic _).symm
      · rfl
  | _ => rfl

theorem settledType_typeSource (declared : String → Option DataType) (tree : Tree) :
    tree.typeSource.settledType declared = tree.settledType declared := by
  cases tree with
  | unary operator operand note =>
      rw [typeSource]
      split
      · rename_i arithmetic
        rw [settledType_typeSource declared operand]
        exact (operationType_arithmetic arithmetic _).symm
      · rfl
  | binary operator left right note =>
      rw [typeSource]
      split
      · rename_i arithmetic
        rw [settledType_typeSource declared left]
        exact (operationType_arithmetic arithmetic _).symm
      · rfl
  | _ => rfl

/-- A type that is not taken from an assignment is told by the same rule in both passes, so the pass
that knows less about the names knows less about the tree. -/
theorem impliedType_vaguer_settledType {typeOf : String → DataType}
    {declared : String → Option DataType}
    (vaguer : ∀ name, (typeOf name).Vaguer ((declared name).getD .undefined)) {tree : Tree}
    (plain : ∀ target value note, tree.typeSource ≠ assignment target value note) :
    (tree.impliedType typeOf).Vaguer (tree.settledType declared) := by
  cases tree with
  | identifier name note => exact vaguer name
  | number literal note => exact .refl _
  | unary operator operand note =>
      by_cases arithmetic : OperatorClass.of? operator = some .arithmetic
      · rw [typeSource, if_pos arithmetic] at plain
        exact (impliedType_vaguer_settledType vaguer plain).operation operator
      · exact .inr (operationType_constant arithmetic _ _)
  | binary operator left right note =>
      by_cases arithmetic : OperatorClass.of? operator = some .arithmetic
      · rw [typeSource, if_pos arithmetic] at plain
        exact (impliedType_vaguer_settledType vaguer plain).operation operator
      · exact .inr (operationType_constant arithmetic _ _)
  | call name arguments note => exact .refl _
  | assignment target value note => exact (plain target value note rfl).elim

/-- On the way to the part that a tree takes its type from, nothing is assigned to. -/
theorem visitsBelow_typeSource (calls : Nat) (tree : Tree) :
    ∃ before later, tree.visitsBelow calls = before ++ tree.typeSource.visitsBelow calls ++ later ∧
      assignedAt (before.map Visit.node) = [] := by
  cases tree with
  | unary operator operand note =>
      rw [typeSource]
      split
      · rcases visitsBelow_typeSource calls operand with ⟨before, later, visits, nothing⟩
        refine ⟨⟨calls, unary operator operand note⟩ :: before, later, ?_, nothing⟩
        rw [visitsBelow, visits]
        rfl
      · exact ⟨[], [], (List.append_nil _).symm, rfl⟩
  | binary operator left right note =>
      rw [typeSource]
      split
      · rcases visitsBelow_typeSource calls left with ⟨before, later, visits, nothing⟩
        refine ⟨⟨calls, binary operator left right note⟩ :: before,
          later ++ right.visitsBelow calls, ?_, nothing⟩
        rw [visitsBelow, visits, ← List.append_assoc]
        rfl
      · exact ⟨[], [], (List.append_nil _).symm, rfl⟩
  | _ => exact ⟨[], [], (List.append_nil _).symm, rfl⟩

/-- The part that the value of an assignment takes its type from is reached without assigning to
anything but the target. -/
theorem exists_preorder_typeSource {tree value : Tree} {before later : List Tree} {name : String}
    {note note' : Note}
    (visited : tree.preorder = before ++ assignment (identifier name note) value note' :: later) :
    ∃ between rest, tree.preorder = before ++ between ++ value.typeSource :: rest ∧
      assignedAt between = [name] := by
  rcases exists_visits_of_preorder visited with ⟨calls, behind, nested⟩
  rcases value.visitsBelow_typeSource calls with ⟨operations, others, visits, nothing⟩
  rcases value.typeSource.visitsBelow_root calls with ⟨below, root⟩
  refine ⟨assignment (identifier name note) value note' :: identifier name note ::
    operations.map Visit.node, (below ++ others).map Visit.node ++ behind, ?_, ?_⟩
  · rw [visited, nested]
    simp only [visitsBelow, visits, root, List.map_cons, List.map_append, List.append_assoc,
      List.cons_append, List.nil_append]
  · have whole := assignedAt_append
      [assignment (identifier name note) value note', identifier name note]
      (operations.map Visit.node)
    rw [nothing] at whole
    exact whole

end Tree

/-! ## Declarations and their values -/

namespace Declarations

open ExpressionChecker.Tree (identifier assignment)

/-- The name of a first assignment is declared with the type that its value has by the table in front
of it. -/
theorem declaredType?_of_visited {tree value : Tree} {before later : List Tree} {name : String}
    {note note' : Note}
    (visited : tree.preorder = before ++ assignment (identifier name note) value note' :: later)
    (first : name ∉ assignedAt before) :
    (behindAll tree.preorder).scopes.declaredType? name =
      some (value.impliedType (behindAll before).scopes.typeOf) := by
  rw [visited]
  exact declaredType?_first first note note' value later

/-- Unless the value of a first assignment takes its type from an assignment to a name that had been
declared before, the declared type goes together with the type of the value. -/
theorem accepts_of_typeSource {tree value : Tree} {before later : List Tree} {name : String}
    {note note' : Note}
    (visited : tree.preorder = before ++ assignment (identifier name note) value note' :: later)
    (first : name ∉ assignedAt before)
    (fresh : ∀ other inner note note',
      value.typeSource = assignment (identifier other note) inner note' →
        other ∉ assignedAt before) :
    (value.impliedType (behindAll before).scopes.typeOf).accepts
      (value.settledType (behindAll tree.preorder).scopes.declaredType?) = true := by
  by_cases plain : ∀ target inner note, value.typeSource ≠ assignment target inner note
  · have vaguer := typeOf_vaguer before (assignment (identifier name note) value note' :: later)
    rw [← visited] at vaguer
    exact (Tree.impliedType_vaguer_settledType vaguer plain).accepts
  · simp only [ne_eq, not_forall, not_not] at plain
    rcases plain with ⟨target, inner, note'', source⟩
    rw [← value.impliedType_typeSource, ← value.settledType_typeSource, source]
    cases named : target.name? with
    | none =>
        rw [Tree.settledType_invalidTarget named]
        exact DataType.accepts_undefined _
    | some other =>
        cases target with
        | identifier other note =>
            rcases Tree.exists_preorder_typeSource visited with ⟨between, rest, reached, assigned⟩
            rw [source] at reached
            by_cases same : other = name
            · -- The value has the type of the very declaration that is made from it.
              have declared := declaredType?_of_visited visited first
              rw [← value.impliedType_typeSource, source] at declared
              simp only [Tree.settledType, same, declared]
              exact (DataType.Vaguer.refl _).accepts
            · have notBefore : other ∉ assignedAt (before ++ between) := by
                rw [assignedAt_append, assigned, List.mem_append, List.mem_singleton]
                exact not_or.mpr ⟨fresh other inner note note'' source, same⟩
              have declared := declaredType?_of_visited reached notBefore
              simp only [Tree.settledType, declared]
              exact (Tree.impliedType_vaguer (typeOf_vaguer before between) inner).accepts
        | _ => cases named

end Declarations

namespace Tree

/-- The tree of `y = 2.5` inside `(y = 2.5) + (x = (y = 1))`. -/
def decimalAssignment : Tree :=
  assignment (identifier "y" ⟨⟨1, 2⟩, none⟩) (number "2.5" ⟨⟨1, 6⟩, none⟩) ⟨⟨1, 4⟩, none⟩

/-- The tree of `(y = 2.5) + (x = (y = 1))`, which no text has. -/
def reassigned : Tree :=
  binary .add decimalAssignment
    (assignment (identifier "x" ⟨⟨1, 14⟩, none⟩)
      (assignment (identifier "y" ⟨⟨1, 19⟩, none⟩) (number "1" ⟨⟨1, 23⟩, none⟩) ⟨⟨1, 21⟩, none⟩)
      ⟨⟨1, 16⟩, none⟩)
    ⟨⟨1, 11⟩, none⟩

end Tree

namespace Analysis

open ExpressionChecker.Tree (identifier assignment)

variable {limits : Limits} {tree : Tree}

/-- The types in the table of a complete analysis are those of the declaration pass. -/
theorem declaredType?_eq (complete : .internalError ∉ (ofTree limits tree).codes) :
    (ofTree limits tree).scopes.declaredType? =
      (Declarations.behindAll tree.preorder).scopes.declaredType? := by
  rcases Declarations.exists_gathers tree.preorder with ⟨symbols, gathers⟩
  rw [ofTree_of_run (Passes.run_eq_of_within (within_of_complete complete))]
  exact gathers.holds.declaredType?_foldl tree.evaluation

/-- The first assignment to a name declares it with the type that the value has by the table as it
is then, which goes together with the type that is found for the value in the end, with one
exception.  Where the value takes its type from an assignment to a name that had been declared
before, what is assigned to that name has to go together with how the name was declared.  Only then
can a variable be found wrongly assigned by its own declaration. -/
theorem declaration_fits_value_iff (complete : .internalError ∉ (ofTree limits tree).codes)
    {before later : List Tree} {name : String} {note note' : Note} {value : Tree}
    (visited : tree.preorder = before ++ assignment (identifier name note) value note' :: later)
    (first : name ∉ assignedAt before) :
    ∃ type, (ofTree limits tree).scopes.declaredType? name = some type ∧
      type = value.impliedType (Declarations.behindAll before).scopes.typeOf ∧
      (type.accepts (value.settledType (ofTree limits tree).scopes.declaredType?) = true ↔
        ∀ other inner note note',
          value.typeSource = assignment (identifier other note) inner note' →
          other ∈ assignedAt before →
          (inner.impliedType (Declarations.behindAll before).scopes.typeOf).accepts
            ((ofTree limits tree).scopes.typeOf other) = true) ∧
      ((assignment (identifier name note) value note').ownFindings
          (ofTree limits tree).scopes.declaredType? = [] ↔
        type.accepts (value.settledType (ofTree limits tree).scopes.declaredType?) = true) := by
  have declared := Declarations.declaredType?_of_visited visited first
  refine ⟨_, (congrFun (declaredType?_eq complete) name).trans declared, rfl, ?_, ?_⟩
  · rw [declaredType?_eq complete]
    constructor
    · intro accepted other inner note note' source _
      rw [← value.impliedType_typeSource, ← value.settledType_typeSource, source] at accepted
      rw [Scopes.typeOf, ← Scopes.declaredType?, declaredType?_eq complete]
      exact accepted
    · intro agrees
      by_cases fresh : ∀ other inner note note',
          value.typeSource = assignment (identifier other note) inner note' →
            other ∉ assignedAt before
      · exact Declarations.accepts_of_typeSource visited first fresh
      · simp only [not_forall, not_not] at fresh
        rcases fresh with ⟨other, inner, note, note', source, earlier⟩
        have accepted := agrees other inner note note' source earlier
        rw [Scopes.typeOf, ← Scopes.declaredType?, declaredType?_eq complete] at accepted
        rw [← value.impliedType_typeSource, ← value.settledType_typeSource, source]
        exact accepted
  · rw [declaredType?_eq complete, Tree.ownFindings, declared, Judgement.ofAssignment]
    split <;> simp_all

/-- The value `(y = 1)` of the first assignment to `x` takes its type from `y`, which is a decimal,
but declares `x` as an integer. -/
theorem declaration_fits_value_iff_reassigned : ∃ later note note' value,
    Tree.reassigned.preorder = .reassigned :: Tree.decimalAssignment.preorder ++
        assignment (identifier "x" note) value note' :: later ∧
      "x" ∉ assignedAt (.reassigned :: Tree.decimalAssignment.preorder) ∧
      .internalError ∉ (ofTree {} .reassigned).codes ∧
      ∃ type, (ofTree {} .reassigned).scopes.declaredType? "x" = some type ∧
        type.accepts (value.settledType (ofTree {} .reassigned).scopes.declaredType?) ≠ true := by
  have visited : Tree.reassigned.preorder = .reassigned :: Tree.decimalAssignment.preorder ++
      assignment (identifier "x" ⟨⟨1, 14⟩, none⟩) _ ⟨⟨1, 16⟩, none⟩ :: _ := rfl
  have first : "x" ∉ assignedAt (.reassigned :: Tree.decimalAssignment.preorder) := by decide
  have complete : .internalError ∉ (ofTree {} .reassigned).codes := by decide +kernel
  rcases declaration_fits_value_iff complete visited first with ⟨type, declared, _, fits, _⟩
  refine ⟨_, _, _, _, visited, first, complete, type, declared, fun accepted => ?_⟩
  have agrees := fits.mp accepted "y" _ _ _ rfl (by decide)
  exact absurd agrees (by decide +kernel)

/-- That first assignment is reported for what it declares itself. -/
theorem declaration_rejects_own_value : ∃ later note note' value,
    Tree.reassigned.preorder = .reassigned :: Tree.decimalAssignment.preorder ++
        assignment (identifier "x" note) value note' :: later ∧
      "x" ∉ assignedAt (.reassigned :: Tree.decimalAssignment.preorder) ∧
      .internalError ∉ (ofTree {} .reassigned).codes ∧
      (ofTree {} .reassigned).scopes.declaredType? "x" = some .integer ∧
      value.settledType (ofTree {} .reassigned).scopes.declaredType? = .decimal ∧
      DataType.accepts .integer .decimal = false ∧
      .report .incompatibleAssignment note'.position
        "Cannot assign Decimal to 'x' of type Integer" ∈ (ofTree {} .reassigned).diagnostics := by
  have visited : Tree.reassigned.preorder = .reassigned :: Tree.decimalAssignment.preorder ++
      assignment (identifier "x" ⟨⟨1, 14⟩, none⟩) _ ⟨⟨1, 16⟩, none⟩ :: _ := rfl
  exact ⟨_, _, _, _, visited, by decide, by decide +kernel, by decide +kernel, by decide +kernel,
    rfl, by decide +kernel⟩

end Analysis
end ExpressionChecker

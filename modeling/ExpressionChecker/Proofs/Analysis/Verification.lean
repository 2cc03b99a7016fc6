import ExpressionChecker.Proofs.Analysis.Declaration

namespace ExpressionChecker

/-!
# The verification pass as a function of the table

The verification pass hands a table of symbols from node to node and changes it on the way.  But the
only thing it changes are marks: a name that is read is marked as used, and a name that is assigned
to as initialized.  No type ever changes.  So what becomes of a node depends on the node and on the
types in the table alone, and the whole pass is four functions of the tree: its types, its findings
and its marks node by node in the order of evaluation, and the tree with the types written down.
The one thing to know about the table is that every name that is assigned to has a symbol.
-/

/-! ## Types and findings of single nodes -/

/-- The type of an operation, which depends on the type of its left operand only. -/
def OperatorClass.operationType (operator : Operator) (left : DataType) : DataType :=
  match OperatorClass.of? operator with
  | some operatorClass => operatorClass.resultType left
  | none => .undefined

/-- The type of what a function returns, if it is a known one. -/
def KnownFunction.callType (name : String) : DataType :=
  ((KnownFunction.ofName? name).map KnownFunction.returnType).getD .undefined

namespace Judgement

theorem ofIdentifier_type (name : String) (declared : Option DataType) (position : Position) :
    (ofIdentifier name declared position).type = declared.getD .undefined := by
  cases declared <;> rfl

theorem ofOperation_type (operator : Operator) (position : Position) (left : DataType)
    (right : Option DataType) :
    (ofOperation operator position left right).type =
      OperatorClass.operationType operator left := by
  unfold ofOperation OperatorClass.operationType
  cases OperatorClass.of? operator <;> rfl

theorem ofCall_type (name : String) (position : Position) (arguments : List Argument) :
    (ofCall name position arguments).type = KnownFunction.callType name := by
  unfold ofCall KnownFunction.callType
  cases KnownFunction.ofName? name <;> rfl

theorem ofAssignment_type {declared : Option DataType} (isDeclared : declared.isSome = true)
    (name : String) (position : Position) (value : DataType) :
    (ofAssignment name declared position value).type = declared.getD .undefined := by
  cases declared with
  | none => cases isDeclared
  | some type => rfl

end Judgement

namespace Tree

section Table

variable (declared : String → Option DataType)

/-- The type of a tree where certain names are declared with types. -/
def settledType : Tree → DataType
  | identifier name _ => (declared name).getD .undefined
  | number literal _ => .ofNumber literal
  | unary operator operand _ => OperatorClass.operationType operator (operand.settledType)
  | binary operator left _ _ => OperatorClass.operationType operator (left.settledType)
  | call name _ _ => KnownFunction.callType name
  | assignment target _ _ =>
    match target with
    | identifier name _ => (declared name).getD .undefined
    | _ => .undefined

mutual

/-- The tree with the type of every node written down, whatever was written there before. -/
def annotated : Tree → Tree
  | identifier name note =>
    identifier name ⟨note.position, some (settledType declared (identifier name note))⟩
  | number literal note =>
    number literal ⟨note.position, some (settledType declared (number literal note))⟩
  | unary operator operand note =>
    unary operator operand.annotated
      ⟨note.position, some (settledType declared (unary operator operand note))⟩
  | binary operator left right note =>
    binary operator left.annotated right.annotated
      ⟨note.position, some (settledType declared (binary operator left right note))⟩
  | call name arguments note =>
    call name (annotatedAll arguments)
      ⟨note.position, some (settledType declared (call name arguments note))⟩
  | assignment target value note =>
    assignment target.annotated value.annotated
      ⟨note.position, some (settledType declared (assignment target value note))⟩

def annotatedAll : List Tree → List Tree
  | [] => []
  | tree :: later => tree.annotated :: annotatedAll later

end

/-- What is wrong with a single node, going by the types of the trees directly below it. -/
def ownFindings : Tree → List Diagnostic
  | identifier name note => (Judgement.ofIdentifier name (declared name) note.position).findings
  | number literal note => (Judgement.ofNumber literal note.position).findings
  | unary operator operand note =>
    (Judgement.ofOperation operator note.position (operand.settledType declared) none).findings
  | binary operator left right note =>
    (Judgement.ofOperation operator note.position (left.settledType declared)
      (some (right.settledType declared))).findings
  | call name arguments note =>
    (Judgement.ofCall name note.position
      (arguments.map fun argument =>
        ⟨argument.position, argument.settledType declared⟩)).findings
  | assignment target value note =>
    match target with
    | identifier name _ =>
      (Judgement.ofAssignment name (declared name) note.position
        (value.settledType declared)).findings
    | other => [Judgement.invalidTarget other.kindName note.position]

end Table

end Tree

/-! ## Marks -/

/-- The names that are read at certain nodes. -/
def readAt (nodes : List Tree) : List String :=
  nodes.filterMap Tree.name?

/-- The names that are assigned to at certain nodes. -/
def assignedAt (nodes : List Tree) : List String :=
  (Declarations.targetsAt nodes).map Prod.fst

theorem readAt_append (first second : List Tree) :
    readAt (first ++ second) = readAt first ++ readAt second :=
  List.filterMap_append

theorem assignedAt_append (first second : List Tree) :
    assignedAt (first ++ second) = assignedAt first ++ assignedAt second := by
  rw [assignedAt, Declarations.targetsAt, List.filterMap_append, List.map_append]
  rfl

namespace Symbol

/-- The symbol after certain nodes have been evaluated. -/
def marked (nodes : List Tree) (symbol : Symbol) : Symbol :=
  { symbol with
    used := symbol.used || decide (symbol.name ∈ readAt nodes)
    initialized := symbol.initialized || decide (symbol.name ∈ assignedAt nodes) }

theorem marked_cons (node : Tree) (later : List Tree) (symbol : Symbol) :
    symbol.marked (node :: later) = (symbol.marked [node]).marked later := by
  have reads := readAt_append [node] later
  have assigns := assignedAt_append [node] later
  rw [List.singleton_append] at reads assigns
  simp only [marked, reads, assigns, List.mem_append, Bool.decide_or, Bool.or_assoc]
  rfl

end Symbol

namespace Scopes

/-- The type that the symbol of a name has, if the name has one. -/
def declaredType? (scopes : Scopes) (name : String) : Option DataType :=
  (scopes.lookup? name).map Symbol.type

/-- The scopes with the mark that evaluating a node leaves. -/
def behind (scopes : Scopes) : Tree → Scopes
  | .identifier name _ => scopes.update name Symbol.asUsed
  | .assignment (.identifier name _) _ _ => scopes.update name Symbol.asInitialized
  | _ => scopes

namespace Holds

variable {scopes : Scopes} {symbols : List Symbol}

theorem behind (holds : scopes.Holds symbols) (node : Tree) :
    (scopes.behind node).Holds (symbols.map (Symbol.marked [node])) := by
  have unmarked (none : readAt [node] = []) (none' : assignedAt [node] = []) :
      symbols.map (Symbol.marked [node]) = symbols := by
    rw [List.map_congr_left (g := id) fun symbol _ => by simp [Symbol.marked, none, none'],
      List.map_id]
  unfold Scopes.behind
  split
  · rename_i name note
    have marks : Symbol.marked [.identifier name note] =
        Scope.changedNamed name Symbol.asUsed := by
      funext symbol
      by_cases named : symbol.name = name <;>
        simp [Symbol.marked, Scope.changedNamed, readAt, assignedAt, Declarations.targetsAt,
          Tree.name?, Tree.target?, named, Symbol.changed, Symbol.asUsed]
    rw [marks]
    exact holds.update name Symbol.asUsed
  · rename_i name note value note'
    have marks : Symbol.marked [.assignment (.identifier name note) value note'] =
        Scope.changedNamed name Symbol.asInitialized := by
      funext symbol
      by_cases named : symbol.name = name <;>
        simp [Symbol.marked, Scope.changedNamed, readAt, assignedAt, Declarations.targetsAt,
          Tree.name?, Tree.target?, named, Symbol.changed, Symbol.asInitialized]
    rw [marks]
    exact holds.update name Symbol.asInitialized
  · rename_i notName notAssignment
    rw [unmarked]
    · exact holds
    · cases node with
      | identifier name note => exact (notName name note rfl).elim
      | _ => rfl
    · cases node with
      | assignment target value note =>
          cases target with
          | identifier name note' => exact (notAssignment name note' value note rfl).elim
          | _ => rfl
      | _ => rfl

/-- Evaluating nodes marks the symbols of the names that are read and assigned to, and that is
all. -/
theorem foldl_behind (holds : scopes.Holds symbols) (nodes : List Tree) :
    (nodes.foldl Scopes.behind scopes).Holds (symbols.map (Symbol.marked nodes)) := by
  induction nodes generalizing scopes symbols with
  | nil =>
      have unmarked : Symbol.marked [] = id := by
        funext symbol
        simp [Symbol.marked, readAt, assignedAt, Declarations.targetsAt]
      rw [unmarked, List.map_id]
      exact holds
  | cons node later inductionHypothesis =>
      have whole : symbols.map (Symbol.marked (node :: later)) =
          (symbols.map (Symbol.marked [node])).map (Symbol.marked later) := by
        rw [List.map_map]
        exact List.map_congr_left fun symbol _ => symbol.marked_cons node later
      rw [whole, List.foldl_cons]
      exact inductionHypothesis (holds.behind node)

/-- Marks change no type. -/
theorem declaredType?_foldl (holds : scopes.Holds symbols) (nodes : List Tree) :
    (nodes.foldl Scopes.behind scopes).declaredType? = scopes.declaredType? := by
  funext name
  rw [declaredType?, declaredType?, (holds.foldl_behind nodes).lookup?_eq, holds.lookup?_eq,
    List.find?_map, Option.map_map]
  rfl

theorem isSome_declaredType? (holds : scopes.Holds symbols) {name : String} :
    (scopes.declaredType? name).isSome = true ↔ name ∈ symbols.map Symbol.name := by
  rw [declaredType?, Option.isSome_map, holds.lookup?_eq, List.find?_isSome, List.mem_map]
  simp only [decide_eq_true_eq]

end Holds
end Scopes

/-! ## The pass -/

namespace Tree

/-- The names that are assigned to at certain nodes have types. -/
def Assigns (declared : String → Option DataType) (nodes : List Tree) : Prop :=
  ∀ name ∈ assignedAt nodes, (declared name).isSome = true

theorem assigns_append {declared : String → Option DataType} {first second : List Tree} :
    Assigns declared (first ++ second) ↔ Assigns declared first ∧ Assigns declared second := by
  rw [Assigns, assignedAt_append, List.forall_mem_append]
  rfl

/-- What verifying a tree yields, node by node in the order of evaluation. -/
def verifiedIn (scopes : Scopes) (tree : Tree) : Verified :=
  { tree := tree.annotated scopes.declaredType?
    type := tree.settledType scopes.declaredType?
    scopes := tree.evaluation.foldl Scopes.behind scopes
    diagnostics := tree.evaluation.flatMap (ownFindings scopes.declaredType?) }

/-- What verifying several arguments yields. -/
def verifiedAllIn (scopes : Scopes) (trees : List Tree) : VerifiedArguments :=
  { trees := annotatedAll scopes.declaredType? trees
    arguments := trees.map fun tree => ⟨tree.position, tree.settledType scopes.declaredType?⟩
    scopes := (evaluationOfAll trees).foldl Scopes.behind scopes
    diagnostics := (evaluationOfAll trees).flatMap (ownFindings scopes.declaredType?) }

theorem verifyIdentifier_eq (name : String) (note : Note) (scopes : Scopes) :
    verifyIdentifier name note scopes = (identifier name note).verifiedIn scopes := by
  have type := Judgement.ofIdentifier_type name (scopes.declaredType? name) note.position
  simp only [Scopes.declaredType?] at type
  simp only [verifyIdentifier, verifiedIn, annotated, settledType, evaluation, ownFindings,
    List.foldl_cons, List.foldl_nil, List.flatMap_cons, List.flatMap_nil, List.append_nil,
    Scopes.behind, Scopes.declaredType?, type]

/-- An assignment to a name that has a symbol takes the type of the symbol. -/
theorem verifyNamedTarget_eq {scopes : Scopes} {symbols : List Symbol}
    (holds : scopes.Holds symbols) {name : String}
    (isDeclared : (scopes.declaredType? name).isSome = true) (note note' : Note) (value : Tree) :
    verifyNamedTarget name note note' (value.verifiedIn scopes) =
      (assignment (identifier name note) value note').verifiedIn scopes := by
  have later : ((value.verifiedIn scopes).scopes.lookup? name).map Symbol.type =
      scopes.declaredType? name :=
    congrFun (holds.declaredType?_foldl value.evaluation) name
  have type := Judgement.ofAssignment_type isDeclared name note'.position
    (value.settledType scopes.declaredType?)
  simp only [verifyNamedTarget, later]
  simp only [verifiedIn, type, annotated, settledType, evaluation, ownFindings, List.foldl_append,
    List.foldl_cons, List.foldl_nil, List.flatMap_append, List.flatMap_cons, List.flatMap_nil,
    List.append_nil, Scopes.behind]

theorem le_of_within {limit depth : Nat} {tree : Tree}
    (within : ∀ visit ∈ tree.visitsBelow depth, visit.calls ≤ limit) : depth ≤ limit := by
  rcases tree.visitsBelow_root depth with ⟨later, visits⟩
  rw [visits, List.forall_mem_cons] at within
  exact within.1

/-! ## Invalid targets -/

section InvalidTarget

variable {target : Tree} (other : target.name? = none) (value : Tree) (note : Note)

include other

theorem settledType_invalidTarget (declared : String → Option DataType) :
    (assignment target value note).settledType declared = .undefined := by
  cases target with
  | identifier name note' => cases other
  | _ => rfl

theorem ownFindings_invalidTarget (declared : String → Option DataType) :
    (assignment target value note).ownFindings declared =
      [Judgement.invalidTarget target.kindName note.position] := by
  cases target with
  | identifier name note' => cases other
  | _ => rfl

theorem behind_invalidTarget (scopes : Scopes) :
    scopes.behind (assignment target value note) = scopes := by
  cases target with
  | identifier name note' => cases other
  | _ => rfl

/-- An invalid target is verified behind the value, and the assignment has no type. -/
theorem verify_invalidTarget {limit depth : Nat} (within : depth ≤ limit) {scopes : Scopes}
    {value' target' : Verified} (verifies : value.verify limit depth scopes = .ok value')
    (targetVerifies : target.verify limit depth value'.scopes = .ok target') :
    verify limit depth (assignment target value note) scopes =
      .ok ⟨assignment target'.tree value'.tree ⟨note.position, some .undefined⟩, .undefined,
        target'.scopes, value'.diagnostics ++
          Judgement.invalidTarget target.kindName note.position :: target'.diagnostics⟩ := by
  rw [verify, if_neg (Nat.not_lt_of_le within)]
  simp only [verifies, bind, Except.bind]
  cases target with
  | identifier name note' => cases other
  | _ => simp only [targetVerifies]

end InvalidTarget

/-! ## Whole trees -/

mutual

/-- Where no visit is below too many calls and every name that is assigned to has a symbol, the
pass is not interrupted, and its result is told by the types in the table. -/
theorem verify_eq {limit depth : Nat} (tree : Tree) {scopes : Scopes} {symbols : List Symbol}
    (holds : scopes.Holds symbols) (within : ∀ visit ∈ tree.visitsBelow depth, visit.calls ≤ limit)
    (assigns : Assigns scopes.declaredType? tree.evaluation) :
    verify limit depth tree scopes = .ok (tree.verifiedIn scopes) := by
  have notBelow : ¬ limit < depth := Nat.not_lt_of_le (le_of_within within)
  cases tree with
  | identifier name note => rw [verify, if_neg notBelow, verifyIdentifier_eq]
  | number literal note =>
      rw [verify, if_neg notBelow]
      simp only [verifiedIn, annotated, settledType, evaluation, ownFindings, List.foldl_cons,
        List.foldl_nil, List.flatMap_cons, List.flatMap_nil, List.append_nil, Scopes.behind]
      rfl
  | unary operator operand note =>
      simp only [visitsBelow, List.forall_mem_cons] at within
      simp only [evaluation, assigns_append] at assigns
      have inside := verify_eq operand holds within.2 assigns.1
      rw [verify, if_neg notBelow]
      simp only [inside, bind, Except.bind, verifiedIn, annotated, settledType, evaluation,
        ownFindings, Judgement.ofOperation_type, List.foldl_append, List.foldl_cons,
        List.foldl_nil, List.flatMap_append, List.flatMap_cons, List.flatMap_nil, List.append_nil,
        Scopes.behind]
  | binary operator left right note =>
      simp only [visitsBelow, List.forall_mem_cons, List.forall_mem_append] at within
      simp only [evaluation, assigns_append] at assigns
      have inLeft := verify_eq left holds within.2.1 assigns.1.1
      have types := holds.declaredType?_foldl left.evaluation
      have inRight := verify_eq right (holds.foldl_behind left.evaluation) within.2.2
        (types ▸ assigns.1.2)
      rw [verify, if_neg notBelow]
      simp only [inLeft, inRight, bind, Except.bind, verifiedIn, types, annotated, settledType,
        evaluation, ownFindings, Judgement.ofOperation_type, List.foldl_append, List.foldl_cons,
        List.foldl_nil, List.flatMap_append, List.flatMap_cons, List.flatMap_nil, List.append_nil,
        Scopes.behind]
  | call name arguments note =>
      simp only [visitsBelow, List.forall_mem_cons] at within
      simp only [evaluation, assigns_append] at assigns
      have inside := verifyAll_eq arguments holds within.2 assigns.1
      rw [verify, if_neg notBelow]
      simp only [inside, bind, Except.bind, verifiedIn, verifiedAllIn, annotated, settledType,
        evaluation, ownFindings, Judgement.ofCall_type, List.foldl_append, List.foldl_cons,
        List.foldl_nil, List.flatMap_append, List.flatMap_cons, List.flatMap_nil, List.append_nil,
        Scopes.behind]
  | assignment target value note =>
      simp only [visitsBelow, List.forall_mem_cons, List.forall_mem_append] at within
      cases named : target.name? with
      | some name =>
          cases target with
          | identifier name note' =>
              simp only [evaluation, assigns_append] at assigns
              have inside := verify_eq value holds within.2.2 assigns.1
              have isDeclared := assigns.2 name List.mem_cons_self
              rw [verify, if_neg notBelow]
              simp only [inside, bind, Except.bind]
              rw [verifyNamedTarget_eq holds isDeclared]
          | _ => cases named
      | none =>
          rw [evaluation_assignment named, assigns_append, ← List.singleton_append,
            assigns_append] at assigns
          have inValue := verify_eq value holds within.2.2 assigns.1
          have types := holds.declaredType?_foldl value.evaluation
          have inTarget := verify_eq target (holds.foldl_behind value.evaluation) within.2.1
            (types ▸ assigns.2.2)
          rw [verify_invalidTarget named value note (le_of_within within.2.1) inValue inTarget]
          simp only [verifiedIn, types, annotated, evaluation_assignment named,
            settledType_invalidTarget named, ownFindings_invalidTarget named, List.foldl_append,
            List.foldl_cons, List.flatMap_append, List.flatMap_cons, List.singleton_append,
            behind_invalidTarget named]

theorem verifyAll_eq {limit depth : Nat} (trees : List Tree) {scopes : Scopes}
    {symbols : List Symbol} (holds : scopes.Holds symbols)
    (within : ∀ visit ∈ visitsBelowAll depth trees, visit.calls ≤ limit)
    (assigns : Assigns scopes.declaredType? (evaluationOfAll trees)) :
    verifyAll limit depth trees scopes = .ok (verifiedAllIn scopes trees) := by
  cases trees with
  | nil => rw [verifyAll]; rfl
  | cons tree later =>
      simp only [visitsBelowAll, List.forall_mem_append] at within
      simp only [evaluationOfAll, assigns_append] at assigns
      have first := verify_eq tree holds within.1 assigns.1
      have types := holds.declaredType?_foldl tree.evaluation
      have others := verifyAll_eq later (holds.foldl_behind tree.evaluation) within.2
        (types ▸ assigns.2)
      rw [verifyAll]
      simp only [first, others, bind, Except.bind, verifiedIn, verifiedAllIn, types, annotatedAll,
        evaluationOfAll, List.map_cons, List.foldl_append, List.flatMap_append]

end

end Tree
end ExpressionChecker

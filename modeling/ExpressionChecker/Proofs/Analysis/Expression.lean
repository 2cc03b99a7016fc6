import ExpressionChecker.Analysis.Verification
import ExpressionChecker.Proofs.Scopes
import ExpressionChecker.Proofs.Tree.Written

namespace ExpressionChecker

/-!
# What the passes do with an expression

On an expression that source text can stand for, the declaration pass does nothing, and the
verification pass does four things that can be told apart: it gives the expression the type of its
leftmost operand, marks the names that are read, and finds something wrong with single nodes only,
with each of them by itself.  No operand ever has a type that its operator refuses, because numbers
and known functions give numbers.  Neither pass is interrupted unless calls are nested too deep.
-/

open Grammar (JoinsProducts JoinsFactors)

/-! ## Types -/

namespace Scopes

/-- The type that the declarations give a name, unknown if there is no declaration. -/
def typeOf (scopes : Scopes) (name : String) : DataType :=
  ((scopes.lookup? name).map Symbol.type).getD .undefined

end Scopes

namespace Tree

/-- The type that a tree has when its names have the given types. -/
def impliedType (typeOf : String → DataType) : Tree → DataType
  | identifier name _ => typeOf name
  | number literal _ => .ofNumber literal
  | unary operator operand _ =>
    match OperatorClass.of? operator with
    | some operatorClass => operatorClass.resultType (operand.impliedType typeOf)
    | none => .undefined
  | binary operator left _ _ =>
    match OperatorClass.of? operator with
    | some operatorClass => operatorClass.resultType (left.impliedType typeOf)
    | none => .undefined
  | call name _ _ => ((KnownFunction.ofName? name).map KnownFunction.returnType).getD .undefined
  | assignment _ value _ => value.impliedType typeOf

/-- The inferred type is the one that the declarations imply.  Inferring does not go into the
arguments of calls, so where it may begin it is not interrupted. -/
theorem inferType_eq {limit depth : Nat} (within : depth ≤ limit) (scopes : Scopes) (tree : Tree) :
    inferType limit depth scopes tree = .ok (tree.impliedType scopes.typeOf) := by
  have notBelow : ¬ limit < depth := Nat.not_lt_of_le within
  cases tree with
  | identifier name note => rw [inferType, if_neg notBelow]; rfl
  | number literal note => rw [inferType, if_neg notBelow]; rfl
  | unary operator operand note =>
      have inside := inferType_eq within scopes operand
      rw [inferType, if_neg notBelow, impliedType]
      cases OperatorClass.of? operator with
      | none => rfl
      | some operatorClass =>
          simp only [inside]
          rfl
  | binary operator left right note =>
      have inside := inferType_eq within scopes left
      rw [inferType, if_neg notBelow, impliedType]
      cases OperatorClass.of? operator with
      | none => rfl
      | some operatorClass =>
          simp only [inside]
          rfl
  | call name arguments note => rw [inferType, if_neg notBelow]; rfl
  | assignment target value note =>
      rw [inferType, if_neg notBelow]
      exact inferType_eq within scopes value

theorem operatorClass_of_joins {operator : Operator}
    (joins : JoinsFactors operator ∨ JoinsProducts operator) :
    OperatorClass.of? operator = some .arithmetic := by
  rcases joins with (rfl | rfl) | (rfl | rfl) <;> rfl

/-- An expression has the type of its leftmost operand, which is a name or has a type of its
own. -/
theorem IsExpression.impliedType_leftmost {tree : Tree} (isExpression : tree.IsExpression) :
    (∃ name, ∀ typeOf, tree.impliedType typeOf = typeOf name) ∨
      ∃ type, OperatorClass.arithmetic.accepts type = true ∧
        ∀ typeOf, tree.impliedType typeOf = type := by
  induction isExpression with
  | @identifier name note free => exact Or.inl ⟨name, fun _ => rfl⟩
  | @number literal note spelt =>
      refine Or.inr ⟨.ofNumber literal, ?_, fun _ => rfl⟩
      unfold DataType.ofNumber
      split <;> rfl
  | binary joins isLeft isRight leftHypothesis rightHypothesis =>
      simpa only [impliedType, operatorClass_of_joins joins, OperatorClass.resultType]
        using leftHypothesis
  | @call name argument note free isArgument inductionHypothesis =>
      refine Or.inr ⟨_, ?_, fun _ => rfl⟩
      cases KnownFunction.ofName? name with
      | none => rfl
      | some function => cases function <;> rfl

theorem IsExpression.impliedType_accepted {tree : Tree} (isExpression : tree.IsExpression)
    {typeOf : String → DataType}
    (accepted : ∀ name, OperatorClass.arithmetic.accepts (typeOf name) = true) :
    OperatorClass.arithmetic.accepts (tree.impliedType typeOf) = true := by
  rcases isExpression.impliedType_leftmost with ⟨name, isName⟩ | ⟨type, accepts, isType⟩
  · rw [isName]
    exact accepted name
  · rw [isType]
    exact accepts

/-! ## Declaring -/

/-- Nothing is declared in an expression. -/
theorem IsExpression.declare_eq {tree : Tree} (isExpression : tree.IsExpression) {limit depth : Nat}
    (within : depth + tree.callsAbove ≤ limit) (gathered : Declarations) :
    tree.declare limit depth gathered = .ok gathered := by
  induction isExpression generalizing depth with
  | identifier free =>
      rw [declare, if_neg (by omega)]
  | number spelt =>
      rw [declare, if_neg (by omega)]
  | binary joins isLeft isRight leftHypothesis rightHypothesis =>
      rw [callsAbove] at within
      have left := leftHypothesis (show depth + _ ≤ limit by omega)
      have right := rightHypothesis (show depth + _ ≤ limit by omega)
      rw [declare, if_neg (by omega)]
      simp only [left, bind, Except.bind, right]
  | call free isArgument inductionHypothesis =>
      simp only [callsAbove, callsAboveArguments] at within
      have inside := inductionHypothesis (show depth + 1 + _ ≤ limit by omega)
      rw [declare, if_neg (by omega)]
      simp only [declareAll, inside, bind, Except.bind]

end Tree

/-! ## Findings -/

/-- What is wrong with a single node of an expression where certain names are declared. -/
def nodeFindings (declared : List String) : Tree → List Diagnostic
  | .identifier name note =>
    if name ∈ declared then []
    else [.report .undeclaredVariable note.position s!"Variable '{name}' is not declared"]
  | .call name _ note =>
    if name = "sqrt" ∨ name = "print" then []
    else if name = "pow" then
      [.report .wrongArgumentCount note.position "Function 'pow' expects 2 argument(s), found 1"]
    else [.report .undefinedFunction note.position s!"Function '{name}' is not defined"]
  | _ => []

/-- A number is never refused, and neither is an operand of a type that is accepted. -/
theorem Judgement.ofNumber_spelt {literal : String}
    (spelt : Spelling.isNumber literal.toList = true) (position : Position) :
    Judgement.ofNumber literal position = ⟨.ofNumber literal, []⟩ := by
  rw [ofNumber, if_pos spelt]

theorem Judgement.ofOperation_accepted {operator : Operator}
    (joins : JoinsFactors operator ∨ JoinsProducts operator) (position : Position)
    {left right : DataType} (leftAccepted : OperatorClass.arithmetic.accepts left = true)
    (rightAccepted : OperatorClass.arithmetic.accepts right = true) :
    Judgement.ofOperation operator position left (some right) = ⟨left, []⟩ := by
  simp only [ofOperation, Tree.operatorClass_of_joins joins, operandFindings, leftAccepted,
    rightAccepted, comparisonFindings, OperatorClass.resultType]
  rfl

/-- What may be an operand may be an argument. -/
theorem DataType.decimal_accepts {type : DataType}
    (accepted : OperatorClass.arithmetic.accepts type = true) :
    DataType.decimal.accepts type = true := by
  cases type with
  | integer => rfl
  | decimal => rfl
  | undefined => rfl
  | boolean => cases accepted
  | string => cases accepted

/-- A call with one argument of a type that is accepted is refused for its name only. -/
theorem Judgement.ofCall_single (name : String) (argument : Judgement.Argument)
    (accepted : OperatorClass.arithmetic.accepts argument.type = true) (arguments : List Tree)
    (note : Note) (declared : List String) :
    Judgement.ofCall name note.position [argument] =
      ⟨((KnownFunction.ofName? name).map KnownFunction.returnType).getD .undefined,
        nodeFindings declared (.call name arguments note)⟩ := by
  by_cases isRoot : name = "sqrt"
  · subst isRoot
    have known : KnownFunction.ofName? "sqrt" = some .squareRoot := by decide
    simp [ofCall, known, nodeFindings, argumentFindings, KnownFunction.parameters,
      DataType.decimal_accepts accepted]
  by_cases isPrint : name = "print"
  · subst isPrint
    have known : KnownFunction.ofName? "print" = some .print := by decide
    simp [ofCall, known, nodeFindings, argumentFindings, KnownFunction.parameters,
      DataType.accepts]
  by_cases isPower : name = "pow"
  · subst isPower
    have known : KnownFunction.ofName? "pow" = some .power := by decide
    rw [nodeFindings, if_neg (by decide), if_pos rfl]
    simp only [ofCall, known, KnownFunction.parameters, KnownFunction.returnType,
      KnownFunction.name, List.length_cons, List.length_nil, Option.map_some, Option.getD_some]
    rfl
  · have unknown : KnownFunction.ofName? name = none := by
      rw [KnownFunction.ofName?, List.find?_eq_none]
      intro function _ named
      have same := of_decide_eq_true named
      cases function with
      | squareRoot => exact isRoot same.symm
      | power => exact isPower same.symm
      | print => exact isPrint same.symm
    simp [ofCall, unknown, nodeFindings, isRoot, isPrint, isPower]

/-! ## Symbols -/

namespace Symbol

/-- The symbol after certain names have been read. -/
def afterReading (names : List String) (symbol : Symbol) : Symbol :=
  if symbol.name ∈ names then symbol.asUsed else symbol

theorem afterReading_name (names : List String) (symbol : Symbol) :
    (symbol.afterReading names).name = symbol.name := by
  unfold afterReading
  split <;> rfl

theorem afterReading_type (names : List String) (symbol : Symbol) :
    (symbol.afterReading names).type = symbol.type := by
  unfold afterReading
  split <;> rfl

theorem afterReading_position (names : List String) (symbol : Symbol) :
    (symbol.afterReading names).position = symbol.position := by
  unfold afterReading
  split <;> rfl

/-- Only reading the name of a symbol marks it as read. -/
theorem afterReading_used (names : List String) (symbol : Symbol) :
    (symbol.afterReading names).used = (symbol.used || decide (symbol.name ∈ names)) := by
  by_cases read : symbol.name ∈ names
  · rw [afterReading, if_pos read, decide_eq_true read, Bool.or_true]
    rfl
  · rw [afterReading, if_neg read, decide_eq_false read, Bool.or_false]

theorem afterReading_nil (symbol : Symbol) : symbol.afterReading [] = symbol := by
  rw [afterReading, if_neg List.not_mem_nil]

theorem afterReading_append (first second : List String) (symbol : Symbol) :
    symbol.afterReading (first ++ second) = (symbol.afterReading first).afterReading second := by
  by_cases before : symbol.name ∈ first <;> by_cases behind : symbol.name ∈ second <;>
    simp [afterReading, before, behind, asUsed]

theorem changedNamed_asUsed (name : String) :
    Scope.changedNamed name asUsed = afterReading [name] := by
  funext symbol
  simp only [Scope.changedNamed, afterReading, List.mem_singleton]
  rfl

end Symbol

/-- The type that a list of symbols gives a name. -/
def typeIn (symbols : List Symbol) (name : String) : DataType :=
  ((symbols.find? fun symbol => symbol.name = name).map Symbol.type).getD .undefined

theorem map_afterReading_nil (symbols : List Symbol) :
    symbols.map (Symbol.afterReading []) = symbols := by
  rw [List.map_congr_left fun symbol _ => symbol.afterReading_nil, List.map_id']

theorem map_afterReading_append (symbols : List Symbol) (first second : List String) :
    symbols.map (Symbol.afterReading (first ++ second)) =
      (symbols.map (Symbol.afterReading first)).map (Symbol.afterReading second) := by
  rw [List.map_map]
  exact List.map_congr_left fun symbol _ => symbol.afterReading_append first second

theorem map_name_afterReading (symbols : List Symbol) (names : List String) :
    (symbols.map (Symbol.afterReading names)).map Symbol.name = symbols.map Symbol.name := by
  rw [List.map_map]
  exact List.map_congr_left fun symbol _ => symbol.afterReading_name names

theorem typeIn_afterReading (symbols : List Symbol) (names : List String) :
    typeIn (symbols.map (Symbol.afterReading names)) = typeIn symbols := by
  funext name
  simp only [typeIn, List.find?_map, Option.map_map, Function.comp_def, Symbol.afterReading_name,
    Symbol.afterReading_type]

theorem Scopes.Holds.typeOf_eq {scopes : Scopes} {symbols : List Symbol}
    (holds : scopes.Holds symbols) : scopes.typeOf = typeIn symbols := by
  funext name
  rw [typeOf, holds.lookup?_eq, typeIn]

/-! ## Verifying -/

namespace Tree

theorem verify_binary {limit depth : Nat} (within : depth ≤ limit) {operator : Operator}
    {left right : Tree} {scopes : Scopes} {left' right' : Verified}
    (leftVerify : left.verify limit depth scopes = .ok left')
    (rightVerify : right.verify limit depth left'.scopes = .ok right') (note : Note) :
    verify limit depth (.binary operator left right note) scopes =
      let judgement :=
        Judgement.ofOperation operator note.position left'.type (some right'.type)
      .ok ⟨.binary operator left'.tree right'.tree ⟨note.position, some judgement.type⟩,
        judgement.type, right'.scopes,
        left'.diagnostics ++ right'.diagnostics ++ judgement.findings⟩ := by
  rw [verify, if_neg (Nat.not_lt_of_le within)]
  simp only [leftVerify, rightVerify, bind, Except.bind]

theorem verify_call_single {limit depth : Nat} (within : depth ≤ limit) {argument : Tree}
    {scopes : Scopes} {argument' : Verified}
    (argumentVerify : argument.verify limit (depth + 1) scopes = .ok argument') (name : String)
    (note : Note) :
    verify limit depth (.call name [argument] note) scopes =
      let judgement := Judgement.ofCall name note.position [⟨argument.position, argument'.type⟩]
      .ok ⟨.call name [argument'.tree] ⟨note.position, some judgement.type⟩, judgement.type,
        argument'.scopes, argument'.diagnostics ++ judgement.findings⟩ := by
  rw [verify, if_neg (Nat.not_lt_of_le within)]
  simp only [verifyAll, argumentVerify, bind, Except.bind, List.append_nil]

/-- What the verification pass does with an expression where certain symbols are declared. -/
structure VerifiedIn (symbols : List Symbol) (tree : Tree) (verified : Verified) : Prop where
  type : verified.type = tree.impliedType (typeIn symbols)
  holds : verified.scopes.Holds (symbols.map (Symbol.afterReading tree.reads))
  diagnostics : verified.diagnostics =
    tree.postorder.flatMap (nodeFindings (symbols.map Symbol.name))

/-- A name has the type of its declaration, and is found wrong if there is none. -/
theorem ofIdentifier_declared (symbols : List Symbol) (name : String) (note : Note) :
    Judgement.ofIdentifier name
        ((symbols.find? fun symbol => symbol.name = name).map Symbol.type) note.position =
      ⟨typeIn symbols name, nodeFindings (symbols.map Symbol.name) (.identifier name note)⟩ := by
  cases found : symbols.find? (fun symbol => symbol.name = name) with
  | none =>
      have undeclared : name ∉ symbols.map Symbol.name := by
        intro declared
        rcases List.mem_map.mp declared with ⟨symbol, listed, named⟩
        exact absurd (decide_eq_true named) (List.find?_eq_none.mp found symbol listed)
      simp only [Judgement.ofIdentifier, Option.map_none, typeIn, found, Option.getD_none,
        nodeFindings, if_neg undeclared]
  | some symbol =>
      have named := List.find?_some found
      have declared : name ∈ symbols.map Symbol.name :=
        List.mem_map.mpr ⟨symbol, List.mem_of_find?_eq_some found, of_decide_eq_true named⟩
      simp only [Judgement.ofIdentifier, Option.map_some, typeIn, found, Option.getD_some,
        nodeFindings, if_pos declared]

theorem verifyIdentifier_verifiedIn (name : String) (note : Note) {scopes : Scopes}
    {symbols : List Symbol} (holds : scopes.Holds symbols) :
    VerifiedIn symbols (.identifier name note) (verifyIdentifier name note scopes) := by
  have judgement := ofIdentifier_declared symbols name note
  rw [← holds.lookup?_eq] at judgement
  have after := holds.update name Symbol.asUsed
  rw [Symbol.changedNamed_asUsed] at after
  constructor
  · exact congrArg Judgement.type judgement
  · exact after
  · exact (congrArg Judgement.findings judgement).trans (List.append_nil _).symm

/-- The verification pass is not interrupted by an expression whose calls are not nested too deep,
and does with it what can be told from its shape. -/
theorem IsExpression.exists_verifiedIn {tree : Tree} (isExpression : tree.IsExpression)
    {limit depth : Nat} (within : depth + tree.callsAbove ≤ limit) {scopes : Scopes}
    {symbols : List Symbol} (holds : scopes.Holds symbols)
    (accepted : ∀ name, OperatorClass.arithmetic.accepts (typeIn symbols name) = true) :
    ∃ verified, tree.verify limit depth scopes = .ok verified ∧
      VerifiedIn symbols tree verified := by
  induction isExpression generalizing depth scopes symbols with
  | @identifier name note free =>
      refine ⟨_, ?_, verifyIdentifier_verifiedIn name note holds⟩
      rw [verify, if_neg (by omega)]
  | @number literal note spelt =>
      have judgement := Judgement.ofNumber_spelt spelt note.position
      refine ⟨_, by rw [verify, if_neg (by omega)], ?_, ?_, ?_⟩
      · exact congrArg Judgement.type judgement
      · have nothing : (Tree.number literal note).reads = [] := rfl
        rw [nothing, map_afterReading_nil]
        exact holds
      · exact congrArg Judgement.findings judgement
  | @binary operator left right note joins isLeft isRight leftHypothesis rightHypothesis =>
      rw [callsAbove] at within
      rcases leftHypothesis (show depth + _ ≤ limit by omega) holds accepted with
        ⟨left', leftVerify, leftVerified⟩
      -- The right operand meets other symbols than the left one, but with the same types.
      have later : ∀ name, OperatorClass.arithmetic.accepts
          (typeIn (symbols.map (Symbol.afterReading left.reads)) name) = true := by
        rw [typeIn_afterReading]
        exact accepted
      rcases rightHypothesis (show depth + _ ≤ limit by omega) leftVerified.holds later with
        ⟨right', rightVerify, rightVerified⟩
      have judgement := Judgement.ofOperation_accepted joins note.position
        (leftVerified.type ▸ isLeft.impliedType_accepted accepted)
        (rightVerified.type ▸ isRight.impliedType_accepted later)
      refine ⟨_, verify_binary (by omega) leftVerify rightVerify note, ?_, ?_, ?_⟩
      · rw [judgement]
        simp only [leftVerified.type, impliedType, operatorClass_of_joins joins,
          OperatorClass.resultType]
      · rw [reads_binary, map_afterReading_append]
        exact rightVerified.holds
      · have rightFindings := rightVerified.diagnostics
        rw [map_name_afterReading] at rightFindings
        rw [judgement]
        simp only [leftVerified.diagnostics, rightFindings, postorder, List.flatMap_append,
          List.flatMap_cons, List.flatMap_nil, nodeFindings, List.append_nil]
  | @call name argument note free isArgument inductionHypothesis =>
      simp only [callsAbove, callsAboveArguments] at within
      rcases inductionHypothesis (show depth + 1 + _ ≤ limit by omega) holds accepted with
        ⟨argument', argumentVerify, argumentVerified⟩
      have judgement := Judgement.ofCall_single name ⟨argument.position, argument'.type⟩
        (argumentVerified.type ▸ isArgument.impliedType_accepted accepted) [argument] note
        (symbols.map Symbol.name)
      refine ⟨_, verify_call_single (by omega) argumentVerify name note, ?_, ?_, ?_⟩
      · simp only [judgement, impliedType]
      · rw [reads_call]
        exact argumentVerified.holds
      · simp only [judgement, argumentVerified.diagnostics, postorder, postorderOfAll,
          List.flatMap_append, List.flatMap_cons, List.flatMap_nil, List.append_nil]

end Tree
end ExpressionChecker

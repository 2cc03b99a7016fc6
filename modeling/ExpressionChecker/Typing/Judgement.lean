import ExpressionChecker.Diagnostic
import ExpressionChecker.Spelling
import ExpressionChecker.Typing.KnownFunction
import ExpressionChecker.Typing.OperatorClass

namespace ExpressionChecker

/-!
# Judgements about single nodes

What a check says about one node depends on the node and on the types of the parts below it.  Each
judgement gives a type and the findings, in the order in which they are reported.  An operand of
unknown type causes no finding.
-/

/-- The type of a node and what is wrong with it. -/
structure Judgement where
  type : DataType
  findings : List Diagnostic
deriving DecidableEq, Repr

namespace Judgement

/-- The judgement about a name and the type that its declaration gives it, if it is declared. -/
def ofIdentifier (name : String) (declared : Option DataType) (position : Position) : Judgement :=
  match declared with
  | some type => ⟨type, []⟩
  | none =>
    ⟨.undefined, [.report .undeclaredVariable position s!"Variable '{name}' is not declared"]⟩

/-- The judgement about a numeric literal.  A misspelt one has a type nevertheless. -/
def ofNumber (literal : String) (position : Position) : Judgement :=
  ⟨.ofNumber literal,
    if Spelling.isNumber literal.toList then []
    else [.report .invalidNumber position s!"Invalid number '{literal}'"]⟩

/-! ## Operations -/

/-- The finding about an operand that its operator does not allow. -/
def operandFindings (operator : Operator) (operatorClass : OperatorClass) (position : Position)
    (side : String) (operand : DataType) : List Diagnostic :=
  if operatorClass.accepts operand then []
  else
    [.report .operandType position
      (s!"{operatorClass.title} operator '{operator.symbol}' does not accept {side} operand " ++
        s!"of type {operand.name}")]

/-- The finding about a comparison of two known types that differ. -/
def comparisonFindings (operator : Operator) (operatorClass : OperatorClass) (position : Position)
    (left right : DataType) : List Diagnostic :=
  if operatorClass = .comparison ∧ left ≠ right ∧ left ≠ .undefined ∧ right ≠ .undefined then
    [.report .incompatibleTypes position
      s!"Incompatible types for '{operator.symbol}': {left.name} and {right.name}"]
  else []

/-- The judgement about an operation on operands of the given types.  The right one is missing
when the operator stands in front of its only operand. -/
def ofOperation (operator : Operator) (position : Position) (left : DataType)
    (right : Option DataType) : Judgement :=
  match OperatorClass.of? operator with
  | none =>
    ⟨.undefined,
      [.report .unknownOperator position s!"Unknown operator '{operator.symbol}'"]⟩
  | some operatorClass =>
    let leftFindings := operandFindings operator operatorClass position "left" left
    let rightFindings :=
      match right with
      | none => []
      | some right =>
        operandFindings operator operatorClass position "right" right ++
          comparisonFindings operator operatorClass position left right
    ⟨operatorClass.resultType left, leftFindings ++ rightFindings⟩

/-! ## Calls -/

/-- An argument of a call: where it stands and its type. -/
structure Argument where
  position : Position
  type : DataType
deriving DecidableEq, Repr

/-- The findings about arguments that do not have the types of their parameters.  The first
argument has the given number. -/
def argumentFindings (function : KnownFunction) :
    Nat → List DataType → List Argument → List Diagnostic
  | number, expected :: parameters, argument :: arguments =>
    (if expected.accepts argument.type then []
      else
        [.report .argumentType argument.position
          (s!"Argument {number} of '{function.name}' expects {expected.name}, " ++
            s!"found {argument.type.name}")]) ++
      argumentFindings function (number + 1) parameters arguments
  | _, _, _ => []

/-- The judgement about a call.  The types of the arguments matter only when their number is
right. -/
def ofCall (name : String) (position : Position) (arguments : List Argument) : Judgement :=
  match KnownFunction.ofName? name with
  | none =>
    ⟨.undefined, [.report .undefinedFunction position s!"Function '{name}' is not defined"]⟩
  | some function =>
    ⟨function.returnType,
      if function.parameters.length = arguments.length then
        argumentFindings function 1 function.parameters arguments
      else
        [.report .wrongArgumentCount position
          (s!"Function '{function.name}' expects {function.parameters.length} argument(s), " ++
            s!"found {arguments.length}")]⟩

/-! ## Assignments -/

/-- The judgement about the assignment of a value to a name declared with a type.  A name that is
not declared takes the type of the value. -/
def ofAssignment (name : String) (declared : Option DataType) (position : Position)
    (value : DataType) : Judgement :=
  match declared with
  | none => ⟨value, []⟩
  | some type =>
    ⟨type,
      if type.accepts value then []
      else
        [.report .incompatibleAssignment position
          s!"Cannot assign {value.name} to '{name}' of type {type.name}"]⟩

/-- The finding about an assignment to something other than a name. -/
def invalidTarget (kindName : String) (position : Position) : Diagnostic :=
  .report .invalidAssignment position
    s!"Assignment target must be an identifier, found {kindName}"

end Judgement
end ExpressionChecker

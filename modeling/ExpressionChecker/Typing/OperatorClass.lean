import ExpressionChecker.DataType
import ExpressionChecker.Operator

namespace ExpressionChecker

/-!
# Classes of operators

The class of an operator decides which operands it accepts and what type its result has.  The
remainder has no class: it can be written down in a tree, but it cannot be typed.
-/

/-- A class of operators that are typed alike. -/
inductive OperatorClass where
  | arithmetic
  | relational
  | logical
  | comparison
deriving DecidableEq, Repr, Inhabited

namespace OperatorClass

/-- The class of an operator, if it can be typed. -/
def of? : Operator → Option OperatorClass
  | .add | .subtract | .multiply | .divide => some arithmetic
  | .less | .greater | .lessOrEqual | .greaterOrEqual => some relational
  | .and | .or | .not => some logical
  | .equal | .notEqual => some comparison
  | .remainder => none

/-- The name of a class. -/
def name : OperatorClass → String
  | arithmetic => "arithmetic"
  | relational => "relational"
  | logical => "logical"
  | comparison => "comparison"

/-- The name of a class at the beginning of a sentence. -/
def title : OperatorClass → String
  | arithmetic => "Arithmetic"
  | relational => "Relational"
  | logical => "Logical"
  | comparison => "Comparison"

/-- Whether an operand of a type is allowed.  An unknown type always is, because it was reported
where it arose. -/
def accepts : OperatorClass → DataType → Bool
  | _, .undefined => true
  | arithmetic, .integer | arithmetic, .decimal => true
  | relational, .integer | relational, .decimal => true
  | logical, .boolean => true
  | comparison, _ => true
  | _, _ => false

/-- The type of the result.  An arithmetic result has the type of the left operand. -/
def resultType : OperatorClass → DataType → DataType
  | arithmetic, left => left
  | _, _ => .boolean

end OperatorClass
end ExpressionChecker

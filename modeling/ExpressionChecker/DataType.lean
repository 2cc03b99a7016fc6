namespace ExpressionChecker

/-!
# Static types

An expression has one of five types.  `undefined` stands for a type that is unknown or not
constrained.  It goes together with every type, so that one fault is reported once and not again
by everything built on top of it.
-/

/-- The static type of an expression. -/
inductive DataType where
  | integer
  | decimal
  | boolean
  | string
  | undefined
deriving DecidableEq, Repr, Inhabited

namespace DataType

/-- The name of a type in messages. -/
def name : DataType → String
  | integer => "Integer"
  | decimal => "Decimal"
  | boolean => "Boolean"
  | string => "String"
  | undefined => "Undefined"

/-- Whether a value of type `found` may stand where `expected` is required.  An integer widens to
a decimal and never the other way round. -/
def accepts (expected found : DataType) : Bool :=
  expected = undefined || found = undefined || (expected = decimal && found = integer) ||
    expected = found

/-- The type of a numeric literal, decided by whether it has a decimal point. -/
def ofNumber (literal : String) : DataType :=
  if '.' ∈ literal.toList then decimal else integer

end DataType
end ExpressionChecker

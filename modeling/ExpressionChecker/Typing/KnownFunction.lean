import ExpressionChecker.DataType

namespace ExpressionChecker

/-!
# Known functions

Programs cannot define functions.  Three are known, each with the types of its parameters and of
its result.
-/

/-- A function that every program can call. -/
inductive KnownFunction where
  | squareRoot
  | power
  | print
deriving DecidableEq, Repr, Inhabited

namespace KnownFunction

/-- Every known function, once. -/
def all : List KnownFunction :=
  [squareRoot, power, print]

/-- The name a function is called by. -/
def name : KnownFunction → String
  | squareRoot => "sqrt"
  | power => "pow"
  | print => "print"

/-- The function called by a name. -/
def ofName? (name : String) : Option KnownFunction :=
  all.find? (·.name = name)

/-- The types of the parameters, in order. -/
def parameters : KnownFunction → List DataType
  | squareRoot => [.decimal]
  | power => [.decimal, .decimal]
  | print => [.undefined]

/-- The type of the result. -/
def returnType : KnownFunction → DataType
  | squareRoot | power => .decimal
  | print => .undefined

end KnownFunction
end ExpressionChecker

namespace ExpressionChecker

/-!
# Operators

The fourteen operators with their symbols and their binding strength.  Source text can only use
the four arithmetic ones besides the remainder; the others occur in trees that are built directly.
-/

/-- An operator of the language. -/
inductive Operator where
  | add
  | subtract
  | multiply
  | divide
  | remainder
  | less
  | greater
  | lessOrEqual
  | greaterOrEqual
  | equal
  | notEqual
  | and
  | or
  | not
deriving DecidableEq, Repr, Inhabited

namespace Operator

/-- Every operator, once. -/
def all : List Operator :=
  [add, subtract, multiply, divide, remainder, less, greater, lessOrEqual, greaterOrEqual, equal,
    notEqual, and, or, not]

/-- The symbol an operator is written with. -/
def symbol : Operator → String
  | add => "+"
  | subtract => "-"
  | multiply => "*"
  | divide => "/"
  | remainder => "%"
  | less => "<"
  | greater => ">"
  | lessOrEqual => "<="
  | greaterOrEqual => ">="
  | equal => "=="
  | notEqual => "!="
  | and => "&&"
  | or => "||"
  | not => "!"

/-- The operator written with a symbol. -/
def ofSymbol? (symbol : String) : Option Operator :=
  all.find? (·.symbol = symbol)

theorem ofSymbol?_symbol (operator : Operator) : ofSymbol? operator.symbol = some operator := by
  cases operator <;> decide

/-- An operator is found by its symbol and by nothing else. -/
theorem ofSymbol?_eq_some_iff {symbol : String} {operator : Operator} :
    ofSymbol? symbol = some operator ↔ symbol = operator.symbol := by
  constructor
  · intro found
    have matched := List.find?_some found
    exact (of_decide_eq_true matched).symm
  · intro equal
    subst equal
    exact ofSymbol?_symbol operator

theorem symbol_injective {first second : Operator} (equal : first.symbol = second.symbol) :
    first = second := by
  have found := ofSymbol?_symbol first
  rw [equal, ofSymbol?_symbol second] at found
  exact (Option.some.inj found).symm

/-- How tightly an operator binds in written form.  The higher strength binds first. -/
def strength : Operator → Nat
  | or => 1
  | and => 2
  | equal | notEqual => 3
  | less | greater | lessOrEqual | greaterOrEqual => 4
  | add | subtract => 5
  | multiply | divide | remainder => 6
  | not => 7

end Operator
end ExpressionChecker

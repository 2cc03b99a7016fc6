import ExpressionChecker.Tree

namespace ExpressionChecker
namespace Tree

/-!
# Rendering trees as source text

Operators associate to the left.  An operand is put in parentheses exactly when it would be read
differently without them: on the left when it binds less tightly than its operator, and on the
right also when it binds as tightly.
-/

/-- How tightly the root of a tree binds.  Names, numbers and calls bind tighter than any
operator, and an assignment binds loosest. -/
def strength : Tree → Nat
  | unary operator _ _ | binary operator _ _ _ => operator.strength
  | assignment .. => 0
  | identifier .. | number .. | call .. => 255

/-- Puts a text in parentheses where they are needed. -/
def parenthesized (needed : Bool) (text : String) : String :=
  if needed then "(" ++ text ++ ")" else text

mutual

/-- The source text of a tree. -/
def render : Tree → String
  | identifier name _ => name
  | number literal _ => literal
  | unary operator operand _ =>
    operator.symbol ++ parenthesized (operand.strength < operator.strength) (render operand)
  | binary operator left right _ =>
    parenthesized (left.strength < operator.strength) (render left) ++
      " " ++ operator.symbol ++ " " ++
      parenthesized (right.strength ≤ operator.strength) (render right)
  | call name arguments _ => name ++ "(" ++ renderAll arguments ++ ")"
  | assignment target value _ => render target ++ " = " ++ render value

/-- The source texts of several trees, separated by commas. -/
def renderAll : List Tree → String
  | [] => ""
  | [tree] => render tree
  | tree :: trees => render tree ++ ", " ++ renderAll trees

end

end Tree
end ExpressionChecker

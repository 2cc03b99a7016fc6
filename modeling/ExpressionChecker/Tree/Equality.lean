import ExpressionChecker.Tree

namespace ExpressionChecker
namespace Tree

/-!
# Equality of trees

Two trees are compared part by part, notes included.  The comparison decides equality.
-/

mutual

/-- Whether two trees agree in every part. -/
def agrees : Tree → Tree → Bool
  | identifier name note, identifier name' note' => name = name' && note = note'
  | number literal note, number literal' note' => literal = literal' && note = note'
  | unary operator operand note, unary operator' operand' note' =>
    operator = operator' && agrees operand operand' && note = note'
  | binary operator left right note, binary operator' left' right' note' =>
    operator = operator' && agrees left left' && agrees right right' && note = note'
  | call name arguments note, call name' arguments' note' =>
    name = name' && agreeAll arguments arguments' && note = note'
  | assignment target value note, assignment target' value' note' =>
    agrees target target' && agrees value value' && note = note'
  | _, _ => false

/-- Whether two lists of trees agree one by one. -/
def agreeAll : List Tree → List Tree → Bool
  | [], [] => true
  | tree :: trees, tree' :: trees' => agrees tree tree' && agreeAll trees trees'
  | _, _ => false

end

mutual

/-- Trees agree exactly when they are equal. -/
theorem agrees_iff (first second : Tree) : agrees first second = true ↔ first = second := by
  cases first <;> cases second <;> simp [agrees, agrees_iff, agreeAll_iff, and_assoc]

/-- Lists of trees agree exactly when they are equal. -/
theorem agreeAll_iff (first second : List Tree) :
    agreeAll first second = true ↔ first = second := by
  cases first <;> cases second <;> simp [agreeAll, agrees_iff, agreeAll_iff]

end

instance : DecidableEq Tree := fun first second =>
  decidable_of_iff (agrees first second = true) (agrees_iff first second)

end Tree
end ExpressionChecker

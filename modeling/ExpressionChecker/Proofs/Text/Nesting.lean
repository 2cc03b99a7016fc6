namespace ExpressionChecker
namespace Text

/-!
# How deep parentheses are nested in a text

The depth is counted on the characters alone, in one walk: it goes up behind an opening parenthesis
and down behind a closing one.  A text that closes every parenthesis it opens contributes its own
depth wherever it stands.
-/

/-- How many parentheses are open behind a character, when `opened` are open in front of it. -/
def openedBehind (opened : Nat) (c : Char) : Nat :=
  if c = '(' then opened + 1 else if c = ')' then opened - 1 else opened

/-- The most parentheses that are open at one place, when `opened` are open in front. -/
def nestingFrom (opened : Nat) : List Char → Nat
  | [] => opened
  | c :: rest => max opened (nestingFrom (openedBehind opened c) rest)

/-- How deep the parentheses of a text are nested. -/
def nesting (text : String) : Nat :=
  nestingFrom 0 text.toList

theorem le_nestingFrom (opened : Nat) (chars : List Char) : opened ≤ nestingFrom opened chars := by
  cases chars with
  | nil => exact Nat.le_refl _
  | cons c rest => exact Nat.le_max_left _ _

/-- Wherever the characters stand, they add at most `depth` levels of parentheses, and behind them
as many are open as in front. -/
def Adds (depth : Nat) (chars : List Char) : Prop :=
  ∀ opened rest, nestingFrom opened (chars ++ rest) = max (opened + depth) (nestingFrom opened rest)

namespace Adds

/-- The depth that characters add is their nesting. -/
theorem nestingFrom_zero {depth : Nat} {chars : List Char} (adds : Adds depth chars) :
    nestingFrom 0 chars = depth := by
  have alone := adds 0 []
  rw [List.append_nil] at alone
  rw [alone, nestingFrom]
  omega

/-- Characters without parentheses add nothing. -/
theorem of_plain {chars : List Char} (plain : ∀ c ∈ chars, c ≠ '(' ∧ c ≠ ')') : Adds 0 chars := by
  induction chars with
  | nil =>
      intro opened rest
      have low := le_nestingFrom opened rest
      rw [List.nil_append]
      omega
  | cons c chars inductionHypothesis =>
      rw [List.forall_mem_cons] at plain
      intro opened rest
      have later := inductionHypothesis plain.2 opened rest
      rw [List.cons_append, nestingFrom, openedBehind, if_neg plain.1.1, if_neg plain.1.2, later]
      omega

theorem append {depth depth' : Nat} {chars chars' : List Char} (first : Adds depth chars)
    (second : Adds depth' chars') : Adds (max depth depth') (chars ++ chars') := by
  intro opened rest
  rw [List.append_assoc, first, second]
  omega

/-- Parentheses around characters add a level. -/
theorem enclose {depth : Nat} {chars : List Char} (adds : Adds depth chars) :
    Adds (depth + 1) ('(' :: (chars ++ [')'])) := by
  intro opened rest
  have open' : openedBehind opened '(' = opened + 1 := rfl
  have closed : openedBehind (opened + 1) ')' = opened := rfl
  rw [List.cons_append, List.append_assoc, nestingFrom, open', adds, List.singleton_append,
    nestingFrom, closed]
  omega

end Adds

end Text
end ExpressionChecker

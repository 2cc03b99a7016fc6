import ExpressionChecker.Proofs.Token.Munch
import Mathlib.Computability.RegularExpressions

namespace ExpressionChecker
namespace Spelling

/-!
# The language of numbers

Numbers are the words of the regular expression `[0-9]+(\.[0-9]+)?([eE][+-]?[0-9]+)?`.  The
expression leaves open where a run of digits ends, while a number is read with the longest runs
there are.  Both agree because what may follow a run of digits in a number never begins with a
digit.
-/

open RegularExpression (char)

/-! ## The expression -/

/-- One of the characters. -/
def anyOf (chars : List Char) : RegularExpression Char :=
  (chars.map char).sum

/-- The expression `r+`. -/
def oneOrMore (expression : RegularExpression Char) : RegularExpression Char :=
  expression * expression.star

/-- The expression `r?`. -/
def optionally (expression : RegularExpression Char) : RegularExpression Char :=
  expression + 1

/-- The expression `[0-9]+`. -/
def digitsExpression : RegularExpression Char :=
  oneOrMore (anyOf ['0', '1', '2', '3', '4', '5', '6', '7', '8', '9'])

/-- The expression `\.[0-9]+`. -/
def fractionExpression : RegularExpression Char :=
  char '.' * digitsExpression

/-- The expression `[eE][+-]?[0-9]+`. -/
def exponentExpression : RegularExpression Char :=
  anyOf ['e', 'E'] * (optionally (anyOf ['+', '-']) * digitsExpression)

/-- The expression `[0-9]+(\.[0-9]+)?([eE][+-]?[0-9]+)?`. -/
def numberExpression : RegularExpression Char :=
  digitsExpression * (optionally fractionExpression * optionally exponentExpression)

/-! ## Its words -/

theorem mem_anyOf {chars word : List Char} :
    word ∈ (anyOf chars).matches' ↔ ∃ c ∈ chars, word = [c] := by
  induction chars with
  | nil => simp [anyOf, RegularExpression.matches'_zero, Language.notMem_zero]
  | cons c chars inductionHypothesis =>
      have split : anyOf (c :: chars) = char c + anyOf chars := List.sum_cons
      rw [split, RegularExpression.matches'_add, Language.mem_add, inductionHypothesis,
        RegularExpression.matches'_char, List.exists_mem_cons_iff]
      exact Iff.rfl

theorem mem_optionally {expression : RegularExpression Char} {word : List Char} :
    word ∈ (optionally expression).matches' ↔ word ∈ expression.matches' ∨ word = [] := by
  rw [optionally, RegularExpression.matches'_add, RegularExpression.matches'_epsilon,
    Language.mem_add, Language.mem_one]

/-- A run of digits that holds at least one. -/
def IsDigits (word : List Char) : Prop :=
  word ≠ [] ∧ ∀ c ∈ word, c.isDigit = true

theorem isDigit_iff_mem {c : Char} :
    c.isDigit = true ↔ c ∈ ['0', '1', '2', '3', '4', '5', '6', '7', '8', '9'] := by
  constructor
  · intro digit
    have range := asciiDigit_iff_toNat.mp (isDigit_iff.mp digit)
    have code : c = Char.ofNat c.toNat := (Char.ofNat_toNat c).symm
    have table : ∀ n ∈ List.range' 0x30 10,
        Char.ofNat n ∈ ['0', '1', '2', '3', '4', '5', '6', '7', '8', '9'] := by decide
    rw [code]
    exact table _ (List.mem_range'_1.mpr (by omega))
  · intro listed
    have table : ['0', '1', '2', '3', '4', '5', '6', '7', '8', '9'].all Char.isDigit = true := by
      decide
    exact List.all_eq_true.mp table c listed

theorem mem_digit {word : List Char} :
    word ∈ (anyOf ['0', '1', '2', '3', '4', '5', '6', '7', '8', '9']).matches' ↔
      ∃ c, c.isDigit = true ∧ word = [c] := by
  simp only [mem_anyOf, isDigit_iff_mem]

theorem mem_digitsExpression {word : List Char} :
    word ∈ digitsExpression.matches' ↔ IsDigits word := by
  rw [digitsExpression, oneOrMore, RegularExpression.matches'_mul,
    RegularExpression.matches'_star, Language.mem_mul]
  constructor
  · rintro ⟨first, isFirst, later, isLater, rfl⟩
    rcases mem_digit.mp isFirst with ⟨c, digit, rfl⟩
    rcases Language.mem_kstar.mp isLater with ⟨parts, rfl, all⟩
    refine ⟨List.cons_ne_nil _ _, List.forall_mem_cons.mpr ⟨digit, ?_⟩⟩
    intro c' isPart
    rcases List.mem_flatten.mp isPart with ⟨part, listed, found⟩
    rcases mem_digit.mp (all part listed) with ⟨c'', digit', rfl⟩
    rwa [List.mem_singleton.mp found]
  · rintro ⟨present, all⟩
    cases word with
    | nil => exact absurd rfl present
    | cons c later =>
        rw [List.forall_mem_cons] at all
        refine ⟨[c], mem_digit.mpr ⟨c, all.1, rfl⟩, later, ?_, rfl⟩
        refine Language.mem_kstar.mpr ⟨later.map ([·]), (List.flatMap_singleton' later).symm, ?_⟩
        intro part listed
        rcases List.mem_map.mp listed with ⟨c', isLater, rfl⟩
        exact mem_digit.mpr ⟨c', all.2 c' isLater, rfl⟩

theorem mem_fractionExpression {word : List Char} :
    word ∈ fractionExpression.matches' ↔ ∃ digits, IsDigits digits ∧ word = '.' :: digits := by
  rw [fractionExpression, RegularExpression.matches'_mul, RegularExpression.matches'_char,
    Language.mem_mul]
  constructor
  · rintro ⟨point, isPoint, digits, isDigits, rfl⟩
    cases Set.mem_singleton_iff.mp isPoint
    exact ⟨digits, mem_digitsExpression.mp isDigits, rfl⟩
  · rintro ⟨digits, isDigits, rfl⟩
    exact ⟨['.'], Set.mem_singleton _, digits, mem_digitsExpression.mpr isDigits, rfl⟩

/-- What may stand between the mark of an exponent and its digits. -/
def signs : List (List Char) :=
  [['+'], ['-'], []]

theorem mem_sign {word : List Char} :
    word ∈ (optionally (anyOf ['+', '-'])).matches' ↔ word ∈ signs := by
  simp only [mem_optionally, mem_anyOf, signs, List.mem_cons, List.not_mem_nil, or_false,
    exists_eq_or_imp, exists_eq_left, or_assoc]

theorem mem_exponentExpression {word : List Char} :
    word ∈ exponentExpression.matches' ↔ ∃ mark ∈ ['e', 'E'], ∃ sign ∈ signs,
      ∃ digits, IsDigits digits ∧ word = mark :: (sign ++ digits) := by
  rw [exponentExpression, RegularExpression.matches'_mul, RegularExpression.matches'_mul,
    Language.mem_mul]
  constructor
  · rintro ⟨first, isMark, later, isLater, rfl⟩
    rcases mem_anyOf.mp isMark with ⟨mark, listed, rfl⟩
    rcases Language.mem_mul.mp isLater with ⟨sign, isSign, digits, isDigits, rfl⟩
    exact ⟨mark, listed, sign, mem_sign.mp isSign, digits, mem_digitsExpression.mp isDigits, rfl⟩
  · rintro ⟨mark, listed, sign, isSign, digits, isDigits, rfl⟩
    refine ⟨[mark], mem_anyOf.mpr ⟨mark, listed, rfl⟩, sign ++ digits, ?_, rfl⟩
    exact Language.mem_mul.mpr
      ⟨sign, mem_sign.mpr isSign, digits, mem_digitsExpression.mpr isDigits, rfl⟩

/-! ## Reading with the longest runs -/

/-- The text does not go on with a digit. -/
def EndsDigits (rest : List Char) : Prop :=
  ∀ c ∈ rest.head?, c.isDigit = false

theorem EndsDigits.nil : EndsDigits [] := by
  intro c impossible
  cases impossible

theorem afterDigits?_eq_some_iff {chars rest : List Char} : afterDigits? chars = some rest ↔
    ∃ digits, IsDigits digits ∧ EndsDigits rest ∧ chars = digits ++ rest := by
  constructor
  · intro found
    cases chars with
    | nil => cases found
    | cons c later =>
        by_cases digit : c.isDigit = true
        · rw [afterDigits?, if_pos digit] at found
          cases found
          have longest := LongestRun.takeWhile_dropWhile Char.isDigit later
          refine ⟨c :: later.takeWhile Char.isDigit, ⟨List.cons_ne_nil _ _, ?_⟩, longest.stops, ?_⟩
          · exact List.forall_mem_cons.mpr ⟨digit, longest.within⟩
          · rw [List.cons_append, List.takeWhile_append_dropWhile]
        · rw [afterDigits?, if_neg digit] at found
          cases found
  · rintro ⟨digits, ⟨present, all⟩, ends, rfl⟩
    cases digits with
    | nil => exact absurd rfl present
    | cons c later =>
        rw [List.forall_mem_cons] at all
        have longest : LongestRun Char.isDigit later rest := ⟨all.2, ends⟩
        rw [List.cons_append, afterDigits?, if_pos all.1, longest.dropWhile_append]

theorem isDigit_of_mark {c : Char} (isMark : c ∈ ['e', 'E']) : c.isDigit = false := by
  rcases List.mem_pair.mp isMark with rfl | rfl <;> rfl

/-- Whatever follows the fraction, it is read to its end where an exponent or nothing is behind. -/
theorem afterFraction?_append {fraction rest : List Char}
    (isFraction : fraction ∈ (optionally fractionExpression).matches')
    (stops : ∀ c ∈ rest.head?, c ∈ ['e', 'E']) : afterFraction? (fraction ++ rest) = some rest := by
  rcases mem_optionally.mp isFraction with present | rfl
  · rcases mem_fractionExpression.mp present with ⟨digits, isDigits, rfl⟩
    have ends : EndsDigits rest := fun c first => isDigit_of_mark (stops c first)
    exact afterDigits?_eq_some_iff.mpr ⟨digits, isDigits, ends, rfl⟩
  · rw [List.nil_append]
    unfold afterFraction?
    split
    · exact absurd (stops '.' rfl) (by decide)
    · rfl

theorem exists_of_afterFraction? {chars rest : List Char}
    (found : afterFraction? chars = some rest) :
    ∃ fraction, fraction ∈ (optionally fractionExpression).matches' ∧ chars = fraction ++ rest := by
  unfold afterFraction? at found
  split at found
  · rcases afterDigits?_eq_some_iff.mp found with ⟨digits, isDigits, -, rfl⟩
    have present := mem_fractionExpression.mpr ⟨digits, isDigits, rfl⟩
    exact ⟨'.' :: digits, mem_optionally.mpr (Or.inl present), rfl⟩
  · cases found
    exact ⟨[], mem_optionally.mpr (Or.inr rfl), rfl⟩

/-- No digit is a sign, so a sign in front of the digits is all that is left out. -/
theorem afterSign_append {sign digits : List Char} (isSign : sign ∈ signs)
    (isDigits : IsDigits digits) : afterSign (sign ++ digits) = digits := by
  have listed : sign = ['+'] ∨ sign = ['-'] ∨ sign = [] := by
    simpa only [signs, List.mem_cons, List.not_mem_nil, or_false] using isSign
  rcases listed with rfl | rfl | rfl
  · rfl
  · rfl
  · rw [List.nil_append]
    unfold afterSign
    split
    · exact absurd (isDigits.2 '+' List.mem_cons_self) (by decide)
    · exact absurd (isDigits.2 '-' List.mem_cons_self) (by decide)
    · rfl

theorem exists_sign (chars : List Char) : ∃ sign ∈ signs, chars = sign ++ afterSign chars := by
  unfold afterSign
  split
  · exact ⟨['+'], by decide, rfl⟩
  · exact ⟨['-'], by decide, rfl⟩
  · exact ⟨[], by decide, rfl⟩

/-- An exponent that ends the text is the mark, a sign or none, and digits. -/
theorem afterExponent?_eq_some_nil_iff {chars : List Char} : afterExponent? chars = some [] ↔
    chars ∈ (optionally exponentExpression).matches' := by
  have behindMark : ∀ mark ∈ ['e', 'E'], ∀ rest, afterDigits? (afterSign rest) = some [] →
      mark :: rest ∈ (optionally exponentExpression).matches' := by
    intro mark isMark rest found
    rcases exists_sign rest with ⟨sign, isSign, split⟩
    rcases afterDigits?_eq_some_iff.mp found with ⟨digits, isDigits, -, same⟩
    rw [List.append_nil] at same
    rw [split, same]
    exact mem_optionally.mpr
      (Or.inl (mem_exponentExpression.mpr ⟨mark, isMark, sign, isSign, digits, isDigits, rfl⟩))
  constructor
  · intro found
    unfold afterExponent? at found
    split at found
    · exact behindMark 'e' (by decide) _ found
    · exact behindMark 'E' (by decide) _ found
    · cases found
      exact mem_optionally.mpr (Or.inr rfl)
  · intro isExponent
    rcases mem_optionally.mp isExponent with present | rfl
    · rcases mem_exponentExpression.mp present with
        ⟨mark, isMark, sign, isSign, digits, isDigits, rfl⟩
      have whole : afterDigits? (afterSign (sign ++ digits)) = some [] := by
        rw [afterSign_append isSign isDigits]
        exact afterDigits?_eq_some_iff.mpr ⟨digits, isDigits, .nil, (List.append_nil digits).symm⟩
      rcases List.mem_pair.mp isMark with rfl | rfl
      · exact whole
      · exact whole
    · rfl

theorem head?_of_exponent {exponent : List Char}
    (isExponent : exponent ∈ (optionally exponentExpression).matches') :
    ∀ c ∈ exponent.head?, c ∈ ['e', 'E'] := by
  rcases mem_optionally.mp isExponent with present | rfl
  · rcases mem_exponentExpression.mp present with ⟨mark, isMark, sign, -, digits, -, rfl⟩
    intro c first
    rwa [← Option.mem_some_iff.mp first]
  · intro c none
    cases none

/-- No fraction and no exponent begins with a digit. -/
theorem endsDigits_of_fraction {fraction exponent : List Char}
    (isFraction : fraction ∈ (optionally fractionExpression).matches')
    (isExponent : exponent ∈ (optionally exponentExpression).matches') :
    EndsDigits (fraction ++ exponent) := by
  rcases mem_optionally.mp isFraction with present | rfl
  · rcases mem_fractionExpression.mp present with ⟨digits, -, rfl⟩
    intro c first
    rw [← Option.mem_some_iff.mp first]
    decide
  · exact fun c first => isDigit_of_mark (head?_of_exponent isExponent c first)

/-! ## Numbers -/

/-- Reading with the longest runs accepts exactly the words of the expression. -/
theorem isNumber_iff {chars : List Char} :
    isNumber chars = true ↔ chars ∈ numberExpression.matches' := by
  rw [numberExpression, RegularExpression.matches'_mul, RegularExpression.matches'_mul,
    Language.mem_mul]
  constructor
  · intro spelt
    have whole : ((afterDigits? chars).bind afterFraction?).bind afterExponent? = some [] :=
      of_decide_eq_true spelt
    rcases Option.bind_eq_some_iff.mp whole with ⟨exponent, behindFraction, isExponent⟩
    rcases Option.bind_eq_some_iff.mp behindFraction with ⟨behindDigits, begins, isFraction⟩
    rcases afterDigits?_eq_some_iff.mp begins with ⟨digits, isDigits, -, rfl⟩
    rcases exists_of_afterFraction? isFraction with ⟨fraction, isWord, rfl⟩
    exact ⟨digits, mem_digitsExpression.mpr isDigits, fraction ++ exponent, Language.mem_mul.mpr
      ⟨fraction, isWord, exponent, afterExponent?_eq_some_nil_iff.mp isExponent, rfl⟩, rfl⟩
  · rintro ⟨digits, isDigits, behind, isBehind, rfl⟩
    rcases Language.mem_mul.mp isBehind with ⟨fraction, isFraction, exponent, isExponent, rfl⟩
    -- The first run is the longest one, because nothing behind it begins with a digit.
    have ends := endsDigits_of_fraction isFraction isExponent
    have begins : afterDigits? (digits ++ (fraction ++ exponent)) = some (fraction ++ exponent) :=
      afterDigits?_eq_some_iff.mpr ⟨digits, mem_digitsExpression.mp isDigits, ends, rfl⟩
    have behindDigits := afterFraction?_append isFraction (head?_of_exponent isExponent)
    refine decide_eq_true ?_
    rw [begins, Option.bind_some, behindDigits, Option.bind_some]
    exact afterExponent?_eq_some_nil_iff.mpr isExponent

end Spelling
end ExpressionChecker

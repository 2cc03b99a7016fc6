import ExpressionChecker.Spelling
import ExpressionChecker.Text.Blank
import ExpressionChecker.Token.Reading

namespace ExpressionChecker
namespace Spelling

/-!
# Well-spelt names and numbers are longest runs

Whether a run of characters is a name or a number is asked only after the run has been read.  The
facts here go the other way: what is well spelt begins like a word or a number and holds no
character at which the run would stop.
-/

/-! ## Letters and digits -/

/-- One of the letters `a` to `z` and `A` to `Z`. -/
def AsciiLetter (c : Char) : Prop :=
  ('a' ≤ c ∧ c ≤ 'z') ∨ ('A' ≤ c ∧ c ≤ 'Z')

def AsciiDigit (c : Char) : Prop :=
  '0' ≤ c ∧ c ≤ '9'

theorem isAlpha_iff {c : Char} : c.isAlpha = true ↔ AsciiLetter c := by
  have whole : c.isAlpha =
      (decide ('A' ≤ c ∧ c ≤ 'Z') || (decide ('a' ≤ c) && decide (c ≤ 'z'))) := rfl
  rw [whole, Bool.or_eq_true, Bool.and_eq_true, decide_eq_true_eq, decide_eq_true_eq,
    decide_eq_true_eq]
  exact Or.comm

theorem isDigit_iff {c : Char} : c.isDigit = true ↔ AsciiDigit c := by
  simp only [Char.isDigit, Bool.and_eq_true, decide_eq_true_eq, AsciiDigit]
  exact Iff.rfl

theorem asciiLetter_iff_toNat {c : Char} : AsciiLetter c ↔
    (0x61 ≤ c.toNat ∧ c.toNat ≤ 0x7A) ∨ (0x41 ≤ c.toNat ∧ c.toNat ≤ 0x5A) :=
  Iff.rfl

theorem asciiDigit_iff_toNat {c : Char} : AsciiDigit c ↔ 0x30 ≤ c.toNat ∧ c.toNat ≤ 0x39 :=
  Iff.rfl

/-! ## Numbers -/

/-- The characters in front of `rest` all continue a number. -/
def Passes (chars rest : List Char) : Prop :=
  ∃ passed, chars = passed ++ rest ∧ ∀ c ∈ passed, Reading.continuesNumber c = true

theorem Passes.refl (chars : List Char) : Passes chars chars :=
  ⟨[], rfl, fun _ impossible => absurd impossible List.not_mem_nil⟩

theorem Passes.cons {c : Char} {chars rest : List Char}
    (continues : Reading.continuesNumber c = true) (passes : Passes chars rest) :
    Passes (c :: chars) rest := by
  rcases passes with ⟨passed, rfl, all⟩
  exact ⟨c :: passed, rfl, List.forall_mem_cons.mpr ⟨continues, all⟩⟩

theorem Passes.trans {chars middle rest : List Char} (first : Passes chars middle)
    (second : Passes middle rest) : Passes chars rest := by
  rcases first with ⟨passed, rfl, all⟩
  rcases second with ⟨passed', rfl, all'⟩
  refine ⟨passed ++ passed', (List.append_assoc _ _ _).symm, ?_⟩
  intro c isPassed
  rcases List.mem_append.mp isPassed with before | behind
  · exact all c before
  · exact all' c behind

theorem continuesNumber_of_digit {c : Char} (digit : c.isDigit = true) :
    Reading.continuesNumber c = true := by
  simp only [Reading.continuesNumber, digit, Bool.true_or]

theorem passes_digits (chars : List Char) : Passes chars (chars.dropWhile Char.isDigit) := by
  refine ⟨chars.takeWhile Char.isDigit, List.takeWhile_append_dropWhile.symm, ?_⟩
  intro c isPassed
  exact continuesNumber_of_digit (List.all_eq_true.mp List.all_takeWhile c isPassed)

/-- Behind a run of digits stands what the run does not hold, and its first digit is there. -/
theorem afterDigits?_eq_some {chars rest : List Char} (found : afterDigits? chars = some rest) :
    ∃ c later, chars = c :: later ∧ c.isDigit = true ∧ Passes later rest := by
  cases chars with
  | nil => cases found
  | cons c later =>
      by_cases digit : c.isDigit = true
      · rw [afterDigits?, if_pos digit] at found
        cases found
        exact ⟨c, later, rfl, digit, passes_digits later⟩
      · rw [afterDigits?, if_neg digit] at found
        cases found

theorem passes_afterDigits? {chars rest : List Char} (found : afterDigits? chars = some rest) :
    Passes chars rest := by
  rcases afterDigits?_eq_some found with ⟨c, later, rfl, digit, passes⟩
  exact passes.cons (continuesNumber_of_digit digit)

theorem passes_afterSign (chars : List Char) : Passes chars (afterSign chars) := by
  unfold afterSign
  split
  · exact (Passes.refl _).cons (by decide)
  · exact (Passes.refl _).cons (by decide)
  · exact .refl _

theorem passes_afterFraction? {chars rest : List Char} (found : afterFraction? chars = some rest) :
    Passes chars rest := by
  unfold afterFraction? at found
  split at found
  · exact (passes_afterDigits? found).cons (by decide)
  · cases found
    exact .refl _

theorem passes_afterExponent? {chars rest : List Char} (found : afterExponent? chars = some rest) :
    Passes chars rest := by
  unfold afterExponent? at found
  split at found
  · exact ((passes_afterSign _).trans (passes_afterDigits? found)).cons (by decide)
  · exact ((passes_afterSign _).trans (passes_afterDigits? found)).cons (by decide)
  · cases found
    exact .refl _

/-- A number begins with a digit, and every further character continues it. -/
theorem isNumber_run {chars : List Char} (spelt : isNumber chars = true) :
    ∃ c run, chars = c :: run ∧ c.isDigit = true ∧
      ∀ c' ∈ run, Reading.continuesNumber c' = true := by
  have whole : ((afterDigits? chars).bind afterFraction?).bind afterExponent? = some [] :=
    of_decide_eq_true spelt
  rcases Option.bind_eq_some_iff.mp whole with ⟨behindFraction, fraction, exponent⟩
  rcases Option.bind_eq_some_iff.mp fraction with ⟨behindDigits, digits, point⟩
  rcases afterDigits?_eq_some digits with ⟨c, later, rfl, digit, passes⟩
  have all := (passes.trans (passes_afterFraction? point)).trans (passes_afterExponent? exponent)
  rcases all with ⟨run, same, continues⟩
  rw [List.append_nil] at same
  exact ⟨c, later, rfl, digit, same ▸ continues⟩

/-! ## Names -/

/-- The characters match `[a-zA-Z_][a-zA-Z0-9_]*`. -/
def MatchesName (word : List Char) : Prop :=
  ∃ first rest, word = first :: rest ∧ (AsciiLetter first ∨ first = '_') ∧
    ∀ c ∈ rest, AsciiLetter c ∨ AsciiDigit c ∨ c = '_'

theorem isName_iff {word : List Char} : isName word = true ↔ MatchesName word := by
  cases word with
  | nil => simp [isName, MatchesName]
  | cons first rest =>
      simp only [isName, beginsName, continuesName, Char.isAlphanum, Bool.and_eq_true,
        Bool.or_eq_true, isAlpha_iff, isDigit_iff, decide_eq_true_eq, List.all_eq_true,
        MatchesName, List.cons.injEq, or_assoc]
      constructor
      · rintro ⟨begins, continues⟩
        exact ⟨first, rest, ⟨rfl, rfl⟩, begins, continues⟩
      · rintro ⟨_, _, ⟨rfl, rfl⟩, begins, continues⟩
        exact ⟨begins, continues⟩

/-- A name that is neither a keyword nor a truth value. -/
structure IsFreeName (name : String) : Prop where
  spelt : isName name.toList = true
  notKeyword : name ∉ keywords
  notTruthValue : name ∉ truthValues

theorem isAlphabetic_of_isAlpha {c : Char} (letter : c.isAlpha = true) :
    Text.isAlphabetic c = true := by
  have table : ∃ later, Text.basicAlphabetic ++ Text.supplementaryAlphabetic =
      ⟨0x41, 0x5A⟩ :: ⟨0x61, 0x7A⟩ :: later := ⟨_, rfl⟩
  rcases table with ⟨later, listed⟩
  have range := asciiLetter_iff_toNat.mp (isAlpha_iff.mp letter)
  simp only [Text.isAlphabetic, listed, Text.Interval.covers]
  grind

theorem isNumeric_of_isDigit {c : Char} (digit : c.isDigit = true) : Text.isNumeric c = true := by
  have table : ∃ later, Text.basicNumeric ++ Text.supplementaryNumeric =
      ⟨0x30, 0x39⟩ :: later := ⟨_, rfl⟩
  rcases table with ⟨later, listed⟩
  have range := asciiDigit_iff_toNat.mp (isDigit_iff.mp digit)
  simp only [Text.isNumeric, listed, Text.Interval.covers]
  grind

/-- No letter and no digit is blank. -/
theorem isBlank_of_isAlphanum {c : Char} (alphanumeric : c.isAlphanum = true) :
    Text.isBlank c = false := by
  have range : AsciiLetter c ∨ AsciiDigit c :=
    ((Bool.or_eq_true _ _).mp alphanumeric).imp isAlpha_iff.mp isDigit_iff.mp
  rw [asciiLetter_iff_toNat, asciiDigit_iff_toNat] at range
  simp only [Text.isBlank, Text.blanks, Text.Interval.covers]
  grind

/-- A name begins like a word, and every further character continues the word. -/
theorem isName_run {chars : List Char} (spelt : isName chars = true) :
    ∃ c run, chars = c :: run ∧ (c.isAlpha = true ∨ c = '_') ∧
      ∀ c' ∈ run, c'.isAlphanum = true ∨ c' = '_' := by
  cases chars with
  | nil => cases spelt
  | cons c run =>
      simp only [isName, beginsName, continuesName, Bool.and_eq_true, Bool.or_eq_true,
        decide_eq_true_eq, List.all_eq_true] at spelt
      exact ⟨c, run, rfl, spelt⟩

theorem continuesWord_of_ascii {c : Char} (continues : c.isAlphanum = true ∨ c = '_') :
    Reading.continuesWord c = true := by
  simp only [Reading.continuesWord, Text.isAlphanumeric, Bool.or_eq_true, decide_eq_true_eq]
  rcases continues with alphanumeric | underscore
  · rcases (Bool.or_eq_true _ _).mp alphanumeric with letter | digit
    · exact Or.inl (Or.inl (isAlphabetic_of_isAlpha letter))
    · exact Or.inl (Or.inr (isNumeric_of_isDigit digit))
  · exact Or.inr underscore

/-! ## Blanks -/

theorem not_isBlank_of_isName {name : List Char} (spelt : isName name = true) :
    ∀ c ∈ name, Text.isBlank c = false := by
  have ofWord {c : Char} (continues : c.isAlphanum = true ∨ c = '_') :
      Text.isBlank c = false := by
    rcases continues with alphanumeric | rfl
    · exact isBlank_of_isAlphanum alphanumeric
    · decide
  rcases isName_run spelt with ⟨first, run, rfl, begins, goesOn⟩
  refine List.forall_mem_cons.mpr ⟨ofWord (begins.imp_left fun letter => ?_), fun c inRun =>
    ofWord (goesOn c inRun)⟩
  rw [Char.isAlphanum, letter, Bool.true_or]

theorem not_isBlank_of_isNumber {literal : List Char} (spelt : isNumber literal = true) :
    ∀ c ∈ literal, Text.isBlank c = false := by
  have ofDigit {c : Char} (digit : c.isDigit = true) : Text.isBlank c = false := by
    apply isBlank_of_isAlphanum
    rw [Char.isAlphanum, digit, Bool.or_true]
  rcases isNumber_run spelt with ⟨first, run, rfl, digit, goesOn⟩
  refine List.forall_mem_cons.mpr ⟨ofDigit digit, fun c inRun => ?_⟩
  have continues := goesOn c inRun
  simp only [Reading.continuesNumber, Bool.or_eq_true, decide_eq_true_eq] at continues
  rcases continues with ((((digit | rfl) | rfl) | rfl) | rfl) | rfl
  · exact ofDigit digit
  all_goals decide

end Spelling
end ExpressionChecker

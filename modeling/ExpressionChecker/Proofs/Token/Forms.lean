import ExpressionChecker.Proofs.Token.Tiling

namespace ExpressionChecker
namespace Token

/-!
# Tokens apart from their positions

The form of a token is all of it but its position.  The forms of a text do not depend on where the
text begins, so they can be computed from the front: a gap changes nothing, and a token in front of
a text puts one form in front of those of the text, as long as it fits there.
-/

/-- What a token is apart from where it stands. -/
def form (token : Token) : TokenKind × String :=
  (token.kind, token.lexeme)

/-- The token at its new position. -/
def moved (move : Position → Position) (token : Token) : Token :=
  ⟨token.kind, token.lexeme, move token.position⟩

/-- Tokens of the same forms cannot be told apart once they all stand at one place. -/
theorem map_moved_of_forms {tokens tokens' : List Token} (same : tokens'.map form = tokens.map form)
    (position : Position) :
    tokens'.map (moved fun _ => position) = tokens.map (moved fun _ => position) := by
  have placed (tokens : List Token) : tokens.map (moved fun _ => position) =
      (tokens.map form).map fun form => ⟨form.1, form.2, position⟩ := by
    rw [List.map_map]
    rfl
  rw [placed, placed, same]

/-- The forms of the tokens of a text. -/
def forms (chars : List Char) : List (TokenKind × String) :=
  (Segment.cut .start chars).map fun segment => segment.token.form

/-- The forms of a text do not depend on where the text begins. -/
theorem cut_forms (position position' : Position) (chars : List Char) :
    (Segment.cut position chars).map (fun segment => segment.token.form) =
      (Segment.cut position' chars).map fun segment => segment.token.form := by
  induction position, chars using Segment.cut_induction generalizing position' with
  | @last _ segment rest fits _ ends cuts =>
      have fits' : Segment.Fits ⟨segment.gap, segment.raw, segment.token.kind, segment.token.lexeme,
          position'.afterAll segment.gap⟩ rest := ⟨fits.isGap, fits.starts, fits.munch⟩
      rw [cuts, Segment.cut_of_fits fits', if_pos ends]
      rfl
  | @more _ segment rest fits _ goesOn cuts inductionHypothesis =>
      have fits' : Segment.Fits ⟨segment.gap, segment.raw, segment.token.kind, segment.token.lexeme,
          position'.afterAll segment.gap⟩ rest := ⟨fits.isGap, fits.starts, fits.munch⟩
      rw [cuts, Segment.cut_of_fits fits', goesOn, if_neg Bool.false_ne_true, List.map_cons,
        inductionHypothesis ((position'.afterAll segment.gap).afterAll segment.raw)]
      rfl

theorem stream_forms (text : String) : (stream text).map form = forms text.toList := by
  rw [stream, List.map_map]
  rfl

/-! ## Forms from the front -/

variable {gap raw rest : List Char} {kind : TokenKind} {lexeme : String}

theorem forms_of_fits (isGap : Layout.Gap (raw ++ rest) gap)
    (starts : Layout.StartsToken (raw ++ rest)) (munch : Munch raw rest kind lexeme) :
    forms (gap ++ (raw ++ rest)) =
      (kind, lexeme) :: if kind.endsStream then [] else forms rest := by
  have fits : Segment.Fits ⟨gap, raw, kind, lexeme, Position.start.afterAll gap⟩ rest :=
    ⟨isGap, starts, munch⟩
  rw [forms, Segment.cut_of_fits fits]
  by_cases ends : kind.endsStream = true
  · simp only [if_pos ends]
    rfl
  · have later := cut_forms ((Position.start.afterAll gap).afterAll raw) .start rest
    simp only [if_neg ends, List.map_cons, later]
    rfl

/-- A token at the front of a text puts its form in front. -/
theorem forms_munch (starts : Layout.StartsToken (raw ++ rest)) (munch : Munch raw rest kind lexeme)
    (goesOn : kind.endsStream = false) : forms (raw ++ rest) = (kind, lexeme) :: forms rest := by
  have front := forms_of_fits .none starts munch
  rwa [goesOn, if_neg Bool.false_ne_true, List.nil_append] at front

theorem forms_nil : forms [] = [(.endOfInput, endLexeme)] :=
  @forms_of_fits [] [] [] _ _ .none Layout.startsToken_nil .endOfInput

/-- Blank characters in front of a text change nothing. -/
theorem forms_blank {c : Char} (isBlank : Text.isBlank c = true) (chars : List Char) :
    forms (c :: chars) = forms chars := by
  rcases Layout.exists_gap chars with ⟨gap, behind, rfl, isGap, starts⟩
  rcases Reading.exists_munch behind with ⟨raw, rest, kind, lexeme, rfl, munch⟩
  have longer := forms_of_fits (.blank isBlank isGap) starts munch
  rw [List.cons_append] at longer
  rw [longer, forms_of_fits isGap starts munch]

end Token
end ExpressionChecker

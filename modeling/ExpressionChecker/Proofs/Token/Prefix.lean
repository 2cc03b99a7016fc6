import ExpressionChecker.Proofs.Token.Tiling
import Mathlib.Data.List.Basic

namespace ExpressionChecker

/-!
# How far a token looks ahead

Whether a segment fits where it stands can be told from the first character behind it, and behind a
semicolon not even that one matters.  So the segments up to a semicolon are the same whatever
follows it, be it a literal or a comment without an end.
-/

variable {raw rest rest' : List Char}

namespace Layout

/-- Only a comment that ends with the text has to know what follows the gap. -/
theorem Gap.of_ne_nil {gap : List Char} (isGap : Gap rest gap) (remains : rest ≠ []) :
    Gap rest' gap := by
  induction isGap with
  | none => exact .none
  | blank isBlank _ inductionHypothesis => exact .blank isBlank inductionHypothesis
  | lineComment oneLine _ inductionHypothesis => exact .lineComment oneLine inductionHypothesis
  | blockComment first _ inductionHypothesis => exact .blockComment first inductionHypothesis
  | lastLineComment _ last => exact absurd last remains
  | lastBlockComment _ last => exact absurd last remains

/-- Two characters tell that no gap goes on. -/
theorem startsToken_cons_iff {c : Char} :
    StartsToken (c :: rest) ↔ Text.isBlank c = false ∧
      (c = '/' → rest.head? ≠ some '/' ∧ rest.head? ≠ some '*') := by
  have opens (second : Char) :
      ['/', second] <+: c :: rest ↔ '/' = c ∧ rest.head? = some second := by
    rw [List.cons_prefix_cons, List.singleton_prefix_iff_head?_eq_some]
  constructor
  · intro starts
    refine ⟨starts.notBlank c rfl, ?_⟩
    rintro rfl
    refine ⟨fun line => ?_, fun block => ?_⟩
    · exact starts.notLineComment ((opens '/').mpr ⟨rfl, line⟩)
    · exact starts.notBlockComment ((opens '*').mpr ⟨rfl, block⟩)
  · rintro ⟨notBlank, alone⟩
    refine ⟨?_, fun line => ?_, fun block => ?_⟩
    · rintro _ ⟨⟩
      exact notBlank
    · rcases (opens '/').mp line with ⟨rfl, isSlash⟩
      exact (alone rfl).1 isSlash
    · rcases (opens '*').mp block with ⟨rfl, isStar⟩
      exact (alone rfl).2 isStar

theorem StartsToken.of_head? (starts : StartsToken (raw ++ rest)) (present : raw ≠ [])
    (same : rest'.head? = rest.head?) : StartsToken (raw ++ rest') := by
  cases raw with
  | nil => exact absurd rfl present
  | cons c tail =>
      rw [List.cons_append, startsToken_cons_iff, List.head?_append] at starts ⊢
      rwa [same]

end Layout

namespace Munch

variable {kind : TokenKind} {lexeme : String}

/-- A token that does not end the stream depends on no more than the first character behind it. -/
theorem of_head? (munch : Munch raw rest kind lexeme) (goesOn : kind.endsStream = false)
    (same : rest'.head? = rest.head?) : Munch raw rest' kind lexeme := by
  cases munch with
  | endOfInput => cases goesOn
  | word begins longest spelling =>
      exact .word begins ⟨longest.within, by rw [same]; exact longest.stops⟩ spelling
  | number begins longest spelling =>
      exact .number begins ⟨longest.within, by rw [same]; exact longest.stops⟩ spelling
  | literal quoted => exact .literal quoted
  | unterminated => cases goesOn
  | invalidEscape => cases goesOn
  | pair listed => exact .pair listed
  | single listed unpaired => exact .single listed (by rwa [Unpaired, same])
  | unexpected noWord noNumber noLiteral unlisted unpaired =>
      exact .unexpected noWord noNumber noLiteral unlisted (by rwa [Unpaired, same])

theorem raw_semicolon (munch : Munch raw rest kind lexeme) (isSemicolon : kind = .semicolon) :
    raw = [';'] := by
  cases munch with
  | word _ _ spelling => cases spelling <;> cases isSemicolon
  | number _ _ spelling => cases spelling <;> cases isSemicolon
  | pair listed =>
      have table : ∀ entry ∈ operatorPairs, entry.2 ≠ .semicolon := by decide
      exact absurd isSemicolon (table _ listed)
  | @single c _ _ listed _ =>
      have table : ∀ entry ∈ punctuation, entry.2 = .semicolon → entry.1 = ';' := by decide
      have alone : c = ';' := table _ listed isSemicolon
      rw [alone]
  | _ => cases isSemicolon

/-- Nothing pairs with a semicolon. -/
theorem of_semicolon (munch : Munch raw rest kind lexeme) (isSemicolon : kind = .semicolon) :
    Munch raw rest' kind lexeme := by
  have alone : Unpaired ';' rest' := by
    have table : ∀ entry ∈ operatorPairs, entry.1.1 ≠ ';' := by decide
    exact fun second _ kind listed => table _ listed rfl
  have isRaw := munch.raw_semicolon isSemicolon
  have isLexeme : lexeme = String.ofList raw :=
    munch.lexeme_eq (by rw [isSemicolon]; decide) (by rw [isSemicolon]; decide)
  rw [isLexeme, isRaw, isSemicolon]
  exact .single (by decide) alone

end Munch

namespace Segment

namespace Fits

variable {segment : Segment}

theorem of_head? (fits : segment.Fits rest) (goesOn : segment.token.kind.endsStream = false)
    (same : rest'.head? = rest.head?) : segment.Fits rest' where
  isGap := fits.isGap.of_ne_nil (List.append_ne_nil_of_left_ne_nil (fits.raw_ne_nil goesOn) _)
  starts := fits.starts.of_head? (fits.raw_ne_nil goesOn) same
  munch := fits.munch.of_head? goesOn same

theorem of_semicolon (fits : segment.Fits rest) (isSemicolon : segment.token.kind = .semicolon) :
    segment.Fits rest' where
  isGap := by
    rcases fits with ⟨isGap, _, munch⟩
    rw [munch.raw_semicolon isSemicolon] at isGap
    exact isGap.of_ne_nil (List.cons_ne_nil _ _)
  starts := by
    rw [fits.munch.raw_semicolon isSemicolon]
    exact Layout.startsToken_cons_iff.mpr ⟨by decide, fun isSlash => absurd isSlash (by decide)⟩
  munch := fits.munch.of_semicolon isSemicolon

end Fits

variable {position : Position} {segment semicolon : Segment} {before later : List Segment}

/-- What is cut off first, and where the rest is cut. -/
theorem cut_eq_cons_iff {text : List Char} :
    cut position text = segment :: later ↔ ∃ rest, text = segment.gap ++ (segment.raw ++ rest) ∧
      segment.Fits rest ∧ segment.token.position = position.afterAll segment.gap ∧
      later = if segment.token.kind.endsStream then []
        else cut (segment.token.position.afterAll segment.raw) rest := by
  constructor
  · intro cuts
    rcases exists_fits position text with ⟨gap, raw, rest, kind, lexeme, whole, fits⟩
    rw [whole, cut_of_fits fits] at cuts
    by_cases ends : kind.endsStream = true
    · rw [if_pos ends] at cuts
      cases cuts
      exact ⟨rest, whole, fits, rfl, (if_pos ends).symm⟩
    · rw [if_neg ends] at cuts
      cases cuts
      exact ⟨rest, whole, fits, rfl, (if_neg ends).symm⟩
  · rcases segment with ⟨gap, raw, kind, lexeme, position'⟩
    rintro ⟨rest, rfl, fits, stands, rfl⟩
    have isPosition : position' = position.afterAll gap := stands
    subst isPosition
    rw [cut_of_fits fits]
    split <;> rfl

/-- The segments up to a semicolon are cut off whatever follows it. -/
theorem cut_replace (isSemicolon : semicolon.token.kind = .semicolon) (present : semicolon.raw ≠ [])
    (cuts : cut position ((before ++ [semicolon]).flatMap chars ++ rest) =
      before ++ semicolon :: later) (rest' : List Char) :
    ∃ later', cut position ((before ++ [semicolon]).flatMap chars ++ rest') =
      before ++ semicolon :: later' := by
  induction before generalizing position with
  | nil =>
      rcases cut_eq_cons_iff.mp cuts with ⟨_, _, fits, stands, _⟩
      refine ⟨_, cut_eq_cons_iff.mpr ⟨rest', ?_, fits.of_semicolon isSemicolon, stands, rfl⟩⟩
      simp only [List.nil_append, List.flatMap_cons, List.flatMap_nil, List.append_nil, chars,
        List.append_assoc]
  | cons segment before inductionHypothesis =>
      rcases cut_eq_cons_iff.mp cuts with ⟨behind, whole, fits, stands, further⟩
      have goesOn : segment.token.kind.endsStream = false := by
        refine Bool.eq_false_iff.mpr fun ends => ?_
        rw [if_pos ends] at further
        exact List.append_ne_nil_of_right_ne_nil before (List.cons_ne_nil _ _) further
      have splits (rest : List Char) : (segment :: before ++ [semicolon]).flatMap chars ++ rest =
          segment.gap ++ (segment.raw ++ ((before ++ [semicolon]).flatMap chars ++ rest)) := by
        simp only [List.cons_append, List.flatMap_cons, chars, List.append_assoc]
      rw [splits, List.append_cancel_left_eq, List.append_cancel_left_eq] at whole
      subst whole
      rw [goesOn, if_neg Bool.false_ne_true] at further
      rcases inductionHypothesis further.symm with ⟨later', cuts'⟩
      -- The semicolon is still to come, so the next segment sees the same first character.
      have remains : (before ++ [semicolon]).flatMap chars ≠ [] := by
        rw [List.flatMap_append, List.flatMap_singleton]
        exact List.append_ne_nil_of_right_ne_nil _
          (List.append_ne_nil_of_right_ne_nil _ present)
      have same : ((before ++ [semicolon]).flatMap chars ++ rest').head? =
          ((before ++ [semicolon]).flatMap chars ++ rest).head? := by
        rw [List.head?_append_of_ne_nil _ remains, List.head?_append_of_ne_nil _ remains]
      refine ⟨later', cut_eq_cons_iff.mpr ⟨_, splits rest', fits.of_head? goesOn same, stands, ?_⟩⟩
      rw [goesOn, if_neg Bool.false_ne_true]
      exact cuts'.symm

/-- The segments that are cut off first make up the front of the text. -/
theorem cut_front {text : List Char} {front : List Segment}
    (cuts : cut position text = front ++ later) : front.flatMap chars <+: text := by
  rcases cut_tiles position text with ⟨unread, tiles, _⟩
  refine ⟨later.flatMap chars ++ unread, ?_⟩
  rw [tiles.whole, cuts, List.flatMap_append, List.append_assoc]

/-- The segments of a text up to a semicolon are those of every text that begins like it. -/
theorem cut_of_prefix {text text' : List Char} (isSemicolon : semicolon.token.kind = .semicolon)
    (cuts : cut position text = before ++ semicolon :: later)
    (begins : (before ++ [semicolon]).flatMap chars <+: text') :
    ∃ later', cut position text' = before ++ semicolon :: later' := by
  have present : semicolon.raw ≠ [] := by
    rcases cut_tiles position text with ⟨unread, tiles, _⟩
    exact (tiles.fits before semicolon later cuts).raw_ne_nil (by rw [isSemicolon]; rfl)
  rcases cut_front (cuts.trans (List.append_cons _ _ _)) with ⟨rest, rfl⟩
  rcases begins with ⟨rest', rfl⟩
  exact cut_replace isSemicolon present cuts rest'

end Segment
end ExpressionChecker

import ExpressionChecker.Proofs.Token.Forms
import ExpressionChecker.Proofs.Token.Prefix
import ExpressionChecker.Proofs.Token.Progress

namespace ExpressionChecker

/-!
# Other layout between the same tokens

A blank behind a token keeps it apart from whatever follows: it is part of no word, number or
operator and opens no comment.  So the source characters of a token are read as the same token again
if a blank follows them, also where the token was glued to the next one before.  Any layout that
sets the tokens apart like this leaves their forms as they were.
-/

/-! ## Blanks -/

namespace Text

/-- The code points of the blanks, one by one. -/
def blankPoints : List Nat :=
  blanks.flatMap fun interval => List.range' interval.first (interval.last + 1 - interval.first)

theorem mem_blankPoints {c : Char} (isBlank : isBlank c = true) : c.toNat ∈ blankPoints := by
  have listed (table : List Interval) (covered : Interval.covers table c.toNat = true) :
      c.toNat ∈ table.flatMap fun interval =>
        List.range' interval.first (interval.last + 1 - interval.first) := by
    induction table with
    | nil => cases covered
    | cons interval later inductionHypothesis =>
        rw [Interval.covers] at covered
        rw [List.flatMap_cons, List.mem_append, List.mem_range'_1]
        split at covered
        · cases covered
        · split at covered
          · left
            omega
          · exact .inr (inductionHypothesis covered)
  exact listed blanks isBlank

/-- A blank is part of no word. -/
theorem not_isAlphanumeric_of_isBlank {c : Char} (blank : isBlank c = true) :
    isAlphanumeric c = false := by
  have table : ∀ point ∈ blankPoints,
      (Interval.covers (basicAlphabetic ++ supplementaryAlphabetic) point ||
        Interval.covers (basicNumeric ++ supplementaryNumeric) point) = false := by
    decide +kernel
  exact table _ (mem_blankPoints blank)

/-- A blank is none of the characters that mean something between tokens. -/
theorem ne_of_isBlank {c special : Char} (blank : isBlank c = true)
    (listed : special.toNat ∉ blankPoints) : c ≠ special := by
  rintro rfl
  exact listed (mem_blankPoints blank)

end Text

/-! ## Tokens set apart -/

namespace Layout

/-- The characters are layout whatever follows them, so every comment among them has its end. -/
def ClosedGap (gap : List Char) : Prop :=
  ∀ rest, Gap rest gap

/-- There are no characters, or the first one is blank. -/
def SetsApart (chars : List Char) : Prop :=
  ∀ c ∈ chars.head?, Text.isBlank c = true

theorem SetsApart.append {gap chars : List Char} (apart : SetsApart gap)
    (present : chars ≠ [] → gap ≠ []) : SetsApart (gap ++ chars) := by
  cases gap with
  | nil =>
      have nothing : chars = [] := by
        by_contra remains
        exact present remains rfl
      rw [nothing]
      exact apart
  | cons c later => exact apart

theorem StartsToken.of_setsApart {raw rest rest' : List Char} (starts : StartsToken (raw ++ rest))
    (present : raw ≠ []) (apart : SetsApart rest') : StartsToken (raw ++ rest') := by
  have first {c : Char} (listed : c.toNat ∉ Text.blankPoints) : rest'.head? ≠ some c :=
    fun isFirst => Text.ne_of_isBlank (apart c isFirst) listed rfl
  cases raw with
  | nil => exact absurd rfl present
  | cons c tail =>
      rw [List.cons_append, startsToken_cons_iff] at starts ⊢
      cases tail with
      | nil => exact ⟨starts.1, fun _ => ⟨first (by decide +kernel), first (by decide +kernel)⟩⟩
      | cons second further => exact starts

end Layout

/-- Nothing is paired with a blank. -/
theorem Unpaired.of_setsApart {rest : List Char} (apart : Layout.SetsApart rest) (c : Char) :
    Unpaired c rest := by
  have table : ∀ entry ∈ operatorPairs, entry.1.2.toNat ∉ Text.blankPoints := by decide +kernel
  intro second isFirst kind listed
  exact Text.ne_of_isBlank (apart second isFirst) (table _ listed) rfl

/-- What has been read as a token that goes on is read as the same token where a blank follows. -/
theorem Munch.of_setsApart {raw rest rest' : List Char} {kind : TokenKind} {lexeme : String}
    (munch : Munch raw rest kind lexeme) (goesOn : kind.endsStream = false)
    (apart : Layout.SetsApart rest') : Munch raw rest' kind lexeme := by
  have outside {c : Char} (isFirst : c ∈ rest'.head?) :
      Text.isAlphanumeric c = false ∧ c.isDigit = false ∧
        ∀ special ∈ ['_', '.', 'e', 'E', '+', '-'], c ≠ special := by
    have blank := apart c isFirst
    have table : ∀ point ∈ ['_', '.', 'e', 'E', '+', '-'].map Char.toNat,
        point ∉ Text.blankPoints := by
      decide +kernel
    refine ⟨Text.not_isAlphanumeric_of_isBlank blank, ?_, fun special listed =>
      Text.ne_of_isBlank blank (table _ (List.mem_map_of_mem listed))⟩
    refine Bool.eq_false_iff.mpr fun digit => ?_
    have alphanumeric : Text.isAlphanumeric c = true :=
      (Bool.or_eq_true _ _).mpr (.inr (Spelling.isNumeric_of_isDigit digit))
    rw [Text.not_isAlphanumeric_of_isBlank blank] at alphanumeric
    cases alphanumeric
  cases munch with
  | endOfInput => cases goesOn
  | word begins longest spelling =>
      refine .word begins ⟨longest.within, fun c isFirst => ?_⟩ spelling
      simp [outside isFirst]
  | number begins longest spelling =>
      refine .number begins ⟨longest.within, fun c isFirst => ?_⟩ spelling
      simp [outside isFirst]
  | literal quoted => exact .literal quoted
  | unterminated => cases goesOn
  | invalidEscape => cases goesOn
  | pair listed => exact .pair listed
  | single listed unpaired => exact .single listed (.of_setsApart apart _)
  | unexpected noWord noNumber noLiteral unlisted unpaired =>
      exact .unexpected noWord noNumber noLiteral unlisted (.of_setsApart apart _)

/-! ## Forms -/

namespace Layout

/-- Layout that no end of a text ends may stand in front of any other layout. -/
theorem Gap.append {behind rest gap gap' : List Char} (isGap : Gap behind gap)
    (remains : behind ≠ []) (isGap' : Gap rest gap') : Gap rest (gap ++ gap') := by
  induction isGap with
  | none => exact isGap'
  | blank isBlank _ inductionHypothesis => exact .blank isBlank inductionHypothesis
  | lineComment oneLine _ inductionHypothesis =>
      simp only [List.cons_append, List.append_assoc]
      exact .lineComment oneLine inductionHypothesis
  | blockComment first _ inductionHypothesis =>
      simp only [List.cons_append, List.append_assoc]
      exact .blockComment first inductionHypothesis
  | lastLineComment _ last => exact absurd last remains
  | lastBlockComment _ last => exact absurd last remains

end Layout

namespace Token

/-- Layout in front of a text changes no form. -/
theorem forms_closedGap {gap : List Char} (closed : Layout.ClosedGap gap) (chars : List Char) :
    forms (gap ++ chars) = forms chars := by
  rcases Layout.exists_gap chars with ⟨gap', behind, rfl, isGap, starts⟩
  rcases Reading.exists_munch behind with ⟨raw, rest, kind, lexeme, rfl, munch⟩
  have longer := forms_of_fits ((closed [' ']).append (List.cons_ne_nil _ _) isGap) starts munch
  rw [← List.append_assoc, longer, forms_of_fits isGap starts munch]

end Token

/-! ## Spaced texts -/

/-- The characters are the raw texts of tokens, with layout that begins with a blank between any two
of them and maybe behind the last one. -/
inductive Spaced : List (List Char) → List Char → Prop where
  | nothing : Spaced [] []
  | token {raw gap chars : List Char} {raws : List (List Char)} (closed : Layout.ClosedGap gap)
      (apart : Layout.SetsApart gap) (between : raws ≠ [] → gap ≠ []) (later : Spaced raws chars) :
      Spaced (raw :: raws) (raw ++ (gap ++ chars))

theorem Spaced.eq_nil {chars : List Char} (spaced : Spaced [] chars) : chars = [] := by
  cases spaced
  rfl

namespace Segment

/-- The source characters of the tokens, apart from the end of the input. -/
def raws (segments : List Segment) : List (List Char) :=
  (segments.filter fun segment => segment.token.kind ≠ .endOfInput).map raw

/-- The tokens of a text, set apart by other layout, keep their forms. -/
theorem forms_of_spaced {position : Position} {text chars : List Char}
    (readable : ∀ segment ∈ cut position text, ¬ segment.token.IsFatal)
    (spaced : Spaced (raws (cut position text)) chars) :
    Token.forms chars = (cut position text).map fun segment => segment.token.form := by
  induction position, text using cut_induction generalizing chars with
  | @last _ segment rest fits _ ends cuts =>
      rw [cuts] at readable spaced ⊢
      have isLast : segment.token.kind = .endOfInput :=
        (Token.endsStream_iff.mp ends).resolve_right (readable segment List.mem_cons_self)
      have noRaws : raws [segment] = [] := by simp [raws, isLast]
      rcases fits.munch.nothing_left isLast with ⟨noRaw, noRest⟩
      have starts := fits.starts
      have munch := fits.munch
      rw [noRaw, noRest] at starts munch
      have atEnd := Token.forms_of_fits .none starts munch
      rw [if_pos ends] at atEnd
      rw [noRaws] at spaced
      rw [spaced.eq_nil]
      exact atEnd
  | @more _ segment rest fits _ goesOn cuts inductionHypothesis =>
      rw [cuts] at readable spaced ⊢
      have notLast : segment.token.kind ≠ .endOfInput := by
        intro isLast
        rw [isLast] at goesOn
        cases goesOn
      have someRaws (later : List Segment) :
          raws (segment :: later) = segment.raw :: raws later := by
        simp [raws, notLast]
      rw [someRaws] at spaced
      cases spaced with
      | token closed apart between later =>
          have apartHere := apart.append fun remains => between fun noRaws =>
            remains (noRaws ▸ later).eq_nil
          have starts := fits.starts.of_setsApart (fits.raw_ne_nil goesOn) apartHere
          have munch := fits.munch.of_setsApart goesOn apartHere
          rw [Token.forms_munch starts munch goesOn, Token.forms_closedGap closed, List.map_cons,
            inductionHypothesis (List.forall_mem_cons.mp readable).2 later]
          rfl

end Segment

namespace Token

/-- The forms of a stream without fatal errors are those of the same tokens in any other layout. -/
theorem stream_forms_of_spaced {text text' : String} {gap chars : List Char}
    (readable : ∀ token ∈ stream text, ¬ token.IsFatal) (closed : Layout.ClosedGap gap)
    (spaced : Spaced (Segment.raws (Segment.ofText text)) chars)
    (whole : text'.toList = gap ++ chars) :
    (stream text').map form = (stream text).map form := by
  have each : ∀ segment ∈ Segment.ofText text, ¬ segment.token.IsFatal :=
    fun segment listed => readable _ (List.mem_map_of_mem listed)
  rw [stream_forms, whole, forms_closedGap closed, Segment.forms_of_spaced each spaced, stream,
    List.map_map]
  rfl

end Token
end ExpressionChecker

import ExpressionChecker.Proofs.Token.Gap
import ExpressionChecker.Proofs.Token.Munch
import ExpressionChecker.Token.Stream

namespace ExpressionChecker

/-!
# The tokens of a text tile it

Every text is a gap, the source characters of a token, another gap, and so on, and each gap and each
token goes on as long as one can.  The tiles follow from the text alone.  They leave nothing
unread, except behind a literal with an invalid escape: nobody can tell where such a literal was
meant to end, so there the stream stops in the middle of the text.
-/

namespace Segment

/-- The characters of a segment. -/
def chars (segment : Segment) : List Char :=
  segment.gap ++ segment.raw

/-- The gap and the token of a segment go on as long as they can where `rest` follows them. -/
structure Fits (segment : Segment) (rest : List Char) : Prop where
  isGap : Layout.Gap (segment.raw ++ rest) segment.gap
  starts : Layout.StartsToken (segment.raw ++ rest)
  munch : Munch segment.raw rest segment.token.kind segment.token.lexeme

/-- A text is made up of segments, each of which fits what follows it, and of the characters
`unread` behind them. -/
structure Tiles (text : List Char) (segments : List Segment) (unread : List Char) : Prop where
  whole : text = segments.flatMap chars ++ unread
  fits : ∀ before segment later, segments = before ++ segment :: later →
    segment.Fits (later.flatMap chars ++ unread)

/-! ## Cutting -/

/-- The segment at the front of a text is cut off if it fits. -/
theorem cut_of_fits {position : Position} {gap raw rest : List Char} {kind : TokenKind}
    {lexeme : String}
    (fits : Fits ⟨gap, raw, kind, lexeme, position.afterAll gap⟩ rest) :
    cut position (gap ++ (raw ++ rest)) =
      if kind.endsStream then [⟨gap, raw, kind, lexeme, position.afterAll gap⟩]
      else ⟨gap, raw, kind, lexeme, position.afterAll gap⟩ ::
        cut ((position.afterAll gap).afterAll raw) rest := by
  rw [cut, Layout.split_of_gap fits.isGap fits.starts, Reading.first_of_munch fits.munch]

/-- A segment at the front of a text that fits is there, whatever the text. -/
theorem exists_fits (position : Position) (text : List Char) :
    ∃ (gap raw rest : List Char) (kind : TokenKind) (lexeme : String),
      text = gap ++ (raw ++ rest) ∧
      Fits ⟨gap, raw, kind, lexeme, position.afterAll gap⟩ rest := by
  rcases Layout.exists_gap text with ⟨gap, behind, rfl, isGap, starts⟩
  rcases Reading.exists_munch behind with ⟨raw, rest, kind, lexeme, rfl, munch⟩
  exact ⟨gap, raw, rest, kind, lexeme, rfl, isGap, starts, munch⟩

theorem Fits.raw_ne_nil {segment : Segment} {rest : List Char} (fits : segment.Fits rest)
    (goesOn : segment.token.kind.endsStream = false) : segment.raw ≠ [] := by
  refine fits.munch.raw_ne_nil fun isLast => ?_
  rw [isLast] at goesOn
  cases goesOn

/-- What follows a segment that does not end the stream is shorter than the text. -/
theorem Fits.rest_length_lt {segment : Segment} {rest text : List Char} (fits : segment.Fits rest)
    (whole : text = segment.gap ++ (segment.raw ++ rest))
    (goesOn : segment.token.kind.endsStream = false) : rest.length < text.length := by
  have present := List.length_pos_iff.mpr (fits.raw_ne_nil goesOn)
  rw [whole, List.length_append, List.length_append]
  omega

/-- A fact about cutting texts is shown segment by segment: for the last one, and for one in front of
those that are cut off what follows it. -/
theorem cut_induction {motive : Position → List Char → Prop}
    (last : ∀ {position : Position} {segment : Segment} {rest : List Char}, segment.Fits rest →
      segment.token.position = position.afterAll segment.gap →
      segment.token.kind.endsStream = true →
      cut position (segment.gap ++ (segment.raw ++ rest)) = [segment] →
      motive position (segment.gap ++ (segment.raw ++ rest)))
    (more : ∀ {position : Position} {segment : Segment} {rest : List Char}, segment.Fits rest →
      segment.token.position = position.afterAll segment.gap →
      segment.token.kind.endsStream = false →
      cut position (segment.gap ++ (segment.raw ++ rest)) =
        segment :: cut (segment.token.position.afterAll segment.raw) rest →
      motive (segment.token.position.afterAll segment.raw) rest →
      motive position (segment.gap ++ (segment.raw ++ rest)))
    (position : Position) (text : List Char) : motive position text := by
  rcases exists_fits position text with ⟨gap, raw, rest, kind, lexeme, whole, fits⟩
  by_cases ends : kind.endsStream = true
  · have cuts := cut_of_fits fits
    rw [if_pos ends] at cuts
    rw [whole]
    exact last fits rfl ends cuts
  · have goesOn : kind.endsStream = false := Bool.eq_false_iff.mpr ends
    have shorter : rest.length < text.length := fits.rest_length_lt whole goesOn
    have later := cut_induction last more ((position.afterAll gap).afterAll raw) rest
    have cuts := cut_of_fits fits
    rw [if_neg ends] at cuts
    rw [whole]
    exact more fits rfl goesOn cuts later
termination_by text.length

/-! ## One tile after another -/

namespace Tiles

variable {text rest unread : List Char} {segment : Segment} {later : List Segment}

theorem nil (unread : List Char) : Tiles unread [] unread where
  whole := rfl
  fits := by
    intro before segment later same
    exact absurd same (List.append_ne_nil_of_right_ne_nil before (List.cons_ne_nil _ _)).symm

theorem cons (fits : segment.Fits rest) (tiles : Tiles rest later unread) :
    Tiles (segment.gap ++ (segment.raw ++ rest)) (segment :: later) unread where
  whole := by
    simp only [List.flatMap_cons, chars, List.append_assoc]
    rw [← tiles.whole]
  fits := by
    intro before other behind same
    cases before with
    | nil =>
        cases same
        rw [← tiles.whole]
        exact fits
    | cons first before =>
        cases same
        exact tiles.fits before other behind rfl

theorem uncons (tiles : Tiles text (segment :: later) unread) :
    ∃ rest, text = segment.gap ++ (segment.raw ++ rest) ∧ segment.Fits rest ∧
      Tiles rest later unread := by
  refine ⟨later.flatMap chars ++ unread, ?_, tiles.fits [] segment later rfl, rfl, ?_⟩
  · rw [tiles.whole]
    simp only [List.flatMap_cons, chars, List.append_assoc]
  · intro before other behind same
    exact tiles.fits (segment :: before) other behind (by rw [same, List.cons_append])

/-- The tokens at hand, the text alone decides where the tiles lie. -/
theorem unique {first second : List Segment} {unread' : List Char}
    (tiles : Tiles text first unread) (tiles' : Tiles text second unread')
    (tokens : first.map token = second.map token) : first = second ∧ unread = unread' := by
  induction first generalizing text second with
  | nil =>
      cases second with
      | nil =>
          have whole := tiles.whole.symm.trans tiles'.whole
          exact ⟨rfl, whole⟩
      | cons => cases tokens
  | cons segment later inductionHypothesis =>
      cases second with
      | nil => cases tokens
      | cons segment' later' =>
          rcases tiles.uncons with ⟨rest, whole, fits, behind⟩
          rcases tiles'.uncons with ⟨rest', whole', fits', behind'⟩
          rw [List.map_cons, List.map_cons, List.cons.injEq] at tokens
          -- Either first tile is what is taken off the front of the same text.
          have gaps := Layout.split_of_gap fits.isGap fits.starts
          have gaps' := Layout.split_of_gap fits'.isGap fits'.starts
          rw [← whole, whole', gaps', Prod.mk.injEq] at gaps
          have reads := Reading.first_of_munch fits.munch
          have reads' := Reading.first_of_munch fits'.munch
          rw [← gaps.2, reads', Reading.mk.injEq] at reads
          rcases reads with ⟨_, _, sameRaw, sameRest⟩
          subst sameRest
          rcases inductionHypothesis behind behind' tokens.2 with ⟨sameLater, sameUnread⟩
          have sameSegment : segment = segment' := by
            rcases segment with ⟨gap, raw, token⟩
            rcases segment' with ⟨gap', raw', token'⟩
            rw [Segment.mk.injEq]
            exact ⟨gaps.1.symm, sameRaw.symm, tokens.1⟩
          exact ⟨by rw [sameSegment, sameLater], sameUnread⟩

end Tiles

/-- The segments of the remaining characters tile them.  Where something is left unread, the last
of them is a literal with an invalid escape. -/
theorem cut_tiles (position : Position) (text : List Char) :
    ∃ unread, Tiles text (cut position text) unread ∧
      (unread ≠ [] → ∃ last c, (cut position text).getLast? = some last ∧
        last.token.kind = .fault (.invalidEscape c)) := by
  induction position, text using cut_induction with
  | @last _ segment rest fits stands ends cuts =>
      rw [cuts]
      refine ⟨rest, Tiles.cons fits (.nil rest), ?_⟩
      intro remains
      by_cases escapes : ∃ c, segment.token.kind = .fault (.invalidEscape c)
      · rcases escapes with ⟨c, isEscape⟩
        exact ⟨segment, c, rfl, isEscape⟩
      · have escapesValid : ∀ c, segment.token.kind ≠ .fault (.invalidEscape c) :=
          fun c isEscape => escapes ⟨c, isEscape⟩
        exact absurd (fits.munch.rest_eq_nil ends escapesValid) remains
  | more fits stands goesOn cuts inductionHypothesis =>
      rcases inductionHypothesis with ⟨unread, tiles, stops⟩
      rw [cuts]
      refine ⟨unread, Tiles.cons fits tiles, ?_⟩
      intro remains
      rcases stops remains with ⟨last, c, isLast, escapes⟩
      refine ⟨last, c, ?_, escapes⟩
      rw [List.getLast?_cons, isLast]
      rfl

/-- Every segment of a text fits what follows it. -/
theorem exists_fits_of_mem {text : String} {segment : Segment} (isSegment : segment ∈ ofText text) :
    ∃ rest, segment.Fits rest := by
  rcases cut_tiles .start text.toList with ⟨unread, tiles, _⟩
  rcases List.append_of_mem isSegment with ⟨before, later, whole⟩
  exact ⟨_, tiles.fits before segment later whole⟩

end Segment

namespace Token

open Segment

/-- Every token of a text was read from some characters of it. -/
theorem exists_munch_of_mem_stream {text : String} {token : Token} (isToken : token ∈ stream text) :
    ∃ raw rest, Munch raw rest token.kind token.lexeme := by
  rcases List.mem_map.mp isToken with ⟨segment, isSegment, rfl⟩
  rcases exists_fits_of_mem isSegment with ⟨rest, fits⟩
  exact ⟨_, rest, fits.munch⟩

/-- The tokens of a text tile it, and they do so in one way.  Each is read from at least one
character unless it stands for the end of the input, and only a string literal has another lexeme
than its source characters. -/
theorem stream_tiles (text : String) :
    ∃ (segments : List Segment) (unread : List Char),
      segments.map Segment.token = stream text ∧ Tiles text.toList segments unread ∧
      (unread ≠ [] → ∃ last c, (stream text).getLast? = some last ∧
        last.kind = .fault (.invalidEscape c)) ∧
      (∀ segment ∈ segments, segment.token.kind ≠ .endOfInput → segment.raw ≠ [] ∧
        (segment.token.kind ≠ .string → segment.token.lexeme = String.ofList segment.raw)) ∧
      ∀ (segments' : List Segment) (unread' : List Char),
        segments'.map Segment.token = stream text → Tiles text.toList segments' unread' →
          segments' = segments ∧ unread' = unread := by
  rcases cut_tiles .start text.toList with ⟨unread, tiles, stops⟩
  refine ⟨Segment.ofText text, unread, rfl, tiles, ?_, ?_, ?_⟩
  · intro remains
    rcases stops remains with ⟨last, c, isLast, escapes⟩
    refine ⟨last.token, c, ?_, escapes⟩
    rw [stream, List.getLast?_map, Segment.ofText, isLast]
    rfl
  · intro segment isSegment notLast
    rcases List.append_of_mem isSegment with ⟨before, later, whole⟩
    have munch := (tiles.fits before segment later whole).munch
    exact ⟨munch.raw_ne_nil notLast, munch.lexeme_eq notLast⟩
  · intro segments' unread' tokens' tiles'
    exact tiles'.unique tiles tokens'

/-- Behind an invalid escape a text may go on with tokens of the language, and they are not
read. -/
theorem stream_leaves_unread : ¬ ∃ segments : List Segment,
    segments.map Segment.token = stream "\"\\q 1" ∧ Tiles "\"\\q 1".toList segments [] := by
  rintro ⟨segments, tokens, tiles⟩
  have noEscape : ∀ denoted, ¬ Escape 'q' denoted := by
    intro denoted escape
    cases escape
  have starts : Layout.StartsToken ['"', '\\', 'q', ' ', '1'] := by
    refine ⟨?_, by decide, by decide⟩
    intro c first
    cases first
    decide
  have fits : Fits ⟨[], ['"', '\\', 'q'], .fault (.invalidEscape 'q'), "\"\\q",
      Position.start.afterAll []⟩ [' ', '1'] :=
    ⟨.none, starts, .invalidEscape .nil noEscape⟩
  have cuts := cut_of_fits fits
  have expected := Tiles.cons fits (.nil _)
  rcases tiles.unique expected (tokens.trans (congrArg (List.map token) cuts)) with ⟨_, unread⟩
  cases unread

end Token
end ExpressionChecker

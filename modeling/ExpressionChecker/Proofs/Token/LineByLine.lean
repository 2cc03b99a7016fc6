import ExpressionChecker.Proofs.Token.Spacing

namespace ExpressionChecker

/-!
# Reading line by line

A line feed is blank, so no token goes on past it, and it ends a line comment just as the end of a
text does.  So a text that was read to its end can be continued on a new line: its tokens stay as
they are, and the tokens of what follows are those that it has as a text of its own, only further
down.  The one thing that a line feed does not end is a block comment.
-/

/-! ## Moving down -/

namespace Position

/-- The position in the same column, some lines further down. -/
def lowered (lines : Nat) (position : Position) : Position :=
  ⟨position.line + lines, position.column⟩

theorem afterAll_lowered (lines : Nat) (position : Position) (passed : List Char) :
    (position.lowered lines).afterAll passed = (position.afterAll passed).lowered lines := by
  induction passed generalizing position with
  | nil => rfl
  | cons c later inductionHypothesis =>
      have step : (position.lowered lines).after c = (position.after c).lowered lines := by
        unfold after
        split
        · simp only [lowered, Nat.add_right_comm]
        · rfl
      have further := inductionHypothesis (position.after c)
      rwa [← step] at further

/-- Behind a line feed a text goes on where it would begin, only further down. -/
theorem afterAll_lineFeed (passed : List Char) :
    start.afterAll (passed ++ ['\n']) = start.lowered (1 + passed.count '\n') := by
  rw [afterAll_append, afterAll_start]
  simp only [afterAll, List.foldl_cons, List.foldl_nil, after, if_true, behind, lowered, start]
  rw [Position.mk.injEq]
  exact ⟨Nat.add_comm _ _, rfl⟩

end Position

/-- Further down a text is cut in the same way. -/
theorem Segment.cut_lowered (lines : Nat) (position : Position) (chars : List Char) :
    (cut (position.lowered lines) chars).map token =
      (cut position chars).map fun segment => segment.token.moved (Position.lowered lines) := by
  induction position, chars using cut_induction with
  | @last position segment rest fits stands ends cuts =>
      have fits' : Fits ⟨segment.gap, segment.raw, segment.token.kind, segment.token.lexeme,
          (position.lowered lines).afterAll segment.gap⟩ rest :=
        ⟨fits.isGap, fits.starts, fits.munch⟩
      rw [cuts, cut_of_fits fits', if_pos ends, Position.afterAll_lowered, ← stands]
      rfl
  | @more position segment rest fits stands goesOn cuts inductionHypothesis =>
      have fits' : Fits ⟨segment.gap, segment.raw, segment.token.kind, segment.token.lexeme,
          (position.lowered lines).afterAll segment.gap⟩ rest :=
        ⟨fits.isGap, fits.starts, fits.munch⟩
      rw [cuts, cut_of_fits fits', goesOn, if_neg Bool.false_ne_true, Position.afterAll_lowered,
        ← stands, Position.afterAll_lowered, List.map_cons, inductionHypothesis]
      rfl

/-! ## The layout at the end of a text -/

namespace Layout

/-- The layout stops inside a block comment: one is opened where a comment can be, and it is not
closed any more. -/
def InsideBlockComment (gap : List Char) : Prop :=
  ∃ closed body, gap = closed ++ '/' :: '*' :: body ∧ ClosedGap closed ∧ ¬ blockEnd <:+: body

/-- Layout in front of the layout leads to the same comment. -/
theorem InsideBlockComment.behind {front gap : List Char} (inside : InsideBlockComment gap)
    (later : ∀ {closed}, ClosedGap closed → ClosedGap (front ++ closed)) :
    InsideBlockComment (front ++ gap) := by
  rcases inside with ⟨closed, body, rfl, isClosed, unclosed⟩
  exact ⟨front ++ closed, body, (List.append_assoc _ _ _).symm, later isClosed, unclosed⟩

/-- At the end of a text, either a line feed closes the layout, or it is inside a block comment. -/
theorem Gap.closed_or_inside {gap : List Char} (isGap : Gap [] gap) :
    ClosedGap (gap ++ ['\n']) ∨ InsideBlockComment gap := by
  have lineFeed : ClosedGap ['\n'] := fun _ => .blank (by decide) .none
  induction isGap with
  | none => exact .inl lineFeed
  | @blank c gap isBlank _ inductionHypothesis =>
      have later {closed : List Char} (isClosed : ClosedGap closed) : ClosedGap ([c] ++ closed) :=
        fun rest => .blank isBlank (isClosed rest)
      exact inductionHypothesis.imp later fun inside => inside.behind later
  | @lineComment body gap oneLine _ inductionHypothesis =>
      have later {closed : List Char} (isClosed : ClosedGap closed) :
          ClosedGap (('/' :: '/' :: (body ++ ['\n'])) ++ closed) := by
        simp only [List.cons_append, List.append_assoc]
        exact fun rest => .lineComment oneLine (isClosed rest)
      have whole (behind : List Char) : '/' :: '/' :: (body ++ '\n' :: behind) =
          ('/' :: '/' :: (body ++ ['\n'])) ++ behind := by
        simp only [List.cons_append, List.append_assoc, List.nil_append]
      rw [whole, List.append_assoc]
      exact inductionHypothesis.imp later fun inside => inside.behind later
  | @blockComment body gap first _ inductionHypothesis =>
      have later {closed : List Char} (isClosed : ClosedGap closed) :
          ClosedGap (('/' :: '*' :: (body ++ ['*', '/'])) ++ closed) := by
        simp only [List.cons_append, List.append_assoc]
        exact fun rest => .blockComment first (isClosed rest)
      have whole (behind : List Char) : '/' :: '*' :: (body ++ '*' :: '/' :: behind) =
          ('/' :: '*' :: (body ++ ['*', '/'])) ++ behind := by
        simp only [List.cons_append, List.append_assoc, List.nil_append]
      rw [whole, List.append_assoc]
      exact inductionHypothesis.imp later fun inside => inside.behind later
  | @lastLineComment body oneLine _ =>
      exact .inl fun _ => .lineComment oneLine .none
  | @lastBlockComment body unclosed _ =>
      exact .inr ⟨[], body, rfl, fun _ => .none, unclosed⟩

/-- Neither a line feed nor a letter closes a block comment. -/
theorem InsideBlockComment.isGap {gap : List Char} (inside : InsideBlockComment gap) :
    Gap [] (gap ++ ['\n', 'x']) := by
  rcases inside with ⟨closed, body, rfl, isClosed, unclosed⟩
  have stillUnclosed : ¬ blockEnd <:+: body ++ ['\n', 'x'] := by
    have notLast {chars : List Char} {c : Char} (other : c ≠ '/')
        (further : ¬ blockEnd <:+: chars) : ¬ blockEnd <:+: chars ++ [c] := by
      rw [List.infix_concat_iff, List.suffix_concat_iff, not_or, not_or]
      refine ⟨⟨by decide, ?_⟩, further⟩
      rintro ⟨front, whole, _⟩
      have last := congrArg List.getLast? whole
      rw [List.getLast?_concat] at last
      exact other (Option.some.inj last).symm
    have line := notLast (by decide : '\n' ≠ '/') unclosed
    have letter := notLast (by decide : 'x' ≠ '/') line
    rwa [List.append_assoc] at letter
  rw [List.append_assoc]
  exact (isClosed [' ']).append (List.cons_ne_nil _ _) (.lastBlockComment stillUnclosed rfl)

end Layout

/-! ## What follows the end of a text -/

namespace Segment

variable {position : Position} {text tail : List Char}

/-- A segment that goes on keeps its place in front of more text, as long as a blank comes first. -/
theorem Fits.of_setsApart {segment : Segment} {rest : List Char} (fits : segment.Fits rest)
    (goesOn : segment.token.kind.endsStream = false) (apart : Layout.SetsApart tail) :
    segment.Fits (rest ++ tail) := by
  have present := fits.raw_ne_nil goesOn
  cases rest with
  | nil =>
      exact ⟨fits.isGap.of_ne_nil (List.append_ne_nil_of_left_ne_nil present _),
        fits.starts.of_setsApart present apart, fits.munch.of_setsApart goesOn apart⟩
  | cons c rest => exact fits.of_head? goesOn rfl

/-- What follows a text that was read to its end is cut behind the last gap of the text. -/
theorem cut_append {earlier : List Segment} {last : Segment}
    (cuts : cut position text = earlier ++ [last]) (isLast : last.token.kind = .endOfInput)
    (apart : Layout.SetsApart tail) :
    cut position (text ++ tail) =
      earlier ++ cut (position.afterAll (earlier.flatMap chars)) (last.gap ++ tail) := by
  induction position, text using cut_induction generalizing earlier with
  | @last position segment rest fits _ _ alone =>
      have same : [] ++ [segment] = earlier ++ [last] := alone.symm.trans cuts
      rcases List.append_inj' same rfl with ⟨rfl, isSegment⟩
      cases isSegment
      rw [fits.atEnd isLast, List.append_nil]
      rfl
  | @more position segment rest fits stands goesOn further inductionHypothesis =>
      have parts := further.symm.trans cuts
      cases earlier with
      | nil =>
          rw [(List.cons.inj parts).1, isLast] at goesOn
          cases goesOn
      | cons first earlier =>
          rcases List.cons.inj parts with ⟨rfl, later⟩
          have continued : cut position (segment.gap ++ (segment.raw ++ (rest ++ tail))) =
              segment :: cut (segment.token.position.afterAll segment.raw) (rest ++ tail) :=
            cut_eq_cons_iff.mpr
              ⟨rest ++ tail, rfl, fits.of_setsApart goesOn apart, stands, by simp [goesOn]⟩
          rw [List.append_assoc, List.append_assoc, continued, inductionHypothesis later,
            List.cons_append, stands, List.flatMap_cons, chars]
          simp only [← Position.afterAll_append, List.append_assoc]

/-- Closed layout in front of a text changes only where its tokens stand. -/
theorem cut_closedGap {gap : List Char} (closed : Layout.ClosedGap gap) (position : Position)
    (text : List Char) :
    (cut position (gap ++ text)).map token = (cut (position.afterAll gap) text).map token := by
  rcases exists_fits (position.afterAll gap) text with
    ⟨gap', raw, rest, kind, lexeme, rfl, fits⟩
  have longer : Fits ⟨gap ++ gap', raw, kind, lexeme, position.afterAll (gap ++ gap')⟩ rest :=
    ⟨(closed [' ']).append (List.cons_ne_nil _ _) fits.isGap, fits.starts, fits.munch⟩
  rw [← List.append_assoc, cut_of_fits longer, cut_of_fits fits, Position.afterAll_append]
  split <;> rfl

/-- A letter below a comment that is still open becomes a part of it. -/
theorem length_cut_inside {gap : List Char} (inside : Layout.InsideBlockComment gap)
    (position : Position) : (cut position (gap ++ ['\n', 'x'])).length = 1 := by
  have fits : Fits ⟨gap ++ ['\n', 'x'], [], .endOfInput, Token.endLexeme,
      position.afterAll (gap ++ ['\n', 'x'])⟩ [] :=
    ⟨inside.isGap, Layout.startsToken_nil, .endOfInput⟩
  have cuts := cut_of_fits fits
  rw [List.append_nil, List.append_nil] at cuts
  rw [cuts]
  rfl

/-- The segments of a text that was read to its end: the last one holds no token of its own. -/
theorem exists_ofText_eq_concat {text : String}
    (ends : ∃ last ∈ (Token.stream text).getLast?, last.kind = .endOfInput) :
    ∃ earlier last, ofText text = earlier ++ [last] ∧ last.token.kind = .endOfInput ∧
      earlier.flatMap chars ++ last.gap = text.toList ∧ Layout.Gap [] last.gap := by
  rcases ends with ⟨token, isToken, isLast⟩
  rw [Token.stream, List.getLast?_map, Option.mem_def, Option.map_eq_some_iff] at isToken
  rcases isToken with ⟨last, isSegment, rfl⟩
  rcases List.getLast?_eq_some_iff.mp isSegment with ⟨earlier, parts⟩
  refine ⟨earlier, last, parts, isLast, ?_, ?_⟩
  · exact (cut_located .start text.toList earlier last [] parts).2 isLast
  · rcases cut_tiles .start text.toList with ⟨unread, tiles, _⟩
    have fits := tiles.fits earlier last [] parts
    have isGap := fits.isGap
    rwa [fits.atEnd isLast] at isGap

end Segment

/-! ## Texts -/

/-- The text ends inside a block comment that it does not close. -/
def Text.EndsInBlockComment (text : String) : Prop :=
  ∃ last ∈ (Segment.ofText text).getLast?, Layout.InsideBlockComment last.gap

namespace Token

/-- A text that was read to its end and does not end inside a block comment, and only such a text,
can be continued on a new line by any other text: its tokens come first, without the end of the
input, and behind them the tokens of the other text, as many lines further down as come before
it. -/
theorem stream_continues_iff {text : String}
    (ends : ∃ last ∈ (stream text).getLast?, last.kind = .endOfInput) :
    ¬ Text.EndsInBlockComment text ↔ ∀ later : String,
      stream (text ++ "\n" ++ later) = (stream text).dropLast ++
        (stream later).map (moved (Position.lowered (1 + text.toList.count '\n'))) := by
  rcases Segment.exists_ofText_eq_concat ends with ⟨earlier, last, parts, isLast, whole, isGap⟩
  have apart (tail : List Char) : Layout.SetsApart ('\n' :: tail) := by
    rintro _ ⟨⟩
    decide
  have continued (later : String) :
      stream (text ++ "\n" ++ later) = earlier.map Segment.token ++
        (Segment.cut (Position.start.afterAll (earlier.flatMap Segment.chars))
          (last.gap ++ '\n' :: later.toList)).map Segment.token := by
    have chars : (text ++ "\n" ++ later).toList = text.toList ++ '\n' :: later.toList := by
      rw [String.toList_append, String.toList_append, List.append_assoc]
      rfl
    rw [stream, Segment.ofText, chars, Segment.cut_append parts isLast (apart _), List.map_append]
  have front : (stream text).dropLast = earlier.map Segment.token := by
    rw [stream, parts, List.map_append, List.map_singleton, List.dropLast_concat]
  have isFinal : last ∈ (Segment.ofText text).getLast? := by
    rw [parts, List.getLast?_concat]
    rfl
  constructor
  · intro outside later
    have closed := isGap.closed_or_inside.resolve_right fun inside =>
      outside ⟨last, isFinal, inside⟩
    have below := Segment.cut_closedGap closed
      (Position.start.afterAll (earlier.flatMap Segment.chars)) later.toList
    rw [← Position.afterAll_append, ← List.append_assoc, whole, Position.afterAll_lineFeed,
      Segment.cut_lowered, List.append_assoc] at below
    rw [continued, front, stream, List.map_map]
    exact congrArg _ below
  · rintro composes ⟨final, isFinal', inside⟩
    cases Option.mem_unique isFinal isFinal'
    -- The letter becomes a part of the comment and is no token of its own.
    have two : (stream "x").length = 2 := by decide +kernel
    have letter : "x".toList = ['x'] := rfl
    have same := composes "x"
    rw [continued, front, List.append_cancel_left_eq, letter] at same
    have lengths := congrArg List.length same
    rw [List.length_map, List.length_map, Segment.length_cut_inside inside, two] at lengths
    cases lengths

/-- Below a line comment behind a lone slash, the second line ends in a literal that cannot be
read. -/
theorem stream_continues_iff_comment :
    (∃ last ∈ (stream "y / // c").getLast?, last.kind = .endOfInput) ∧
      ¬ Text.EndsInBlockComment "y / // c" ∧
      stream ("y / // c" ++ "\n" ++ "3. \"\\q") =
        [⟨.name, "y", ⟨1, 1⟩⟩, ⟨.arithmetic, "/", ⟨1, 3⟩⟩,
          ⟨.fault (.malformedNumber "3."), "3.", ⟨2, 1⟩⟩,
          ⟨.fault (.invalidEscape 'q'), "\"\\q", ⟨2, 4⟩⟩] := by
  have ends : ∃ last ∈ (stream "y / // c").getLast?, last.kind = .endOfInput :=
    ⟨endOfInput ⟨1, 9⟩, by decide +kernel, rfl⟩
  have outside : ¬ Text.EndsInBlockComment "y / // c" := by
    rintro ⟨last, isLast, closed, body, parts, _⟩
    have gap : (Segment.ofText "y / // c").getLast?.map Segment.gap = some " // c".toList := by
      decide +kernel
    have opens : ['/', '*'] <:+: " // c".toList := by
      rw [isLast, Option.map_some, parts, Option.some.injEq] at gap
      exact gap ▸ ⟨closed, body, List.append_assoc _ _ _⟩
    exact absurd opens (by decide)
  refine ⟨ends, outside, ((stream_continues_iff ends).mp outside _).trans ?_⟩
  decide +kernel

end Token
end ExpressionChecker

import ExpressionChecker.Token.Layout

namespace ExpressionChecker
namespace Layout

/-!
# The gap in front of a token

A gap is described here without a walk: it is a sequence of blank characters and of comments, and
every comment ends at the first place where it can.  Only the last comment of a text may lack its
end.  Every text begins with exactly one gap that goes on as long as a gap can, and this is the gap
that `Layout.split` takes off.
-/

/-- The two characters that close a block comment. -/
def blockEnd : List Char := ['*', '/']

/-- The characters `gap` are layout, with the characters `rest` behind them.  What is behind them
matters only for a comment that the end of the text ends.  The body of a block comment may end in a
star, but it may not hold the two closing characters, not even together with the first of those that
close it. -/
inductive Gap (rest : List Char) : List Char → Prop where
  | none : Gap rest []
  | blank {c : Char} {gap : List Char} (isBlank : Text.isBlank c = true) (later : Gap rest gap) :
      Gap rest (c :: gap)
  | lineComment {body gap : List Char} (oneLine : '\n' ∉ body) (later : Gap rest gap) :
      Gap rest ('/' :: '/' :: (body ++ '\n' :: gap))
  | blockComment {body gap : List Char} (first : ¬ blockEnd <:+: body ++ ['*'])
      (later : Gap rest gap) : Gap rest ('/' :: '*' :: (body ++ '*' :: '/' :: gap))
  | lastLineComment {body : List Char} (oneLine : '\n' ∉ body) (last : rest = []) :
      Gap rest ('/' :: '/' :: body)
  | lastBlockComment {body : List Char} (unclosed : ¬ blockEnd <:+: body) (last : rest = []) :
      Gap rest ('/' :: '*' :: body)

/-- The characters begin with neither a blank nor a comment, so no gap goes on with them. -/
structure StartsToken (chars : List Char) : Prop where
  notBlank : ∀ c ∈ chars.head?, Text.isBlank c = false
  notLineComment : ¬ ['/', '/'] <+: chars
  notBlockComment : ¬ ['/', '*'] <+: chars

/-! ## The end of a comment -/

theorem split_lineComment_last {body : List Char} (oneLine : '\n' ∉ body) :
    split .lineComment body = (body, []) := by
  induction body with
  | nil => rfl
  | cons c body inductionHypothesis =>
      rw [List.mem_cons, not_or] at oneLine
      have step : split .lineComment (c :: body) = passing [c] (split .lineComment body) := by
        rw [split]
        intro isLineFeed
        exact oneLine.1 isLineFeed.symm
      rw [step, inductionHypothesis oneLine.2]
      rfl

/-- A line comment ends behind its first line feed. -/
theorem split_lineComment {body : List Char} (oneLine : '\n' ∉ body) (chars : List Char) :
    split .lineComment (body ++ '\n' :: chars) =
      passing (body ++ ['\n']) (split .blank chars) := by
  induction body with
  | nil => rfl
  | cons c body inductionHypothesis =>
      rw [List.mem_cons, not_or] at oneLine
      have step : split .lineComment (c :: (body ++ '\n' :: chars)) =
          passing [c] (split .lineComment (body ++ '\n' :: chars)) := by
        rw [split]
        intro isLineFeed
        exact oneLine.1 isLineFeed.symm
      rw [List.cons_append, step, inductionHypothesis oneLine.2]
      rfl

/-- A block comment goes on past a character at which it cannot end. -/
theorem split_blockComment_cons {c : Char} {chars : List Char}
    (continues : ¬ blockEnd <+: c :: chars) :
    split .blockComment (c :: chars) = passing [c] (split .blockComment chars) := by
  rw [split]
  rintro tail rfl rfl
  exact continues (List.prefix_append _ _)

theorem split_blockComment_last {body : List Char} (unclosed : ¬ blockEnd <:+: body) :
    split .blockComment body = (body, []) := by
  induction body with
  | nil => rfl
  | cons c body inductionHypothesis =>
      have continues : ¬ blockEnd <+: c :: body :=
        fun closes => unclosed closes.isInfix
      have later : ¬ blockEnd <:+: body :=
        fun closes => unclosed (closes.trans (List.suffix_cons c body).isInfix)
      rw [split_blockComment_cons continues, inductionHypothesis later]
      rfl

/-- A block comment ends behind the first closing characters. -/
theorem split_blockComment {body : List Char} (first : ¬ blockEnd <:+: body ++ ['*'])
    (chars : List Char) :
    split .blockComment (body ++ '*' :: '/' :: chars) =
      passing (body ++ ['*', '/']) (split .blank chars) := by
  induction body with
  | nil => rfl
  | cons c body inductionHypothesis =>
      have later : ¬ blockEnd <:+: body ++ ['*'] :=
        fun closes => first (closes.trans (List.suffix_cons c _).isInfix)
      -- The first two characters lie in front of the slash that closes the comment.
      have continues : ¬ blockEnd <+: c :: (body ++ '*' :: '/' :: chars) := by
        intro closes
        apply first
        apply List.IsPrefix.isInfix
        have whole : c :: (body ++ '*' :: '/' :: chars) =
            (c :: body ++ ['*']) ++ '/' :: chars := by
          simp only [List.cons_append, List.append_assoc, List.nil_append]
        rw [whole] at closes
        exact List.prefix_of_prefix_length_le closes (List.prefix_append _ _) (by simp [blockEnd])
      rw [List.cons_append, split_blockComment_cons continues, inductionHypothesis later]
      rfl

/-! ## Gaps are taken off -/

theorem split_of_startsToken {rest : List Char} (starts : StartsToken rest) :
    split .blank rest = ([], rest) := by
  cases rest with
  | nil => rfl
  | cons c tail =>
      have step : split .blank (c :: tail) =
          if Text.isBlank c then passing [c] (split .blank tail) else ([], c :: tail) := by
        rw [split]
        · rintro later rfl rfl
          exact starts.notLineComment (List.prefix_append _ _)
        · rintro later rfl rfl
          exact starts.notBlockComment (List.prefix_append _ _)
      rw [step, starts.notBlank c rfl]
      rfl

/-- A slash is not blank. -/
theorem split_blank_cons {c : Char} (isBlank : Text.isBlank c = true) (chars : List Char) :
    split .blank (c :: chars) = passing [c] (split .blank chars) := by
  have notSlash : c ≠ '/' := by
    rintro rfl
    exact absurd isBlank (by decide)
  rw [split, if_pos isBlank]
  · rintro later rfl
    exact absurd rfl notSlash
  · rintro later rfl
    exact absurd rfl notSlash

/-- A gap is taken off as a whole where a token starts behind it. -/
theorem split_of_gap {gap rest : List Char} (isGap : Gap rest gap) (starts : StartsToken rest) :
    split .blank (gap ++ rest) = (gap, rest) := by
  induction isGap with
  | none => exact split_of_startsToken starts
  | blank isBlank later inductionHypothesis =>
      rw [List.cons_append, split_blank_cons isBlank, inductionHypothesis]
      rfl
  | lineComment oneLine later inductionHypothesis =>
      simp only [List.cons_append, List.append_assoc]
      rw [split, split_lineComment oneLine, inductionHypothesis]
      simp only [passing, List.cons_append, List.append_assoc, List.nil_append]
  | blockComment first later inductionHypothesis =>
      simp only [List.cons_append, List.append_assoc]
      rw [split, split_blockComment first, inductionHypothesis]
      simp only [passing, List.cons_append, List.append_assoc, List.nil_append]
  | lastLineComment oneLine last =>
      subst last
      rw [List.append_nil, split, split_lineComment_last oneLine]
      rfl
  | lastBlockComment unclosed last =>
      subst last
      rw [List.append_nil, split, split_blockComment_last unclosed]
      rfl

/-! ## Every text begins with a gap -/

/-- A block comment is closed at a first place, or nowhere. -/
theorem exists_blockEnd (chars : List Char) :
    (¬ blockEnd <:+: chars) ∨ ∃ body later, chars = body ++ '*' :: '/' :: later ∧
      ¬ blockEnd <:+: body ++ ['*'] := by
  induction chars with
  | nil => exact Or.inl (by decide)
  | cons c chars inductionHypothesis =>
      by_cases closes : blockEnd <+: c :: chars
      · rcases closes with ⟨later, whole⟩
        exact Or.inr ⟨[], later, whole.symm, by decide⟩
      · rcases inductionHypothesis with unclosed | ⟨body, later, rfl, first⟩
        · left
          intro closed
          rcases List.infix_cons_iff.mp closed with atFront | behind
          · exact closes atFront
          · exact unclosed behind
        · refine Or.inr ⟨c :: body, later, rfl, ?_⟩
          intro closed
          rcases List.infix_cons_iff.mp closed with atFront | behind
          · apply closes
            have whole : c :: (body ++ '*' :: '/' :: later) =
                (c :: (body ++ ['*'])) ++ '/' :: later := by
              simp only [List.cons_append, List.append_assoc, List.nil_append]
            rw [whole]
            exact atFront.trans (List.prefix_append _ _)
          · exact first behind

theorem startsToken_nil : StartsToken [] where
  notBlank := by
    intro c first
    cases first
  notLineComment := by decide
  notBlockComment := by decide

/-- A character that is neither blank nor a slash starts a token. -/
theorem startsToken_cons {c : Char} (notBlank : Text.isBlank c = false) (notSlash : c ≠ '/')
    (rest : List Char) : StartsToken (c :: rest) where
  notBlank := by
    intro first isFirst
    cases Option.mem_some_iff.mp isFirst
    exact notBlank
  notLineComment := fun comment => notSlash (List.cons_prefix_cons.mp comment).1.symm
  notBlockComment := fun comment => notSlash (List.cons_prefix_cons.mp comment).1.symm

/-- Every text is a gap and something that starts a token. -/
theorem exists_gap (chars : List Char) :
    ∃ gap rest, chars = gap ++ rest ∧ Gap rest gap ∧ StartsToken rest := by
  by_cases line : ['/', '/'] <+: chars
  · rcases line with ⟨tail, whole⟩
    by_cases ends : '\n' ∈ tail
    · rcases List.eq_append_cons_of_mem ends with ⟨body, later, parts, oneLine⟩
      have shorter : later.length < chars.length := by
        simp only [← whole, parts, List.length_append, List.length_cons]
        omega
      rcases exists_gap later with ⟨gap, rest, same, isGap, starts⟩
      refine ⟨'/' :: '/' :: (body ++ '\n' :: gap), rest, ?_, .lineComment oneLine isGap, starts⟩
      simp only [← whole, parts, same, List.cons_append, List.append_assoc, List.nil_append]
    · refine ⟨'/' :: '/' :: tail, [], ?_, .lastLineComment ends rfl, startsToken_nil⟩
      rw [← whole, List.append_nil]
      rfl
  by_cases block : ['/', '*'] <+: chars
  · rcases block with ⟨tail, whole⟩
    rcases exists_blockEnd tail with unclosed | ⟨body, later, parts, first⟩
    · refine ⟨'/' :: '*' :: tail, [], ?_, .lastBlockComment unclosed rfl, startsToken_nil⟩
      rw [← whole, List.append_nil]
      rfl
    · have shorter : later.length < chars.length := by
        simp only [← whole, parts, List.length_append, List.length_cons]
        omega
      rcases exists_gap later with ⟨gap, rest, same, isGap, starts⟩
      refine ⟨'/' :: '*' :: (body ++ '*' :: '/' :: gap), rest, ?_, .blockComment first isGap,
        starts⟩
      simp only [← whole, parts, same, List.cons_append, List.append_assoc, List.nil_append]
  cases chars with
  | nil => exact ⟨[], [], rfl, .none, startsToken_nil⟩
  | cons c tail =>
      by_cases isBlank : Text.isBlank c = true
      · rcases exists_gap tail with ⟨gap, rest, rfl, isGap, starts⟩
        exact ⟨c :: gap, rest, rfl, .blank isBlank isGap, starts⟩
      · refine ⟨[], c :: tail, rfl, .none, ?_, line, block⟩
        intro first isFirst
        cases Option.mem_some_iff.mp isFirst
        exact Bool.eq_false_iff.mpr isBlank
termination_by chars.length

end Layout
end ExpressionChecker

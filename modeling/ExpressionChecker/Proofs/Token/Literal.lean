import ExpressionChecker.Token.Literal

namespace ExpressionChecker

/-!
# What a string literal denotes

The inside of a literal is a sequence of items: a character that is neither a quote nor a backslash
denotes itself, and a backslash denotes a character together with the one behind it.  A text
behind an opening quote goes on with items as long as it can, and what stops it decides how the
literal ends.
-/

/-- A backslash and the first character denote the second one. -/
inductive Escape : Char → Char → Prop where
  | lineFeed : Escape 'n' '\n'
  | tab : Escape 't' '\t'
  | quote : Escape '"' '"'
  | backslash : Escape '\\' '\\'

/-- The characters `body` are items of a literal, and together they denote `value`. -/
inductive Quoted : List Char → List Char → Prop where
  | nil : Quoted [] []
  | plain {c : Char} {body value : List Char} (notQuote : c ≠ '"') (notBackslash : c ≠ '\\')
      (later : Quoted body value) : Quoted (c :: body) (c :: value)
  | escaped {c denoted : Char} {body value : List Char} (escape : Escape c denoted)
      (later : Quoted body value) : Quoted ('\\' :: c :: body) (denoted :: value)

namespace LiteralBody

theorem unescape?_eq_some_iff {c denoted : Char} :
    unescape? c = some denoted ↔ Escape c denoted := by
  constructor
  · intro found
    unfold unescape? at found
    split at found
    · cases found
      exact .lineFeed
    · cases found
      exact .tab
    · cases found
      exact .quote
    · cases found
      exact .backslash
    · cases found
  · intro escape
    cases escape <;> rfl

theorem unescape?_eq_none_iff {c : Char} :
    unescape? c = none ↔ ∀ denoted, ¬ Escape c denoted := by
  constructor
  · intro missing denoted escape
    rw [unescape?_eq_some_iff.mpr escape] at missing
    cases missing
  · intro noEscape
    cases found : unescape? c with
    | none => rfl
    | some denoted => exact absurd (unescape?_eq_some_iff.mp found) (noEscape denoted)

/-! ## Reading items -/

/-- Items are read whatever follows them. -/
theorem read_quoted {body value : List Char} (quoted : Quoted body value) (chars : List Char) :
    read (body ++ chars) = ⟨value ++ (read chars).value, body ++ (read chars).raw,
      (read chars).ending, (read chars).rest⟩ := by
  induction quoted with
  | nil => rfl
  | plain notQuote notBackslash later inductionHypothesis =>
      rw [List.cons_append, read, inductionHypothesis]
      · rfl
      · intro isQuote
        exact notQuote isQuote
      · intro isBackslash _
        exact notBackslash isBackslash
      · intro c tail isBackslash _
        exact notBackslash isBackslash
  | escaped escape later inductionHypothesis =>
      simp only [List.cons_append, read, unescape?_eq_some_iff.mpr escape, inductionHypothesis,
        passing, List.nil_append]

/-- Behind an opening quote stand items, and then a quote, a backslash that begins no item, or the
end of the text. -/
theorem exists_quoted (chars : List Char) : ∃ body value, Quoted body value ∧
    ((∃ rest, chars = body ++ '"' :: rest) ∨
      (∃ c rest, chars = body ++ '\\' :: c :: rest ∧ ∀ denoted, ¬ Escape c denoted) ∨
      chars = body ∨ chars = body ++ ['\\']) := by
  fun_induction read chars with
  | case1 => exact ⟨[], [], .nil, Or.inr (Or.inr (Or.inl rfl))⟩
  | case2 rest => exact ⟨[], [], .nil, Or.inl ⟨rest, rfl⟩⟩
  | case3 => exact ⟨[], [], .nil, Or.inr (Or.inr (Or.inr rfl))⟩
  | case4 c rest denoted found inductionHypothesis =>
      rcases inductionHypothesis with ⟨body, value, quoted, ends⟩
      refine ⟨'\\' :: c :: body, denoted :: value,
        .escaped (unescape?_eq_some_iff.mp found) quoted, ?_⟩
      simpa only [List.cons_append, List.cons.injEq, true_and] using ends
  | case5 c rest missing =>
      exact ⟨[], [], .nil, Or.inr (Or.inl ⟨c, rest, rfl, unescape?_eq_none_iff.mp missing⟩)⟩
  | case6 c rest notQuote alone notBackslash inductionHypothesis =>
      rcases inductionHypothesis with ⟨body, value, quoted, ends⟩
      have isItem : c ≠ '\\' := by
        intro isBackslash
        cases rest with
        | nil => exact alone isBackslash rfl
        | cons next later => exact notBackslash next later isBackslash rfl
      refine ⟨c :: body, c :: value, .plain notQuote isItem quoted, ?_⟩
      simpa only [List.cons_append, List.cons.injEq, true_and] using ends

end LiteralBody
end ExpressionChecker

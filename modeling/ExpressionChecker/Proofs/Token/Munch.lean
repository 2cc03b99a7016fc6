import ExpressionChecker.Proofs.Spelling
import ExpressionChecker.Proofs.Token.Literal

namespace ExpressionChecker

/-!
# The classes of tokens

What a token is read from is described here class by class, each with the text that follows it: a
word and a number are runs that the text behind them does not continue, an operator of two
characters is never taken apart, and a literal runs to its closing quote.  `Munch` puts the classes
together.  No text is in two of them, and the token at the front of any text is in one, so
`Reading.first` reads exactly what the classes describe.
-/

/-! ## Longest runs -/

/-- The characters of `run` continue it, and the first one behind them does not. -/
structure LongestRun (continues : Char → Bool) (run rest : List Char) : Prop where
  within : ∀ c ∈ run, continues c = true
  stops : ∀ c ∈ rest.head?, continues c = false

namespace LongestRun

variable {continues : Char → Bool} {run rest : List Char}

theorem takeWhile_append (longest : LongestRun continues run rest) :
    (run ++ rest).takeWhile continues = run := by
  rw [List.takeWhile_append_of_pos longest.within]
  cases rest with
  | nil => exact List.append_nil run
  | cons c later =>
      rw [List.takeWhile_cons, longest.stops c rfl]
      exact List.append_nil run

theorem dropWhile_append (longest : LongestRun continues run rest) :
    (run ++ rest).dropWhile continues = rest := by
  rw [List.dropWhile_append_of_pos longest.within]
  cases rest with
  | nil => rfl
  | cons c later =>
      rw [List.dropWhile_cons, longest.stops c rfl]
      rfl

theorem takeWhile_dropWhile (continues : Char → Bool) (chars : List Char) :
    LongestRun continues (chars.takeWhile continues) (chars.dropWhile continues) where
  within := List.all_eq_true.mp List.all_takeWhile
  stops := by
    intro c first
    have stopped := List.head?_dropWhile_not continues chars
    rw [Option.mem_def.mp first] at stopped
    simpa using stopped

/-- A text divides in one way into a longest run and what follows it. -/
theorem unique {run' rest' : List Char} (isFirst : LongestRun continues run rest)
    (isSecond : LongestRun continues run' rest') (same : run ++ rest = run' ++ rest') :
    run = run' ∧ rest = rest' := by
  constructor
  · rw [← isFirst.takeWhile_append, same, isSecond.takeWhile_append]
  · rw [← isFirst.dropWhile_append, same, isSecond.dropWhile_append]

/-- The characters in front of a mark that they do not hold are a longest run. -/
theorem before {mark : Char} (absent : mark ∉ run) (rest : List Char) :
    LongestRun (· != mark) run (mark :: rest) where
  within := by
    intro c listed
    exact bne_iff_ne.mpr (ne_of_mem_of_not_mem listed absent)
  stops := by
    intro c isMark
    cases isMark
    exact bne_self_eq_false mark

end LongestRun

/-! ## Words and numbers -/

/-- The kind of a word.  Reserved words come first, and a word that is not reserved has to be
spelt like a name. -/
inductive WordKind (word : List Char) : TokenKind → Prop where
  | keyword (reserved : String.ofList word ∈ Spelling.keywords) : WordKind word .keyword
  | truthValue (notKeyword : String.ofList word ∉ Spelling.keywords)
      (reserved : String.ofList word ∈ Spelling.truthValues) : WordKind word .truthValue
  | name (notKeyword : String.ofList word ∉ Spelling.keywords)
      (notTruthValue : String.ofList word ∉ Spelling.truthValues)
      (spelt : Spelling.MatchesName word) : WordKind word .name
  | malformed (notKeyword : String.ofList word ∉ Spelling.keywords)
      (notTruthValue : String.ofList word ∉ Spelling.truthValues)
      (misspelt : ¬ Spelling.MatchesName word) :
      WordKind word (.fault (.malformedName (String.ofList word)))

/-- The kind of a run that begins with a digit. -/
inductive NumberKind (run : List Char) : TokenKind → Prop where
  | number (spelt : Spelling.isNumber run = true) : NumberKind run .number
  | malformed (misspelt : Spelling.isNumber run = false) :
      NumberKind run (.fault (.malformedNumber (String.ofList run)))

/-! ## Operators and punctuation -/

/-- The operators of two characters. -/
def operatorPairs : List ((Char × Char) × TokenKind) := [
  (('<', '='), .relational), (('>', '='), .relational), (('=', '='), .relational),
  (('!', '='), .relational), (('&', '&'), .logical), (('|', '|'), .logical)]

/-- The tokens of one character that is no part of a longer one. -/
def punctuation : List (Char × TokenKind) := [
  ('+', .arithmetic), ('-', .arithmetic), ('*', .arithmetic), ('/', .arithmetic),
  ('%', .arithmetic), ('<', .relational), ('>', .relational), ('!', .logical), ('=', .assign),
  ('(', .openParenthesis), (')', .closeParenthesis), ('{', .openBrace), ('}', .closeBrace),
  ('[', .openBracket), (']', .closeBracket), (';', .semicolon), (',', .comma), ('.', .dot)]

/-- The character and the first one behind it make up no operator together. -/
def Unpaired (c : Char) (rest : List Char) : Prop :=
  ∀ second ∈ rest.head?, ∀ kind, ((c, second), kind) ∉ operatorPairs

/-! ## All classes -/

/-- The characters `raw` make up a token of the given kind and lexeme where `rest` follows them.
The text of a literal that has no end is its own lexeme. -/
inductive Munch : List Char → List Char → TokenKind → String → Prop where
  | endOfInput : Munch [] [] .endOfInput Token.endLexeme
  | word {c : Char} {run rest : List Char} {kind : TokenKind}
      (begins : Text.isAlphabetic c = true ∨ c = '_')
      (longest : LongestRun (fun c => Text.isAlphanumeric c || c = '_') run rest)
      (spelling : WordKind (c :: run) kind) :
      Munch (c :: run) rest kind (String.ofList (c :: run))
  | number {c : Char} {run rest : List Char} {kind : TokenKind} (begins : Spelling.AsciiDigit c)
      (longest : LongestRun (fun c => c.isDigit || c ∈ ['.', 'e', 'E', '+', '-']) run rest)
      (spelling : NumberKind (c :: run) kind) :
      Munch (c :: run) rest kind (String.ofList (c :: run))
  | literal {body value rest : List Char} (quoted : Quoted body value) :
      Munch ('"' :: (body ++ ['"'])) rest .string (String.ofList value)
  | unterminated {raw body value : List Char} (quoted : Quoted body value)
      (ends : raw = '"' :: body ∨ raw = '"' :: (body ++ ['\\'])) :
      Munch raw [] (.fault .unterminatedString) (String.ofList raw)
  | invalidEscape {c : Char} {body value rest : List Char} (quoted : Quoted body value)
      (noEscape : ∀ denoted, ¬ Escape c denoted) :
      Munch ('"' :: (body ++ ['\\', c])) rest (.fault (.invalidEscape c))
        (String.ofList ('"' :: (body ++ ['\\', c])))
  | pair {first second : Char} {rest : List Char} {kind : TokenKind}
      (listed : ((first, second), kind) ∈ operatorPairs) :
      Munch [first, second] rest kind (String.ofList [first, second])
  | single {c : Char} {rest : List Char} {kind : TokenKind} (listed : (c, kind) ∈ punctuation)
      (unpaired : Unpaired c rest) : Munch [c] rest kind (String.ofList [c])
  | unexpected {c : Char} {rest : List Char}
      (noWord : ¬ (Text.isAlphabetic c = true ∨ c = '_')) (noNumber : ¬ Spelling.AsciiDigit c)
      (noLiteral : c ≠ '"') (unlisted : ∀ kind, (c, kind) ∉ punctuation)
      (unpaired : Unpaired c rest) :
      Munch [c] rest (.fault (.unexpectedCharacter c)) (String.ofList [c])

namespace Munch

variable {raw rest : List Char} {kind : TokenKind} {lexeme : String}

/-- Every token but the last one of a text is read from at least one character. -/
theorem raw_ne_nil (munch : Munch raw rest kind lexeme) (notLast : kind ≠ .endOfInput) :
    raw ≠ [] := by
  cases munch with
  | endOfInput => exact absurd rfl notLast
  | unterminated quoted ends => rcases ends with rfl | rfl <;> exact List.cons_ne_nil _ _
  | _ => exact List.cons_ne_nil _ _

/-- Only a string literal has another lexeme than the characters it was read from. -/
theorem lexeme_eq (munch : Munch raw rest kind lexeme) (notLast : kind ≠ .endOfInput)
    (notLiteral : kind ≠ .string) : lexeme = String.ofList raw := by
  cases munch with
  | endOfInput => exact absurd rfl notLast
  | literal quoted => exact absurd rfl notLiteral
  | _ => rfl

/-- Where the stream ends, only an invalid escape leaves characters unread. -/
theorem rest_eq_nil (munch : Munch raw rest kind lexeme) (ends : kind.endsStream = true)
    (escapesValid : ∀ c, kind ≠ .fault (.invalidEscape c)) : rest = [] := by
  cases munch with
  | endOfInput => rfl
  | unterminated => rfl
  | invalidEscape => exact absurd rfl (escapesValid _)
  | word begins longest spelling => cases spelling <;> cases ends
  | number begins longest spelling => cases spelling <;> cases ends
  | literal => cases ends
  | unexpected => cases ends
  | pair listed =>
      have table : ∀ entry ∈ operatorPairs, entry.2.endsStream = false := by decide
      exact absurd ends (Bool.eq_false_iff.mp (table _ listed))
  | single listed =>
      have table : ∀ entry ∈ punctuation, entry.2.endsStream = false := by decide
      exact absurd ends (Bool.eq_false_iff.mp (table _ listed))

end Munch

namespace Reading

/-! ## Tables -/

theorem beginsWord_iff {c : Char} :
    beginsWord c = true ↔ (Text.isAlphabetic c = true ∨ c = '_') := by
  simp only [beginsWord, Bool.or_eq_true, decide_eq_true_eq]

/-- The alphabetic code points begin with the capital letters. -/
theorem isAlphabetic_of_lt {c : Char} (small : c.toNat < 0x41) : Text.isAlphabetic c = false := by
  have first : ∃ later, Text.basicAlphabetic ++ Text.supplementaryAlphabetic =
      ⟨0x41, 0x5A⟩ :: later := ⟨_, rfl⟩
  rcases first with ⟨later, listed⟩
  simp only [Text.isAlphabetic, listed, Text.Interval.covers, if_pos small]

theorem beginsWord_of_digit {c : Char} (digit : Spelling.AsciiDigit c) : beginsWord c = false := by
  have small : c.toNat < 0x41 := by
    have last : c.toNat ≤ '9'.toNat := digit.2
    exact Nat.lt_of_le_of_lt last (by decide)
  have notUnderscore : c ≠ '_' := by
    rintro rfl
    exact absurd small (by decide)
  simp only [beginsWord, isAlphabetic_of_lt small, decide_eq_false notUnderscore, Bool.or_self]

theorem pairKind?_eq_some_iff {first second : Char} {kind : TokenKind} :
    pairKind? first second = some kind ↔ ((first, second), kind) ∈ operatorPairs := by
  constructor
  · intro found
    unfold pairKind? at found
    split at found <;> cases found <;> decide
  · intro listed
    have table : ∀ entry ∈ operatorPairs, pairKind? entry.1.1 entry.1.2 = some entry.2 := by decide
    exact table _ listed

theorem unpaired_cons_iff {first second : Char} {rest : List Char} :
    Unpaired first (second :: rest) ↔ pairKind? first second = none := by
  constructor
  · intro unpaired
    cases found : pairKind? first second with
    | none => rfl
    | some kind => exact absurd (pairKind?_eq_some_iff.mp found) (unpaired second rfl kind)
  · intro missing next isNext kind listed
    cases Option.mem_some_iff.mp isNext
    rw [pairKind?_eq_some_iff.mpr listed] at missing
    cases missing

theorem pair_entry {first second : Char} {kind : TokenKind}
    (listed : ((first, second), kind) ∈ operatorPairs) :
    beginsWord first = false ∧ first.isDigit = false ∧ first ≠ '"' := by
  have table : ∀ entry ∈ operatorPairs, beginsWord entry.1.1 = false ∧
      entry.1.1.isDigit = false ∧ entry.1.1 ≠ '"' := by decide
  exact table _ listed

theorem punctuation_entry {c : Char} {kind : TokenKind} (listed : (c, kind) ∈ punctuation) :
    beginsWord c = false ∧ c.isDigit = false ∧ c ≠ '"' ∧ singleKind c = kind := by
  have table : ∀ entry ∈ punctuation, beginsWord entry.1 = false ∧ entry.1.isDigit = false ∧
      entry.1 ≠ '"' ∧ singleKind entry.1 = entry.2 := by decide
  exact table _ listed

theorem singleKind_listed (c : Char) :
    (c, singleKind c) ∈ punctuation ∨ singleKind c = .fault (.unexpectedCharacter c) := by
  unfold singleKind
  split <;> first | exact Or.inr rfl | exact Or.inl (by decide)

theorem singleKind_unlisted {c : Char} (unlisted : ∀ kind, (c, kind) ∉ punctuation) :
    singleKind c = .fault (.unexpectedCharacter c) := by
  rcases singleKind_listed c with listed | unexpected
  · exact absurd listed (unlisted _)
  · exact unexpected

/-! ## Kinds -/

/-- Reserved words are spelt like names, so it does not matter what is asked first. -/
theorem isName_of_reserved {word : List Char}
    (reserved : String.ofList word ∈ Spelling.keywords ++ Spelling.truthValues) :
    Spelling.isName word = true := by
  have table : ∀ text ∈ Spelling.keywords ++ Spelling.truthValues,
      Spelling.isName text.toList = true := by decide
  have spelt := table _ reserved
  rwa [String.toList_ofList] at spelt

theorem wordKind_of_spelling {word : List Char} {kind : TokenKind}
    (spelling : WordKind word kind) : wordKind word = kind := by
  unfold wordKind
  cases spelling with
  | keyword reserved =>
      have spelt := isName_of_reserved (List.mem_append_left _ reserved)
      simp only [spelt, Bool.true_eq_false, if_false, if_pos reserved]
  | truthValue notKeyword reserved =>
      have spelt := isName_of_reserved (List.mem_append_right _ reserved)
      simp only [spelt, Bool.true_eq_false, if_false, if_neg notKeyword, if_pos reserved]
  | name notKeyword notTruthValue spelt =>
      simp only [Spelling.isName_iff.mpr spelt, Bool.true_eq_false, if_false, if_neg notKeyword,
        if_neg notTruthValue]
  | malformed notKeyword notTruthValue misspelt =>
      have notName := Bool.eq_false_iff.mpr (mt Spelling.isName_iff.mp misspelt)
      simp only [notName, if_true]

theorem spelling_wordKind (word : List Char) : WordKind word (wordKind word) := by
  by_cases keyword : String.ofList word ∈ Spelling.keywords
  · rw [wordKind_of_spelling (.keyword keyword)]
    exact .keyword keyword
  by_cases truthValue : String.ofList word ∈ Spelling.truthValues
  · rw [wordKind_of_spelling (.truthValue keyword truthValue)]
    exact .truthValue keyword truthValue
  by_cases spelt : Spelling.MatchesName word
  · rw [wordKind_of_spelling (.name keyword truthValue spelt)]
    exact .name keyword truthValue spelt
  · rw [wordKind_of_spelling (.malformed keyword truthValue spelt)]
    exact .malformed keyword truthValue spelt

theorem numberKind_of_spelling {run : List Char} {kind : TokenKind}
    (spelling : NumberKind run kind) : numberKind run = kind := by
  unfold numberKind
  cases spelling with
  | number spelt => rw [if_pos spelt]
  | malformed misspelt => rw [if_neg (Bool.eq_false_iff.mp misspelt)]

theorem spelling_numberKind (run : List Char) : NumberKind run (numberKind run) := by
  unfold numberKind
  by_cases spelt : Spelling.isNumber run = true
  · rw [if_pos spelt]
    exact .number spelt
  · rw [if_neg spelt]
    exact .malformed (Bool.eq_false_iff.mpr spelt)

theorem continuesNumber_eq :
    continuesNumber = fun c => c.isDigit || c ∈ ['.', 'e', 'E', '+', '-'] := by
  funext c
  simp only [continuesNumber, List.mem_cons, List.not_mem_nil, or_false, Bool.decide_or,
    Bool.or_assoc]

/-! ## Reading what the classes describe -/

/-- A character that begins neither a word nor a number nor a literal is read as a symbol. -/
theorem first_symbol {c : Char} {rest : List Char} (noWord : beginsWord c = false)
    (noDigit : c.isDigit = false) (noQuote : c ≠ '"') : first (c :: rest) = symbol c rest := by
  simp only [first, noWord, noDigit, if_neg noQuote, Bool.false_eq_true, if_false]

theorem first_quote (rest : List Char) : first ('"' :: rest) = literal rest := by
  have noWord : beginsWord '"' = false := by decide
  have noDigit : ('"').isDigit = false := by decide
  simp only [first, noWord, noDigit, Bool.false_eq_true, if_false, if_true]

theorem symbol_unpaired {c : Char} {rest : List Char} (unpaired : Unpaired c rest) :
    symbol c rest = single c rest := by
  cases rest with
  | nil => rfl
  | cons second later => simp only [symbol, unpaired_cons_iff.mp unpaired]

/-- Where a class describes the front of a text, this is what is read. -/
theorem first_of_munch {raw rest : List Char} {kind : TokenKind} {lexeme : String}
    (munch : Munch raw rest kind lexeme) : first (raw ++ rest) = ⟨kind, lexeme, raw, rest⟩ := by
  cases munch with
  | endOfInput => rfl
  | word begins longest spelling =>
      change LongestRun continuesWord _ rest at longest
      simp only [List.cons_append, first, beginsWord_iff.mpr begins, if_true, word,
        longest.takeWhile_append, longest.dropWhile_append, wordKind_of_spelling spelling]
  | number begins longest spelling =>
      rw [← continuesNumber_eq] at longest
      simp only [List.cons_append, first, beginsWord_of_digit begins, Bool.false_eq_true, if_false,
        Spelling.isDigit_iff.mpr begins, if_true, number, longest.takeWhile_append,
        longest.dropWhile_append, numberKind_of_spelling spelling]
  | literal quoted =>
      simp only [List.cons_append, List.append_assoc, List.nil_append, first_quote, literal,
        LiteralBody.read_quoted quoted, LiteralBody.read, List.append_nil]
  | unterminated quoted ends =>
      rcases ends with rfl | rfl
      · have nothing := LiteralBody.read_quoted quoted []
        rw [List.append_nil] at nothing
        simp only [List.append_nil, first_quote, literal, nothing, LiteralBody.read]
      · simp only [List.append_nil, first_quote, literal, LiteralBody.read_quoted quoted,
          LiteralBody.read]
  | invalidEscape quoted noEscape =>
      simp only [List.cons_append, List.append_assoc, List.nil_append, first_quote, literal,
        LiteralBody.read_quoted quoted, LiteralBody.read,
        LiteralBody.unescape?_eq_none_iff.mpr noEscape]
  | pair listed =>
      rcases pair_entry listed with ⟨noWord, noDigit, noQuote⟩
      simp only [List.cons_append, List.nil_append, first_symbol noWord noDigit noQuote, symbol,
        pairKind?_eq_some_iff.mpr listed]
  | single listed unpaired =>
      rcases punctuation_entry listed with ⟨noWord, noDigit, noQuote, isKind⟩
      rw [List.singleton_append, first_symbol noWord noDigit noQuote, symbol_unpaired unpaired,
        single, isKind]
      rfl
  | unexpected noWord noNumber noLiteral unlisted unpaired =>
      have noDigit := Bool.eq_false_iff.mpr (mt Spelling.isDigit_iff.mp noNumber)
      have noLetter := Bool.eq_false_iff.mpr (mt beginsWord_iff.mp noWord)
      rw [List.singleton_append, first_symbol noLetter noDigit noLiteral,
        symbol_unpaired unpaired, single, singleKind_unlisted unlisted]
      rfl

/-! ## Every text begins with a token -/

/-- Behind an opening quote stands a literal or one of the two faults of a literal. -/
theorem exists_munch_literal (chars : List Char) : ∃ raw rest kind lexeme,
    '"' :: chars = raw ++ rest ∧ Munch raw rest kind lexeme := by
  rcases LiteralBody.exists_quoted chars with
    ⟨body, value, quoted, ⟨rest, rfl⟩ | ⟨c, rest, rfl, noEscape⟩ | rfl | rfl⟩
  · refine ⟨_, rest, _, _, ?_, .literal quoted⟩
    simp only [List.cons_append, List.append_assoc, List.nil_append]
  · refine ⟨_, rest, _, _, ?_, .invalidEscape quoted noEscape⟩
    simp only [List.cons_append, List.append_assoc, List.nil_append]
  · exact ⟨_, [], _, _, (List.append_nil _).symm, .unterminated quoted (Or.inl rfl)⟩
  · exact ⟨_, [], _, _, (List.append_nil _).symm, .unterminated quoted (Or.inr rfl)⟩

/-- A character that begins no token of another class is an operator, punctuation or a fault, if
not together with the character behind it then alone. -/
theorem exists_munch_symbol {c : Char} (noWord : ¬ (Text.isAlphabetic c = true ∨ c = '_'))
    (noNumber : ¬ Spelling.AsciiDigit c) (noLiteral : c ≠ '"') (rest : List Char) :
    ∃ raw rest' kind lexeme, c :: rest = raw ++ rest' ∧ Munch raw rest' kind lexeme := by
  by_cases unpaired : Unpaired c rest
  · by_cases listed : ∃ kind, (c, kind) ∈ punctuation
    · rcases listed with ⟨kind, listed⟩
      exact ⟨[c], rest, kind, _, rfl, .single listed unpaired⟩
    · have unlisted : ∀ kind, (c, kind) ∉ punctuation := fun kind found => listed ⟨kind, found⟩
      exact ⟨[c], rest, _, _, rfl, .unexpected noWord noNumber noLiteral unlisted unpaired⟩
  · cases rest with
    | nil =>
        have alone : Unpaired c [] := by
          intro second first
          cases first
        exact absurd alone unpaired
    | cons second later =>
        cases found : pairKind? c second with
        | none => exact absurd (unpaired_cons_iff.mpr found) unpaired
        | some kind =>
            exact ⟨[c, second], later, kind, _, rfl, .pair (pairKind?_eq_some_iff.mp found)⟩

/-- Every text is a token and something that follows it. -/
theorem exists_munch (chars : List Char) :
    ∃ raw rest kind lexeme, chars = raw ++ rest ∧ Munch raw rest kind lexeme := by
  cases chars with
  | nil => exact ⟨[], [], _, _, rfl, .endOfInput⟩
  | cons c rest =>
      by_cases word : Text.isAlphabetic c = true ∨ c = '_'
      · refine ⟨c :: rest.takeWhile continuesWord, rest.dropWhile continuesWord, _, _, ?_,
          .word word (LongestRun.takeWhile_dropWhile _ _) (spelling_wordKind _)⟩
        rw [List.cons_append, List.takeWhile_append_dropWhile]
      by_cases number : Spelling.AsciiDigit c
      · refine ⟨c :: rest.takeWhile continuesNumber, rest.dropWhile continuesNumber, _, _, ?_,
          .number number ?_ (spelling_numberKind _)⟩
        · rw [List.cons_append, List.takeWhile_append_dropWhile]
        · rw [← continuesNumber_eq]
          exact LongestRun.takeWhile_dropWhile _ _
      by_cases literal : c = '"'
      · subst literal
        exact exists_munch_literal rest
      · exact exists_munch_symbol word number literal rest

/-- What is read from the front of a text is determined by the classes. -/
theorem first_eq_iff {chars raw rest : List Char} {kind : TokenKind} {lexeme : String} :
    first chars = ⟨kind, lexeme, raw, rest⟩ ↔
      chars = raw ++ rest ∧ Munch raw rest kind lexeme := by
  constructor
  · intro reads
    rcases exists_munch chars with ⟨raw', rest', kind', lexeme', rfl, munch⟩
    rw [first_of_munch munch] at reads
    cases reads
    exact ⟨rfl, munch⟩
  · rintro ⟨rfl, munch⟩
    exact first_of_munch munch

end Reading
end ExpressionChecker

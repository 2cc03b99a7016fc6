import ExpressionChecker.Proofs.Token.Tiling
import ExpressionChecker.Report
import Mathlib.Data.List.Forall2

namespace ExpressionChecker

/-!
# What messages show of the source

A message quotes the text that it is about, and is shown in plain letters.  Letters only lose their
accents by this, so a malformed name is shown with as many letters as it has.  The marks that are
dropped belong to no word and to no number.  They make up tokens of their own, and the message about
such a token quotes nothing at all.
-/

namespace PlainLetters

/-- The characters that no message shows: the replacement character, and the accent marks. -/
def marks : List Char := ['\uFFFD', '\u00B4', '\x60', '^']

/-- The letters that are shown instead of the same letters with an accent. -/
def foldings : List (Char × List Char) := [
  ('a', ['ã', 'á', 'à', 'â']), ('A', ['Ã', 'Á', 'À', 'Â']), ('e', ['é', 'ê']), ('E', ['É', 'Ê']),
  ('i', ['í']), ('I', ['Í']), ('o', ['ó', 'ô', 'õ']), ('O', ['Ó', 'Ô', 'Õ']), ('u', ['ú']),
  ('U', ['Ú']), ('c', ['ç']), ('C', ['Ç'])]

/-- The character has an accent that it loses. -/
def IsAccented (c : Char) : Prop :=
  ∃ folding ∈ foldings, c ∈ folding.2

/-- A character is shown as the letter without its accent, or else as itself. -/
def ShownAs (c shown : Char) : Prop :=
  (∃ folding ∈ foldings, c ∈ folding.2 ∧ shown = folding.1) ∨ (¬ IsAccented c ∧ shown = c)

theorem shown?_plain {c : Char} (unmarked : c ∉ marks) (plain : ¬ IsAccented c) :
    shown? c = some c := by
  unfold IsAccented at plain
  unfold shown?
  split <;> first | rfl | exact absurd (by decide) unmarked | exact absurd (by decide) plain

theorem shown?_mark {mark : Char} (marked : mark ∈ marks) : shown? mark = none := by
  have table : marks.all (fun mark => shown? mark = none) = true := by decide
  exact of_decide_eq_true (List.all_eq_true.mp table mark marked)

theorem shown?_accented {folding : Char × List Char} (listed : folding ∈ foldings) {c : Char}
    (isOne : c ∈ folding.2) : c ∉ marks ∧ shown? c = some folding.1 := by
  have table : foldings.all (fun folding => folding.2.all fun accented =>
      accented ∉ marks ∧ shown? accented = some folding.1) = true := by decide
  exact of_decide_eq_true (List.all_eq_true.mp (List.all_eq_true.mp table folding listed) c isOne)

/-- Only the marks are dropped, and what is shown for another character is what it is shown as. -/
theorem shown?_eq_some_iff {c shown : Char} :
    shown? c = some shown ↔ c ∉ marks ∧ ShownAs c shown := by
  by_cases marked : c ∈ marks
  · rw [shown?_mark marked]
    constructor
    · intro impossible
      cases impossible
    · rintro ⟨unmarked, -⟩
      exact absurd marked unmarked
  by_cases accented : IsAccented c
  · constructor
    · intro isShown
      rcases accented with ⟨folding, listed, isOne⟩
      rw [(shown?_accented listed isOne).2] at isShown
      exact ⟨marked, .inl ⟨folding, listed, isOne, (Option.some.inj isShown).symm⟩⟩
    · rintro ⟨-, ⟨folding, listed, isOne, rfl⟩ | ⟨plain, -⟩⟩
      · exact (shown?_accented listed isOne).2
      · exact absurd accented plain
  · rw [shown?_plain marked accented]
    constructor
    · intro isShown
      exact ⟨marked, .inr ⟨accented, (Option.some.inj isShown).symm⟩⟩
    · rintro ⟨-, ⟨folding, listed, isOne, -⟩ | ⟨-, rfl⟩⟩
      · exact absurd ⟨folding, listed, isOne⟩ accented
      · rfl

theorem toList_ofText (message : String) :
    (ofText message).toList = message.toList.filterMap shown? :=
  String.toList_ofList

/-- Where no mark stands, every character is shown. -/
theorem filterMap_shown? {chars : List Char} (unmarked : ∀ c ∈ chars, c ∉ marks) :
    List.Forall₂ ShownAs chars (chars.filterMap shown?) := by
  induction chars with
  | nil => exact .nil
  | cons c later inductionHypothesis =>
      rcases List.forall_mem_cons.mp unmarked with ⟨here, further⟩
      cases isShown : shown? c with
      | none =>
          have plain : ¬ IsAccented c := fun ⟨folding, listed, isOne⟩ => by
            rw [shown?_eq_some_iff.mpr ⟨here, .inl ⟨folding, listed, isOne, rfl⟩⟩] at isShown
            cases isShown
          rw [shown?_plain here plain] at isShown
          cases isShown
      | some shown =>
          rw [List.filterMap_cons_some isShown]
          exact .cons (shown?_eq_some_iff.mp isShown).2 (inductionHypothesis further)

end PlainLetters

/-! ## Words and numbers -/

namespace Reading

/-- The character can be a part of a word or of a number. -/
def IsPartOfRun (c : Char) : Prop :=
  continuesWord c = true ∨ continuesNumber c = true

theorem isPartOfRun_of_word {c : Char} {run rest : List Char}
    (begins : Text.isAlphabetic c = true ∨ c = '_')
    (longest : LongestRun continuesWord run rest) : ∀ c' ∈ c :: run, IsPartOfRun c' := by
  refine List.forall_mem_cons.mpr ⟨.inl ?_, fun c' inRun => .inl (longest.within c' inRun)⟩
  rcases begins with letter | rfl
  · simp only [continuesWord, Text.isAlphanumeric, letter, Bool.true_or]
  · decide

theorem isPartOfRun_of_number {c : Char} {run rest : List Char} (begins : Spelling.AsciiDigit c)
    (longest : LongestRun (fun c => c.isDigit || c ∈ ['.', 'e', 'E', '+', '-']) run rest) :
    ∀ c' ∈ c :: run, IsPartOfRun c' := by
  rw [← continuesNumber_eq] at longest
  refine List.forall_mem_cons.mpr ⟨.inr ?_, fun c' inRun => .inr (longest.within c' inRun)⟩
  exact Spelling.continuesNumber_of_digit (Spelling.isDigit_iff.mpr begins)

/-- The marks belong to no word and to no number. -/
theorem not_isPartOfRun_of_mark {mark : Char} (marked : mark ∈ PlainLetters.marks) :
    ¬ IsPartOfRun mark := by
  have table : PlainLetters.marks.all (fun mark =>
      ¬ (continuesWord mark = true ∨ continuesNumber mark = true)) = true := by decide +kernel
  have neither := of_decide_eq_true (List.all_eq_true.mp table mark marked)
  exact neither

end Reading

/-! ## What errors quote -/

namespace LexicalError

/-- The words in front of what the message of an error quotes. -/
def wording : LexicalError → String
  | unexpectedCharacter _ => "Unexpected character '"
  | malformedNumber _ => "Malformed number '"
  | malformedName _ => "Malformed identifier '"
  | unterminatedString => "Unterminated string literal"
  | invalidEscape _ => "Invalid escape sequence '\\"

/-- The characters that the message of an error quotes. -/
def quoted : LexicalError → List Char
  | unexpectedCharacter found | invalidEscape found => [found]
  | malformedNumber text | malformedName text => text.toList
  | unterminatedString => []

/-- What an error quotes of the text that its token was read from: the character behind the backslash
that ends it, if the literal broke off at an escape, and all of it otherwise. -/
def QuotesFrom (error : LexicalError) (raw : List Char) : Prop :=
  match error with
  | invalidEscape found => ∃ front, raw = front ++ ['\\', found]
  | _ => raw = error.quoted

theorem toList_message {error : LexicalError} (quotes : error ≠ .unterminatedString) :
    error.message.toList = error.wording.toList ++ (error.quoted ++ ['\'']) := by
  have built {text : String} (isQuoted : text.toList = error.quoted) :
      (error.wording ++ text ++ "'").toList =
        error.wording.toList ++ (error.quoted ++ ['\'']) := by
    rw [String.toList_append, String.toList_append, List.append_assoc, isQuoted]
    rfl
  cases error with
  | unexpectedCharacter found => exact built (String.toList_singleton found)
  | malformedNumber text => exact built rfl
  | malformedName text => exact built rfl
  | unterminatedString => exact absurd rfl quotes
  | invalidEscape found => exact built (String.toList_singleton found)

/-- A message shows its own words as they are. -/
theorem filterMap_wording (error : LexicalError) :
    error.wording.toList.filterMap PlainLetters.shown? = error.wording.toList := by
  have words : error.wording ∈ ["Unexpected character '", "Malformed number '",
      "Malformed identifier '", "Unterminated string literal", "Invalid escape sequence '\\"] := by
    cases error <;> simp [wording]
  generalize error.wording = wording at words
  revert wording
  decide

theorem toList_shown {error : LexicalError} (quotes : error ≠ .unterminatedString) :
    (PlainLetters.ofText error.message).toList =
      error.wording.toList ++ (error.quoted.filterMap PlainLetters.shown? ++ ['\'']) := by
  rw [PlainLetters.toList_ofText, toList_message quotes, List.filterMap_append,
    List.filterMap_append, filterMap_wording]
  rfl

/-- A fault is about the text that its token was read from: about a single character, or about a
word or a number. -/
theorem quotes_of_munch {error : LexicalError} {raw rest : List Char} {lexeme : String}
    (munch : Munch raw rest (.fault error) lexeme) (quotes : error ≠ .unterminatedString) :
    error.QuotesFrom raw ∧
      ((∃ found, error = .unexpectedCharacter found ∨ error = .invalidEscape found) ∨
        error.quoted ≠ [] ∧ ∀ c ∈ error.quoted, Reading.IsPartOfRun c) := by
  cases munch with
  | word begins longest spelling =>
      cases spelling
      refine ⟨String.toList_ofList.symm, .inr ?_⟩
      rw [quoted, String.toList_ofList]
      exact ⟨List.cons_ne_nil _ _, Reading.isPartOfRun_of_word begins longest⟩
  | number begins longest spelling =>
      cases spelling
      refine ⟨String.toList_ofList.symm, .inr ?_⟩
      rw [quoted, String.toList_ofList]
      exact ⟨List.cons_ne_nil _ _, Reading.isPartOfRun_of_number begins longest⟩
  | unterminated => exact absurd rfl quotes
  | @invalidEscape found body => exact ⟨⟨'"' :: body, rfl⟩, .inl ⟨_, .inr rfl⟩⟩
  | unexpected => exact ⟨rfl, .inl ⟨_, .inl rfl⟩⟩
  | pair listed =>
      have table : ∀ entry ∈ operatorPairs, entry.2.error? = none := by decide
      cases table _ listed
  | single listed =>
      have table : ∀ entry ∈ punctuation, entry.2.error? = none := by decide
      cases table _ listed

end LexicalError

/-! ## Lexical findings -/

namespace Report

/-- Every fault but a literal without an end is reported by a finding that quotes what is wrong.  Of
the quoted characters all are shown, each as itself or without its accent, unless all that is wrong is
one of the marks that messages drop. -/
theorem lexical_finding_quotes (limits : Limits) {text : String} {segment : Segment}
    (isSegment : segment ∈ Segment.ofText text) {error : LexicalError}
    (isFault : segment.token.kind = .fault error) (quotes : error ≠ .unterminatedString) :
    error.QuotesFrom segment.raw ∧ ∃ finding ∈ (ofText limits text).diagnostics, ∃ shown,
      segment.token.diagnostic? = some finding ∧ finding.code = .lexicalError ∧
      finding.position = segment.token.position ∧
      finding.message.toList = error.wording.toList ++ (shown ++ ['\'']) ∧
      (shown ≠ [] ∧ List.Forall₂ PlainLetters.ShownAs error.quoted shown ∨
        shown = [] ∧ ∃ mark ∈ PlainLetters.marks,
          error = .unexpectedCharacter mark ∨ error = .invalidEscape mark) := by
  rcases Segment.exists_fits_of_mem isSegment with ⟨rest, fits⟩
  have munch := fits.munch
  rw [isFault] at munch
  rcases error.quotes_of_munch munch quotes with ⟨fromText, about⟩
  have reported : segment.token.diagnostic? =
      some (.report .lexicalError segment.token.position error.message) := by
    rw [Token.diagnostic?, isFault]
    rfl
  have found : Diagnostic.report .lexicalError segment.token.position error.message ∈
      (ofText limits text).diagnostics :=
    List.mem_append_left _ (List.mem_filterMap.mpr
      ⟨segment.token, List.mem_map_of_mem isSegment, reported⟩)
  refine ⟨fromText, _, found, _, reported, rfl, rfl, error.toList_shown quotes, ?_⟩
  by_cases marked : ∃ mark ∈ PlainLetters.marks, mark ∈ error.quoted
  · rcases marked with ⟨mark, isMark, inQuoted⟩
    rcases about with ⟨character, single⟩ | ⟨-, continues⟩
    · have alone : error.quoted = [character] := by
        rcases single with rfl | rfl <;> rfl
      rw [alone] at inQuoted
      cases List.mem_singleton.mp inQuoted
      refine .inr ⟨?_, mark, isMark, single⟩
      rw [alone, List.filterMap_cons_none (PlainLetters.shown?_mark isMark), List.filterMap_nil]
    · exact absurd (continues mark inQuoted) (Reading.not_isPartOfRun_of_mark isMark)
  · have unmarked : ∀ c ∈ error.quoted, c ∉ PlainLetters.marks :=
      fun c inQuoted isMark => marked ⟨c, isMark, inQuoted⟩
    have present : error.quoted ≠ [] := by
      rcases about with ⟨character, rfl | rfl⟩ | ⟨present, -⟩
      · exact List.cons_ne_nil _ _
      · exact List.cons_ne_nil _ _
      · exact present
    have shown := PlainLetters.filterMap_shown? unmarked
    refine .inl ⟨fun nothing => present ?_, shown⟩
    rw [nothing] at shown
    exact List.forall₂_nil_right_iff.mp shown

/-- The letters of a misspelt word lose their accents, and none of them is lost. -/
theorem lexical_finding_quotes_accented :
    (⟨[' '], "ação_1".toList, ⟨.fault (.malformedName "ação_1"), "ação_1", ⟨1, 2⟩⟩⟩ : Segment) ∈
        Segment.ofText " ação_1^" ∧
      ∃ finding ∈ (ofText ⟨1, 1⟩ " ação_1^").diagnostics,
        finding.message = "Malformed identifier 'acao_1'" ∧ finding.position = ⟨1, 2⟩ := by
  have isSegment : (⟨[' '], "ação_1".toList,
      ⟨.fault (.malformedName "ação_1"), "ação_1", ⟨1, 2⟩⟩⟩ : Segment) ∈
        Segment.ofText " ação_1^" := by
    decide +kernel
  rcases lexical_finding_quotes ⟨1, 1⟩ isSegment rfl LexicalError.noConfusion with
    ⟨-, finding, found, shown, reported, -, position, -⟩
  refine ⟨isSegment, finding, found, ?_, position⟩
  cases reported
  decide +kernel

/-- The caret is read as an unexpected character, and the message about it does not show it. -/
theorem lexical_finding_hides_caret :
    Token.stream "^" =
        [⟨.fault (.unexpectedCharacter '^'), "^", ⟨1, 1⟩⟩, Token.endOfInput ⟨1, 2⟩] ∧
      (ofText ⟨1, 1⟩ "^").lexical.map Diagnostic.message = ["Unexpected character ''"] := by
  decide +kernel

end Report
end ExpressionChecker

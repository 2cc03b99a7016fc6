import ExpressionChecker.Proofs.Analysis.Verdict
import ExpressionChecker.Proofs.CommandLine
import ExpressionChecker.Proofs.Diagnostic.PlainLetters
import ExpressionChecker.Proofs.Grammar.Violation

namespace ExpressionChecker

/-!
# Findings of more than one line

A finding is written on one line if its message is one.  Messages quote text in several ways: the
faulty part of a token, the token that no statement has at its place, the token in front of an early
end, and names.  Names, numbers and symbols hold no line feed, and a literal is never an operand, so
nothing in front of an early end is one.  What remains are an escape of a line feed, and a literal of
several lines in the place of something else.
-/

/-! ## Line feeds in messages -/

/-- The words in front of a text add no line feed to it. -/
theorem newline_mem_behind_iff {front : String} (none : '\n' ∉ front.toList) (text : String) :
    '\n' ∈ (front ++ text).toList ↔ '\n' ∈ text.toList := by
  simp only [String.toList_append, List.mem_append, none, false_or]

/-- The words behind a text add no line feed to it either. -/
theorem newline_mem_before_iff {back : String} (none : '\n' ∉ back.toList) (text : String) :
    '\n' ∈ (text ++ back).toList ↔ '\n' ∈ text.toList := by
  simp only [String.toList_append, List.mem_append, none, or_false]

/-- A text between words that hold no line feed. -/
theorem newline_mem_between_iff {front back : String} (none : '\n' ∉ front.toList)
    (none' : '\n' ∉ back.toList) (text : String) :
    '\n' ∈ (front ++ text ++ back).toList ↔ '\n' ∈ text.toList :=
  (newline_mem_before_iff none' _).trans (newline_mem_behind_iff none text)

theorem Position.newline_not_mem_text (position : Position) : '\n' ∉ position.text.toList := by
  have line := newline_not_mem_digits position.line
  have column := newline_not_mem_digits position.column
  rw [text]
  simp only [String.toList_append, List.mem_append, not_or]
  exact ⟨⟨line, by decide⟩, column⟩

namespace PlainLetters

theorem shown?_eq_newline_iff {c : Char} : shown? c = some '\n' ↔ c = '\n' := by
  rw [shown?_eq_some_iff]
  constructor
  · rintro ⟨-, ⟨folding, listed, -, isShown⟩ | ⟨-, isShown⟩⟩
    · have letters : ∀ folding ∈ foldings, '\n' ≠ folding.1 := by decide
      exact absurd isShown (letters folding listed)
    · exact isShown.symm
  · rintro rfl
    exact ⟨by decide, .inr ⟨by unfold IsAccented; decide, rfl⟩⟩

/-- Plain letters neither add line feeds nor drop them. -/
theorem newline_mem_ofText_iff (message : String) :
    '\n' ∈ (ofText message).toList ↔ '\n' ∈ message.toList := by
  simp only [toList_ofText, List.mem_filterMap, shown?_eq_newline_iff, exists_eq_right]

end PlainLetters

/-- Neither the position in front of a message nor its code takes up a line of its own. -/
theorem Diagnostic.newline_mem_text_iff (finding : Diagnostic) :
    '\n' ∈ finding.text.toList ↔ '\n' ∈ finding.message.toList := by
  have position := finding.position.newline_not_mem_text
  have tag : '\n' ∉ finding.code.tag.toList := by
    cases finding.code <;> decide
  refine newline_mem_behind_iff ?_ finding.message
  simp only [String.toList_append, List.mem_append, not_or]
  exact ⟨⟨⟨⟨by decide, position⟩, by decide⟩, tag⟩, by decide⟩

/-! ## What is quoted of tokens -/

theorem LexicalError.newline_mem_message_iff (error : LexicalError) :
    '\n' ∈ error.message.toList ↔ '\n' ∈ error.quoted := by
  by_cases quotes : error = .unterminatedString
  · subst quotes
    decide
  · have words : '\n' ∉ error.wording.toList := by
      cases error with
      | unexpectedCharacter => exact (by decide : '\n' ∉ "Unexpected character '".toList)
      | malformedNumber => exact (by decide : '\n' ∉ "Malformed number '".toList)
      | malformedName => exact (by decide : '\n' ∉ "Malformed identifier '".toList)
      | unterminatedString => exact absurd rfl quotes
      | invalidEscape => exact (by decide : '\n' ∉ "Invalid escape sequence '\\".toList)
    have quote : '\n' ∉ ['\''] := by decide
    simp only [toList_message quotes, List.mem_append, words, quote, false_or, or_false]

/-- A line feed belongs to no word and to no number. -/
theorem Reading.not_isPartOfRun_newline : ¬ IsPartOfRun '\n' :=
  (by decide : ¬ (continuesWord '\n' = true ∨ continuesNumber '\n' = true))

/-- Faults do not quote line feeds, with the exception of an escape. -/
theorem Segment.Fits.newline_mem_quoted_iff {segment : Segment} {rest : List Char}
    (fits : segment.Fits rest) {error : LexicalError} (isFault : segment.token.kind = .fault error) :
    '\n' ∈ error.quoted ↔ error = .invalidEscape '\n' := by
  constructor
  · intro broken
    have munch := fits.munch
    rw [isFault] at munch
    have quotes : error ≠ .unterminatedString := by
      rintro rfl
      cases broken
    rcases error.quotes_of_munch munch quotes with ⟨fromText, ⟨found, rfl | rfl⟩ | ⟨-, continues⟩⟩
    · -- A line feed belongs to the layout in front of a token.
      cases List.mem_singleton.mp broken
      have whole : segment.raw = ['\n'] := fromText
      have starts := fits.starts
      rw [whole] at starts
      have notBlank := starts.notBlank '\n' rfl
      cases notBlank
    · cases List.mem_singleton.mp broken
      rfl
    · exact absurd (continues '\n' broken) Reading.not_isPartOfRun_newline
  · rintro rfl
    exact List.mem_singleton_self _

/-- Of the tokens of the language, only a literal can hold a line feed. -/
theorem Munch.kind_eq_string {raw rest : List Char} {kind : TokenKind} {lexeme : String}
    (munch : Munch raw rest kind lexeme) (valid : kind.error? = none)
    (broken : '\n' ∈ lexeme.toList) : kind = .string := by
  cases munch with
  | endOfInput =>
      have noBreak : '\n' ∉ Token.endLexeme.toList := by decide
      exact absurd broken noBreak
  | literal => rfl
  | word begins longest =>
      rw [String.toList_ofList] at broken
      exact absurd (Reading.isPartOfRun_of_word begins longest _ broken)
        Reading.not_isPartOfRun_newline
  | number begins longest =>
      rw [String.toList_ofList] at broken
      exact absurd (Reading.isPartOfRun_of_number begins longest _ broken)
        Reading.not_isPartOfRun_newline
  | pair listed =>
      rw [String.toList_ofList] at broken
      have table : ∀ entry ∈ operatorPairs, '\n' ∉ [entry.1.1, entry.1.2] := by decide
      exact absurd broken (table _ listed)
  | single listed =>
      rw [String.toList_ofList] at broken
      have table : ∀ entry ∈ punctuation, '\n' ∉ [entry.1] := by decide
      exact absurd broken (table _ listed)
  | _ => cases valid

/-! ## What is quoted by rejections -/

namespace Rejection

/-- The text that the message of a rejection quotes. -/
def quoted : Rejection → List Char
  | unexpected _ (.token _ lexeme) _ | endedAfter _ lexeme _ => lexeme.toList
  | lexical error _ => error.quoted
  | _ => []

theorem newline_not_mem_expectation (expected : Expectation) : '\n' ∉ expected.text.toList := by
  cases expected <;> decide

theorem newline_mem_message_iff (rejection : Rejection) :
    '\n' ∈ rejection.message.toList ↔ '\n' ∈ rejection.quoted := by
  cases rejection with
  | unexpected expected found position =>
      have wanted := newline_not_mem_expectation expected
      have front : '\n' ∉ ("Expected " ++ expected.text ++ ", found ").toList := by
        simp only [String.toList_append, List.mem_append, not_or]
        exact ⟨⟨by decide, wanted⟩, by decide⟩
      refine (newline_mem_behind_iff front found.text).trans ?_
      cases found with
      | nothing => exact iff_of_false (by decide) List.not_mem_nil
      | token kind lexeme =>
          have label : '\n' ∉ (kind.label ++ " '").toList := by
            simp only [String.toList_append, List.mem_append, not_or]
            exact ⟨kind.newline_not_mem_label, by decide⟩
          exact newline_mem_between_iff label (by decide) lexeme
  | endedAfter expected lexeme position =>
      have wanted := newline_not_mem_expectation expected
      have front : '\n' ∉ ("Expected " ++ expected.text ++ " after '").toList := by
        simp only [String.toList_append, List.mem_append, not_or]
        exact ⟨⟨by decide, wanted⟩, by decide⟩
      exact newline_mem_between_iff front (by decide) lexeme
  | lexical error position =>
      exact (newline_mem_behind_iff (by decide) error.message).trans error.newline_mem_message_iff
  | nestedTooDeep limit position =>
      refine (newline_mem_between_iff (by decide) (by decide) (toString limit)).trans ?_
      exact iff_of_false (newline_not_mem_digits limit) List.not_mem_nil
  | tooManyOperators limit position =>
      refine (newline_mem_between_iff (by decide) (by decide) (toString limit)).trans ?_
      exact iff_of_false (newline_not_mem_digits limit) List.not_mem_nil

theorem newline_mem_diagnostic_iff (rejection : Rejection) :
    '\n' ∈ rejection.diagnostic.message.toList ↔ '\n' ∈ rejection.quoted := by
  have line := newline_not_mem_digits rejection.position.line
  have column := newline_not_mem_digits rejection.position.column
  refine (PlainLetters.newline_mem_ofText_iff _).trans ?_
  refine (newline_mem_behind_iff ?_ rejection.message).trans rejection.newline_mem_message_iff
  simp only [String.toList_append, List.mem_append, not_or]
  exact ⟨⟨⟨⟨by decide, line⟩, by decide⟩, column⟩, by decide⟩

end Rejection

/-! ## What rejections are about -/

/-- The kinds of tokens that a statement can hold in front of its end. -/
def TokenKind.inStatement : List TokenKind :=
  [name, number, arithmetic, openParenthesis, closeParenthesis, assign]

namespace Assembly

/-- Every token that passes is one that a statement can hold. -/
theorem Leads.inStatement {limits : Limits} {first last : Assembly} {tokens : List Token}
    (leads : Leads limits first tokens last) :
    ∀ token ∈ tokens, token.kind ∈ TokenKind.inStatement := by
  induction leads with
  | done assembly => exact fun _ impossible => absurd impossible List.not_mem_nil
  | more passes _ inductionHypothesis =>
      refine List.forall_mem_cons.mpr ⟨?_, inductionHypothesis⟩
      rcases read_eq_ongoing passes with ⟨kind, _⟩ | ⟨kind, _⟩ | ⟨kind, _⟩ | ⟨kind, _⟩ | ⟨kind, _⟩ <;>
        rw [kind] <;> decide

theorem Begins.inStatement {tokens opening value : List Token} {first : Assembly}
    (begins : Begins tokens opening first value) :
    ∀ token ∈ opening, token.kind ∈ TokenKind.inStatement := by
  cases begins with
  | expression => exact fun _ impossible => absurd impossible List.not_mem_nil
  | assignment named assigns =>
      refine List.forall_mem_cons.mpr ⟨?_, List.forall_mem_singleton.mpr ?_⟩
      · rw [named]
        decide
      · rw [assigns]
        decide

end Assembly

/-- What a rejection can quote of the tokens that are rejected: the token that no statement has at its
place, or the one in front of an early end. -/
inductive Rejection.QuotesFrom (tokens : List Token) : Rejection → Prop where
  | fault {token : Token} {error : LexicalError} (isToken : token ∈ tokens)
      (isFault : token.kind = .fault error) : QuotesFrom tokens (.lexical error token.position)
  | misplaced {token : Token} {expected : Expectation} (isToken : token ∈ tokens)
      (valid : token.kind.error? = none) :
      QuotesFrom tokens (.unexpected expected (.token token.kind token.lexeme) token.position)
  | ended {token : Token} {expected : Expectation} (isToken : token ∈ tokens)
      (passed : token.kind ∈ TokenKind.inStatement) :
      QuotesFrom tokens (.endedAfter expected token.lexeme token.position)
  | nothing {rejection : Rejection} (empty : rejection.quoted = []) : QuotesFrom tokens rejection

namespace Assembly.Follows

variable {assembly : Assembly} {before tokens : List Token}

theorem refuseEnd_quotesFrom (follows : assembly.Follows before)
    (isFront : ∀ token ∈ before, token ∈ tokens ∧ token.kind ∈ TokenKind.inStatement)
    (expected : Expectation) (position : Position) :
    (assembly.refuseEnd expected position).QuotesFrom tokens := by
  rw [refuseEnd, follows.previous]
  cases isLast : before.getLast? with
  | none => exact .nothing rfl
  | some last =>
      rcases isFront last (List.mem_of_getLast? isLast) with ⟨isToken, passed⟩
      exact .ended isToken passed

theorem refuse_quotesFrom (follows : assembly.Follows before)
    (isFront : ∀ token ∈ before, token ∈ tokens ∧ token.kind ∈ TokenKind.inStatement)
    {token : Token} (isToken : token ∈ tokens) (expected : Expectation) :
    (assembly.refuse expected token).QuotesFrom tokens := by
  unfold refuse
  split
  · rename_i error isFault
    exact .fault isToken isFault
  · exact follows.refuseEnd_quotesFrom isFront expected token.position
  · rename_i noFault _
    refine .misplaced isToken ?_
    cases kind : token.kind with
    | fault error => exact absurd kind (noFault error)
    | _ => rfl

end Assembly.Follows

/-- Whatever is rejected, nothing is quoted but a token of the text. -/
theorem Tree.quotesFrom_of_ofTokens {limits : Limits} {tokens : List Token} {rejection : Rejection}
    (rejected : ofTokens limits tokens = .error rejection) : rejection.QuotesFrom tokens := by
  rcases Assembly.exists_begins tokens with ⟨opening, first, value, begins⟩
  rcases begins.follows with ⟨followsFirst, within, keepFirst⟩
  have isFront {read unread : List Token} {last : Assembly} (split : value = read ++ unread)
      (leads : Assembly.Leads limits first read last) :
      ∀ token ∈ opening ++ read, token ∈ tokens ∧ token.kind ∈ TokenKind.inStatement := by
    intro token listed
    have whole := begins.append_eq
    rw [split, ← List.append_assoc] at whole
    refine ⟨whole ▸ List.mem_append_left unread listed, ?_⟩
    rcases List.mem_append.mp listed with inOpening | wasRead
    · exact begins.inStatement token inOpening
    · exact leads.inStatement token wasRead
  rcases Assembly.exists_leads_of_readAll (begins.ofTokens_eq_error_iff.mp rejected) with
    ⟨last, leads, unfinished⟩ | ⟨before, token, later, last, split, leads, refused⟩
  · have follows := (leads.follows followsFirst within keepFirst).1
    have front := isFront (List.append_nil value).symm leads
    unfold Assembly.finish at unfinished
    split at unfinished <;> cases unfinished <;> exact follows.refuseEnd_quotesFrom front _ _
  · have follows := (leads.follows followsFirst within keepFirst).1
    have isToken : token ∈ tokens := by
      rw [begins.append_eq, split]
      exact List.mem_append_right _ (List.mem_append_right _ List.mem_cons_self)
    cases Assembly.refuses_of_read refused with
    | misplaced => exact follows.refuse_quotesFrom (isFront split leads) isToken _
    | operator => exact .nothing rfl
    | nesting => exact .nothing rfl

/-! ## What analyses quote -/

namespace Tree

/-- A finding about a name is one line. -/
theorem newline_not_mem_report {front back name : String} (none : '\n' ∉ front.toList)
    (none' : '\n' ∉ back.toList) (free : Spelling.IsFreeName name) (code : DiagnosticCode)
    (position : Position) :
    '\n' ∉ (Diagnostic.report code position (front ++ name ++ back)).message.toList := by
  intro broken
  have inMessage := (PlainLetters.newline_mem_ofText_iff _).mp broken
  have inName := (newline_mem_between_iff none none' name).mp inMessage
  have notBlank := Spelling.not_isBlank_of_isName free.spelt '\n' inName
  cases notBlank

/-- Every node of an expression is one itself. -/
theorem IsExpression.of_mem_postorder {tree : Tree} (isExpression : tree.IsExpression) :
    ∀ node ∈ tree.postorder, node.IsExpression := by
  induction isExpression with
  | identifier free => exact List.forall_mem_singleton.mpr (.identifier free)
  | number spelt => exact List.forall_mem_singleton.mpr (.number spelt)
  | binary joins isLeft isRight ofLeft ofRight =>
      rw [postorder, List.forall_mem_append, List.forall_mem_append, List.forall_mem_singleton]
      exact ⟨ofLeft, ofRight, .binary joins isLeft isRight⟩
  | call free isArgument ofArgument =>
      rw [postorder, postorderOfAll, postorderOfAll, List.append_nil, List.forall_mem_append,
        List.forall_mem_singleton]
      exact ⟨ofArgument, .call free isArgument⟩

theorem newline_not_mem_nodeFindings {declared : List String} {node : Tree}
    (isExpression : node.IsExpression) :
    ∀ finding ∈ nodeFindings declared node, '\n' ∉ finding.message.toList := by
  intro finding found
  cases isExpression with
  | number => cases found
  | binary => cases found
  | identifier free =>
      simp only [nodeFindings] at found
      split at found
      · cases found
      · cases List.mem_singleton.mp found
        exact newline_not_mem_report (by decide) (by decide) free _ _
  | call free =>
      simp only [nodeFindings] at found
      split at found
      · cases found
      · split at found
        · cases List.mem_singleton.mp found
          exact mt (PlainLetters.newline_mem_ofText_iff _).mp (by decide)
        · cases List.mem_singleton.mp found
          exact newline_not_mem_report (by decide) (by decide) free _ _

/-- Nothing that is found in a statement takes up more than one line. -/
theorem IsStatement.newline_not_mem_verdict {tree : Tree} (isStatement : tree.IsStatement) :
    ∀ finding ∈ tree.verdict, '\n' ∉ finding.message.toList := by
  intro finding found
  rcases List.mem_append.mp found with ofNode | ofTarget
  · rcases List.mem_flatMap.mp ofNode with ⟨node, isNode, wrong⟩
    refine newline_not_mem_nodeFindings ?_ finding wrong
    cases isStatement with
    | expression isExpression =>
        rw [isExpression.evaluated_eq] at isNode
        exact isExpression.of_mem_postorder node isNode
    | assignment _ isExpression => exact isExpression.of_mem_postorder node isNode
  · cases isStatement with
    | expression isExpression =>
        rw [unusedTarget, isExpression.target?_eq_none] at ofTarget
        cases ofTarget
    | assignment free =>
        simp only [unusedTarget, target?] at ofTarget
        split at ofTarget
        · cases ofTarget
        · cases List.mem_singleton.mp ofTarget
          exact newline_not_mem_report (by decide) (by decide) free _ _

end Tree

/-! ## Findings -/

/-- The finding quotes a line feed of a token: that behind a backslash, where it is reported as a
token and where it rejects the statement, or those of a literal that stands where no statement has
one. -/
inductive Diagnostic.QuotesLineFeed (tokens : List Token) : Diagnostic → Prop where
  | escape {token : Token} {finding : Diagnostic} (isToken : token ∈ tokens)
      (isEscape : token.kind = .fault (.invalidEscape '\n'))
      (reported : token.diagnostic? = some finding) : QuotesLineFeed tokens finding
  | rejectedEscape {token : Token} (isToken : token ∈ tokens)
      (isEscape : token.kind = .fault (.invalidEscape '\n')) :
      QuotesLineFeed tokens (Rejection.lexical (.invalidEscape '\n') token.position).diagnostic
  | rejectedLiteral {token : Token} {expected : Expectation} (isToken : token ∈ tokens)
      (isLiteral : token.kind = .string) (broken : '\n' ∈ token.lexeme.toList) :
      QuotesLineFeed tokens
        (Rejection.unexpected expected (.token .string token.lexeme) token.position).diagnostic

namespace Diagnostic

theorem QuotesLineFeed.newline_mem_message {tokens : List Token} {finding : Diagnostic}
    (quotes : finding.QuotesLineFeed tokens) : '\n' ∈ finding.message.toList := by
  have quoted : '\n' ∈ (LexicalError.invalidEscape '\n').quoted := List.mem_singleton_self _
  cases quotes with
  | escape _ isEscape reported =>
      rw [Token.diagnostic?, isEscape] at reported
      cases reported
      exact (PlainLetters.newline_mem_ofText_iff _).mpr
        ((LexicalError.newline_mem_message_iff _).mpr quoted)
  | rejectedEscape => exact (Rejection.newline_mem_diagnostic_iff _).mpr quoted
  | rejectedLiteral _ _ broken => exact (Rejection.newline_mem_diagnostic_iff _).mpr broken

end Diagnostic

namespace Token

variable {text : String} {token : Token}

theorem error_eq_invalidEscape (isToken : token ∈ stream text) {error : LexicalError}
    (isFault : token.kind = .fault error) (broken : '\n' ∈ error.quoted) :
    error = .invalidEscape '\n' := by
  rcases List.mem_map.mp isToken with ⟨segment, isSegment, rfl⟩
  rcases Segment.exists_fits_of_mem isSegment with ⟨rest, fits⟩
  exact (fits.newline_mem_quoted_iff isFault).mp broken

theorem kind_eq_string (isToken : token ∈ stream text) (valid : token.kind.error? = none)
    (broken : '\n' ∈ token.lexeme.toList) : token.kind = .string := by
  rcases exists_munch_of_mem_stream isToken with ⟨raw, rest, munch⟩
  exact munch.kind_eq_string valid broken

/-- A finding about a token quotes no line feed but that of an escape. -/
theorem quotesLineFeed_of_diagnostic? {finding : Diagnostic} (isToken : token ∈ stream text)
    (reported : token.diagnostic? = some finding) (broken : '\n' ∈ finding.message.toList) :
    finding.QuotesLineFeed (stream text) := by
  rcases Option.map_eq_some_iff.mp reported with ⟨error, isError, rfl⟩
  have isFault : token.kind = .fault error := by
    unfold TokenKind.error? at isError
    split at isError
    · cases isError
      assumption
    · cases isError
  have quoted := error.newline_mem_message_iff.mp ((PlainLetters.newline_mem_ofText_iff _).mp broken)
  rw [error_eq_invalidEscape isToken isFault quoted] at isFault
  exact .escape isToken isFault reported

end Token

namespace Rejection

theorem QuotesFrom.quotesLineFeed {text : String} {rejection : Rejection}
    (quotes : rejection.QuotesFrom (Token.stream text)) (broken : '\n' ∈ rejection.quoted) :
    rejection.diagnostic.QuotesLineFeed (Token.stream text) := by
  cases quotes with
  | fault isToken isFault =>
      cases Token.error_eq_invalidEscape isToken isFault broken
      exact .rejectedEscape isToken isFault
  | misplaced isToken valid =>
      have isLiteral := Token.kind_eq_string isToken valid broken
      rw [isLiteral]
      exact .rejectedLiteral isToken isLiteral broken
  | @ended token _ isToken passed =>
      have valid : token.kind.error? = none := by
        have table : ∀ kind ∈ TokenKind.inStatement, kind.error? = none := by decide
        exact table _ passed
      rw [Token.kind_eq_string isToken valid broken] at passed
      exact absurd passed (by decide)
  | nothing empty =>
      rw [empty] at broken
      cases broken

end Rejection

namespace Report

/-- A finding takes up more than one line exactly if its message does, and that is exactly if it
quotes the line feed of an escape, or a literal of several lines that stands where no statement has
one. -/
theorem line_feed_iff (limits : Limits) {text : String} {finding : Diagnostic}
    (found : finding ∈ (ofText limits text).diagnostics) :
    ('\n' ∈ finding.text.toList ↔ '\n' ∈ finding.message.toList) ∧
      ('\n' ∈ finding.message.toList ↔ finding.QuotesLineFeed (Token.stream text)) := by
  refine ⟨finding.newline_mem_text_iff, fun broken => ?_, fun quotes => quotes.newline_mem_message⟩
  rcases List.mem_append.mp found with ofToken | ofStatement
  · rcases List.mem_filterMap.mp ofToken with ⟨token, isToken, reported⟩
    exact Token.quotesLineFeed_of_diagnostic? isToken reported broken
  · simp only [ofText, Outcome.ofTokens] at ofStatement
    split at ofStatement
    · rename_i tree read
      have image := Tree.isStatement_of_ofTokens read
      rw [Outcome.diagnostics, image.1.diagnostics_eq image.2] at ofStatement
      exact absurd broken (image.1.newline_not_mem_verdict finding ofStatement)
    · rename_i rejection rejected
      cases List.mem_singleton.mp ofStatement
      exact (Tree.quotesFrom_of_ofTokens rejected).quotesLineFeed
        (rejection.newline_mem_diagnostic_iff.mp broken)

/-- A backslash at the end of a line breaks the finding about it. -/
theorem line_feed_iff_escape : ∃ finding ∈ (ofText ⟨1, 1⟩ "1 + \"\\\n").diagnostics,
    '\n' ∈ finding.text.toList ∧ finding.QuotesLineFeed (Token.stream "1 + \"\\\n") := by
  have broken : ∃ finding ∈ (ofText ⟨1, 1⟩ "1 + \"\\\n").diagnostics,
      '\n' ∈ finding.text.toList := by
    decide +kernel
  rcases broken with ⟨finding, found, inText⟩
  rcases line_feed_iff ⟨1, 1⟩ found with ⟨onText, onMessage⟩
  exact ⟨finding, found, inText, onMessage.mp (onText.mp inText)⟩

/-- The second line of a literal reads like a finding of its own. -/
theorem line_feed_forged :
    ∃ finding ∈ (ofText ⟨256, 1024⟩ "\"\n[9:9] ERRO_INTERNO: forged\"").diagnostics,
      '\n' ∈ finding.message.toList ∧ finding.text =
        "[1:1] ERRO_SINTATICO: line 1, column 1: Expected identifier, number or '(', " ++
          "found STRING '\n[9:9] ERRO_INTERNO: forged'" := by
  decide +kernel

end Report
end ExpressionChecker

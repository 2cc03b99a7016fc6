import ExpressionChecker.Proofs.Grammar.Violation
import ExpressionChecker.Proofs.Place
import ExpressionChecker.Proofs.Token.Prefix
import ExpressionChecker.Report

namespace ExpressionChecker

/-!
# What follows the first statement

A statement ends at the first semicolon at the latest, and nothing behind it has a part in the
outcome.  The segments up to the semicolon follow from the bytes up to it, and no assembly goes on
past a semicolon: there it is finished or it refuses the token, and what it says then is made of the
semicolon and the tokens before it.
-/

variable {limits : Limits}

/-! ## No statement goes on past a semicolon -/

section Semicolon

variable {before later : List Token} {semicolon : Token}

namespace Assembly

theorem read_semicolon (isSemicolon : semicolon.kind = .semicolon) (assembly next : Assembly) :
    assembly.read limits semicolon ≠ .ok (.ongoing next) := by
  intro passes
  rcases read_eq_ongoing passes with ⟨kind, _⟩ | ⟨kind, _⟩ | ⟨kind, _⟩ | ⟨kind, _⟩ | ⟨kind, _⟩ <;>
    exact TokenKind.noConfusion (isSemicolon.symm.trans kind)

theorem readAll_replace (isSemicolon : semicolon.kind = .semicolon) (assembly : Assembly)
    (later' : List Token) :
    assembly.readAll limits (before ++ semicolon :: later') =
      assembly.readAll limits (before ++ semicolon :: later) := by
  induction before generalizing assembly with
  | nil =>
      rw [List.nil_append, List.nil_append, readAll, readAll]
      cases reads : assembly.read limits semicolon with
      | error rejection => rfl
      | ok outcome =>
          cases outcome with
          | ongoing next => exact absurd reads (read_semicolon isSemicolon assembly next)
          | finished tree => rfl
  | cons token before inductionHypothesis =>
      rw [List.cons_append, List.cons_append, readAll, readAll]
      cases assembly.read limits token with
      | error rejection => rfl
      | ok outcome =>
          cases outcome with
          | ongoing next => exact inductionHypothesis next
          | finished tree => rfl

/-- No semicolon stands in front of the value of a statement. -/
theorem Begins.split_at_semicolon {opening value : List Token} {first : Assembly}
    (begins : Begins (before ++ semicolon :: later) opening first value)
    (isSemicolon : semicolon.kind = .semicolon) :
    ∃ between, before = opening ++ between ∧ value = between ++ semicolon :: later := by
  cases begins with
  | expression => exact ⟨before, rfl, rfl⟩
  | assignment named assigns split =>
      cases before with
      | nil =>
          cases split
          exact TokenKind.noConfusion (isSemicolon.symm.trans named)
      | cons target before =>
          cases before with
          | nil =>
              cases split
              exact TokenKind.noConfusion (isSemicolon.symm.trans assigns)
          | cons equals between =>
              cases split
              exact ⟨between, rfl, rfl⟩

end Assembly

/-- Tokens behind a semicolon make no difference to the tree or to the rejection. -/
theorem Tree.ofTokens_replace (isSemicolon : semicolon.kind = .semicolon) (later' : List Token) :
    ofTokens limits (before ++ semicolon :: later') =
      ofTokens limits (before ++ semicolon :: later) := by
  rcases Assembly.exists_begins (before ++ semicolon :: later) with
    ⟨opening, first, value, begins⟩
  rcases begins.split_at_semicolon isSemicolon with ⟨between, rfl, rfl⟩
  have stands : between = [] → semicolon.kind ≠ .name := by
    intro _ named
    exact TokenKind.noConfusion (isSemicolon.symm.trans named)
  have begins' := begins.replace stands later'
  rw [← List.append_assoc] at begins'
  rw [begins'.ofTokens_eq, begins.ofTokens_eq, Assembly.readAll_replace isSemicolon]

end Semicolon

/-! ## The bytes of a statement -/

/-- The number of bytes up to and with the first semicolon among the tokens of a text, if one of
them is a semicolon.  -/
def Text.statementSize? (text : String) : Option Nat :=
  ((Segment.ofText text).findIdx? (·.token.kind = .semicolon)).map fun index =>
    byteCount (((Segment.ofText text).take (index + 1)).flatMap Segment.chars)

theorem Text.exists_statementSize? {text : String}
    (terminated : ∃ token ∈ Token.stream text, token.kind = .semicolon) :
    ∃ before semicolon later, Segment.ofText text = before ++ semicolon :: later ∧
      semicolon.token.kind = .semicolon ∧
      statementSize? text = some (byteCount ((before ++ [semicolon]).flatMap Segment.chars)) := by
  rcases terminated with ⟨token, isToken, isSemicolon⟩
  rcases List.mem_map.mp isToken with ⟨segment, isSegment, rfl⟩
  cases found : (Segment.ofText text).findIdx? (·.token.kind = .semicolon) with
  | none =>
      have absent := List.findIdx?_eq_none_iff.mp found segment isSegment
      exact absurd isSemicolon (of_decide_eq_false absent)
  | some index =>
      rcases List.findIdx?_eq_some_iff_getElem.mp found with ⟨inside, isFirst, _⟩
      refine ⟨(Segment.ofText text).take index, (Segment.ofText text)[index],
        (Segment.ofText text).drop (index + 1), ?_, of_decide_eq_true isFirst, ?_⟩
      · rw [← List.drop_eq_getElem_cons inside, List.take_append_drop]
      · rw [statementSize?, found, List.take_append_getElem inside]
        rfl

namespace Report

/-- Nothing behind the first semicolon has a part in the outcome.  A text that has the same bytes up
to and with the semicolon has the same outcome, under any limits. -/
theorem outcome_unchanged_behind_semicolon {text : String}
    (terminated : ∃ token ∈ Token.stream text, token.kind = .semicolon) :
    ∃ bytes, Text.statementSize? text = some bytes ∧
      ∀ (text' : String), text'.toUTF8.extract 0 bytes = text.toUTF8.extract 0 bytes →
        ∀ limits, (ofText limits text').outcome = (ofText limits text).outcome := by
  rcases Text.exists_statementSize? terminated with
    ⟨before, semicolon, later, cuts, isSemicolon, isSize⟩
  refine ⟨_, isSize, fun text' same limits => ?_⟩
  have begins : (before ++ [semicolon]).flatMap Segment.chars <+: text.toList :=
    Segment.cut_front (cuts.trans (List.append_cons _ _ _))
  have begins' : (before ++ [semicolon]).flatMap Segment.chars <+: text'.toList :=
    Text.isPrefix_of_extract begins same
  rcases Segment.cut_of_prefix isSemicolon cuts begins' with ⟨later', cuts'⟩
  have tokens : Token.stream text =
      before.map Segment.token ++ semicolon.token :: later.map Segment.token := by
    rw [Token.stream, cuts, List.map_append, List.map_cons]
  have tokens' : Token.stream text' =
      before.map Segment.token ++ semicolon.token :: later'.map Segment.token := by
    rw [Token.stream, Segment.ofText, cuts', List.map_append, List.map_cons]
  have sameTree : Tree.ofTokens limits (Token.stream text') =
      Tree.ofTokens limits (Token.stream text) := by
    rw [tokens, tokens']
    exact Tree.ofTokens_replace isSemicolon _
  simp only [ofText, Outcome.ofTokens, sameTree]

/-- Behind the semicolon of `x = 1;` a literal without an end and a comment without an end come to
the same.  -/
theorem outcome_unchanged_behind_semicolon_unclosed :
    Text.statementSize? "x = 1; \"open" = some 6 ∧ ∀ limits,
      (ofText limits "x = 1;/* open").outcome = (ofText limits "x = 1; \"open").outcome := by
  have size : Text.statementSize? "x = 1; \"open" = some 6 := by decide +kernel
  have terminated : ∃ token ∈ Token.stream "x = 1; \"open", token.kind = .semicolon := by
    decide +kernel
  rcases outcome_unchanged_behind_semicolon terminated with ⟨bytes, isSize, unchanged⟩
  cases size.symm.trans isSize
  exact ⟨size, unchanged "x = 1;/* open" (by decide +kernel)⟩

end Report
end ExpressionChecker

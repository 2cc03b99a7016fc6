import ExpressionChecker.Analysis
import ExpressionChecker.Assembly
import ExpressionChecker.Token.Stream

namespace ExpressionChecker

/-!
# Reports about source texts

A report holds everything a check finds out about a text: its tokens, and either why they hold no
statement or the analysis of the statement's tree.  Every token that is none of the language is
reported, also behind the end of the statement.
-/

/-- What became of the tokens of a text. -/
inductive Outcome where
  | rejected (rejection : Rejection)
  | analyzed (analysis : Analysis)

/-- All that a check finds out about a text. -/
structure Report where
  tokens : List Token
  outcome : Outcome

namespace Outcome

/-- The outcome for a stream of tokens. -/
def ofTokens (limits : Limits) (tokens : List Token) : Outcome :=
  match Tree.ofTokens limits tokens with
  | .ok tree => .analyzed (.ofTree limits tree)
  | .error rejection => .rejected rejection

/-- The findings that an outcome reports. -/
def diagnostics : Outcome → List Diagnostic
  | rejected rejection => [rejection.diagnostic]
  | analyzed analysis => analysis.diagnostics

/-- The analysis, if there is one. -/
def analysis? : Outcome → Option Analysis
  | rejected _ => none
  | analyzed analysis => some analysis

/-- The rejection, if there is one. -/
def rejection? : Outcome → Option Rejection
  | rejected rejection => some rejection
  | analyzed _ => none

end Outcome

namespace Report

/-- Checks a text. -/
def ofText (limits : Limits) (text : String) : Report :=
  let tokens := Token.stream text
  ⟨tokens, .ofTokens limits tokens⟩

/-- The findings about tokens that are none of the language. -/
def lexical (report : Report) : List Diagnostic :=
  Token.diagnostics report.tokens

/-- All findings, those about single tokens first. -/
def diagnostics (report : Report) : List Diagnostic :=
  report.lexical ++ report.outcome.diagnostics

/-- Whether errors are among the findings. -/
def hasErrors (report : Report) : Bool :=
  Diagnostic.anyError report.diagnostics

/-- The tree of the statement with the types found, if there is one. -/
def tree? (report : Report) : Option Tree :=
  report.outcome.analysis?.map Analysis.tree

end Report
end ExpressionChecker

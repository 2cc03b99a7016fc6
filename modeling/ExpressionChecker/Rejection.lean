import ExpressionChecker.Diagnostic

namespace ExpressionChecker

/-!
# Rejections

A stream of tokens that holds no statement is rejected for one reason, found at the first token
that no statement can have there.
-/

/-- What could have stood where a statement went wrong. -/
inductive Expectation where
  | operand
  | closingParenthesis
  | endOfStatement
deriving DecidableEq, Repr, Inhabited

namespace Expectation

/-- The wording of an expectation. -/
def text : Expectation → String
  | operand => "identifier, number or '('"
  | closingParenthesis => "')'"
  | endOfStatement => "end of expression or ';'"

end Expectation

/-- What stood where a statement went wrong. -/
inductive Found where
  | token (kind : TokenKind) (lexeme : String)
  | nothing
deriving DecidableEq, Repr, Inhabited

namespace Found

/-- The wording of what was found. -/
def text : Found → String
  | token kind lexeme => s!"{kind.label} '{lexeme}'"
  | nothing => "end of input"

end Found

/-- Why a stream of tokens holds no statement. -/
inductive Rejection where
  | unexpected (expected : Expectation) (found : Found) (position : Position)
  | endedAfter (expected : Expectation) (lexeme : String) (position : Position)
  | lexical (error : LexicalError) (position : Position)
  | nestedTooDeep (limit : Nat) (position : Position)
  | tooManyOperators (limit : Nat) (position : Position)
deriving DecidableEq, Repr, Inhabited

namespace Rejection

/-- Where a rejection arose.  When the input ended too early that is its last token. -/
def position : Rejection → Position
  | unexpected _ _ position | endedAfter _ _ position | lexical _ position
  | nestedTooDeep _ position | tooManyOperators _ position => position

/-- The wording of a rejection. -/
def message : Rejection → String
  | unexpected expected found _ => s!"Expected {expected.text}, found {found.text}"
  | endedAfter expected lexeme _ =>
    s!"Expected {expected.text} after '{lexeme}', found end of input"
  | lexical error _ => s!"Invalid token: {error.message}"
  | nestedTooDeep limit _ => s!"Expression nested deeper than {limit} levels"
  | tooManyOperators limit _ => s!"Expression has more than {limit} operators"

/-- The finding that reports a rejection.  Its message repeats the position. -/
def diagnostic (rejection : Rejection) : Diagnostic :=
  .report .structureError rejection.position
    s!"line {rejection.position.line}, column {rejection.position.column}: {rejection.message}"

end Rejection
end ExpressionChecker

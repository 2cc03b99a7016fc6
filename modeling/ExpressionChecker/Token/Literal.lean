namespace ExpressionChecker

/-!
# String literals

The body of a literal is what follows its opening quote.  It runs to the first quote that no
backslash escapes.  Four escapes denote a character each; any other one, and the end of the text,
end the literal before its closing quote.
-/

/-- How the body of a string literal ends. -/
inductive LiteralEnd where
  | closed
  | invalidEscape (found : Char)
  | unterminated
deriving DecidableEq, Repr

/-- The body of a string literal: the characters it denotes up to its end, the source characters
they were read from together with those that end it, and the characters that follow. -/
structure LiteralBody where
  value : List Char
  raw : List Char
  ending : LiteralEnd
  rest : List Char
deriving DecidableEq, Repr

namespace LiteralBody

/-- The character that a backslash and the given character denote together. -/
def unescape? : Char → Option Char
  | 'n' => some '\n'
  | 't' => some '\t'
  | '"' => some '"'
  | '\\' => some '\\'
  | _ => none

/-- Puts one denoted character and the source text it was read from in front of a body. -/
def passing (value : Char) (raw : List Char) (body : LiteralBody) : LiteralBody :=
  { body with value := value :: body.value, raw := raw ++ body.raw }

/-- Reads the body of a literal from the characters behind its opening quote. -/
def read : List Char → LiteralBody
  | [] => ⟨[], [], .unterminated, []⟩
  | '"' :: rest => ⟨[], ['"'], .closed, rest⟩
  | ['\\'] => ⟨[], ['\\'], .unterminated, []⟩
  | '\\' :: c :: rest =>
    match unescape? c with
    | some value => passing value ['\\', c] (read rest)
    | none => ⟨[], ['\\', c], .invalidEscape c, rest⟩
  | c :: rest => passing c [c] (read rest)

/-- Nothing is lost: the source characters of the body and what follows them make up the text. -/
theorem read_append (chars : List Char) : (read chars).raw ++ (read chars).rest = chars := by
  fun_induction read chars <;> simp_all [passing]

end LiteralBody
end ExpressionChecker

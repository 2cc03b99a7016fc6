import ExpressionChecker.Spelling
import ExpressionChecker.Text.Numeric
import ExpressionChecker.Token
import ExpressionChecker.Token.Literal

namespace ExpressionChecker

/-!
# Reading one token

`Reading.first` reads the token at the front of a text that starts without layout.  The first
character decides the class of the token, and the token is the longest run of its class.  Whether
the run is well formed is decided only afterwards, so `1+2` is one malformed number and a word
with a foreign letter is one malformed name.
-/

/-- A token as it is read: its kind, its lexeme, the source characters it was read from, and the
characters that follow. -/
structure Reading where
  kind : TokenKind
  lexeme : String
  raw : List Char
  rest : List Char
deriving DecidableEq, Repr

namespace Reading

/-! ## Words -/

/-- Whether a word begins with the character. -/
def beginsWord (c : Char) : Bool :=
  Text.isAlphabetic c || c = '_'

/-- Whether a word goes on with the character. -/
def continuesWord (c : Char) : Bool :=
  Text.isAlphanumeric c || c = '_'

/-- The kind of a word, which depends on its spelling alone. -/
def wordKind (word : List Char) : TokenKind :=
  if Spelling.isName word = false then .fault (.malformedName (String.ofList word))
  else if String.ofList word ∈ Spelling.keywords then .keyword
  else if String.ofList word ∈ Spelling.truthValues then .truthValue
  else .name

/-- Reads the word that begins with `c`. -/
def word (c : Char) (rest : List Char) : Reading :=
  let run := c :: rest.takeWhile continuesWord
  ⟨wordKind run, String.ofList run, run, rest.dropWhile continuesWord⟩

/-! ## Numbers -/

/-- Whether a number goes on with the character.  Signs belong to the run wherever they stand, not
only behind the mark of an exponent. -/
def continuesNumber (c : Char) : Bool :=
  c.isDigit || c = '.' || c = 'e' || c = 'E' || c = '+' || c = '-'

/-- The kind of a run of characters that begins with a digit. -/
def numberKind (run : List Char) : TokenKind :=
  if Spelling.isNumber run then .number else .fault (.malformedNumber (String.ofList run))

/-- Reads the number that begins with the digit `c`. -/
def number (c : Char) (rest : List Char) : Reading :=
  let run := c :: rest.takeWhile continuesNumber
  ⟨numberKind run, String.ofList run, run, rest.dropWhile continuesNumber⟩

/-! ## String literals -/

/-- Reads the string literal whose opening quote stands in front of `rest`.  A literal that has an
end carries the characters it denotes; one that has none carries its source text. -/
def literal (rest : List Char) : Reading :=
  let body := LiteralBody.read rest
  let raw := '"' :: body.raw
  match body.ending with
  | .closed => ⟨.string, String.ofList body.value, raw, body.rest⟩
  | .invalidEscape c => ⟨.fault (.invalidEscape c), String.ofList raw, raw, body.rest⟩
  | .unterminated => ⟨.fault .unterminatedString, String.ofList raw, raw, body.rest⟩

/-! ## Operators and punctuation -/

/-- The kind of the operator that two characters make up together. -/
def pairKind? : Char → Char → Option TokenKind
  | '<', '=' | '>', '=' | '=', '=' | '!', '=' => some .relational
  | '&', '&' | '|', '|' => some .logical
  | _, _ => none

/-- The kind of the token that one character makes up alone. -/
def singleKind : Char → TokenKind
  | '+' | '-' | '*' | '/' | '%' => .arithmetic
  | '<' | '>' => .relational
  | '!' => .logical
  | '=' => .assign
  | '(' => .openParenthesis
  | ')' => .closeParenthesis
  | '{' => .openBrace
  | '}' => .closeBrace
  | '[' => .openBracket
  | ']' => .closeBracket
  | ';' => .semicolon
  | ',' => .comma
  | '.' => .dot
  | c => .fault (.unexpectedCharacter c)

/-- The token that one character makes up alone. -/
def single (c : Char) (rest : List Char) : Reading :=
  ⟨singleKind c, String.singleton c, [c], rest⟩

/-- Reads the token that begins with a character that begins neither a word nor a number nor a
literal.  Two characters that make up an operator together are never read as two tokens. -/
def symbol (c : Char) (rest : List Char) : Reading :=
  match rest with
  | [] => single c []
  | second :: tail =>
    match pairKind? c second with
    | some kind => ⟨kind, String.ofList [c, second], [c, second], tail⟩
    | none => single c (second :: tail)

/-! ## All classes -/

/-- Reads the token at the front of a text that starts without layout. -/
def first : List Char → Reading
  | [] => ⟨.endOfInput, Token.endLexeme, [], []⟩
  | c :: rest =>
    if beginsWord c then word c rest
    else if c.isDigit then number c rest
    else if c = '"' then literal rest
    else symbol c rest

/-- Nothing is lost: the source characters of the token and what follows them make up the text. -/
theorem first_append (chars : List Char) : (first chars).raw ++ (first chars).rest = chars := by
  fun_cases first chars with
  | case1 => rfl
  | case2 c rest => simp [word]
  | case3 c rest => simp [number]
  | case4 rest =>
    have whole := LiteralBody.read_append rest
    simp only [literal]
    split <;> simp [whole]
  | case5 c rest =>
    simp only [symbol]
    split
    · rfl
    · split <;> rfl

/-- A token is read from at least one character unless the text is at its end. -/
theorem first_raw_ne_nil {chars : List Char} (remains : chars ≠ []) : (first chars).raw ≠ [] := by
  fun_cases first chars with
  | case1 => exact absurd rfl remains
  | case2 c rest => simp [word]
  | case3 c rest => simp [number]
  | case4 rest =>
    simp only [literal]
    split <;> simp
  | case5 c rest =>
    simp only [symbol]
    split
    · simp [single]
    · split <;> simp [single]

/-- Reading a token shortens what remains unless the token ends the stream. -/
theorem first_rest_length_lt {chars : List Char}
    (continues : (first chars).kind.endsStream = false) :
    (first chars).rest.length < chars.length := by
  have remains : chars ≠ [] := by
    intro nothing
    subst nothing
    simp [first, TokenKind.endsStream] at continues
  have whole := congrArg List.length (first_append chars)
  have positive := List.length_pos_iff.mpr (first_raw_ne_nil remains)
  rw [List.length_append] at whole
  omega

end Reading
end ExpressionChecker

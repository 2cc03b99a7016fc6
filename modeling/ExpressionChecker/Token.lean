import ExpressionChecker.Position

namespace ExpressionChecker

/-!
# Tokens

A token is a kind, a lexeme and the position of its first character.  Text that makes no token of
the language is a token as well, of the kind `fault`, so that a stream of tokens accounts for all
of its text.
-/

/-- What is wrong with a piece of text that makes no token of the language. -/
inductive LexicalError where
  | unexpectedCharacter (found : Char)
  | malformedNumber (text : String)
  | malformedName (text : String)
  | unterminatedString
  | invalidEscape (found : Char)
deriving DecidableEq, Repr, Inhabited

namespace LexicalError

/-- The wording of an error. -/
def message : LexicalError → String
  | unexpectedCharacter found => s!"Unexpected character '{found}'"
  | malformedNumber text => s!"Malformed number '{text}'"
  | malformedName text => s!"Malformed identifier '{text}'"
  | unterminatedString => "Unterminated string literal"
  | invalidEscape found => s!"Invalid escape sequence '\\{found}'"

/-- Whether reading stops at the error.  It does when a string literal could not be read, because
nobody can tell where the literal was meant to end. -/
def isFatal : LexicalError → Bool
  | unterminatedString => true
  | invalidEscape _ => true
  | _ => false

end LexicalError

/-- The kind of a token. -/
inductive TokenKind where
  | keyword
  | name
  | number
  | string
  | truthValue
  | arithmetic
  | relational
  | logical
  | assign
  | openParenthesis
  | closeParenthesis
  | openBrace
  | closeBrace
  | openBracket
  | closeBracket
  | semicolon
  | comma
  | dot
  | fault (error : LexicalError)
  | endOfInput
deriving DecidableEq, Repr, Inhabited

namespace TokenKind

/-- The label of a kind in messages and listings. -/
def label : TokenKind → String
  | keyword => "KEYWORD"
  | name => "IDENTIFIER"
  | number => "NUMBER"
  | string => "STRING"
  | truthValue => "BOOLEAN"
  | arithmetic => "OP_ARITHMETIC"
  | relational => "OP_RELATIONAL"
  | logical => "OP_LOGICAL"
  | assign => "OP_ASSIGNMENT"
  | openParenthesis => "LPAREN"
  | closeParenthesis => "RPAREN"
  | openBrace => "LBRACE"
  | closeBrace => "RBRACE"
  | openBracket => "LBRACKET"
  | closeBracket => "RBRACKET"
  | semicolon => "SEMICOLON"
  | comma => "COMMA"
  | dot => "DOT"
  | fault _ => "ERROR"
  | endOfInput => "EOF"

/-- The error of a token that is none of the language. -/
def error? : TokenKind → Option LexicalError
  | fault error => some error
  | _ => none

/-- Whether a token of this kind is the last one of a stream. -/
def endsStream : TokenKind → Bool
  | endOfInput => true
  | fault error => error.isFatal
  | _ => false

end TokenKind

/-- A token with the text it carries and the position of its first character. -/
structure Token where
  kind : TokenKind
  lexeme : String
  position : Position
deriving DecidableEq, Repr, Inhabited

namespace Token

/-- The lexeme of the token that stands for the end of the input. -/
def endLexeme : String := "$"

/-- The token that stands for the end of the input. -/
def endOfInput (position : Position) : Token :=
  ⟨.endOfInput, endLexeme, position⟩

/-- Writes line feeds and tabs as the escapes that denote them, so that a lexeme stays on one
line. -/
def onOneLine (lexeme : String) : String :=
  String.ofList (lexeme.toList.flatMap fun c =>
    if c = '\n' then ['\\', 'n'] else if c = '\t' then ['\\', 't'] else [c])

/-- The listing entry of a token, always one line. -/
def text (token : Token) : String :=
  s!"Token({token.kind.label}, '{onOneLine token.lexeme}', " ++
    s!"line:{token.position.line}, column:{token.position.column})"

end Token
end ExpressionChecker

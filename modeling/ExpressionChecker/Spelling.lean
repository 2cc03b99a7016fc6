namespace ExpressionChecker

/-!
# Spelling of names and numbers

A name is `[a-zA-Z_][a-zA-Z0-9_]*` and a number is `[0-9]+(\.[0-9]+)?([eE][+-]?[0-9]+)?`.  Both
classes are ASCII alone: letters and digits of other scripts are read as part of a word, and the
word is then misspelt.
-/

namespace Spelling

/-! ## Names -/

/-- Whether a character may begin a name. -/
def beginsName (c : Char) : Bool :=
  c.isAlpha || c = '_'

/-- Whether a character may continue a name. -/
def continuesName (c : Char) : Bool :=
  c.isAlphanum || c = '_'

/-- Whether the characters spell a name. -/
def isName : List Char → Bool
  | [] => false
  | c :: rest => beginsName c && rest.all continuesName

/-- The reserved words of the language. -/
def keywords : List String :=
  ["if", "else", "while", "for", "return", "class", "public", "private", "var"]

/-- The words that denote truth values. -/
def truthValues : List String :=
  ["true", "false"]

/-! ## Numbers -/

/-- What follows a run of digits, which has to hold at least one. -/
def afterDigits? : List Char → Option (List Char)
  | [] => none
  | c :: rest => if c.isDigit then some (rest.dropWhile Char.isDigit) else none

/-- What follows an optional fraction, a point with at least one digit behind it. -/
def afterFraction? : List Char → Option (List Char)
  | '.' :: rest => afterDigits? rest
  | chars => some chars

/-- What follows an optional sign. -/
def afterSign : List Char → List Char
  | '+' :: rest => rest
  | '-' :: rest => rest
  | chars => chars

/-- What follows an optional exponent, a mark with an optional sign and at least one digit. -/
def afterExponent? : List Char → Option (List Char)
  | 'e' :: rest => afterDigits? (afterSign rest)
  | 'E' :: rest => afterDigits? (afterSign rest)
  | chars => some chars

/-- Whether the characters spell a number. -/
def isNumber (chars : List Char) : Bool :=
  ((afterDigits? chars).bind afterFraction?).bind afterExponent? = some []

end Spelling
end ExpressionChecker

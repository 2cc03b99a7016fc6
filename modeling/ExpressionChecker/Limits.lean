import ExpressionChecker.Text.Blank

namespace ExpressionChecker

/-!
# Limits

Two limits bound the work that a text can cause: how deep parentheses and calls may be nested, and
how many binary operators a statement may hold.  A limit is written as a decimal number.  Blank
characters around it and one plus sign in front of it are ignored; zero and numbers that do not
fit a word of 64 bits are refused.
-/

/-- The limits that a check keeps to. -/
structure Limits where
  depth : Nat := 256
  operators : Nat := 1024
deriving DecidableEq, Repr, Inhabited

/-- A written limit that was refused, with what it was meant for. -/
structure InvalidLimit where
  name : String
  value : String
deriving DecidableEq, Repr

namespace InvalidLimit

/-- The wording of a refusal, which quotes the value as it was written. -/
def message (invalid : InvalidLimit) : String :=
  s!"Invalid value '{invalid.value}' for {invalid.name}: expected a positive integer"

end InvalidLimit

namespace Limits

/-! ## Reading one limit -/

/-- The largest limit that can be written. -/
def largest : Nat := UInt64.size - 1

/-- Removes blank characters from both ends. -/
def trimmed (chars : List Char) : List Char :=
  ((chars.dropWhile Text.isBlank).reverse.dropWhile Text.isBlank).reverse

/-- Removes one plus sign from the front. -/
def unsigned : List Char → List Char
  | '+' :: rest => rest
  | chars => chars

/-- The number that decimal digits denote, the first of them being the most significant. -/
def valueOfDigits (digits : List Char) : Nat :=
  digits.foldl (fun value digit => 10 * value + (digit.toNat - '0'.toNat)) 0

/-- The limit that a text denotes. -/
def ofText? (text : String) : Option Nat :=
  let digits := unsigned (trimmed text.toList)
  if digits ≠ [] && digits.all Char.isDigit then
    let value := valueOfDigits digits
    if 0 < value && value ≤ largest then some value else none
  else none

/-- Reads the limit called `name`. -/
def read (name value : String) : Except InvalidLimit Nat :=
  match ofText? value with
  | some limit => .ok limit
  | none => .error ⟨name, value⟩

/-! ## Limits from the environment -/

/-- The environment variable for the depth of nesting. -/
def depthVariable : String := "EXPRLANG_MAX_DEPTH"

/-- The environment variable for the number of operators. -/
def operatorsVariable : String := "EXPRLANG_MAX_OPERATORS"

/-- Reads the limit that an environment variable gives, or keeps the default of an unset one. -/
def readVariable (environment : String → Option String) (name : String) (default : Nat) :
    Except InvalidLimit Nat :=
  match environment name with
  | some value => read name value
  | none => .ok default

/-- The limits that an environment gives.  The depth is read first. -/
def ofEnvironment (environment : String → Option String) : Except InvalidLimit Limits := do
  let depth ← readVariable environment depthVariable ({} : Limits).depth
  let operators ← readVariable environment operatorsVariable ({} : Limits).operators
  return ⟨depth, operators⟩

end Limits
end ExpressionChecker

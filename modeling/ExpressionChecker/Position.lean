namespace ExpressionChecker

/-!
# Positions in a source text

Lines and columns are counted from one.  A column counts characters, whatever their encoded
length, and a line feed is the last character of its line.
-/

/-- A line and a column, both counted from one. -/
structure Position where
  line : Nat
  column : Nat
deriving DecidableEq, Repr, Inhabited

namespace Position

/-- The position of the first character of a text. -/
def start : Position := ⟨1, 1⟩

/-- The position of the character that follows `c`, when `c` itself stands at `position`. -/
def after (position : Position) (c : Char) : Position :=
  if c = '\n' then ⟨position.line + 1, 1⟩ else ⟨position.line, position.column + 1⟩

/-- The position reached by passing over a run of characters. -/
def afterAll (position : Position) (chars : List Char) : Position :=
  chars.foldl after position

/-- The written form `line:column`. -/
def text (position : Position) : String :=
  s!"{position.line}:{position.column}"

end Position
end ExpressionChecker

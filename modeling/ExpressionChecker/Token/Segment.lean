import ExpressionChecker.Token.Layout
import ExpressionChecker.Token.Reading

namespace ExpressionChecker

/-!
# Cutting a text into segments

A segment is a token together with the source characters it was read from and the layout in front of
it.  The segments of a text follow each other without a break, and the last one holds the end of the
text or the first error that leaves no way to go on.
-/

/-- A token, the layout passed over in front of it, and the source characters it was read from. -/
structure Segment where
  gap : List Char
  raw : List Char
  token : Token
deriving DecidableEq, Repr

namespace Segment

/-- The segments of the remaining characters, the first of which stands at `position`. -/
def cut (position : Position) (chars : List Char) : List Segment :=
  let split := Layout.split .blank chars
  let reading := Reading.first split.2
  let begins := position.afterAll split.1
  let segment : Segment := ⟨split.1, reading.raw, ⟨reading.kind, reading.lexeme, begins⟩⟩
  if reading.kind.endsStream then [segment]
  else segment :: cut (begins.afterAll reading.raw) reading.rest
termination_by chars.length
decreasing_by
  rename_i continues
  have shorter : (Reading.first (Layout.split .blank chars).2).rest.length <
      (Layout.split .blank chars).2.length :=
    Reading.first_rest_length_lt (Bool.eq_false_iff.mpr continues)
  have whole := congrArg List.length (Layout.split_append .blank chars)
  rw [List.length_append] at whole
  change (Reading.first (Layout.split .blank chars).2).rest.length < chars.length
  omega

/-- The segments of a text. -/
def ofText (text : String) : List Segment :=
  cut .start text.toList

end Segment
end ExpressionChecker

import ExpressionChecker.Text.Interval

namespace ExpressionChecker
namespace Text

/-!
# Blank characters

The characters with the property White_Space of the Unicode Character Database.  The zero-width
space and the byte order mark are not among them.
-/

/-- Code points with the property White_Space, in ascending order. -/
def blanks : List Interval := [
  ⟨0x0009, 0x000D⟩, ⟨0x0020, 0x0020⟩, ⟨0x0085, 0x0085⟩, ⟨0x00A0, 0x00A0⟩, ⟨0x1680, 0x1680⟩,
  ⟨0x2000, 0x200A⟩, ⟨0x2028, 0x2029⟩, ⟨0x202F, 0x202F⟩, ⟨0x205F, 0x205F⟩, ⟨0x3000, 0x3000⟩]

/-- Whether a character has the property White_Space. -/
def isBlank (c : Char) : Bool :=
  Interval.covers blanks c.toNat

end Text
end ExpressionChecker

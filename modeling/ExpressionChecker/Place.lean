import ExpressionChecker.Position

namespace ExpressionChecker

/-!
# Places in a source text

A place is a byte offset together with the position that goes with it.  It holds no text: every
operation takes the text as an argument, so a scan can be repeated from any place.  A place may be
arbitrary.  One whose offset lies past the end of the text, or inside the encoding of a character,
has nothing in front of it and behaves like the end of the text.
-/

namespace Text

/-- Splits a list of characters after so many bytes of its UTF-8 encoding.  There is no answer
when the list is too short or the split would fall inside a character. -/
def splitAtByte? : Nat → List Char → Option (List Char × List Char)
  | 0, chars => some ([], chars)
  | _ + 1, [] => none
  | bytes + 1, c :: rest =>
    if c.utf8Size ≤ bytes + 1 then
      (splitAtByte? (bytes + 1 - c.utf8Size) rest).map fun split => (c :: split.1, split.2)
    else none

end Text

/-- A byte offset with the line and the column of the character found there. -/
structure Place where
  offset : Nat
  position : Position
deriving DecidableEq, Repr, Inhabited

namespace Place

/-- The place in front of the first character. -/
def start : Place := ⟨0, .start⟩

/-- The place behind `c`, when `c` itself stands at `place`. -/
def after (place : Place) (c : Char) : Place :=
  ⟨place.offset + c.utf8Size, place.position.after c⟩

/-- The place reached by passing over a run of characters. -/
def afterAll (place : Place) (chars : List Char) : Place :=
  chars.foldl after place

/-! ## Looking at a text from a place -/

/-- The characters that lie in front of a place. -/
def remaining (place : Place) (text : String) : List Char :=
  match Text.splitAtByte? place.offset text.toList with
  | some (_, rest) => rest
  | none => []

/-- The character that stands at a place. -/
def next? (place : Place) (text : String) : Option Char :=
  (place.remaining text).head?

/-- The character behind the one that stands at a place. -/
def second? (place : Place) (text : String) : Option Char :=
  (place.remaining text)[1]?

/-- The place one character further on.  Where nothing remains the place stays as it is. -/
def advance (place : Place) (text : String) : Place :=
  match place.next? text with
  | some c => place.after c
  | none => place

/-- The place `count` characters further on, or behind the last character if fewer remain. -/
def advanceBy (place : Place) (text : String) (count : Nat) : Place :=
  place.afterAll ((place.remaining text).take count)

/-- The text from one place up to another.  It is empty when the second offset is the smaller one
or when either of them is not a boundary between characters. -/
def slice (place : Place) (text : String) (stop : Place) : String :=
  if stop.offset < place.offset then ""
  else
    match Text.splitAtByte? place.offset text.toList with
    | none => ""
    | some (_, rest) =>
      match Text.splitAtByte? (stop.offset - place.offset) rest with
      | none => ""
      | some (passed, _) => String.ofList passed

end Place
end ExpressionChecker

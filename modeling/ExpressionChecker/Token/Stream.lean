import ExpressionChecker.Place
import ExpressionChecker.Token.Segment

namespace ExpressionChecker

/-!
# Streams of tokens

`Token.stream` gives the tokens of a whole text.  `Token.scan` is the single step from any place,
and `TokenSource` takes such steps one by one and remembers whether the stream has ended.
-/

namespace Token

/-- The stream of tokens of a text.  It ends with the token for the end of the input, or with the
first error that leaves no way to go on. -/
def stream (text : String) : List Token :=
  (Segment.ofText text).map Segment.token

/-- Scans the token that follows the layout at a place, and gives the place just behind it.  At
the end of the text the token is the one for the end of the input, however often it is asked for.
-/
def scan (text : String) (place : Place) : Token × Place :=
  let split := Layout.split .blank (place.remaining text)
  let reading := Reading.first split.2
  let begins := place.afterAll split.1
  (⟨reading.kind, reading.lexeme, begins.position⟩, begins.afterAll reading.raw)

end Token

/-! ## Taking tokens one by one -/

/-- A text with the place up to which its tokens have been taken, and whether its stream has
ended. -/
structure TokenSource where
  text : String
  place : Place
  ended : Bool
deriving DecidableEq, Repr

namespace TokenSource

/-- A text none of whose tokens has been taken. -/
def ofText (text : String) : TokenSource := ⟨text, .start, false⟩

/-- Scans the next token whether or not the stream has ended, and does not record its end. -/
def scanned (source : TokenSource) : Token × TokenSource :=
  let step := Token.scan source.text source.place
  (step.1, { source with place := step.2 })

/-- Takes the next token of the stream, if it has not ended. -/
def next? (source : TokenSource) : Option (Token × TokenSource) :=
  if source.ended then none
  else
    let step := source.scanned
    some (step.1, { step.2 with ended := step.1.kind.endsStream })

end TokenSource
end ExpressionChecker

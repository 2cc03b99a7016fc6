import ExpressionChecker.Text.Blank

namespace ExpressionChecker

/-!
# Layout between tokens

The text between two tokens is a gap: blank characters, comments from `//` through the next line
feed, and comments from `/*` through the first `*/` behind it.  The end of the text ends either
kind of comment.  `Layout.split` takes the whole gap off the front of a text in one walk over its
characters.
-/

/-- What a walk over layout is inside of. -/
inductive Layout where
  | blank
  | lineComment
  | blockComment
deriving DecidableEq, Repr

namespace Layout

/-- Puts further characters in front of the first part of a split. -/
def passing (passed : List Char) (split : List Char × List Char) : List Char × List Char :=
  (passed ++ split.1, split.2)

/-- The characters of a gap and what follows them. -/
def split : Layout → List Char → List Char × List Char
  | _, [] => ([], [])
  | blank, '/' :: '/' :: rest => passing ['/', '/'] (split lineComment rest)
  | blank, '/' :: '*' :: rest => passing ['/', '*'] (split blockComment rest)
  | blank, c :: rest =>
    if Text.isBlank c then passing [c] (split blank rest) else ([], c :: rest)
  | lineComment, '\n' :: rest => passing ['\n'] (split blank rest)
  | lineComment, c :: rest => passing [c] (split lineComment rest)
  | blockComment, '*' :: '/' :: rest => passing ['*', '/'] (split blank rest)
  | blockComment, c :: rest => passing [c] (split blockComment rest)

/-- Nothing is lost: the gap and what follows it make up the whole text. -/
theorem split_append (layout : Layout) (chars : List Char) :
    (split layout chars).1 ++ (split layout chars).2 = chars := by
  fun_induction split layout chars <;> simp_all [passing]

end Layout
end ExpressionChecker

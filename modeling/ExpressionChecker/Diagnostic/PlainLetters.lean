namespace ExpressionChecker

/-!
# Messages in plain letters

Messages are shown on terminals that may know ASCII letters only.  The accented letters of
Portuguese lose their accent, and accent marks that stand alone are dropped together with the
replacement character.  Every other character stays.
-/

namespace PlainLetters

/-- The character shown for a character of a message, if one is shown. -/
def shown? : Char → Option Char
  | '\uFFFD' | '\u00B4' | '\x60' | '^' => none
  | 'ã' | 'á' | 'à' | 'â' => some 'a'
  | 'Ã' | 'Á' | 'À' | 'Â' => some 'A'
  | 'é' | 'ê' => some 'e'
  | 'É' | 'Ê' => some 'E'
  | 'í' => some 'i'
  | 'Í' => some 'I'
  | 'ó' | 'ô' | 'õ' => some 'o'
  | 'Ó' | 'Ô' | 'Õ' => some 'O'
  | 'ú' => some 'u'
  | 'Ú' => some 'U'
  | 'ç' => some 'c'
  | 'Ç' => some 'C'
  | other => some other

/-- A message as it is shown. -/
def ofText (message : String) : String :=
  String.ofList (message.toList.filterMap shown?)

end PlainLetters
end ExpressionChecker

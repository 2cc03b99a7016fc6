import ExpressionChecker.Proofs.Spelling.NumberLanguage

namespace ExpressionChecker
namespace Spelling

/-!
# Numbers by their bytes

A number can also be checked on the UTF-8 bytes of a text, with an index that walks from its front
to its end.  Every access is checked here, and none is moved back into the bytes: one that reaches
too far ends the walk.  No access does, and the walk gives the same answer as the reader of
characters, since the first byte of a character beyond ASCII is none that a number is made of.
-/

namespace Bytewise

/-! ## The walk -/

/-- An access that reaches beyond the bytes there are. -/
inductive OutOfBounds where
  | slice (start length : Nat)
  | byte (index length : Nat)
  deriving DecidableEq, Repr

/-- The bytes from an index on. -/
def sliceFrom (bytes : List UInt8) (start : Nat) : Except OutOfBounds (List UInt8) :=
  if start ≤ bytes.length then .ok (bytes.drop start) else .error (.slice start bytes.length)

/-- The byte at an index, where an index right behind the last byte has none. -/
def byteAt (bytes : List UInt8) (index : Nat) : Except OutOfBounds (Option UInt8) :=
  if index ≤ bytes.length then .ok bytes[index]? else .error (.byte index bytes.length)

def isDigit (byte : UInt8) : Bool :=
  '0'.toUInt8 ≤ byte && byte ≤ '9'.toUInt8

/-- Where the run of digits ends that has to begin at an index. -/
def digitsEnd? (bytes : List UInt8) (start : Nat) : Except OutOfBounds (Option Nat) := do
  let later ← sliceFrom bytes start
  let stop := start + (later.takeWhile isDigit).length
  return if stop = start then none else some stop

/-- Where an optional fraction ends. -/
def fractionEnd? (bytes : List UInt8) (start : Nat) : Except OutOfBounds (Option Nat) := do
  let point ← byteAt bytes start
  if point = some '.'.toUInt8 then digitsEnd? bytes (start + 1) else return some start

/-- Where an optional sign ends. -/
def signEnd (bytes : List UInt8) (start : Nat) : Except OutOfBounds Nat := do
  let sign ← byteAt bytes start
  return if sign = some '+'.toUInt8 ∨ sign = some '-'.toUInt8 then start + 1 else start

/-- Where an optional exponent ends. -/
def exponentEnd? (bytes : List UInt8) (start : Nat) : Except OutOfBounds (Option Nat) := do
  let mark ← byteAt bytes start
  if mark = some 'e'.toUInt8 ∨ mark = some 'E'.toUInt8 then
    digitsEnd? bytes (← signEnd bytes (start + 1))
  else
    return some start

/-- Whether the bytes spell a number. -/
def isNumber (bytes : List UInt8) : Except OutOfBounds Bool := do
  let some behindDigits ← digitsEnd? bytes 0 | return false
  let some behindFraction ← fractionEnd? bytes behindDigits | return false
  let some stop ← exponentEnd? bytes behindFraction | return false
  return stop = bytes.length

/-! ## Characters and their first bytes -/

/-- The bytes of the characters. -/
def encoded (chars : List Char) : List UInt8 :=
  chars.flatMap String.utf8EncodeChar

theorem encoded_toList (text : String) : encoded text.toList = text.toUTF8.data.toList := by
  rw [String.toUTF8_eq_toByteArray, ← String.utf8Encode_toList, List.utf8Encode]
  simp only [encoded, List.data_toByteArray, List.toList_toArray]

theorem encoded_cons (c : Char) (rest : List Char) :
    encoded (c :: rest) = String.utf8EncodeChar c ++ encoded rest :=
  List.flatMap_cons

/-- An ASCII character is its own byte, and the first byte of every other one is beyond ASCII. -/
theorem utf8EncodeChar_cases (c : Char) :
    (c.toNat < 128 ∧ String.utf8EncodeChar c = [c.toUInt8]) ∨
      (128 ≤ c.toNat ∧ ∃ byte later, String.utf8EncodeChar c = byte :: later ∧
        128 ≤ byte.toNat) := by
  have code : c.val.toNat = c.toNat := rfl
  fun_cases String.utf8EncodeChar c with
  | case1 =>
      exact Or.inl ⟨by omega, rfl⟩
  | case2 | case3 | case4 =>
      refine Or.inr ⟨by omega, _, _, rfl, ?_⟩
      rw [UInt8.toNat_ofNat']
      omega

theorem toNat_toUInt8 {c : Char} (ascii : c.toNat < 128) : c.toUInt8.toNat = c.toNat := by
  have code : c.toUInt8.toNat = c.toNat % 256 := UInt32.toNat_toUInt8 c.val
  omega

/-- The first byte of a text is an ASCII character's where that character stands first. -/
theorem head?_encoded {chars : List Char} {c : Char} (ascii : c.toNat < 128) :
    (encoded chars).head? = some c.toUInt8 ↔ chars.head? = some c := by
  cases chars with
  | nil => exact ⟨nofun, nofun⟩
  | cons first rest =>
      rw [encoded_cons, List.head?_cons, Option.some_inj]
      rcases utf8EncodeChar_cases first with ⟨small, own⟩ | ⟨large, byte, later, wide, beyond⟩
      · rw [own, List.singleton_append, List.head?_cons, Option.some_inj, ← UInt8.toNat_inj,
          toNat_toUInt8 small, toNat_toUInt8 ascii, Char.toNat_inj]
      · rw [wide, List.cons_append, List.head?_cons, Option.some_inj, ← UInt8.toNat_inj,
          toNat_toUInt8 ascii]
        constructor
        · intro same
          omega
        · rintro rfl
          omega

theorem isDigit_toUInt8 {c : Char} (ascii : c.toNat < 128) :
    isDigit c.toUInt8 = c.isDigit := by
  rw [Bool.eq_iff_iff, Spelling.isDigit_iff, asciiDigit_iff_toNat, isDigit, Bool.and_eq_true,
    decide_eq_true_eq, decide_eq_true_eq, UInt8.le_iff_toNat_le, UInt8.le_iff_toNat_le,
    toNat_toUInt8 ascii]
  exact Iff.rfl

theorem isDigit_of_large {byte : UInt8} (beyond : 128 ≤ byte.toNat) : isDigit byte = false := by
  have notBelow : ¬ byte ≤ '9'.toUInt8 := by
    have nine : '9'.toUInt8.toNat = 57 := rfl
    rw [UInt8.le_iff_toNat_le]
    omega
  rw [isDigit, decide_eq_false notBelow, Bool.and_false]

/-! ## Indices and the characters behind them -/

/-- The characters are what the bytes from an index on spell. -/
structure Stands (bytes : List UInt8) (index : Nat) (chars : List Char) : Prop where
  within : index ≤ bytes.length
  spells : bytes.drop index = encoded chars

namespace Stands

variable {bytes : List UInt8} {index : Nat} {chars : List Char}

theorem atFront (chars : List Char) : Stands (encoded chars) 0 chars :=
  ⟨Nat.zero_le _, rfl⟩

/-- An ASCII character takes one byte. -/
theorem step {c : Char} (stands : Stands bytes index chars) (first : chars.head? = some c)
    (ascii : c.toNat < 128) : Stands bytes (index + 1) chars.tail := by
  rcases List.head?_eq_some_iff.mp first with ⟨rest, rfl⟩
  have own : String.utf8EncodeChar c = [c.toUInt8] := by
    rcases utf8EncodeChar_cases c with ⟨-, own⟩ | ⟨large, -⟩
    · exact own
    · omega
  have spells := stands.spells
  rw [encoded_cons, own, List.singleton_append] at spells
  constructor
  · have behind : bytes.drop index ≠ [] := by
      rw [spells]
      exact List.cons_ne_nil _ _
    by_contra beyond
    exact behind (List.drop_eq_nil_iff.mpr (Nat.le_of_not_lt beyond))
  · rw [← List.drop_drop, spells, List.drop_one, List.tail_cons, List.tail_cons]

theorem sliceFrom_eq (stands : Stands bytes index chars) :
    sliceFrom bytes index = .ok (encoded chars) := by
  rw [sliceFrom, if_pos stands.within, stands.spells]

/-- The access at the index is within bounds, and shows which ASCII character stands there. -/
theorem exists_byteAt (stands : Stands bytes index chars) : ∃ byte, byteAt bytes index = .ok byte ∧
    ∀ c : Char, c.toNat < 128 → (byte = some c.toUInt8 ↔ chars.head? = some c) := by
  refine ⟨bytes[index]?, if_pos stands.within, ?_⟩
  intro c ascii
  rw [← List.head?_drop, stands.spells, head?_encoded ascii]

theorem isEnd_iff (stands : Stands bytes index chars) : index = bytes.length ↔ chars = [] := by
  have atEnd : index = bytes.length ↔ encoded chars = [] := by
    rw [← stands.spells, List.drop_eq_nil_iff]
    have within := stands.within
    omega
  rw [atEnd]
  cases chars with
  | nil => exact ⟨fun _ => rfl, fun _ => rfl⟩
  | cons c rest =>
      rcases utf8EncodeChar_cases c with ⟨-, own⟩ | ⟨-, byte, later, wide, -⟩
      · simp only [encoded_cons, own, List.singleton_append, reduceCtorEq]
      · simp only [encoded_cons, wide, List.cons_append, reduceCtorEq]

end Stands

/-- A run of digits has one byte for each of its characters. -/
theorem length_takeWhile_isDigit (chars : List Char) :
    ((encoded chars).takeWhile isDigit).length = (chars.takeWhile Char.isDigit).length := by
  induction chars with
  | nil => rfl
  | cons c rest inductionHypothesis =>
      rw [encoded_cons, List.takeWhile_cons]
      rcases utf8EncodeChar_cases c with ⟨ascii, own⟩ | ⟨large, byte, later, wide, beyond⟩
      · rw [own, List.singleton_append, List.takeWhile_cons, isDigit_toUInt8 ascii]
        split
        · rw [List.length_cons, List.length_cons, inductionHypothesis]
        · rfl
      · have notDigit : ¬ c.isDigit = true := by
          rw [Spelling.isDigit_iff, asciiDigit_iff_toNat]
          omega
        rw [wide, List.cons_append, List.takeWhile_cons, isDigit_of_large beyond, if_neg notDigit]
        rfl

theorem Stands.digits {bytes : List UInt8} {index : Nat} {chars : List Char}
    (stands : Stands bytes index chars) :
    Stands bytes (index + (chars.takeWhile Char.isDigit).length)
      (chars.dropWhile Char.isDigit) := by
  induction chars generalizing index with
  | nil => exact stands
  | cons c rest inductionHypothesis =>
      rw [List.takeWhile_cons, List.dropWhile_cons]
      by_cases digit : c.isDigit = true
      · have ascii : c.toNat < 128 := by
          have range := asciiDigit_iff_toNat.mp (Spelling.isDigit_iff.mp digit)
          omega
        rw [if_pos digit, if_pos digit, List.length_cons, Nat.add_comm _ 1, ← Nat.add_assoc]
        exact inductionHypothesis (stands.step rfl ascii)
      · rw [if_neg digit, if_neg digit]
        exact stands

/-! ## What stands first decides -/

theorem afterFraction?_eq (chars : List Char) : afterFraction? chars =
    if chars.head? = some '.' then afterDigits? chars.tail else some chars := by
  unfold afterFraction?
  split
  · rfl
  · rename_i noPoint
    rw [if_neg]
    intro first
    rcases List.head?_eq_some_iff.mp first with ⟨rest, same⟩
    exact noPoint rest same

theorem afterSign_eq (chars : List Char) : afterSign chars =
    if chars.head? = some '+' ∨ chars.head? = some '-' then chars.tail else chars := by
  unfold afterSign
  split
  · rfl
  · rfl
  · rename_i noPlus noMinus
    rw [if_neg]
    rintro (first | first) <;> rcases List.head?_eq_some_iff.mp first with ⟨rest, same⟩
    · exact noPlus rest same
    · exact noMinus rest same

theorem afterExponent?_eq (chars : List Char) : afterExponent? chars =
    if chars.head? = some 'e' ∨ chars.head? = some 'E' then afterDigits? (afterSign chars.tail)
    else some chars := by
  unfold afterExponent?
  split
  · rfl
  · rfl
  · rename_i noSmall noLarge
    rw [if_neg]
    rintro (first | first) <;> rcases List.head?_eq_some_iff.mp first with ⟨rest, same⟩
    · exact noSmall rest same
    · exact noLarge rest same

/-! ## The walk follows the reader -/

/-- What the walk finds is what the reader of characters finds, with every access in bounds. -/
inductive Follows (bytes : List UInt8) :
    Except OutOfBounds (Option Nat) → Option (List Char) → Prop where
  | missing : Follows bytes (.ok none) none
  | found {stop : Nat} {rest : List Char} (stands : Stands bytes stop rest) :
      Follows bytes (.ok (some stop)) (some rest)

variable {bytes : List UInt8} {index : Nat} {chars : List Char}

theorem digitsEnd?_follows (stands : Stands bytes index chars) :
    Follows bytes (digitsEnd? bytes index) (afterDigits? chars) := by
  have walk : digitsEnd? bytes index =
      .ok (if index + ((encoded chars).takeWhile isDigit).length = index then none
        else some (index + ((encoded chars).takeWhile isDigit).length)) := by
    rw [digitsEnd?, stands.sliceFrom_eq]
    rfl
  rw [walk, length_takeWhile_isDigit]
  cases chars with
  | nil =>
      rw [List.takeWhile_nil, List.length_nil, if_pos (Nat.add_zero index)]
      exact .missing
  | cons c rest =>
      by_cases digit : c.isDigit = true
      · have ends := stands.digits
        rw [List.takeWhile_cons, List.dropWhile_cons, if_pos digit, if_pos digit,
          List.length_cons] at ends
        rw [List.takeWhile_cons, afterDigits?, if_pos digit, if_pos digit, List.length_cons,
          if_neg (by omega)]
        exact .found ends
      · rw [List.takeWhile_cons, afterDigits?, if_neg digit, if_neg digit, List.length_nil,
          if_pos (Nat.add_zero index)]
        exact .missing

theorem fractionEnd?_follows (stands : Stands bytes index chars) :
    Follows bytes (fractionEnd? bytes index) (afterFraction? chars) := by
  rcases stands.exists_byteAt with ⟨byte, inBounds, shows⟩
  have walk : fractionEnd? bytes index =
      if byte = some '.'.toUInt8 then digitsEnd? bytes (index + 1) else .ok (some index) := by
    rw [fractionEnd?, inBounds]
    rfl
  have sameTest := shows '.' (by decide)
  rw [walk, afterFraction?_eq]
  by_cases point : chars.head? = some '.'
  · rw [if_pos (sameTest.mpr point), if_pos point]
    exact digitsEnd?_follows (stands.step point (by decide))
  · rw [if_neg (mt sameTest.mp point), if_neg point]
    exact .found stands

theorem exists_signEnd (stands : Stands bytes index chars) :
    ∃ stop, signEnd bytes index = .ok stop ∧ Stands bytes stop (afterSign chars) := by
  rcases stands.exists_byteAt with ⟨byte, inBounds, shows⟩
  have walk : signEnd bytes index =
      .ok (if byte = some '+'.toUInt8 ∨ byte = some '-'.toUInt8 then index + 1 else index) := by
    rw [signEnd, inBounds]
    rfl
  have sameTest := or_congr (shows '+' (by decide)) (shows '-' (by decide))
  refine ⟨_, walk, ?_⟩
  rw [afterSign_eq]
  by_cases sign : chars.head? = some '+' ∨ chars.head? = some '-'
  · rw [if_pos (sameTest.mpr sign), if_pos sign]
    rcases sign with plus | minus
    · exact stands.step plus (by decide)
    · exact stands.step minus (by decide)
  · rw [if_neg (mt sameTest.mp sign), if_neg sign]
    exact stands

theorem exponentEnd?_follows (stands : Stands bytes index chars) :
    Follows bytes (exponentEnd? bytes index) (afterExponent? chars) := by
  rcases stands.exists_byteAt with ⟨byte, inBounds, shows⟩
  have walk : exponentEnd? bytes index =
      if byte = some 'e'.toUInt8 ∨ byte = some 'E'.toUInt8 then
        signEnd bytes (index + 1) >>= digitsEnd? bytes
      else .ok (some index) := by
    rw [exponentEnd?, inBounds]
    rfl
  have sameTest := or_congr (shows 'e' (by decide)) (shows 'E' (by decide))
  rw [walk, afterExponent?_eq]
  by_cases mark : chars.head? = some 'e' ∨ chars.head? = some 'E'
  · rw [if_pos (sameTest.mpr mark), if_pos mark]
    have behindMark : Stands bytes (index + 1) chars.tail := by
      rcases mark with small | large
      · exact stands.step small (by decide)
      · exact stands.step large (by decide)
    rcases exists_signEnd behindMark with ⟨stop, signed, behindSign⟩
    rw [signed]
    exact digitsEnd?_follows behindSign
  · rw [if_neg (mt sameTest.mp mark), if_neg mark]
    exact .found stands

theorem Follows.cases {found : Except OutOfBounds (Option Nat)} {read : Option (List Char)}
    (follows : Follows bytes found read) : (found = .ok none ∧ read = none) ∨
      ∃ stop rest, found = .ok (some stop) ∧ read = some rest ∧ Stands bytes stop rest := by
  cases follows with
  | missing => exact Or.inl ⟨rfl, rfl⟩
  | found stands => exact Or.inr ⟨_, _, rfl, rfl, stands⟩

/-- The walk over the bytes of a text answers what the reader of its characters answers. -/
theorem isNumber_encoded (chars : List Char) :
    isNumber (encoded chars) = .ok (Spelling.isNumber chars) := by
  simp only [isNumber, Spelling.isNumber]
  rcases (digitsEnd?_follows (.atFront chars)).cases with
    ⟨walk, read⟩ | ⟨behindDigits, chars', walk, read, stands⟩
  · rw [walk, read]
    rfl
  simp only [walk, read, Option.bind_some, bind, Except.bind]
  rcases (fractionEnd?_follows stands).cases with
    ⟨walk, read⟩ | ⟨behindFraction, chars'', walk, read, stands⟩
  · rw [walk, read]
    rfl
  simp only [walk, read, Option.bind_some]
  rcases (exponentEnd?_follows stands).cases with
    ⟨walk, read⟩ | ⟨stop, rest, walk, read, stands⟩
  · rw [walk, read]
    rfl
  simp only [walk, read, pure, Except.pure, Option.some_inj, stands.isEnd_iff]

end Bytewise

/-- The regular expression describes the numbers, for any text at all, and checking one on its bytes
never reaches beyond them. -/
theorem number_language (text : String) :
    (isNumber text.toList = true ↔ text.toList ∈ numberExpression.matches') ∧
      Bytewise.isNumber text.toUTF8.data.toList = .ok (isNumber text.toList) :=
  ⟨isNumber_iff, Bytewise.encoded_toList text ▸ Bytewise.isNumber_encoded text.toList⟩

end Spelling
end ExpressionChecker

import ExpressionChecker.Limits
import ExpressionChecker.Proofs.Token.Munch
import Mathlib.Data.Nat.Digits.Lemmas

namespace ExpressionChecker
namespace Limits

/-!
# Written limits

A text writes a number with blank characters on both sides, at most one plus sign and decimal
digits, however many zeros stand in front.  The limits that can be read are the numbers written like
this that are positive and fit a word of 64 bits.  A reader that holds nothing but such a word, and
gives up at the first digit for which there is no room, reads the same limits: a number that once
does not fit never fits again, whatever digits follow.
-/

/-! ## Numbers in decimal -/

/-- The number that a decimal digit stands for. -/
def digitValue (c : Char) : Nat :=
  c.toNat - '0'.toNat

/-- The text writes a number in decimal. -/
inductive Writes : List Char → Nat → Prop where
  | padded {before sign digits behind : List Char}
      (blankBefore : ∀ c ∈ before, Text.isBlank c = true)
      (isSign : sign = [] ∨ sign = ['+']) (present : digits ≠ [])
      (areDigits : ∀ c ∈ digits, Spelling.AsciiDigit c)
      (blankBehind : ∀ c ∈ behind, Text.isBlank c = true) :
      Writes (before ++ (sign ++ digits) ++ behind)
        (Nat.ofDigits 10 (digits.map digitValue).reverse)

/-- A number that a limit can be. -/
def IsLimit (number : Nat) : Prop :=
  1 ≤ number ∧ number ≤ 2 ^ 64 - 1

/-- Reading digits from the left gives the number that they denote by their places. -/
theorem valueOfDigits_eq_ofDigits (digits : List Char) :
    valueOfDigits digits = Nat.ofDigits 10 (digits.map digitValue).reverse := by
  rw [Nat.ofDigits_eq_foldr, List.foldr_reverse, List.foldl_map]
  simp only [valueOfDigits, digitValue, Nat.cast_id, Nat.add_comm]

theorem valueOfDigits_eq_ofDigitChars (digits : List Char) :
    valueOfDigits digits = Nat.ofDigitChars 10 digits 0 :=
  Nat.ofDigitChars_eq_foldl.symm

theorem valueOfDigits_zeros_append (zeros number : Nat) :
    valueOfDigits (List.replicate zeros '0' ++ (toString number).toList) = number := by
  rw [valueOfDigits_eq_ofDigitChars, Nat.ofDigitChars_append, Nat.ofDigitChars_replicate_zero,
    Nat.mul_zero, Nat.toString_eq_repr, Nat.toList_repr, Nat.ofDigitChars_ten_toDigits]

/-! ## Blank characters around a number -/

theorem trimmed_append {before core behind : List Char}
    (blankBefore : ∀ c ∈ before, Text.isBlank c = true)
    (blankBehind : ∀ c ∈ behind, Text.isBlank c = true) (present : core ≠ [])
    (first : ∀ c ∈ core.head?, Text.isBlank c = false)
    (last : ∀ c ∈ core.getLast?, Text.isBlank c = false) :
    trimmed (before ++ core ++ behind) = core := by
  have inFront : LongestRun Text.isBlank before (core ++ behind) := by
    refine ⟨blankBefore, ?_⟩
    rwa [List.head?_append_of_ne_nil _ present]
  have fromBehind : LongestRun Text.isBlank behind.reverse core.reverse := by
    refine ⟨fun c isBehind => blankBehind c (List.mem_reverse.mp isBehind), ?_⟩
    rwa [List.head?_reverse]
  rw [trimmed, List.append_assoc, inFront.dropWhile_append, List.reverse_append,
    fromBehind.dropWhile_append, List.reverse_reverse]

theorem exists_trimmed (chars : List Char) : ∃ before behind,
    chars = before ++ trimmed chars ++ behind ∧ (∀ c ∈ before, Text.isBlank c = true) ∧
      ∀ c ∈ behind, Text.isBlank c = true := by
  let core := chars.dropWhile Text.isBlank
  refine ⟨chars.takeWhile Text.isBlank, (core.reverse.takeWhile Text.isBlank).reverse, ?_,
    List.all_eq_true.mp List.all_takeWhile, ?_⟩
  · have whole : trimmed chars ++ (core.reverse.takeWhile Text.isBlank).reverse = core := by
      rw [trimmed, ← List.reverse_append, List.takeWhile_append_dropWhile, List.reverse_reverse]
    rw [List.append_assoc, whole, List.takeWhile_append_dropWhile]
  · intro c isBehind
    exact List.all_eq_true.mp List.all_takeWhile c (List.mem_reverse.mp isBehind)

theorem isBlank_of_asciiDigit {c : Char} (digit : Spelling.AsciiDigit c) :
    Text.isBlank c = false := by
  apply Spelling.isBlank_of_isAlphanum
  rw [Char.isAlphanum, Spelling.isDigit_iff.mpr digit, Bool.or_true]

theorem trimmed_padded {before sign digits behind : List Char}
    (blankBefore : ∀ c ∈ before, Text.isBlank c = true) (isSign : sign = [] ∨ sign = ['+'])
    (present : digits ≠ []) (areDigits : ∀ c ∈ digits, Spelling.AsciiDigit c)
    (blankBehind : ∀ c ∈ behind, Text.isBlank c = true) :
    trimmed (before ++ (sign ++ digits) ++ behind) = sign ++ digits := by
  refine trimmed_append blankBefore blankBehind (List.append_ne_nil_of_right_ne_nil _ present)
    ?_ ?_
  · intro c isFirst
    rcases isSign with rfl | rfl
    · exact isBlank_of_asciiDigit (areDigits c (List.mem_of_head? isFirst))
    · cases isFirst
      decide
  · intro c isLast
    rw [List.getLast?_append_of_ne_nil _ present] at isLast
    exact isBlank_of_asciiDigit (areDigits c (List.mem_of_getLast? isLast))

/-! ## Signs -/

theorem unsigned_append {sign digits : List Char} (isSign : sign = [] ∨ sign = ['+'])
    (areDigits : ∀ c ∈ digits, Spelling.AsciiDigit c) : unsigned (sign ++ digits) = digits := by
  rcases isSign with rfl | rfl
  · unfold unsigned
    split
    · rename_i rest same
      -- A plus sign is no digit.
      exact absurd (areDigits '+' (by rw [← List.nil_append digits, same]; exact
        List.mem_cons_self)) (by unfold Spelling.AsciiDigit; decide)
    · rfl
  · rfl

theorem exists_sign (chars : List Char) :
    ∃ sign, (sign = [] ∨ sign = ['+']) ∧ chars = sign ++ unsigned chars := by
  unfold unsigned
  split
  · exact ⟨['+'], .inr rfl, rfl⟩
  · exact ⟨[], .inl rfl, rfl⟩

/-! ## Reading -/

/-- What is left of a text without the blank characters around it and without its sign tells which
number it writes. -/
theorem writes_iff {chars : List Char} {number : Nat} :
    Writes chars number ↔ unsigned (trimmed chars) ≠ [] ∧
      (∀ c ∈ unsigned (trimmed chars), c.isDigit = true) ∧
      valueOfDigits (unsigned (trimmed chars)) = number := by
  constructor
  · rintro ⟨blankBefore, isSign, present, areDigits, blankBehind⟩
    rw [trimmed_padded blankBefore isSign present areDigits blankBehind,
      unsigned_append isSign areDigits]
    exact ⟨present, fun c isDigit => Spelling.isDigit_iff.mpr (areDigits c isDigit),
      valueOfDigits_eq_ofDigits _⟩
  · rintro ⟨present, areDigits, rfl⟩
    rcases exists_trimmed chars with ⟨before, behind, whole, blankBefore, blankBehind⟩
    rcases exists_sign (trimmed chars) with ⟨sign, isSign, core⟩
    have writes := Writes.padded blankBefore isSign present
      (fun c isDigit => Spelling.isDigit_iff.mp (areDigits c isDigit)) blankBehind
    rwa [← core, ← whole, ← valueOfDigits_eq_ofDigits] at writes

theorem isLimit_iff {number : Nat} : IsLimit number ↔ 0 < number ∧ number ≤ largest :=
  Iff.rfl

theorem ofText?_eq_some_iff {text : String} {limit : Nat} :
    ofText? text = some limit ↔ Writes text.toList limit ∧ IsLimit limit := by
  simp only [ofText?, Option.ite_none_right_eq_some, Bool.and_eq_true, decide_eq_true_eq,
    List.all_eq_true, Option.some.injEq, writes_iff, isLimit_iff]
  constructor
  · rintro ⟨⟨present, areDigits⟩, inRange, rfl⟩
    exact ⟨⟨present, areDigits, rfl⟩, inRange⟩
  · rintro ⟨⟨present, areDigits, rfl⟩, inRange⟩
    exact ⟨⟨present, areDigits⟩, inRange, rfl⟩

theorem read_eq_ok_iff {name text : String} {limit : Nat} :
    read name text = .ok limit ↔ Writes text.toList limit ∧ IsLimit limit := by
  rw [← ofText?_eq_some_iff, read]
  split
  · rename_i found
    rw [found, Except.ok.injEq, Option.some.injEq]
  · rename_i absent
    simp only [absent, reduceCtorEq]

/-- A text that writes no limit is refused, and the refusal holds the whole text. -/
theorem read_eq_error_iff {name text : String} {invalid : InvalidLimit} :
    read name text = .error invalid ↔
      invalid = ⟨name, text⟩ ∧ ∀ limit, ¬ (Writes text.toList limit ∧ IsLimit limit) := by
  simp only [← ofText?_eq_some_iff]
  unfold read
  split
  · rename_i limit found
    simp [found]
  · rename_i absent
    simp [absent, eq_comm]

/-! ## Reading into a word -/

namespace Wordwise

/-- The number as a word, if a word has room for it. -/
def fitted? (number : Nat) : Option UInt64 :=
  if number < UInt64.size then some (UInt64.ofNat number) else none

/-- The number with one more digit behind those it has.  There has to be room for a further place and
then for the digit in it. -/
def putDigit? (number : UInt64) (c : Char) : Option UInt64 :=
  if c.isDigit then do
    let shifted ← fitted? (10 * number.toNat)
    fitted? (shifted.toNat + digitValue c)
  else none

/-- The limit that a text denotes, read into a word digit by digit. -/
def ofText? (text : String) : Option UInt64 :=
  let digits := unsigned (trimmed text.toList)
  if digits = [] then none else (digits.foldlM putDigit? 0).filter (0 < ·)

theorem fitted?_eq_some_iff {number : Nat} {word : UInt64} :
    fitted? number = some word ↔ word.toNat = number := by
  have room := word.toNat_lt_size
  rw [fitted?, Option.ite_none_right_eq_some, Option.some.injEq, ← UInt64.toNat_inj,
    UInt64.toNat_ofNat']
  constructor
  · rintro ⟨fits, same⟩
    rw [← same, Nat.mod_eq_of_lt fits]
  · rintro rfl
    exact ⟨room, Nat.mod_eq_of_lt room⟩

theorem putDigit?_eq_some_iff {number longer : UInt64} {c : Char} :
    putDigit? number c = some longer ↔
      c.isDigit = true ∧ longer.toNat = 10 * number.toNat + digitValue c := by
  rw [putDigit?, Option.ite_none_right_eq_some]
  refine and_congr_right fun _ => ?_
  simp only [Option.bind_eq_bind, Option.bind_eq_some_iff, fitted?_eq_some_iff]
  constructor
  · rintro ⟨shifted, isShifted, same⟩
    rw [same, isShifted]
  · intro same
    have room := longer.toNat_lt_size
    have fits : 10 * number.toNat < UInt64.size := by omega
    exact ⟨UInt64.ofNat (10 * number.toNat), UInt64.toNat_ofNat_of_lt' fits,
      by rw [UInt64.toNat_ofNat_of_lt' fits, same]⟩

/-- Further digits make no number smaller. -/
theorem le_ofDigitChars (digits : List Char) (number : Nat) :
    number ≤ Nat.ofDigitChars 10 digits number := by
  rw [Nat.ofDigitChars_eq_ofDigitChars_zero]
  exact Nat.le_add_right_of_le (Nat.le_mul_of_pos_left _ (Nat.pow_pos (by decide)))

/-- Digits can be put behind a number one by one exactly if the number that they lead to fits. -/
theorem foldlM_putDigit?_eq_some_iff {digits : List Char} {number longer : UInt64} :
    digits.foldlM putDigit? number = some longer ↔
      (∀ c ∈ digits, c.isDigit = true) ∧
        longer.toNat = Nat.ofDigitChars 10 digits number.toNat := by
  induction digits generalizing number with
  | nil =>
      rw [List.foldlM_nil, Nat.ofDigitChars_nil, Option.pure_def, Option.some.injEq,
        ← UInt64.toNat_inj]
      exact ⟨fun same => ⟨fun _ impossible => absurd impossible List.not_mem_nil, same.symm⟩,
        fun fits => fits.2.symm⟩
  | cons c later inductionHypothesis =>
      simp only [List.foldlM_cons, Option.bind_eq_bind, Option.bind_eq_some_iff,
        putDigit?_eq_some_iff, inductionHypothesis, List.forall_mem_cons, Nat.ofDigitChars_cons]
      constructor
      · rintro ⟨next, ⟨isDigit, isNext⟩, areDigits, same⟩
        exact ⟨⟨isDigit, areDigits⟩, by rw [same, isNext]; rfl⟩
      · rintro ⟨⟨isDigit, areDigits⟩, same⟩
        -- The digits behind this one make the number no smaller, so it fits as well.
        have fits : 10 * number.toNat + digitValue c < UInt64.size :=
          Nat.lt_of_le_of_lt (le_ofDigitChars later _) (same ▸ longer.toNat_lt_size)
        have isNext := UInt64.toNat_ofNat_of_lt' fits
        exact ⟨UInt64.ofNat _, ⟨isDigit, isNext⟩, areDigits, by rw [same, isNext]; rfl⟩

/-- There is room for every number on the way to a limit, and for none on the way to a number that
is too large. -/
theorem ofText?_eq (text : String) : (ofText? text).map UInt64.toNat = Limits.ofText? text := by
  ext limit
  simp only [Limits.ofText?_eq_some_iff, writes_iff, isLimit_iff, Option.map_eq_some_iff, ofText?,
    Option.ite_none_left_eq_some, Option.filter_eq_some_iff, decide_eq_true_eq,
    foldlM_putDigit?_eq_some_iff, valueOfDigits_eq_ofDigitChars, UInt64.lt_iff_toNat_lt,
    UInt64.toNat_zero]
  constructor
  · rintro ⟨word, ⟨present, ⟨areDigits, same⟩, positive⟩, rfl⟩
    exact ⟨⟨present, areDigits, same.symm⟩, positive, Nat.le_pred_of_lt word.toNat_lt_size⟩
  · rintro ⟨⟨present, areDigits, same⟩, positive, fits⟩
    have isWord := UInt64.toNat_ofNat_of_lt' (Nat.lt_of_le_pred (by decide) fits)
    refine ⟨UInt64.ofNat limit, ⟨present, ⟨areDigits, ?_⟩, ?_⟩, isWord⟩
    · rw [isWord, same]
    · rwa [isWord]

end Wordwise

/-! ## Limits in decimal -/

theorem writes_toString {before sign behind : List Char} (zeros limit : Nat)
    (blank : ∀ c ∈ before ++ behind, Text.isBlank c = true) (isSign : sign = [] ∨ sign = ['+']) :
    Writes (before ++ (sign ++ (List.replicate zeros '0' ++ (toString limit).toList)) ++ behind)
      limit := by
  have decimal : (toString limit).toList = Nat.toDigits 10 limit := by
    rw [Nat.toString_eq_repr, Nat.toList_repr]
  have areDigits : ∀ c ∈ List.replicate zeros '0' ++ (toString limit).toList,
      Spelling.AsciiDigit c := by
    intro c listed
    rw [decimal] at listed
    rcases List.mem_append.mp listed with zero | digit
    · rw [List.eq_of_mem_replicate zero]
      exact Spelling.isDigit_iff.mp (by decide)
    · exact Spelling.isDigit_iff.mp (Nat.isDigit_of_mem_toDigits (by decide) (by decide) digit)
  have present : List.replicate zeros '0' ++ (toString limit).toList ≠ [] := by
    rw [decimal]
    exact List.append_ne_nil_of_right_ne_nil _ Nat.toDigits_ne_nil
  rcases List.forall_mem_append.mp blank with ⟨blankBefore, blankBehind⟩
  have writes := Writes.padded blankBefore isSign present areDigits blankBehind
  rwa [← valueOfDigits_eq_ofDigits, valueOfDigits_zeros_append] at writes

/-- Reading a limit is exact: the limits that are written are read, nothing else is, and a refusal
holds the name and the text as they stand.  A reader that holds no more than a word reads the same.
Every limit in decimal is read back, behind any zeros, with or without a sign, and between any blank
characters. -/
theorem read_written (name : String) :
    (∀ text limit, read name text = .ok limit ↔ Writes text.toList limit ∧ IsLimit limit) ∧
      (∀ text invalid, read name text = .error invalid ↔
        invalid = ⟨name, text⟩ ∧ ∀ limit, ¬ (Writes text.toList limit ∧ IsLimit limit)) ∧
      (∀ text, (Wordwise.ofText? text).map UInt64.toNat = ofText? text) ∧
      ∀ before sign zeros limit behind, (∀ c ∈ before ++ behind, Text.isBlank c = true) →
        sign = [] ∨ sign = ['+'] → IsLimit limit →
        read name (String.ofList (before ++
          (sign ++ (List.replicate zeros '0' ++ (toString limit).toList)) ++ behind)) =
            .ok limit := by
  refine ⟨fun _ _ => read_eq_ok_iff, fun _ _ => read_eq_error_iff, Wordwise.ofText?_eq, ?_⟩
  intro before sign zeros limit behind blank isSign isLimit
  rw [read_eq_ok_iff, String.toList_ofList]
  exact ⟨writes_toString zeros limit blank isSign, isLimit⟩

/-- The largest limit is read between an ideographic space and a line feed, with a sign and two zeros
in front of it, and the number behind it is not. -/
theorem read_written_largest :
    IsLimit 18446744073709551615 ∧
      read "--max-depth" (String.ofList (['\u3000'] ++
        (['+'] ++ (List.replicate 2 '0' ++ (toString 18446744073709551615).toList)) ++ ['\n'])) =
          .ok 18446744073709551615 ∧
      read "--max-depth" " 18446744073709551616 " =
        .error ⟨"--max-depth", " 18446744073709551616 "⟩ := by
  have isLimit : IsLimit 18446744073709551615 := by
    unfold IsLimit
    decide
  have exact := read_written "--max-depth"
  have blank : ∀ c ∈ ['\u3000'] ++ ['\n'], Text.isBlank c = true := List.all_eq_true.mp (by decide)
  refine ⟨isLimit, exact.2.2.2 _ _ _ _ _ blank (.inr rfl) isLimit, ?_⟩
  decide +kernel

end Limits
end ExpressionChecker

import ExpressionChecker.Token.Stream
import Mathlib.Data.List.DropRight

namespace ExpressionChecker

/-!
# Places and what lies in front of them

Positions and places are kept up step by step, but what they say depends on nothing except the
characters passed over since the start of the text.  The line counts the line feeds among them, the
column the characters behind the last line feed, and the offset their bytes.  Every place that a
scan comes by is of this kind, so what is found there is the text behind those characters.
-/

/-! ## Positions -/

namespace Position

/-- The position behind some characters at the start of a text. -/
def behind (passed : List Char) : Position :=
  ⟨1 + passed.count '\n', 1 + (passed.rtakeWhile (· ≠ '\n')).length⟩

theorem afterAll_append (position : Position) (first second : List Char) :
    position.afterAll (first ++ second) = (position.afterAll first).afterAll second :=
  List.foldl_append

theorem afterAll_start (passed : List Char) : start.afterAll passed = behind passed := by
  induction passed using List.reverseRecOn with
  | nil => rfl
  | append_singleton passed c inductionHypothesis =>
      rw [afterAll_append, inductionHypothesis]
      by_cases lineFeed : c = '\n'
      · subst lineFeed
        simp [afterAll, after, behind, Nat.add_assoc]
      · simp [afterAll, after, behind, lineFeed, Nat.add_assoc]

/-- The order in which positions are read: by lines, and by columns within a line. -/
def Before (first second : Position) : Prop :=
  first.line < second.line ∨ first.line = second.line ∧ first.column < second.column

theorem Before.trans {first second third : Position} (former : first.Before second)
    (latter : second.Before third) : first.Before third := by
  unfold Before at *
  omega

theorem Before.ne {first second : Position} (before : first.Before second) : first ≠ second := by
  rintro rfl
  rcases before with line | column
  · exact Nat.lt_irrefl _ line
  · exact Nat.lt_irrefl _ column.2

theorem before_after (position : Position) (c : Char) : position.Before (position.after c) := by
  unfold after
  split
  · exact Or.inl (Nat.lt_succ_self _)
  · exact Or.inr ⟨rfl, Nat.lt_succ_self _⟩

/-- Passing over characters leads on. -/
theorem before_afterAll (position : Position) {passed : List Char} (some : passed ≠ []) :
    position.Before (position.afterAll passed) := by
  induction passed generalizing position with
  | nil => exact absurd rfl some
  | cons c later inductionHypothesis =>
      cases later with
      | nil => exact position.before_after c
      | cons next later =>
          exact (position.before_after c).trans
            (inductionHypothesis (position.after c) (List.cons_ne_nil _ _))

/-- Lines and columns count no more than characters. -/
theorem behind_le (passed : List Char) :
    (behind passed).line ≤ passed.length + 1 ∧ (behind passed).column ≤ passed.length + 1 := by
  have lines : passed.count '\n' ≤ passed.length := List.count_le_length
  have columns : (passed.rtakeWhile (· ≠ '\n')).length ≤ passed.length :=
    (List.rtakeWhile_suffix _ _).length_le
  simp only [behind]
  omega

end Position

/-! ## Bytes -/

namespace Text

/-- The number of bytes that encode some characters. -/
def byteCount (chars : List Char) : Nat :=
  (String.ofList chars).utf8ByteSize

theorem byteCount_nil : byteCount [] = 0 := by
  rw [byteCount, String.ofList_nil, String.utf8ByteSize_empty]

theorem byteCount_cons (c : Char) (chars : List Char) :
    byteCount (c :: chars) = c.utf8Size + byteCount chars := by
  rw [byteCount, String.ofList_cons, String.utf8ByteSize_append, String.utf8ByteSize_singleton]
  rfl

theorem byteCount_append (first second : List Char) :
    byteCount (first ++ second) = byteCount first + byteCount second := by
  rw [byteCount, String.ofList_append, String.utf8ByteSize_append]
  rfl

/-- Every character has at least one byte. -/
theorem length_le_byteCount (chars : List Char) : chars.length ≤ byteCount chars := by
  induction chars with
  | nil => exact Nat.zero_le _
  | cons c later inductionHypothesis =>
      have positive := c.utf8Size_pos
      rw [List.length_cons, byteCount_cons]
      omega

/-- A text splits behind any of its characters. -/
theorem splitAtByte?_byteCount (passed rest : List Char) :
    splitAtByte? (byteCount passed) (passed ++ rest) = some (passed, rest) := by
  induction passed with
  | nil =>
      rw [byteCount_nil, splitAtByte?]
      rfl
  | cons c later inductionHypothesis =>
      have positive := c.utf8Size_pos
      rw [byteCount_cons]
      cases total : c.utf8Size + byteCount later with
      | zero => omega
      | succ bytes =>
          have fits : c.utf8Size ≤ bytes + 1 := by omega
          have remaining : bytes + 1 - c.utf8Size = byteCount later := by omega
          rw [List.cons_append, splitAtByte?, if_pos fits, remaining, inductionHypothesis]
          rfl

/-- A text splits behind so many bytes exactly if they encode its first characters. -/
theorem splitAtByte?_eq_some_iff {bytes : Nat} {chars passed rest : List Char} :
    splitAtByte? bytes chars = some (passed, rest) ↔
      chars = passed ++ rest ∧ bytes = byteCount passed := by
  constructor
  · intro splits
    fun_induction splitAtByte? bytes chars generalizing passed with
    | case1 chars =>
        cases splits
        exact ⟨rfl, byteCount_nil.symm⟩
    | case2 bytes => cases splits
    | case3 bytes c later fits inductionHypothesis =>
        rcases Option.map_eq_some_iff.mp splits with ⟨⟨passed', rest'⟩, found, same⟩
        cases same
        rcases inductionHypothesis found with ⟨rfl, remaining⟩
        refine ⟨rfl, ?_⟩
        change bytes + 1 = byteCount (c :: passed')
        rw [byteCount_cons]
        omega
    | case4 bytes c later tooLong => cases splits
  · rintro ⟨rfl, rfl⟩
    exact splitAtByte?_byteCount passed rest

/-- A text that has the bytes of some characters at its front begins with these characters. -/
theorem isPrefix_of_extract {front : List Char} {text text' : String}
    (begins : front <+: text.toList)
    (same : text'.toUTF8.extract 0 (byteCount front) = text.toUTF8.extract 0 (byteCount front)) :
    front <+: text'.toList := by
  rcases begins with ⟨rest, whole⟩
  have size : byteCount front = front.utf8Encode.size := by
    rw [← String.toByteArray_ofList]
    rfl
  have atFront : text.toUTF8.extract 0 (byteCount front) = front.utf8Encode := by
    rw [String.toUTF8_eq_toByteArray, ← String.utf8Encode_toList, ← whole, List.utf8Encode_append,
      ByteArray.extract_append_eq_left size]
  have bytes : front.utf8Encode ++ text'.toUTF8.extract (byteCount front) text'.toUTF8.size =
      text'.toList.utf8Encode := by
    rw [← atFront, ← same, ByteArray.extract_append_extract, Nat.zero_min,
      ByteArray.extract_zero_max_size, String.utf8Encode_toList, String.toUTF8_eq_toByteArray]
  exact List.isPrefix_of_utf8Encode_append_eq_utf8Encode _ bytes

end Text

/-! ## Places -/

namespace Place

theorem afterAll_append (place : Place) (first second : List Char) :
    place.afterAll (first ++ second) = (place.afterAll first).afterAll second :=
  List.foldl_append

theorem afterAll_eq (place : Place) (passed : List Char) :
    place.afterAll passed =
      ⟨place.offset + Text.byteCount passed, place.position.afterAll passed⟩ := by
  induction passed generalizing place with
  | nil => rfl
  | cons c later inductionHypothesis =>
      have step : place.afterAll (c :: later) = (place.after c).afterAll later := rfl
      rw [step, inductionHypothesis, Text.byteCount_cons, ← Nat.add_assoc]
      rfl

/-- The offset of the place lies behind the characters `passed` of a text, where `rest` remains.
Its position may be any. -/
structure Divides (place : Place) (text : String) (passed rest : List Char) : Prop where
  whole : text.toList = passed ++ rest
  offset_eq : place.offset = Text.byteCount passed

namespace Divides

variable {place : Place} {text : String} {passed rest : List Char}

theorem remaining_eq (divides : place.Divides text passed rest) : place.remaining text = rest := by
  rw [remaining, divides.offset_eq, divides.whole, Text.splitAtByte?_byteCount]

theorem afterAll {more later : List Char} (divides : place.Divides text passed rest)
    (follows : rest = more ++ later) :
    (place.afterAll more).Divides text (passed ++ more) later where
  whole := by rw [divides.whole, follows, List.append_assoc]
  offset_eq := by rw [afterAll_eq, divides.offset_eq, Text.byteCount_append]

theorem offset_le (divides : place.Divides text passed rest) :
    place.offset ≤ text.utf8ByteSize := by
  have bytes : text.utf8ByteSize = Text.byteCount passed + Text.byteCount rest := by
    rw [← Text.byteCount_append, ← divides.whole, Text.byteCount, String.ofList_toList]
  rw [divides.offset_eq]
  omega

end Divides

/-- A place that has something in front of it lies between two characters. -/
theorem exists_divides {place : Place} {text : String} (remains : place.remaining text ≠ []) :
    ∃ passed, place.Divides text passed (place.remaining text) := by
  unfold remaining at remains ⊢
  split at remains
  · rename_i passed rest splits
    rcases Text.splitAtByte?_eq_some_iff.mp splits with ⟨whole, bytes⟩
    exact ⟨passed, whole, bytes⟩
  · exact absurd rfl remains

/-- The place is the one behind the characters `passed` of a text, where `rest` remains. -/
structure Marks (place : Place) (text : String) (passed rest : List Char) : Prop where
  whole : text.toList = passed ++ rest
  same : place = start.afterAll passed

namespace Marks

variable {place : Place} {text : String} {passed rest : List Char}

theorem offset_eq (marks : place.Marks text passed rest) :
    place.offset = Text.byteCount passed := by
  rw [marks.same, afterAll_eq]
  exact Nat.zero_add _

theorem position_eq (marks : place.Marks text passed rest) :
    place.position = .behind passed := by
  rw [marks.same, afterAll_eq]
  exact Position.afterAll_start passed

theorem remaining_eq (marks : place.Marks text passed rest) : place.remaining text = rest := by
  rw [remaining, marks.offset_eq, marks.whole, Text.splitAtByte?_byteCount]

theorem start (text : String) : Place.start.Marks text [] text.toList :=
  ⟨rfl, rfl⟩

/-- Passing over what follows leads to a place behind it. -/
theorem afterAll {more later : List Char} (marks : place.Marks text passed rest)
    (follows : rest = more ++ later) : (place.afterAll more).Marks text (passed ++ more) later where
  whole := by rw [marks.whole, follows, List.append_assoc]
  same := by rw [marks.same, afterAll_append]

end Marks

/-- The places that a scan of a text comes by: the first one, and those to which it advances or
scans a token from there. -/
inductive Reached (text : String) : Place → Prop where
  | start : Reached text .start
  | advance {place : Place} (reached : Reached text place) : Reached text (place.advance text)
  | advanceBy {place : Place} (reached : Reached text place) (count : Nat) :
      Reached text (place.advanceBy text count)
  | scan {place : Place} (reached : Reached text place) : Reached text (Token.scan text place).2

theorem Reached.exists_marks {text : String} {place : Place} (reached : Reached text place) :
    ∃ passed rest, place.Marks text passed rest := by
  induction reached with
  | start => exact ⟨_, _, .start text⟩
  | @advance place _ inductionHypothesis =>
      rcases inductionHypothesis with ⟨passed, rest, marks⟩
      unfold Place.advance next?
      rw [marks.remaining_eq]
      cases rest with
      | nil => exact ⟨_, _, marks⟩
      | cons c later =>
          have follows : c :: later = [c] ++ later := rfl
          exact ⟨_, _, marks.afterAll follows⟩
  | @advanceBy place _ count inductionHypothesis =>
      rcases inductionHypothesis with ⟨passed, rest, marks⟩
      unfold Place.advanceBy
      rw [marks.remaining_eq]
      exact ⟨_, _, marks.afterAll (List.take_append_drop count rest).symm⟩
  | @scan place _ inductionHypothesis =>
      rcases inductionHypothesis with ⟨passed, rest, marks⟩
      unfold Token.scan
      rw [marks.remaining_eq]
      have gap := marks.afterAll (Layout.split_append .blank rest).symm
      exact ⟨_, _, gap.afterAll (Reading.first_append _).symm⟩

end Place
end ExpressionChecker

import ExpressionChecker.Proofs.Place
import Mathlib.Logic.Function.Iterate

namespace ExpressionChecker

/-!
# Boundaries between characters

A place holds a byte offset, and any number may be one.  Where the offset is a boundary between two
characters, the place moves by whole characters: moves add up, a move passes over as many characters
as it says while there are any, and what stands between two boundaries is spelt by the bytes between
their offsets.  Everywhere else, past the end of the text or inside a character, there is nothing in
front of a place, and it does not move.
-/

namespace Text

/-- A text does not split behind so many bytes exactly if it has fewer, or if they end inside one of
its characters. -/
theorem splitAtByte?_eq_none_iff {bytes : Nat} {chars : List Char} :
    splitAtByte? bytes chars = none ↔ byteCount chars < bytes ∨
      ∃ passed c rest, chars = passed ++ c :: rest ∧ byteCount passed < bytes ∧
        bytes < byteCount passed + c.utf8Size := by
  fun_induction splitAtByte? bytes chars with
  | case1 chars =>
      constructor
      · intro impossible
        cases impossible
      · rintro (tooShort | ⟨_, _, _, _, behind, _⟩)
        · exact absurd tooShort (Nat.not_lt_zero _)
        · exact absurd behind (Nat.not_lt_zero _)
  | case2 bytes =>
      refine ⟨fun _ => Or.inl ?_, fun _ => rfl⟩
      rw [byteCount_nil]
      exact Nat.succ_pos bytes
  | case3 bytes c later fits inductionHypothesis =>
      rw [Option.map_eq_none_iff, inductionHypothesis, byteCount_cons]
      constructor
      · rintro (tooShort | ⟨passed, c', rest, rfl, behind, before⟩)
        · exact Or.inl (by omega)
        · refine Or.inr ⟨c :: passed, c', rest, rfl, ?_, ?_⟩
          · rw [byteCount_cons]
            omega
          · rw [byteCount_cons]
            omega
      · rintro (tooShort | ⟨passed, c', rest, whole, behind, before⟩)
        · exact Or.inl (by omega)
        · cases passed with
          | nil =>
              cases whole
              rw [byteCount_nil] at before
              omega
          | cons first passed =>
              cases whole
              rw [byteCount_cons] at behind before
              exact Or.inr ⟨passed, c', rest, rfl, by omega, by omega⟩
  | case4 bytes c later tooLong =>
      have inFirst : byteCount [] < bytes + 1 ∧ bytes + 1 < byteCount [] + c.utf8Size := by
        rw [byteCount_nil]
        omega
      exact ⟨fun _ => Or.inr ⟨[], c, later, rfl, inFirst⟩, fun _ => rfl⟩

end Text

namespace Place

variable {place stop : Place} {text : String} {passed passed' rest rest' : List Char}

/-! ## Boundaries -/

/-- The offset of the place is a boundary of the encoded text: a character begins there, or the text
ends.  The line and the column of the place may be any. -/
def IsBoundary (place : Place) (text : String) : Prop :=
  String.Pos.Raw.IsValid text ⟨place.offset⟩

/-- The offset of the place lies between two bytes of one character. -/
def IsInside (place : Place) (text : String) : Prop :=
  ∃ passed c rest, text.toList = passed ++ c :: rest ∧ Text.byteCount passed < place.offset ∧
    place.offset < Text.byteCount passed + c.utf8Size

theorem isBoundary_iff : place.IsBoundary text ↔ ∃ passed rest, place.Divides text passed rest := by
  unfold IsBoundary
  rw [String.Pos.Raw.isValid_iff_exists_append]
  constructor
  · rintro ⟨before, behind, rfl, offset⟩
    refine ⟨before.toList, behind.toList, String.toList_append, ?_⟩
    rw [Text.byteCount, String.ofList_toList]
    exact congrArg String.Pos.Raw.byteIdx offset
  · rintro ⟨passed, rest, divides⟩
    refine ⟨String.ofList passed, String.ofList rest, ?_, ?_⟩
    · rw [← String.ofList_append, ← divides.whole, String.ofList_toList]
    · ext
      exact divides.offset_eq

theorem isBoundary_iff_splitAtByte? :
    place.IsBoundary text ↔ Text.splitAtByte? place.offset text.toList ≠ none := by
  rw [isBoundary_iff, Option.ne_none_iff_exists']
  constructor
  · rintro ⟨passed, rest, divides⟩
    exact ⟨(passed, rest), Text.splitAtByte?_eq_some_iff.mpr ⟨divides.whole, divides.offset_eq⟩⟩
  · rintro ⟨⟨passed, rest⟩, splits⟩
    rcases Text.splitAtByte?_eq_some_iff.mp splits with ⟨whole, offset⟩
    exact ⟨passed, rest, whole, offset⟩

/-- An offset that is no boundary lies past the end of the text or inside a character. -/
theorem not_isBoundary_iff :
    ¬ place.IsBoundary text ↔ text.utf8ByteSize < place.offset ∨ place.IsInside text := by
  rw [isBoundary_iff_splitAtByte?, not_ne_iff, Text.splitAtByte?_eq_none_iff, Text.byteCount,
    String.ofList_toList]
  rfl

theorem remaining_of_not_isBoundary (between : ¬ place.IsBoundary text) :
    place.remaining text = [] := by
  have nothing := not_ne_iff.mp (mt isBoundary_iff_splitAtByte?.mpr between)
  rw [remaining, nothing]

/-! ## Moves -/

theorem advance_eq_advanceBy (place : Place) (text : String) :
    place.advance text = place.advanceBy text 1 := by
  unfold advance next? advanceBy
  cases place.remaining text <;> rfl

theorem advanceBy_of_not_isBoundary (between : ¬ place.IsBoundary text) (count : Nat) :
    place.advanceBy text count = place := by
  rw [advanceBy, remaining_of_not_isBoundary between, List.take_nil]
  rfl

/-- A move passes over characters until none are left. -/
theorem remaining_advanceBy (place : Place) (text : String) (count : Nat) :
    (place.advanceBy text count).remaining text = (place.remaining text).drop count := by
  by_cases boundary : place.IsBoundary text
  · rcases isBoundary_iff.mp boundary with ⟨passed, rest, divides⟩
    rw [advanceBy, divides.remaining_eq]
    exact (divides.afterAll (List.take_append_drop count rest).symm).remaining_eq
  · rw [advanceBy_of_not_isBoundary boundary, remaining_of_not_isBoundary boundary, List.drop_nil]

theorem advanceBy_add (place : Place) (text : String) (first second : Nat) :
    place.advanceBy text (first + second) =
      (place.advanceBy text first).advanceBy text second := by
  have later : (place.advanceBy text first).advanceBy text second =
      (place.advanceBy text first).afterAll (((place.remaining text).drop first).take second) := by
    rw [← remaining_advanceBy]
    rfl
  rw [later, advanceBy, advanceBy, List.take_add, afterAll_append]

/-- A move by several characters is made one character at a time. -/
theorem advanceBy_eq_iterate (place : Place) (text : String) (count : Nat) :
    place.advanceBy text count = (fun place => place.advance text)^[count] place := by
  induction count generalizing place with
  | zero => rfl
  | succ count inductionHypothesis =>
      rw [Function.iterate_succ_apply, ← inductionHypothesis, advance_eq_advanceBy,
        ← advanceBy_add, Nat.add_comm]

theorem second?_eq (place : Place) (text : String) :
    place.second? text = (place.advance text).next? text := by
  rw [second?, next?, advance_eq_advanceBy, remaining_advanceBy, List.head?_drop]

/-! ## What stands between two places -/

/-- The text between two places is made of the characters that encode to the bytes between them. -/
theorem Divides.slice_eq {more later : List Char}
    (divides : place.Divides text passed (more ++ later))
    (offset : stop.offset = place.offset + Text.byteCount more) :
    place.slice text stop = String.ofList more := by
  have ordered : ¬ stop.offset < place.offset := by omega
  have between : stop.offset - place.offset = Text.byteCount more := by omega
  rw [slice, if_neg ordered, between, divides.offset_eq, divides.whole,
    Text.splitAtByte?_byteCount]
  simp only [Text.splitAtByte?_byteCount]

/-- What lies in front of the first of two places and not of the second lies between them. -/
theorem Divides.exists_between (first : place.Divides text passed rest)
    (last : stop.Divides text passed' rest') (ordered : place.offset ≤ stop.offset) :
    ∃ more, passed' = passed ++ more ∧ rest = more ++ rest' := by
  rcases List.append_eq_append_iff.mp (first.whole.symm.trans last.whole) with
    ⟨more, front, behind⟩ | ⟨more, front, behind⟩
  · exact ⟨more, front, behind⟩
  · -- Here the second place is not behind the first, so by their order they are at the same offset.
    have bytes : Text.byteCount passed = Text.byteCount passed' + Text.byteCount more := by
      rw [front, Text.byteCount_append]
    have short := Text.length_le_byteCount more
    rw [first.offset_eq, last.offset_eq] at ordered
    have nothing : more = [] := List.eq_nil_of_length_eq_zero (by omega)
    subst nothing
    refine ⟨[], ?_, ?_⟩
    · rw [front, List.append_nil, List.append_nil]
    · exact behind.symm

/-- There is no text between two places if one of them is no boundary. -/
theorem slice_eq_empty (between : ¬ (place.IsBoundary text ∧ stop.IsBoundary text)) :
    place.slice text stop = "" := by
  unfold slice
  split
  · rfl
  · rename_i ordered
    split
    · rfl
    · rename_i passed rest splits
      split
      · rfl
      · rename_i more later splits'
        rcases Text.splitAtByte?_eq_some_iff.mp splits with ⟨whole, offset⟩
        rcases Text.splitAtByte?_eq_some_iff.mp splits' with ⟨follows, offset'⟩
        have divides : stop.Divides text (passed ++ more) later := by
          refine ⟨?_, ?_⟩
          · rw [whole, follows, List.append_assoc]
          · rw [Text.byteCount_append]
            omega
        refine absurd ⟨?_, ?_⟩ between
        · exact isBoundary_iff.mpr ⟨passed, rest, whole, offset⟩
        · exact isBoundary_iff.mpr ⟨passed ++ more, later, divides⟩

/-- The text between two boundaries has the bytes between their offsets. -/
theorem toByteArray_slice (first : place.IsBoundary text) (last : stop.IsBoundary text)
    (ordered : place.offset ≤ stop.offset) :
    (place.slice text stop).toByteArray =
      text.toByteArray.extract place.offset stop.offset := by
  rcases isBoundary_iff.mp first with ⟨passed, rest, divides⟩
  rcases isBoundary_iff.mp last with ⟨passed', rest', divides'⟩
  rcases divides.exists_between divides' ordered with ⟨more, rfl, rfl⟩
  have offset : stop.offset = place.offset + Text.byteCount more := by
    rw [divides.offset_eq, divides'.offset_eq, Text.byteCount_append]
  -- The characters in front of, between and behind the places encode to three pieces of the bytes.
  have whole : text.toByteArray = (String.ofList passed).toByteArray ++
      ((String.ofList more).toByteArray ++ (String.ofList rest').toByteArray) := by
    rw [← String.toByteArray_append, ← String.toByteArray_append, ← String.ofList_append,
      ← String.ofList_append, ← divides.whole, String.ofList_toList]
  have extracted := ByteArray.extract_append_size_add (a := (String.ofList passed).toByteArray)
    (b := (String.ofList more).toByteArray ++ (String.ofList rest').toByteArray)
    (i := 0) (j := Text.byteCount more)
  rw [divides.slice_eq offset, offset, divides.offset_eq, whole]
  exact (extracted.trans (ByteArray.extract_append_eq_left rfl)).symm

/-- Of three boundaries in a row, the texts between neighbours make up the whole. -/
theorem slice_append {middle last : Place} (isFirst : place.IsBoundary text)
    (isMiddle : middle.IsBoundary text) (isLast : last.IsBoundary text)
    (before : place.offset ≤ middle.offset) (behind : middle.offset ≤ last.offset) :
    place.slice text middle ++ middle.slice text last = place.slice text last := by
  rw [← String.toByteArray_inj, String.toByteArray_append, toByteArray_slice isFirst isMiddle before,
    toByteArray_slice isMiddle isLast behind,
    toByteArray_slice isFirst isLast (Nat.le_trans before behind),
    ByteArray.extract_append_extract, Nat.min_eq_left before, Nat.max_eq_right behind]

/-- The texts between each of the places and the next, the first of them being `place`. -/
def slicesAlong (place : Place) (text : String) : List Place → List String
  | [] => []
  | stop :: stops => place.slice text stop :: stop.slicesAlong text stops

/-- The places are boundaries, and none of them lies in front of an earlier one. -/
structure InReadingOrder (places : List Place) (text : String) : Prop where
  boundary : ∀ place ∈ places, place.IsBoundary text
  ordered : places.Pairwise fun earlier later => earlier.offset ≤ later.offset

theorem join_slicesAlong {stops : List Place} (inOrder : InReadingOrder (place :: stops) text) :
    String.join (place.slicesAlong text stops) = place.slice text (stops.getLastD place) := by
  induction stops generalizing place with
  | nil =>
      rcases isBoundary_iff.mp (inOrder.boundary place List.mem_cons_self) with ⟨passed, rest, divides⟩
      have divides' : place.Divides text passed ([] ++ rest) := divides
      have nothing : place.slice text place = String.ofList [] := by
        apply divides'.slice_eq
        rw [Text.byteCount_nil, Nat.add_zero]
      rw [List.getLastD_nil, nothing]
      rfl
  | cons stop stops inductionHypothesis =>
      rcases List.forall_mem_cons.mp inOrder.boundary with ⟨isFirst, areBoundaries⟩
      rcases List.pairwise_cons.mp inOrder.ordered with ⟨before, ordered⟩
      have isLast : stops.getLastD stop ∈ stop :: stops := List.getLastD_mem_cons
      have behind : stop.offset ≤ (stops.getLastD stop).offset := by
        rcases List.mem_cons.mp isLast with same | further
        · rw [same]
        · exact (List.pairwise_cons.mp ordered).1 _ further
      rw [slicesAlong, String.join_cons, inductionHypothesis ⟨areBoundaries, ordered⟩,
        List.getLastD_cons]
      exact slice_append isFirst (areBoundaries stop List.mem_cons_self)
        (areBoundaries _ isLast) (before stop List.mem_cons_self) behind

/-! ## How places move -/

/-- The place, behind the characters `passed` of a text and in front of the characters `rest`, moves
by whole characters. -/
structure MovesByCharacters (place : Place) (text : String) (passed rest : List Char) : Prop where
  next : place.next? text = rest.head?
  second : place.second? text = (place.advance text).next? text
  steps : ∀ count, place.advanceBy text count = (fun place => place.advance text)^[count] place
  adds : ∀ first second, place.advanceBy text (first + second) =
    (place.advanceBy text first).advanceBy text second
  lands : ∀ count, ∃ more later, rest = more ++ later ∧ more.length = min count rest.length ∧
    (place.advanceBy text count).Divides text (passed ++ more) later ∧
    place.slice text (place.advanceBy text count) = String.ofList more
  bytes : ∀ stop : Place, stop.IsBoundary text → place.offset ≤ stop.offset →
    (place.slice text stop).toByteArray = text.toByteArray.extract place.offset stop.offset
  joins : ∀ stops, InReadingOrder (place :: stops) text →
    String.join (place.slicesAlong text stops) = place.slice text (stops.getLastD place)

/-- There is nothing in front of the place, and it does not move. -/
structure IsStuck (place : Place) (text : String) : Prop where
  next : place.next? text = none
  second : place.second? text = none
  stays : place.advance text = place
  staysBy : ∀ count, place.advanceBy text count = place
  behind : ∀ stop : Place, place.slice text stop = ""
  before : ∀ start : Place, start.slice text place = ""

theorem Divides.movesByCharacters (divides : place.Divides text passed rest) :
    place.MovesByCharacters text passed rest where
  next := by rw [next?, divides.remaining_eq]
  second := place.second?_eq text
  steps := place.advanceBy_eq_iterate text
  adds := place.advanceBy_add text
  lands := by
    intro count
    have splits : rest = rest.take count ++ rest.drop count := (List.take_append_drop count rest).symm
    have moved : place.advanceBy text count = place.afterAll (rest.take count) := by
      rw [advanceBy, divides.remaining_eq]
    refine ⟨rest.take count, rest.drop count, splits, List.length_take, ?_, ?_⟩
    · rw [moved]
      exact divides.afterAll splits
    · apply Divides.slice_eq (splits ▸ divides)
      rw [moved, afterAll_eq]
  bytes := fun _ isLast ordered => toByteArray_slice (isBoundary_iff.mpr ⟨_, _, divides⟩) isLast ordered
  joins := fun _ inOrder => join_slicesAlong inOrder

theorem isStuck_of_not_isBoundary (between : ¬ place.IsBoundary text) : place.IsStuck text where
  next := by rw [next?, remaining_of_not_isBoundary between, List.head?_nil]
  second := by rw [second?, remaining_of_not_isBoundary between, List.getElem?_nil]
  stays := by rw [advance_eq_advanceBy, advanceBy_of_not_isBoundary between]
  staysBy := advanceBy_of_not_isBoundary between
  behind := fun _ => slice_eq_empty fun boundaries => between boundaries.1
  before := fun _ => slice_eq_empty fun boundaries => between boundaries.2

/-- A place at a boundary moves by whole characters, and every other place is past the end of the text
or inside a character and does not move. -/
theorem moves_by_characters (place : Place) (text : String) :
    (place.IsBoundary text → ∃ passed rest, place.Divides text passed rest ∧
      place.MovesByCharacters text passed rest) ∧
    (¬ place.IsBoundary text ↔ text.utf8ByteSize < place.offset ∨ place.IsInside text) ∧
    (¬ place.IsBoundary text → place.IsStuck text) := by
  refine ⟨fun boundary => ?_, not_isBoundary_iff, isStuck_of_not_isBoundary⟩
  rcases isBoundary_iff.mp boundary with ⟨passed, rest, divides⟩
  exact ⟨passed, rest, divides, divides.movesByCharacters⟩

/-- The euro sign has three bytes, so there is a place in front of it and one inside it. -/
theorem moves_by_characters_multibyte :
    let text := "a€b"
    let front : Place := ⟨1, ⟨1, 2⟩⟩
    let inside : Place := ⟨3, ⟨1, 2⟩⟩
    front.IsBoundary text ∧ inside.IsInside text ∧ inside.IsStuck text ∧
      ∃ passed rest, front.Divides text passed rest ∧
        front.MovesByCharacters text passed rest := by
  intro text front inside
  have isFront : front.IsBoundary text :=
    isBoundary_iff.mpr ⟨['a'], ['€', 'b'], by decide, by decide⟩
  have isInside : inside.IsInside text := ⟨['a'], '€', ['b'], by decide, by decide, by decide⟩
  rcases moves_by_characters front text with ⟨moves, _, _⟩
  rcases moves_by_characters inside text with ⟨_, between, stuck⟩
  exact ⟨isFront, isInside, stuck (between.mpr (Or.inr isInside)), moves isFront⟩

end Place
end ExpressionChecker

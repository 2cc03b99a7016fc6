import ExpressionChecker.Proofs.Place
import ExpressionChecker.Proofs.Token.Tiling

namespace ExpressionChecker

/-!
# Where tokens stand

A token stands behind everything in front of its first source character: the segments before it and
its own gap.  Only the last token of a stream may be read from nothing, so every token stands before
the next one.
-/

namespace Munch

variable {raw rest : List Char} {kind : TokenKind} {lexeme : String}

/-- The end of the input is read only where nothing is left. -/
theorem nothing_left (munch : Munch raw rest kind lexeme) (isLast : kind = .endOfInput) :
    raw = [] ∧ rest = [] := by
  have ends : kind.endsStream = true := by
    rw [isLast]
    rfl
  have escapesValid : ∀ c, kind ≠ .fault (.invalidEscape c) := by
    intro c isEscape
    rw [isLast] at isEscape
    cases isEscape
  refine ⟨?_, munch.rest_eq_nil ends escapesValid⟩
  cases munch with
  | endOfInput => rfl
  | word begins longest spelling => cases spelling <;> cases isLast
  | number begins longest spelling => cases spelling <;> cases isLast
  | pair listed =>
      have table : ∀ entry ∈ operatorPairs, entry.2 ≠ .endOfInput := by decide
      exact absurd isLast (table _ listed)
  | single listed =>
      have table : ∀ entry ∈ punctuation, entry.2 ≠ .endOfInput := by decide
      exact absurd isLast (table _ listed)
  | _ => cases isLast

end Munch

namespace Segment

/-- Each of the segments stands behind those before it and its own gap, and the end of the input
stands behind the whole text. -/
def Located (position : Position) (text : List Char) (segments : List Segment) : Prop :=
  ∀ before segment later, segments = before ++ segment :: later →
    segment.token.position = position.afterAll (before.flatMap chars ++ segment.gap) ∧
      (segment.token.kind = .endOfInput → before.flatMap chars ++ segment.gap = text)

namespace Located

variable {position : Position} {rest : List Char} {segment : Segment} {later : List Segment}

theorem cons (stands : segment.token.position = position.afterAll segment.gap)
    (atEnd : segment.token.kind = .endOfInput → segment.raw ++ rest = [])
    (located : Located (segment.token.position.afterAll segment.raw) rest later) :
    Located position (segment.gap ++ (segment.raw ++ rest)) (segment :: later) := by
  intro before other behind same
  cases before with
  | nil =>
      cases same
      refine ⟨stands, fun isLast => ?_⟩
      rw [atEnd isLast, List.append_nil]
      rfl
  | cons first before =>
      cases same
      rcases located before other behind rfl with ⟨further, furtherAtEnd⟩
      simp only [List.flatMap_cons, chars, List.append_assoc]
      refine ⟨?_, fun isLast => ?_⟩
      · rw [further, stands, ← Position.afterAll_append, ← Position.afterAll_append]
      · rw [← furtherAtEnd isLast]

theorem nil (position : Position) (text : List Char) : Located position text [] := by
  intro before segment later same
  cases before <;> cases same

end Located

theorem Fits.atEnd {rest : List Char} {segment : Segment} (fits : segment.Fits rest)
    (isLast : segment.token.kind = .endOfInput) : segment.raw ++ rest = [] := by
  rcases fits.munch.nothing_left isLast with ⟨noRaw, noRest⟩
  rw [noRaw, noRest]
  rfl

theorem cut_located (position : Position) (text : List Char) :
    Located position text (cut position text) := by
  induction position, text using cut_induction with
  | last fits stands _ cuts =>
      rw [cuts]
      exact Located.cons stands fits.atEnd (.nil _ _)
  | more fits stands _ cuts inductionHypothesis =>
      rw [cuts]
      exact Located.cons stands fits.atEnd inductionHypothesis

/-- Every segment that is cut off stands before the later ones. -/
theorem cut_pairwise (position : Position) (text : List Char) :
    ((cut position text).map fun segment => segment.token.position).Pairwise Position.Before := by
  induction position, text using cut_induction with
  | last _ _ _ cuts =>
      rw [cuts]
      exact List.pairwise_singleton _ _
  | @more _ segment rest fits _ goesOn cuts inductionHypothesis =>
      rw [cuts, List.map_cons, List.pairwise_cons]
      refine ⟨?_, inductionHypothesis⟩
      intro further found
      rcases List.mem_map.mp found with ⟨other, isOther, rfl⟩
      rcases List.append_of_mem isOther with ⟨before, later, parts⟩
      -- What lies between the two begins with the characters of the first token.
      rw [(cut_located _ rest before other later parts).1, ← Position.afterAll_append]
      exact Position.before_afterAll _ (List.append_ne_nil_of_left_ne_nil (fits.raw_ne_nil goesOn) _)

end Segment

namespace Token

open Segment

/-- What is scanned at a place: the gap is passed over, and the token is the one that follows. -/
theorem scan_of_fits {text : String} {place : Place} {segment : Segment} {rest : List Char}
    (remaining : place.remaining text = segment.gap ++ (segment.raw ++ rest))
    (fits : segment.Fits rest)
    (stands : segment.token.position = place.position.afterAll segment.gap) :
    scan text place = (segment.token, (place.afterAll segment.gap).afterAll segment.raw) := by
  unfold scan
  rw [remaining, Layout.split_of_gap fits.isGap fits.starts]
  simp only [Reading.first_of_munch fits.munch, Place.afterAll_eq place segment.gap, ← stands]

end Token

/-! ## Tokens taken one by one -/

namespace TokenSource

/-- The sources that come of a text as tokens are taken from it. -/
inductive Taken (text : String) : TokenSource → Prop where
  | none : Taken text (ofText text)
  | scanned {source : TokenSource} (taken : Taken text source) : Taken text source.scanned.2
  | next {source later : TokenSource} {token : Token} (taken : Taken text source)
      (isNext : source.next? = some (token, later)) : Taken text later

theorem Taken.reached {text : String} {source : TokenSource} (taken : Taken text source) :
    source.text = text ∧ Place.Reached text source.place := by
  induction taken with
  | none => exact ⟨rfl, .start⟩
  | scanned _ inductionHypothesis =>
      rcases inductionHypothesis with ⟨rfl, reached⟩
      exact ⟨rfl, reached.scan⟩
  | @next source later token _ isNext inductionHypothesis =>
      rcases inductionHypothesis with ⟨rfl, reached⟩
      unfold next? at isNext
      split at isNext
      · cases isNext
      · cases isNext
        exact ⟨rfl, reached.scan⟩

/-- The tokens that a source gives until its stream has ended. -/
inductive Yields : TokenSource → List Token → Prop where
  | ended {source : TokenSource} (nothing : source.next? = none) : Yields source []
  | taken {source later : TokenSource} {token : Token} {tokens : List Token}
      (isNext : source.next? = some (token, later)) (yields : Yields later tokens) :
      Yields source (token :: tokens)

theorem next?_of_fits {text : String} {place : Place} {segment : Segment} {rest : List Char}
    (remaining : place.remaining text = segment.gap ++ (segment.raw ++ rest))
    (fits : segment.Fits rest)
    (stands : segment.token.position = place.position.afterAll segment.gap) :
    next? ⟨text, place, false⟩ = some (segment.token,
      ⟨text, (place.afterAll segment.gap).afterAll segment.raw, segment.token.kind.endsStream⟩) := by
  simp only [next?, scanned, Token.scan_of_fits remaining fits stands, Bool.false_eq_true, if_false]

theorem yields_cut {text : String} (position : Position) (rest : List Char) {place : Place}
    {passed : List Char} (marks : place.Marks text passed rest) (same : place.position = position) :
    Yields ⟨text, place, false⟩ ((Segment.cut position rest).map Segment.token) := by
  induction position, rest using Segment.cut_induction generalizing place passed with
  | last fits stands ends cuts =>
      subst same
      have isNext := next?_of_fits marks.remaining_eq fits stands
      rw [ends] at isNext
      rw [cuts]
      exact .taken isNext (.ended rfl)
  | more fits stands goesOn cuts inductionHypothesis =>
      subst same
      have isNext := next?_of_fits marks.remaining_eq fits stands
      rw [goesOn] at isNext
      rw [cuts]
      refine .taken isNext (inductionHypothesis ((marks.afterAll rfl).afterAll rfl) ?_)
      rw [stands, Place.afterAll_eq, Place.afterAll_eq]

/-- Taking the tokens of a text one by one gives the stream of its tokens. -/
theorem yields_stream (text : String) : (ofText text).Yields (Token.stream text) :=
  yields_cut .start text.toList (.start text) rfl

end TokenSource

namespace Token

open Segment

/-- The token scanned at a place stands behind what lies in front of the place and the gap there. -/
theorem scan_position {text : String} {place : Place} {passed rest : List Char}
    (marks : place.Marks text passed rest) :
    ∃ gap behind, rest = gap ++ behind ∧ Layout.Gap behind gap ∧ Layout.StartsToken behind ∧
      (scan text place).1.position = .behind (passed ++ gap) := by
  rcases exists_fits place.position rest with ⟨gap, raw, later, kind, lexeme, whole, fits⟩
  refine ⟨gap, raw ++ later, whole, fits.isGap, fits.starts, ?_⟩
  rw [scan_of_fits (marks.remaining_eq.trans whole) fits rfl, marks.position_eq,
    ← Position.afterAll_start, ← Position.afterAll_start, Position.afterAll_append]

/-- Positions are exact.  A token stands in the line and the column that the characters in front of
its first source character make up, and the end of the input behind the whole text.  Every place
that a scan comes by, and so every place up to which tokens are taken, lies between two characters,
at the line and the column that the characters in front of it make up.  Neither grows beyond the
size of the text, and what is scanned from there stands behind the gap.  The tokens of a text stand
one before the other, no two of them at one position. -/
theorem positions_exact (text : String) :
    (∃ (segments : List Segment) (unread : List Char),
      segments.map Segment.token = stream text ∧ Tiles text.toList segments unread ∧
      ∀ before segment later, segments = before ++ segment :: later →
        segment.token.position = .behind (before.flatMap chars ++ segment.gap) ∧
        (segment.token.kind = .endOfInput → before.flatMap chars ++ segment.gap = text.toList)) ∧
    (∀ place, Place.Reached text place → ∃ passed rest, text.toList = passed ++ rest ∧
      place.offset = (String.ofList passed).utf8ByteSize ∧ place.position = .behind passed ∧
      place.offset ≤ text.utf8ByteSize ∧ place.position.line ≤ text.utf8ByteSize + 1 ∧
      place.position.column ≤ text.utf8ByteSize + 1 ∧
      ∃ gap behind, rest = gap ++ behind ∧ Layout.Gap behind gap ∧ Layout.StartsToken behind ∧
        (scan text place).1.position = .behind (passed ++ gap)) ∧
    (∀ source, TokenSource.Taken text source →
      source.text = text ∧ Place.Reached text source.place) ∧
    ((stream text).map Token.position).Pairwise Position.Before ∧
    ((stream text).map Token.position).Nodup := by
  have ordered : ((stream text).map Token.position).Pairwise Position.Before := by
    rw [stream, List.map_map]
    exact cut_pairwise .start text.toList
  refine ⟨?_, ?_, fun _ taken => taken.reached, ordered, ordered.imp Position.Before.ne⟩
  · rcases cut_tiles .start text.toList with ⟨unread, tiles, _⟩
    refine ⟨Segment.ofText text, unread, rfl, tiles, ?_⟩
    intro before segment later parts
    rcases cut_located .start text.toList before segment later parts with ⟨stands, atEnd⟩
    rw [Position.afterAll_start] at stands
    exact ⟨stands, atEnd⟩
  · intro place reached
    rcases reached.exists_marks with ⟨passed, rest, marks⟩
    have offset := marks.offset_eq
    have position := marks.position_eq
    have bytes : text.utf8ByteSize = Text.byteCount passed + Text.byteCount rest := by
      rw [← Text.byteCount_append, ← marks.whole, Text.byteCount, String.ofList_toList]
    have long := Text.length_le_byteCount passed
    rcases Position.behind_le passed with ⟨lines, columns⟩
    refine ⟨passed, rest, marks.whole, offset, position, ?_, ?_, ?_, scan_position marks⟩
    · omega
    · rw [position]
      omega
    · rw [position]
      omega

end Token
end ExpressionChecker

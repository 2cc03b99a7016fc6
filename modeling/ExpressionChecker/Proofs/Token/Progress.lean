import ExpressionChecker.Proofs.Token.Location
import Mathlib.Logic.Function.Iterate

namespace ExpressionChecker

/-!
# Scanning goes on until the text ends

A step of a scan either gets past at least one character or finds nothing left to read.  In the
second case it stays where it is, however often it is repeated.  So the stream of a text is finite,
with at most one token for each character besides its last one, and only the last token ends it.
-/

variable {text : String} {place : Place}

/-! ## Tokens that end a stream -/

namespace Token

/-- The token is an error of a string literal, behind which nothing is read. -/
def IsFatal (token : Token) : Prop :=
  token.kind = .fault .unterminatedString ∨ ∃ c, token.kind = .fault (.invalidEscape c)

theorem endsStream_iff {token : Token} :
    token.kind.endsStream = true ↔ token.kind = .endOfInput ∨ token.IsFatal := by
  rcases token with ⟨kind, lexeme, position⟩
  unfold IsFatal
  cases kind with
  | fault error => cases error <;> simp [TokenKind.endsStream, LexicalError.isFatal]
  | _ => simp [TokenKind.endsStream]

theorem IsFatal.ne_endOfInput {token : Token} (fatal : token.IsFatal) :
    token.kind ≠ .endOfInput := by
  rcases fatal with isUnterminated | ⟨c, isEscape⟩
  · rw [isUnterminated]
    exact TokenKind.noConfusion
  · rw [isEscape]
    exact TokenKind.noConfusion

/-! ## One step -/

/-- Where nothing remains, the end of the input is found on the spot. -/
theorem scan_of_remaining_nil (nothing : place.remaining text = []) :
    scan text place = (endOfInput place.position, place) := by
  unfold scan
  rw [nothing]
  rfl

/-- A step from any place either finds a token that has characters and stops behind them, or finds
the end of the input and stops where nothing remains. -/
theorem scan_step (text : String) (place : Place) :
    ((scan text place).1.kind ≠ .endOfInput ∧ place.offset < (scan text place).2.offset ∧
        (scan text place).2.offset ≤ text.utf8ByteSize) ∨
      ∃ further, scan text place = (endOfInput further.position, further) ∧
        place.offset ≤ further.offset ∧ further.remaining text = [] := by
  rcases Segment.exists_fits place.position (place.remaining text) with
    ⟨gap, raw, rest, kind, lexeme, whole, fits⟩
  have scans := scan_of_fits whole fits rfl
  have reads := Reading.first_of_munch fits.munch
  by_cases isLast : kind = .endOfInput
  · right
    rcases fits.munch.nothing_left isLast with ⟨rfl, rfl⟩
    rw [List.append_nil, List.append_nil] at whole
    have isLexeme : lexeme = endLexeme := (Reading.mk.inj reads).2.1.symm
    refine ⟨place.afterAll gap, ?_, ?_, ?_⟩
    · rw [scans, isLast, isLexeme]
      simp only [Place.afterAll_eq place gap]
      rfl
    · rw [Place.afterAll_eq]
      exact Nat.le_add_right _ _
    · cases gap with
      | nil => exact whole
      | cons c later =>
          have remains : place.remaining text ≠ [] := by
            rw [whole]
            exact List.cons_ne_nil _ _
          rcases Place.exists_divides remains with ⟨passed, divides⟩
          exact (divides.afterAll (whole.trans (List.append_nil _).symm)).remaining_eq
  · left
    have present : raw ≠ [] := fits.munch.raw_ne_nil isLast
    have remains : place.remaining text ≠ [] := by
      rw [whole]
      exact List.append_ne_nil_of_right_ne_nil _ (List.append_ne_nil_of_left_ne_nil present _)
    rcases Place.exists_divides remains with ⟨passed, divides⟩
    have inside := ((divides.afterAll whole).afterAll rfl).offset_le
    have size := Text.length_le_byteCount raw
    have positive := List.length_pos_iff.mpr present
    rw [scans]
    refine ⟨isLast, ?_, inside⟩
    simp only [Place.afterAll_eq]
    omega

end Token

/-! ## Streams -/

namespace Segment

/-- Every segment but the last one takes up at least one character. -/
theorem length_cut_le (position : Position) (chars : List Char) :
    (cut position chars).length ≤ chars.length + 1 := by
  induction position, chars using cut_induction with
  | last _ _ _ cuts =>
      rw [cuts]
      exact Nat.le_add_left _ _
  | more fits _ goesOn cuts inductionHypothesis =>
      have shorter := fits.rest_length_lt rfl goesOn
      rw [cuts, List.length_cons]
      omega

/-- Only the last segment ends the stream. -/
theorem exists_cut_eq_concat (position : Position) (chars : List Char) :
    ∃ earlier last, cut position chars = earlier ++ [last] ∧
      (∀ segment ∈ earlier, segment.token.kind.endsStream = false) ∧
      last.token.kind.endsStream = true := by
  induction position, chars using cut_induction with
  | @last _ segment _ _ _ ends cuts =>
      exact ⟨[], segment, cuts, fun _ impossible => (List.not_mem_nil impossible).elim, ends⟩
  | @more _ segment _ _ _ goesOn cuts inductionHypothesis =>
      rcases inductionHypothesis with ⟨earlier, last, further, goOn, ends⟩
      refine ⟨segment :: earlier, last, ?_, List.forall_mem_cons.mpr ⟨goesOn, goOn⟩, ends⟩
      rw [cuts, further, List.cons_append]

end Segment

namespace Token

theorem exists_stream_eq_concat (text : String) :
    ∃ earlier last, stream text = earlier ++ [last] ∧
      (∀ token ∈ earlier, token.kind ≠ .endOfInput ∧ ¬ token.IsFatal) ∧
      Xor (last.kind = .endOfInput) last.IsFatal := by
  rcases Segment.exists_cut_eq_concat .start text.toList with ⟨earlier, last, cuts, goOn, ends⟩
  refine ⟨earlier.map Segment.token, last.token, ?_, ?_, ?_⟩
  · rw [stream, Segment.ofText, cuts, List.map_append, List.map_singleton]
  · rw [List.forall_mem_map]
    intro segment isEarlier
    have goesOn := mt endsStream_iff.mpr (Bool.eq_false_iff.mp (goOn segment isEarlier))
    exact ⟨fun isLast => goesOn (Or.inl isLast), fun fatal => goesOn (Or.inr fatal)⟩
  · rcases endsStream_iff.mp ends with isLast | fatal
    · exact Or.inl ⟨isLast, fun fatal => fatal.ne_endOfInput isLast⟩
    · exact Or.inr ⟨fatal, fatal.ne_endOfInput⟩

/-- From every place, inside a character and past the end as well, a step of a scan goes forward.
It either finds a token and gets past at least one character, but not past the end of the text; or
it finds the end of the input, and then every further step finds the same and stays there.  So the
tokens of a text can be taken one by one until there are no more.  There are at most as many as the
text has characters, and one.  The last of them, and no other, is the end of the input or an error
of a string literal behind which nothing is read. -/
theorem scan_goes_on_until_end (text : String) :
    (∀ place, place.offset ≤ (scan text place).2.offset ∧
      (((scan text place).1.kind ≠ .endOfInput ∧ place.offset < (scan text place).2.offset ∧
          (scan text place).2.offset ≤ text.utf8ByteSize) ∨
        ((scan text place).1.kind = .endOfInput ∧
          ∀ count, scan text ((fun further => (scan text further).2)^[count] (scan text place).2) =
            scan text place))) ∧
    (TokenSource.ofText text).Yields (stream text) ∧
    (stream text).length ≤ text.length + 1 ∧
    ∃ earlier last, stream text = earlier ++ [last] ∧
      (∀ token ∈ earlier, token.kind ≠ .endOfInput ∧ ¬ token.IsFatal) ∧
      Xor (last.kind = .endOfInput) last.IsFatal := by
  refine ⟨fun place => ?_, TokenSource.yields_stream text, ?_, exists_stream_eq_concat text⟩
  · rcases scan_step text place with ⟨isToken, forward, inside⟩ | ⟨further, scans, forward, nothing⟩
    · exact ⟨Nat.le_of_lt forward, Or.inl ⟨isToken, forward, inside⟩⟩
    · have again := scan_of_remaining_nil nothing
      have stays : (scan text further).2 = further := by rw [again]
      rw [scans]
      refine ⟨forward, Or.inr ⟨rfl, fun count => ?_⟩⟩
      rw [Function.iterate_fixed stays, again]
  · have bound := Segment.length_cut_le .start text.toList
    rwa [stream, List.length_map, ← String.length_toList]

end Token
end ExpressionChecker

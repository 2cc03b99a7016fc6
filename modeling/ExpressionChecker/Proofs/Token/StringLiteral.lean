import ExpressionChecker.Proofs.Token.Progress

namespace ExpressionChecker

/-!
# String literals are read back

Behind an opening quote stand items, and what stops them makes up one of three cases, each with a
token of its own.  A literal that is closed denotes what its items denote, so writing the items of a
text and reading them gives the text again.  Quotes and backslashes have to be written as escapes,
and line feeds and tabs may be, one by one.
-/

/-! ## The three cases -/

/-- How a text goes on behind an opening quote, taken apart into its items and what stops them.  An
unended literal goes on to the end of the text, and all of it is kept. -/
inductive LiteralCase where
  | closed (items value rest : List Char)
  | misescaped (items : List Char) (found : Char) (rest : List Char)
  | unended (body : List Char)
deriving DecidableEq, Repr

namespace LiteralCase

/-- The case describes the text behind an opening quote. -/
inductive Describes : LiteralCase → List Char → Prop where
  | closed {items value : List Char} (rest : List Char) (quoted : Quoted items value) :
      Describes (.closed items value rest) (items ++ '"' :: rest)
  | misescaped {items value : List Char} {found : Char} (rest : List Char)
      (quoted : Quoted items value) (noEscape : ∀ denoted, ¬ Escape found denoted) :
      Describes (.misescaped items found rest) (items ++ '\\' :: found :: rest)
  | unended {items value : List Char} (quoted : Quoted items value) :
      Describes (.unended items) items
  | unendedEscape {items value : List Char} (quoted : Quoted items value) :
      Describes (.unended (items ++ ['\\'])) (items ++ ['\\'])

/-- What is read in a case, the opening quote included. -/
def reading : LiteralCase → Reading
  | .closed items value rest => ⟨.string, String.ofList value, '"' :: (items ++ ['"']), rest⟩
  | .misescaped items found rest =>
      ⟨.fault (.invalidEscape found), String.ofList ('"' :: (items ++ ['\\', found])),
        '"' :: (items ++ ['\\', found]), rest⟩
  | .unended body => ⟨.fault .unterminatedString, String.ofList ('"' :: body), '"' :: body, []⟩

/-- A case can be told from what is read in it. -/
theorem reading_injective : Function.Injective reading := by
  intro first second same
  -- The kind tells the cases apart, and what was read tells the items.
  cases first with
  | closed items value rest =>
      cases second with
      | closed items' value' rest' =>
          rcases Reading.mk.inj same with ⟨-, sameValue, sameRaw, rfl⟩
          rw [String.ofList_inj.mp sameValue, List.append_cancel_right (List.cons.inj sameRaw).2]
      | _ => cases congrArg Reading.kind same
  | misescaped items found rest =>
      cases second with
      | misescaped items' found' rest' =>
          rcases Reading.mk.inj same with ⟨sameKind, -, sameRaw, rfl⟩
          cases sameKind
          rw [List.append_cancel_right (List.cons.inj sameRaw).2]
      | _ => cases congrArg Reading.kind same
  | unended body =>
      cases second with
      | unended body' => rw [(List.cons.inj (congrArg Reading.raw same)).2]
      | _ => cases congrArg Reading.kind same

variable {literalCase : LiteralCase} {body : List Char}

theorem Describes.munch (describes : literalCase.Describes body) :
    '"' :: body = literalCase.reading.raw ++ literalCase.reading.rest ∧
      Munch literalCase.reading.raw literalCase.reading.rest literalCase.reading.kind
        literalCase.reading.lexeme := by
  cases describes with
  | closed rest quoted =>
      refine ⟨?_, .literal quoted⟩
      simp only [reading, List.cons_append, List.append_assoc, List.nil_append]
  | misescaped rest quoted noEscape =>
      refine ⟨?_, .invalidEscape quoted noEscape⟩
      simp only [reading, List.cons_append, List.append_assoc, List.nil_append]
  | unended quoted =>
      exact ⟨(List.append_nil _).symm, .unterminated quoted (Or.inl rfl)⟩
  | unendedEscape quoted =>
      exact ⟨(List.append_nil _).symm, .unterminated quoted (Or.inr rfl)⟩

theorem Describes.reads (describes : literalCase.Describes body) :
    Reading.first ('"' :: body) = literalCase.reading :=
  Reading.first_eq_iff.mpr describes.munch

/-- Exactly one case describes a text. -/
theorem existsUnique_describes (body : List Char) :
    ∃! literalCase : LiteralCase, literalCase.Describes body := by
  have present : ∃ literalCase : LiteralCase, literalCase.Describes body := by
    rcases LiteralBody.exists_quoted body with
      ⟨items, value, quoted, ⟨rest, rfl⟩ | ⟨found, rest, rfl, noEscape⟩ | rfl | rfl⟩
    · exact ⟨_, .closed rest quoted⟩
    · exact ⟨_, .misescaped rest quoted noEscape⟩
    · exact ⟨_, .unended quoted⟩
    · exact ⟨_, .unendedEscape quoted⟩
  rcases present with ⟨literalCase, describes⟩
  refine ⟨literalCase, describes, ?_⟩
  intro other describes'
  exact reading_injective (describes'.reads.symm.trans describes.reads)

end LiteralCase

/-! ## Writing a text as items -/

/-- The item that denotes a character.  Where there is a choice, it says whether to take an escape.
-/
def itemOf (escape : Bool) : Char → List Char
  | '"' => ['\\', '"']
  | '\\' => ['\\', '\\']
  | '\n' => if escape then ['\\', 'n'] else ['\n']
  | '\t' => if escape then ['\\', 't'] else ['\t']
  | c => [c]

/-- The items that denote a text, with one choice for each of its characters. -/
def escaped (escapes : Nat → Bool) : List Char → List Char
  | [] => []
  | c :: rest => itemOf (escapes 0) c ++ escaped (fun index => escapes (index + 1)) rest

theorem quoted_itemOf_append (escape : Bool) (c : Char) {body value : List Char}
    (later : Quoted body value) : Quoted (itemOf escape c ++ body) (c :: value) := by
  unfold itemOf
  split
  · exact .escaped .quote later
  · exact .escaped .backslash later
  · cases escape with
    | true => exact .escaped .lineFeed later
    | false => exact .plain (by decide) (by decide) later
  · cases escape with
    | true => exact .escaped .tab later
    | false => exact .plain (by decide) (by decide) later
  · rename_i notQuote notBackslash _ _
    exact .plain notQuote notBackslash later

theorem quoted_escaped (escapes : Nat → Bool) (value : List Char) :
    Quoted (escaped escapes value) value := by
  induction value generalizing escapes with
  | nil => exact .nil
  | cons c rest inductionHypothesis =>
      exact quoted_itemOf_append _ c (inductionHypothesis _)

/-! ## Scanning -/

namespace Token

/-- The case that describes the text behind a quote gives the token and the place behind it. -/
theorem scan_of_describes {text : String} {place : Place} {body : List Char}
    {literalCase : LiteralCase} (opens : place.remaining text = '"' :: body)
    (describes : literalCase.Describes body) :
    scan text place = (⟨literalCase.reading.kind, literalCase.reading.lexeme, place.position⟩,
        place.afterAll literalCase.reading.raw) ∧
      (place.afterAll literalCase.reading.raw).remaining text = literalCase.reading.rest := by
  constructor
  · have starts := Layout.startsToken_cons (by decide : Text.isBlank '"' = false) (by decide) body
    unfold scan
    simp only [opens, Layout.split_of_startsToken starts, describes.reads]
    rfl
  · have remains : place.remaining text ≠ [] := by
      rw [opens]
      exact List.cons_ne_nil _ _
    rcases Place.exists_divides remains with ⟨passed, divides⟩
    exact (divides.afterAll (opens.trans describes.munch.1)).remaining_eq

theorem isFatal_reading_iff (literalCase : LiteralCase) (position : Position) :
    (⟨literalCase.reading.kind, literalCase.reading.lexeme, position⟩ : Token).IsFatal ↔
      ∀ items value rest, literalCase ≠ .closed items value rest := by
  cases literalCase with
  | closed items value rest =>
      have notFatal : ¬ (⟨.string, String.ofList value, position⟩ : Token).IsFatal := by
        rintro (isUnterminated | ⟨c, isEscape⟩)
        · cases isUnterminated
        · cases isEscape
      exact iff_of_false notFatal (fun other => other items value rest rfl)
  | misescaped items found rest => exact iff_of_true (Or.inr ⟨found, rfl⟩) nofun
  | unended body => exact iff_of_true (Or.inl rfl) nofun

/-- Where a quote stands at a place, exactly one case describes the text behind it, and the case
gives the token that is scanned and the place where the scan stops.  However the items of a value
are written, and whatever follows them, the value is read back. -/
theorem scan_literal {text : String} {place : Place} {body : List Char}
    (opens : place.remaining text = '"' :: body) :
    (∃! literalCase : LiteralCase, literalCase.Describes body) ∧
      (∀ literalCase : LiteralCase, literalCase.Describes body →
        scan text place = (⟨literalCase.reading.kind, literalCase.reading.lexeme, place.position⟩,
            place.afterAll literalCase.reading.raw) ∧
          (place.afterAll literalCase.reading.raw).remaining text = literalCase.reading.rest ∧
          ((scan text place).1.IsFatal ↔
            ∀ items value rest, literalCase ≠ .closed items value rest)) ∧
      ∀ (escapes : Nat → Bool) (value : String) (rest : List Char),
        body = escaped escapes value.toList ++ '"' :: rest →
          scan text place = (⟨.string, value, place.position⟩,
              place.afterAll ('"' :: (escaped escapes value.toList ++ ['"']))) ∧
            (place.afterAll ('"' :: (escaped escapes value.toList ++ ['"']))).remaining text =
              rest := by
  refine ⟨LiteralCase.existsUnique_describes body, ?_, ?_⟩
  · intro literalCase describes
    rcases scan_of_describes opens describes with ⟨scans, remains⟩
    refine ⟨scans, remains, ?_⟩
    rw [scans]
    exact isFatal_reading_iff literalCase place.position
  · rintro escapes value rest rfl
    rcases scan_of_describes opens (.closed rest (quoted_escaped escapes value.toList)) with
      ⟨scans, remains⟩
    refine ⟨?_, remains⟩
    rw [scans]
    simp only [LiteralCase.reading, String.ofList_toList]

/-- A literal behind other text, with a quote and a backslash written as escapes, a line feed as
itself and a tab as an escape. -/
theorem scan_literal_of_two_lines :
    (⟨2, ⟨1, 2⟩⟩ : Place).remaining "é\"\\\"\\\\\n\\t\"+" =
        '"' :: (escaped (· = 3) "\"\\\n\t".toList ++ '"' :: ['+']) ∧
      scan "é\"\\\"\\\\\n\\t\"+" ⟨2, ⟨1, 2⟩⟩ =
        (⟨.string, "\"\\\n\t", ⟨1, 2⟩⟩, ⟨11, ⟨2, 4⟩⟩) := by
  have opens : (⟨2, ⟨1, 2⟩⟩ : Place).remaining "é\"\\\"\\\\\n\\t\"+" =
      '"' :: (escaped (· = 3) "\"\\\n\t".toList ++ '"' :: ['+']) := by decide
  exact ⟨opens, ((scan_literal opens).2.2 (· = 3) "\"\\\n\t" ['+'] rfl).1⟩

end Token
end ExpressionChecker

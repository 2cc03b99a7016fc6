import ExpressionChecker.Proofs.Grammar.Acceptance

namespace ExpressionChecker

/-!
# Why a token is refused and how it passes

An assembly refuses a token for one of three reasons.  Either no statement goes on like this, and then
the limits have nothing to do with it, or a limit is met, and then the token would pass under a
greater one.  A token that passes does so in one of five ways, and greater limits change nothing
about it.
-/

/-- Other limits allow at least as much. -/
structure Limits.AtMost (limits limits' : Limits) : Prop where
  depth : limits.depth ≤ limits'.depth
  operators : limits.operators ≤ limits'.operators

namespace Assembly

open Grammar

variable {limits limits' : Limits}

/-! ## Tokens that are refused -/

/-- What an assembly expects behind the last token. -/
def expectation (assembly : Assembly) : Expectation :=
  match assembly.operand, assembly.brackets with
  | .missing, _ => .operand
  | _, [] => .endOfStatement
  | _, _ :: _ => .closingParenthesis

theorem expectation_of_filled {assembly : Assembly} (filled : assembly.operand ≠ .missing) :
    assembly.expectation =
      if assembly.brackets = [] then .endOfStatement else .closingParenthesis := by
  unfold expectation
  split
  · exact absurd (by assumption) filled
  · rename_i noBrackets _
    rw [if_pos noBrackets]
  · rename_i brackets _
    rw [brackets, if_neg (List.cons_ne_nil _ _)]

/-- Where a parenthesis that is read next belongs: to the name in front of it, or to itself. -/
def openingPosition (assembly : Assembly) (token : Token) : Position :=
  match assembly.operand with
  | .name _ position => position
  | _ => token.position

/-- The three ways to refuse a token. -/
inductive Refuses (limits : Limits) (assembly : Assembly) (token : Token) : Rejection → Prop where
  | misplaced
      (always : ∀ limits', assembly.read limits' token =
        .error (assembly.refuse assembly.expectation token)) :
      Refuses limits assembly token (assembly.refuse assembly.expectation token)
  | operator (isOperator : (operator? token).isSome = true)
      (used : limits.operators ≤ assembly.operators)
      (passes : ∀ limits', assembly.operators < limits'.operators →
        ∃ next, assembly.read limits' token = .ok (.ongoing next)) :
      Refuses limits assembly token (.tooManyOperators limits.operators token.position)
  | nesting (opens : token.kind = .openParenthesis)
      (deep : limits.depth ≤ assembly.brackets.length)
      (passes : ∀ limits', assembly.brackets.length < limits'.depth →
        ∃ next, assembly.read limits' token = .ok (.ongoing next)) :
      Refuses limits assembly token
        (.nestedTooDeep limits.depth (assembly.openingPosition token))

section Refusals

variable {assembly : Assembly} {token : Token} {rejection : Rejection}

/-- Where a parenthesis opens a bracket, it is refused for its nesting or not at all. -/
theorem openBracket_eq_error {opening : Opening} {position : Position}
    (opens : token.kind = .openParenthesis)
    (belongs : assembly.openingPosition token = position)
    (alike : ∀ limits', assembly.read limits' token =
      (assembly.openBracket limits' opening position).map fun next => .ongoing (next.behind token))
    (refused : assembly.read limits token = .error rejection) :
    assembly.Refuses limits token rejection := by
  have passes : ∀ limits', assembly.brackets.length < limits'.depth →
      ∃ next, assembly.read limits' token = .ok (.ongoing next) := by
    intro limits' shallow
    rw [alike, openBracket, if_neg (Nat.not_le_of_lt shallow)]
    exact ⟨_, rfl⟩
  by_cases deep : limits.depth ≤ assembly.brackets.length
  · rw [alike, openBracket, if_pos deep] at refused
    cases refused
    subst belongs
    exact .nesting opens deep passes
  · rcases passes limits (Nat.lt_of_not_le deep) with ⟨next, passes⟩
    rw [passes] at refused
    cases refused

/-- Behind a complete factor nothing is refused for its nesting. -/
theorem readBehind_eq_error {factor : Tree} (filled : assembly.operand ≠ .missing)
    (alike : ∀ limits', assembly.read limits' token = assembly.readBehind limits' factor token)
    (refused : assembly.readBehind limits factor token = .error rejection) :
    assembly.Refuses limits token rejection := by
  cases found : operator? token with
  | some operator =>
      have passes : ∀ limits', assembly.operators < limits'.operators →
          ∃ next, assembly.read limits' token = .ok (.ongoing next) := by
        intro limits' few
        rw [alike, readBehind, found]
        simp only [putOperator, if_neg (Nat.not_le_of_lt few)]
        exact ⟨_, rfl⟩
      by_cases used : limits.operators ≤ assembly.operators
      · simp only [readBehind, found, putOperator, if_pos used] at refused
        cases refused
        exact .operator (Option.isSome_of_eq_some found) used passes
      · simp only [readBehind, found, putOperator, if_neg used] at refused
        cases refused
  | none =>
      -- Without an operator the limits are not looked at.
      have always (limits' : Limits) : assembly.read limits' token = .error rejection := by
        rw [alike, ← refused]
        simp only [readBehind, found]
      have isRefusal : rejection = assembly.refuse assembly.expectation token := by
        rw [expectation_of_filled filled]
        simp only [readBehind, found] at refused
        split at refused
        · rename_i noBrackets
          rw [if_pos noBrackets]
          split at refused
          · cases refused
          · exact (Except.error.inj refused).symm
        · rename_i brackets
          rw [brackets, if_neg (List.cons_ne_nil _ _)]
          split at refused
          · cases refused
          · exact (Except.error.inj refused).symm
      subst isRefusal
      exact .misplaced always

/-- Where an operand is missing, only a parenthesis can be refused for its nesting. -/
theorem readOperand_eq_error (plain : token.kind ≠ .openParenthesis)
    (refused : assembly.readOperand limits token = .error rejection) :
    rejection = assembly.refuse .operand token ∧
      ∀ limits', assembly.readOperand limits' token = .error rejection := by
  have alike (limits' : Limits) :
      assembly.readOperand limits' token = assembly.readOperand limits token := by
    unfold readOperand
    split
    · rfl
    · rfl
    · rename_i opens
      exact absurd opens plain
    · rfl
  refine ⟨?_, fun limits' => (alike limits').trans refused⟩
  unfold readOperand at refused
  split at refused
  · cases refused
  · cases refused
  · rename_i opens
    exact absurd opens plain
  · exact (Except.error.inj refused).symm

/-- Whatever is refused is refused in one of the three ways. -/
theorem refuses_of_read (refused : assembly.read limits token = .error rejection) :
    assembly.Refuses limits token rejection := by
  cases operand : assembly.operand with
  | missing =>
      have alike (limits' : Limits) :
          assembly.read limits' token = assembly.readOperand limits' token := by
        simp only [Assembly.read, operand]
      by_cases opens : token.kind = .openParenthesis
      · have belongs : assembly.openingPosition token = token.position := by
          simp only [openingPosition, operand]
        have opened (limits' : Limits) : assembly.read limits' token =
            (assembly.openBracket limits' .group token.position).map
              fun next => .ongoing (next.behind token) := by
          rw [alike]
          simp only [readOperand, opens]
        exact openBracket_eq_error opens belongs opened refused
      · rw [alike] at refused
        rcases readOperand_eq_error opens refused with ⟨rfl, always⟩
        have expected : assembly.expectation = .operand := by simp only [expectation, operand]
        rw [← expected]
        refine .misplaced fun limits' => ?_
        rw [alike, always, expected]
  | name name position =>
      by_cases opens : token.kind = .openParenthesis
      · have alike (limits' : Limits) : assembly.read limits' token =
            (assembly.openBracket limits' (.call name position) position).map
              fun next => .ongoing (next.behind token) := by
          simp only [Assembly.read, operand, if_pos opens]
        have belongs : assembly.openingPosition token = position := by
          simp only [openingPosition, operand]
        exact openBracket_eq_error opens belongs alike refused
      · have alike (limits' : Limits) : assembly.read limits' token =
            assembly.readBehind limits' (.identifier name ⟨position, none⟩) token := by
          simp only [Assembly.read, operand, if_neg opens]
        rw [alike] at refused
        exact readBehind_eq_error (by rw [operand]; exact Operand.noConfusion) alike refused
  | complete factor =>
      have alike (limits' : Limits) : assembly.read limits' token =
          assembly.readBehind limits' factor token := by
        simp only [Assembly.read, operand]
      rw [alike] at refused
      exact readBehind_eq_error (by rw [operand]; exact Operand.noConfusion) alike refused

end Refusals

/-! ## Tokens that pass -/

section Passing

variable {assembly next : Assembly} {token : Token}

theorem openBracket_mono (more : limits.AtMost limits') {opening : Opening} {position : Position}
    (passes : assembly.openBracket limits opening position = .ok next) :
    assembly.openBracket limits' opening position = .ok next := by
  by_cases deep : limits.depth ≤ assembly.brackets.length
  · rw [openBracket, if_pos deep] at passes
    cases passes
  · have shallow : ¬ limits'.depth ≤ assembly.brackets.length :=
      fun deeper => deep (Nat.le_trans more.depth deeper)
    rw [openBracket, if_neg deep] at passes
    rw [openBracket, if_neg shallow, passes]

theorem putOperator_mono (more : limits.AtMost limits') {factor : Tree} {operator : Operator}
    {position : Position} (passes : assembly.putOperator limits factor operator position = .ok next) :
    assembly.putOperator limits' factor operator position = .ok next := by
  by_cases many : limits.operators ≤ assembly.operators
  · rw [putOperator, if_pos many] at passes
    cases passes
  · have few : ¬ limits'.operators ≤ assembly.operators :=
      fun further => many (Nat.le_trans more.operators further)
    rw [putOperator, if_neg many] at passes
    rw [putOperator, if_neg few, passes]

theorem map_eq_ok_mono {first second : Except Rejection Assembly} {goOn : Assembly → Outcome}
    {outcome : Outcome} (mono : ∀ next, first = .ok next → second = .ok next)
    (passes : first.map goOn = .ok outcome) : second.map goOn = .ok outcome := by
  cases first with
  | error rejection => cases passes
  | ok next =>
      rw [mono next rfl]
      exact passes

theorem readBehind_mono (more : limits.AtMost limits') {factor : Tree} {outcome : Outcome}
    (passes : assembly.readBehind limits factor token = .ok outcome) :
    assembly.readBehind limits' factor token = .ok outcome := by
  cases found : operator? token with
  | some operator =>
      simp only [readBehind, found] at passes ⊢
      exact map_eq_ok_mono (fun _ => putOperator_mono more) passes
  | none =>
      simp only [readBehind, found] at passes ⊢
      exact passes

/-- Greater limits change nothing about a token that passes. -/
theorem read_mono (more : limits.AtMost limits') {outcome : Outcome}
    (passes : assembly.read limits token = .ok outcome) :
    assembly.read limits' token = .ok outcome := by
  unfold Assembly.read at passes ⊢
  cases operand : assembly.operand with
  | missing =>
      simp only [operand] at passes ⊢
      unfold readOperand at passes ⊢
      cases kind : token.kind with
      | name =>
          simp only [kind] at passes ⊢
          exact passes
      | number =>
          simp only [kind] at passes ⊢
          exact passes
      | openParenthesis =>
          simp only [kind] at passes ⊢
          exact map_eq_ok_mono (fun _ => openBracket_mono more) passes
      | _ =>
          simp only [kind] at passes
          cases passes
  | name name position =>
      simp only [operand] at passes ⊢
      by_cases opens : token.kind = .openParenthesis
      · rw [if_pos opens] at passes ⊢
        exact map_eq_ok_mono (fun _ => openBracket_mono more) passes
      · rw [if_neg opens] at passes ⊢
        exact readBehind_mono more passes
  | complete factor =>
      simp only [operand] at passes ⊢
      exact readBehind_mono more passes

/-- Behind a factor, an operator and a closing parenthesis go on. -/
theorem readBehind_eq_ongoing {factor : Tree}
    (passes : assembly.readBehind limits factor token = .ok (.ongoing next)) :
    (token.kind = .arithmetic ∧ (operator? token).isSome = true ∧ ∃ level, next = ⟨level, .missing,
      assembly.brackets, assembly.operators + 1, some token⟩) ∨
    (token.kind = .closeParenthesis ∧ ∃ bracket outer level factor,
      assembly.brackets = bracket :: outer ∧
      next = ⟨level, .complete factor, outer, assembly.operators, some token⟩) := by
  rcases readBehind_eq_ok passes with ⟨operator, level, spelt, joins, few, equal⟩ |
    ⟨noBrackets, last, equal⟩ | ⟨bracket, outer, level, tree, brackets, closes, equal⟩
  · cases equal
    have found := operator?_eq_some_iff.mpr ⟨spelt, joins⟩
    exact Or.inl ⟨spelt.1, Option.isSome_of_eq_some found, level, rfl⟩
  · cases equal
  · cases equal
    exact Or.inr ⟨closes, bracket, outer, level, tree, brackets, rfl⟩

/-- The five ways to go on with a token. -/
theorem read_eq_ongoing (passes : assembly.read limits token = .ok (.ongoing next)) :
    (token.kind = .name ∧ next = ⟨assembly.level, .name token.lexeme token.position,
      assembly.brackets, assembly.operators, some token⟩) ∨
    (token.kind = .number ∧ ∃ factor, next = ⟨assembly.level, .complete factor,
      assembly.brackets, assembly.operators, some token⟩) ∨
    (token.kind = .openParenthesis ∧ ∃ bracket, next = ⟨.empty, .missing,
      bracket :: assembly.brackets, assembly.operators, some token⟩) ∨
    (token.kind = .arithmetic ∧ (operator? token).isSome = true ∧ ∃ level, next = ⟨level, .missing,
      assembly.brackets, assembly.operators + 1, some token⟩) ∨
    (token.kind = .closeParenthesis ∧ ∃ bracket outer level factor,
      assembly.brackets = bracket :: outer ∧
      next = ⟨level, .complete factor, outer, assembly.operators, some token⟩) := by
  unfold Assembly.read at passes
  split at passes
  · rcases readOperand_eq_ok passes with ⟨named, equal⟩ | ⟨numeric, equal⟩ | ⟨opens, _, equal⟩
    · cases equal
      exact Or.inl ⟨named, rfl⟩
    · cases equal
      exact Or.inr (Or.inl ⟨numeric, _, rfl⟩)
    · cases equal
      exact Or.inr (Or.inr (Or.inl ⟨opens, _, rfl⟩))
  · split at passes
    · rename_i opens
      rcases openBracket_eq_ok passes with ⟨_, equal⟩
      cases equal
      exact Or.inr (Or.inr (Or.inl ⟨opens, _, rfl⟩))
    · exact Or.inr (Or.inr (Or.inr (readBehind_eq_ongoing passes)))
  · exact Or.inr (Or.inr (Or.inr (readBehind_eq_ongoing passes)))

end Passing

end Assembly
end ExpressionChecker

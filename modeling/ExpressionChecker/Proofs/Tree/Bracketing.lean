import ExpressionChecker.Proofs.Tree.Written
import Mathlib.Logic.Relation

namespace ExpressionChecker

/-!
# Parentheses that may go

An expression can be written in many ways that differ in the parentheses around its operands.  Where
an operand binds tightly enough for its place, parentheses around it are superfluous, and taking
them away leaves another way to write the same expression.  Where nothing can be taken away any
more, the parentheses that are left are those of the rendering.  The parentheses of a call are part
of the expression and always stay.
-/

/-! ## Groups -/

/-- Every parenthesis has its partner. -/
inductive Balanced : List (TokenKind × String) → Prop where
  | nil : Balanced []
  | plain {kind : TokenKind} {lexeme : String} {forms : List (TokenKind × String)}
      (notOpening : kind ≠ .openParenthesis) (notClosing : kind ≠ .closeParenthesis)
      (later : Balanced forms) : Balanced ((kind, lexeme) :: forms)
  | group {content forms : List (TokenKind × String)} (inside : Balanced content)
      (later : Balanced forms) : Balanced (Tree.enclosed true content ++ forms)

theorem Balanced.append {first second : List (TokenKind × String)} (isFirst : Balanced first)
    (isSecond : Balanced second) : Balanced (first ++ second) := by
  induction isFirst with
  | nil => exact isSecond
  | plain notOpening notClosing _ inductionHypothesis =>
      exact .plain notOpening notClosing inductionHypothesis
  | group inside _ _ inductionHypothesis =>
      rw [List.append_assoc]
      exact .group inside inductionHypothesis

theorem Balanced.enclose {content : List (TokenKind × String)} (inside : Balanced content) :
    Balanced (Tree.enclosed true content) := by
  have whole := Balanced.group inside .nil
  rwa [List.append_nil] at whole

/-- One pair of parentheses that belong together is taken away.  No name stands in front of them, so
they are not those of a call. -/
inductive DeletesGroup : List (TokenKind × String) → List (TokenKind × String) → Prop where
  | delete {before content after : List (TokenKind × String)}
      (grouping : ∀ last ∈ before.getLast?, last.1 ≠ .name) (inside : Balanced content) :
      DeletesGroup (before ++ (Tree.enclosed true content ++ after)) (before ++ (content ++ after))

namespace DeletesGroup

variable {forms forms' : List (TokenKind × String)}

/-- What can be taken away can be taken away between other tokens, as long as a parenthesis in front
does not become that of a call. -/
theorem between (deletes : DeletesGroup forms forms') (front back : List (TokenKind × String))
    (grouping : ∀ last ∈ front.getLast?, last.1 ≠ .name) :
    DeletesGroup (front ++ (forms ++ back)) (front ++ (forms' ++ back)) := by
  cases deletes with
  | @delete before content after grouping' inside =>
      have further : ∀ last ∈ (front ++ before).getLast?, last.1 ≠ .name := by
        intro last isLast
        rw [List.getLast?_append, Option.mem_def, Option.or_eq_some_iff] at isLast
        rcases isLast with nearer | ⟨_, farther⟩
        · exact grouping' last nearer
        · exact grouping last farther
      have deletes : DeletesGroup
          (front ++ before ++ (Tree.enclosed true content ++ (after ++ back)))
          (front ++ before ++ (content ++ (after ++ back))) :=
        .delete further inside
      simpa only [List.append_assoc] using deletes

theorem before (deletes : DeletesGroup forms forms') (back : List (TokenKind × String)) :
    DeletesGroup (forms ++ back) (forms' ++ back) :=
  deletes.between [] back fun _ impossible => by cases impossible

theorem behind (deletes : DeletesGroup forms forms') (front : List (TokenKind × String))
    {kind : TokenKind} (lexeme : String) (grouping : kind ≠ .name) :
    DeletesGroup (front ++ (kind, lexeme) :: forms) (front ++ (kind, lexeme) :: forms') := by
  have further := deletes.between (front ++ [(kind, lexeme)]) [] (by
    rw [List.getLast?_concat]
    rintro _ ⟨⟩
    exact grouping)
  simpa only [List.append_nil, List.append_assoc, List.singleton_append] using further

/-- What is taken away inside of parentheses leaves the parentheses. -/
theorem inside (deletes : DeletesGroup forms forms') (front : List (TokenKind × String)) :
    DeletesGroup (front ++ Tree.enclosed true forms) (front ++ Tree.enclosed true forms') :=
  (deletes.before [(.closeParenthesis, ")")]).behind front "(" TokenKind.noConfusion

/-- Parentheses around everything group it. -/
theorem ofEnclosed (inside : Balanced forms) : DeletesGroup (Tree.enclosed true forms) forms := by
  have whole : DeletesGroup ([] ++ (Tree.enclosed true forms ++ [])) ([] ++ (forms ++ [])) :=
    .delete (fun _ impossible => by cases impossible) inside
  simpa only [List.append_nil, List.nil_append] using whole

theorem length_eq (deletes : DeletesGroup forms forms') : forms.length = forms'.length + 2 := by
  cases deletes with
  | delete =>
      simp only [Tree.enclosed, if_true, List.length_append, List.length_cons, List.length_nil]
      omega

end DeletesGroup

/-- The number of opening parentheses. -/
def openings (forms : List (TokenKind × String)) : Nat :=
  forms.countP fun form => form.1 = .openParenthesis

theorem DeletesGroup.openings_eq {forms forms' : List (TokenKind × String)}
    (deletes : DeletesGroup forms forms') : openings forms = openings forms' + 1 := by
  cases deletes with
  | delete =>
      simp [openings, Tree.enclosed, List.countP_append]
      omega

/-! ## Ways to write an expression -/

namespace Tree

open Grammar (JoinsProducts JoinsFactors)

/-- An expression that binds tightly enough needs no parentheses. -/
theorem enclosed_of_le {strength least : Nat} (tight : least ≤ strength)
    (forms : List (TokenKind × String)) : enclosed (strength < least) forms = forms := by
  rw [decide_eq_false (Nat.not_lt_of_le tight)]
  rfl

/-- The forms are a way to write an expression where it has to bind at least as tightly as `least`,
with at most `depth` parentheses open at once.  Chains associate to the left, so the right operand
has to bind tighter than the operator. -/
inductive Bracketed : Nat → Nat → Tree → List (TokenKind × String) → Prop where
  | identifier {least depth : Nat} {name : String} {note : Note} :
      Bracketed least depth (.identifier name note) [(.name, name)]
  | number {least depth : Nat} {literal : String} {note : Note} :
      Bracketed least depth (.number literal note) [(.number, literal)]
  | binary {least depth : Nat} {operator : Operator} {left right : Tree} {note : Note}
      {leftForms rightForms : List (TokenKind × String)}
      (joins : JoinsFactors operator ∨ JoinsProducts operator) (tight : least ≤ operator.strength)
      (isLeft : Bracketed operator.strength depth left leftForms)
      (isRight : Bracketed (operator.strength + 1) depth right rightForms) :
      Bracketed least depth (.binary operator left right note)
        (leftForms ++ (.arithmetic, operator.symbol) :: rightForms)
  | call {least depth : Nat} {name : String} {argument : Tree} {note : Note}
      {forms : List (TokenKind × String)} (isArgument : Bracketed 0 depth argument forms) :
      Bracketed least (depth + 1) (.call name [argument] note)
        ((.name, name) :: enclosed true forms)
  | group {least depth : Nat} {tree : Tree} {forms : List (TokenKind × String)}
      (inside : Bracketed 0 depth tree forms) :
      Bracketed least (depth + 1) tree (enclosed true forms)

namespace Bracketed

variable {least least' depth : Nat} {tree : Tree} {forms rendered : List (TokenKind × String)}

/-- A way to write an expression will do wherever less is needed, and wherever the expression binds
tightly enough by itself. -/
theorem elsewhere (bracketed : Bracketed least depth tree forms)
    (enough : least' ≤ least ∨ least' ≤ tree.strength) : Bracketed least' depth tree forms := by
  cases bracketed with
  | identifier => exact .identifier
  | number => exact .number
  | binary joins tight isLeft isRight =>
      have tight' := enough.elim (fun less => Nat.le_trans less tight) id
      exact .binary joins tight' isLeft isRight
  | call isArgument => exact .call isArgument
  | group inside => exact .group inside

theorem deeper (bracketed : Bracketed least depth tree forms) :
    Bracketed least (depth + 1) tree forms := by
  induction bracketed with
  | identifier => exact .identifier
  | number => exact .number
  | binary joins tight _ _ leftHypothesis rightHypothesis =>
      exact .binary joins tight leftHypothesis rightHypothesis
  | call _ inductionHypothesis => exact .call inductionHypothesis
  | group _ inductionHypothesis => exact .group inductionHypothesis

theorem balanced (bracketed : Bracketed least depth tree forms) : Balanced forms := by
  induction bracketed with
  | identifier => exact .plain (by decide) (by decide) .nil
  | number => exact .plain (by decide) (by decide) .nil
  | binary _ _ _ _ leftHypothesis rightHypothesis =>
      exact leftHypothesis.append (.plain (by decide) (by decide) rightHypothesis)
  | call _ inductionHypothesis =>
      exact .plain (by decide) (by decide) inductionHypothesis.enclose
  | group _ inductionHypothesis => exact inductionHypothesis.enclose

/-- Either the parentheses are those of the rendering, or some can be taken away. -/
theorem eq_or_deletes (bracketed : Bracketed least depth tree forms)
    (written : Written tree rendered) (possible : least ≤ 255) :
    forms = enclosed (tree.strength < least) rendered ∨
      ∃ forms', DeletesGroup forms forms' ∧ Bracketed least depth tree forms' := by
  induction bracketed generalizing rendered with
  | identifier =>
      cases written
      exact .inl (enclosed_of_le possible _).symm
  | number =>
      cases written
      exact .inl (enclosed_of_le possible _).symm
  | @binary least depth operator left right note leftForms rightForms joins tight isLeft isRight
      leftHypothesis rightHypothesis =>
      cases written with
      | @binary _ _ _ _ leftRendered rightRendered _ leftWritten rightWritten =>
          have bounded : operator.strength + 1 ≤ 255 := by cases operator <;> decide
          rcases leftHypothesis leftWritten (Nat.le_of_succ_le bounded) with
            leftSame | ⟨leftForms', deletes, isLeft'⟩
          · rcases rightHypothesis rightWritten bounded with
              rightSame | ⟨rightForms', deletes, isRight'⟩
            · simp only [Nat.lt_succ_iff] at rightSame
              rw [leftSame, rightSame]
              exact .inl (enclosed_of_le tight _).symm
            · refine .inr ⟨_, ?_, .binary joins tight isLeft isRight'⟩
              exact deletes.behind leftForms operator.symbol TokenKind.noConfusion
          · refine .inr ⟨_, ?_, .binary joins tight isLeft' isRight⟩
            exact deletes.before ((.arithmetic, operator.symbol) :: rightForms)
  | @call least depth name argument note forms isArgument inductionHypothesis =>
      cases written with
      | call _ argumentWritten =>
          rcases inductionHypothesis argumentWritten (Nat.zero_le _) with
            same | ⟨forms', deletes, isArgument'⟩
          · rw [same, enclosed_of_le (Nat.zero_le _)]
            exact .inl (enclosed_of_le possible _).symm
          · exact .inr ⟨_, deletes.inside [(.name, name)], .call isArgument'⟩
  | @group least depth tree forms inside inductionHypothesis =>
      by_cases needed : tree.strength < least
      · rcases inductionHypothesis written (Nat.zero_le _) with same | ⟨forms', deletes, inside'⟩
        · rw [decide_eq_true needed, same, enclosed_of_le (Nat.zero_le _)]
          exact .inl rfl
        · exact .inr ⟨_, deletes.inside [], .group inside'⟩
      · refine .inr ⟨forms, .ofEnclosed inside.balanced, ?_⟩
        exact (inside.elsewhere (.inr (Nat.le_of_not_lt needed))).deeper

end Bracketed
end Tree
end ExpressionChecker

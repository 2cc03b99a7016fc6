import ExpressionChecker.Proofs.Tree.Written

namespace ExpressionChecker

/-!
# Legible trees

Rendering writes down any tree at all, but not every text is legible: a name may be misspelt, and a
negation that joins two operands has no place in a text.  Legible trees use all fourteen operators,
calls with any number of arguments, and assignments anywhere except as the target of another one.
The tokens that a legible tree is written with can be listed without looking at any text.
-/

namespace Tree

open Token

/-- The names and the numbers of a tree are well spelt, negation is its only operator in front of an
operand and joins nothing, and no assignment is the target of another one. -/
inductive IsLegible : Tree → Prop where
  | identifier {name : String} {note : Note} (free : Spelling.IsFreeName name) :
      IsLegible (.identifier name note)
  | number {literal : String} {note : Note} (spelt : Spelling.isNumber literal.toList = true) :
      IsLegible (.number literal note)
  | negation {operand : Tree} {note : Note} (isOperand : IsLegible operand) :
      IsLegible (.unary .not operand note)
  | binary {operator : Operator} {left right : Tree} {note : Note} (joins : operator ≠ .not)
      (isLeft : IsLegible left) (isRight : IsLegible right) :
      IsLegible (.binary operator left right note)
  | call {name : String} {arguments : List Tree} {note : Note} (free : Spelling.IsFreeName name)
      (areArguments : ∀ argument ∈ arguments, IsLegible argument) :
      IsLegible (.call name arguments note)
  | assignment {target value : Tree} {note : Note} (single : ¬ target.IsAssignment)
      (isTarget : IsLegible target) (isValue : IsLegible value) :
      IsLegible (.assignment target value note)

/-! ## Forms -/

mutual

/-- The forms of the tokens that a tree is written with. -/
def tokenForms : Tree → List (TokenKind × String)
  | identifier name _ => [(.name, name)]
  | number literal _ => [(.number, literal)]
  | unary operator operand _ =>
    (operator.tokenKind, operator.symbol) ::
      enclosed (operand.strength < operator.strength) operand.tokenForms
  | binary operator left right _ =>
    enclosed (left.strength < operator.strength) left.tokenForms ++
      (operator.tokenKind, operator.symbol) ::
        enclosed (right.strength ≤ operator.strength) right.tokenForms
  | call name arguments _ => (.name, name) :: enclosed true (tokenFormsOfAll arguments)
  | assignment target value _ => target.tokenForms ++ (.assign, "=") :: value.tokenForms

/-- The forms of the tokens that several trees are written with, separated by commas. -/
def tokenFormsOfAll : List Tree → List (TokenKind × String)
  | [] => []
  | [tree] => tree.tokenForms
  | tree :: trees => tree.tokenForms ++ (.comma, ",") :: tokenFormsOfAll trees

end

/-! ## What stands around a rendering -/

/-- The text goes on with a character that may follow a rendered tree. -/
def EndsTree (rest : List Char) : Prop :=
  ∀ c ∈ rest.head?, c ∈ [' ', '(', ')', ',']

theorem endsTree_cons {c : Char} (ends : c ∈ [' ', '(', ')', ',']) (rest : List Char) :
    EndsTree (c :: rest) := by
  intro first isFirst
  cases Option.mem_some_iff.mp isFirst
  exact ends

theorem endsTree_nil : EndsTree [] := by
  intro c impossible
  cases impossible

/-- No rendered tree begins with the second half of an operator. -/
theorem IsLegible.exists_render_eq_cons {tree : Tree} (legible : tree.IsLegible) :
    ∃ c later, tree.render.toList = c :: later ∧ c ≠ '=' := by
  have ofName {name : String} (free : Spelling.IsFreeName name) :
      ∃ c later, name.toList = c :: later ∧ c ≠ '=' := by
    rcases Spelling.isName_run free.spelt with ⟨c, run, whole, begins, _⟩
    refine ⟨c, run, whole, ?_⟩
    rintro rfl
    exact absurd begins (by decide)
  have inFront {text text' : String} (front : ∃ c later, text.toList = c :: later ∧ c ≠ '=') :
      ∃ c later, (text ++ text').toList = c :: later ∧ c ≠ '=' := by
    rcases front with ⟨c, later, whole, other⟩
    exact ⟨c, later ++ text'.toList, by rw [String.toList_append, whole, List.cons_append], other⟩
  induction legible with
  | identifier free => exact ofName free
  | @number literal note spelt =>
      rcases Spelling.isNumber_run spelt with ⟨c, run, whole, digit, _⟩
      refine ⟨c, run, whole, ?_⟩
      rintro rfl
      cases digit
  | @negation operand note isOperand inductionHypothesis =>
      rw [render]
      exact inFront ⟨'!', [], rfl, by decide⟩
  | @binary operator left right note joins isLeft isRight leftHypothesis rightHypothesis =>
      rw [render]
      refine inFront (inFront (inFront (inFront ?_)))
      rw [parenthesized]
      split
      · exact inFront (inFront ⟨'(', [], rfl, by decide⟩)
      · exact leftHypothesis
  | call free areArguments inductionHypothesis =>
      rw [render]
      exact inFront (inFront (inFront (ofName free)))
  | assignment single isTarget isValue targetHypothesis valueHypothesis =>
      rw [render]
      exact inFront (inFront targetHypothesis)

/-! ## Rendered texts are read as the listed tokens -/

/-- The text of a tree is read as the tokens that the tree is written with, whatever follows. -/
def ReadsAsListed (tree : Tree) : Prop :=
  ∀ rest, EndsTree rest → forms (tree.render.toList ++ rest) = tree.tokenForms ++ forms rest

theorem ReadsAsListed.parenthesized {tree : Tree} (reads : tree.ReadsAsListed) (needed : Bool)
    {rest : List Char} (ends : EndsTree rest) :
    forms ((parenthesized needed tree.render).toList ++ rest) =
      enclosed needed tree.tokenForms ++ forms rest := by
  cases needed with
  | false => exact reads rest ends
  | true =>
      have inner := reads (')' :: rest) (endsTree_cons (by decide) rest)
      rw [toList_parenthesized, forms_open, inner, forms_close]
      simp only [enclosed, if_true, List.cons_append, List.append_assoc, List.nil_append]

/-- An exclamation mark in front of an operand is read alone. -/
theorem forms_negation {c : Char} (other : c ≠ '=') (rest : List Char) :
    forms ('!' :: c :: rest) = (.logical, "!") :: forms (c :: rest) := by
  have unpaired : Unpaired '!' (c :: rest) := by
    rw [Reading.unpaired_cons_iff]
    unfold Reading.pairKind?
    split <;> simp_all
  exact forms_single (by decide) (Layout.startsToken_cons (by decide) (by decide) _) unpaired

/-- Arguments are read one by one, with the commas between them. -/
theorem forms_renderAll {trees : List Tree} (read : ∀ tree ∈ trees, tree.ReadsAsListed)
    {rest : List Char} (ends : EndsTree rest) :
    forms ((renderAll trees).toList ++ rest) = tokenFormsOfAll trees ++ forms rest := by
  match trees with
  | [] => rfl
  | [tree] => exact read tree List.mem_cons_self rest ends
  | tree :: next :: later =>
      have whole : (renderAll (tree :: next :: later)).toList ++ rest =
          tree.render.toList ++ ',' :: ' ' :: ((renderAll (next :: later)).toList ++ rest) := by
        simp only [renderAll, String.toList_append, List.append_assoc]
        rfl
      have remaining := forms_renderAll (List.forall_mem_cons.mp read).2 ends
      have comma : (',', TokenKind.comma) ∈ punctuation := by decide
      rw [whole, read tree List.mem_cons_self _ (endsTree_cons (by decide) _),
        forms_spaced comma, remaining]
      simp only [tokenFormsOfAll, List.append_assoc, List.cons_append]

/-- The text of a legible tree is read as the tokens that the tree is written with. -/
theorem IsLegible.readsAsListed {tree : Tree} (legible : tree.IsLegible) :
    tree.ReadsAsListed := by
  induction legible with
  | identifier free =>
      intro rest ends
      apply forms_name_of_stops free
      intro c first
      have table : [' ', '(', ')', ','].any Reading.continuesWord = false := by decide
      exact Bool.eq_false_iff.mpr (List.any_eq_false.mp table c (ends c first))
  | number spelt =>
      intro rest ends
      apply forms_number_of_stops spelt
      intro c first
      have table : [' ', '(', ')', ','].any Reading.continuesNumber = false := by decide
      exact Bool.eq_false_iff.mpr (List.any_eq_false.mp table c (ends c first))
  | @negation operand note isOperand inductionHypothesis =>
      intro rest ends
      have reads :=
        inductionHypothesis.parenthesized (operand.strength < Operator.not.strength) ends
      have front : ∃ c later,
          (Tree.parenthesized (operand.strength < Operator.not.strength) operand.render).toList ++
            rest = c :: later ∧ c ≠ '=' := by
        by_cases needed : operand.strength < Operator.not.strength
        · rw [decide_eq_true needed, toList_parenthesized]
          exact ⟨'(', _, rfl, by decide⟩
        · rcases isOperand.exists_render_eq_cons with ⟨c, later, whole, other⟩
          rw [decide_eq_false needed, Tree.parenthesized, if_neg Bool.false_ne_true, whole]
          exact ⟨c, later ++ rest, rfl, other⟩
      rcases front with ⟨c, later, whole, other⟩
      have begins : (Tree.unary .not operand note).render.toList ++ rest =
          '!' :: ((Tree.parenthesized (operand.strength < Operator.not.strength)
            operand.render).toList ++ rest) := by
        simp only [render, String.toList_append, List.append_assoc]
        rfl
      rw [begins, whole, forms_negation other, ← whole, reads]
      rfl
  | @binary operator left right note joins isLeft isRight leftHypothesis rightHypothesis =>
      intro rest ends
      rw [toList_render_binary,
        leftHypothesis.parenthesized _ (endsTree_cons (by decide) _), forms_blank (by decide),
        forms_infix joins, rightHypothesis.parenthesized _ ends]
      simp only [tokenForms, List.append_assoc, List.cons_append]
  | @call name arguments note free areArguments inductionHypothesis =>
      intro rest ends
      have whole : (Tree.call name arguments note).render.toList ++ rest =
          name.toList ++ '(' :: ((renderAll arguments).toList ++ ')' :: rest) := by
        simp only [render, String.toList_append, List.append_assoc]
        rfl
      have opens : ∀ c ∈ ('(' :: ((renderAll arguments).toList ++ ')' :: rest)).head?,
          Reading.continuesWord c = false := by
        intro c first
        cases Option.mem_some_iff.mp first
        decide
      rw [whole, forms_name_of_stops free opens, forms_open,
        forms_renderAll inductionHypothesis (endsTree_cons (by decide) _), forms_close]
      simp only [tokenForms, enclosed, if_true, List.cons_append, List.append_assoc,
        List.nil_append]
  | @assignment target value note single isTarget isValue targetHypothesis valueHypothesis =>
      intro rest ends
      have whole : (Tree.assignment target value note).render.toList ++ rest =
          target.render.toList ++ ' ' :: '=' :: ' ' :: (value.render.toList ++ rest) := by
        simp only [render, String.toList_append, List.append_assoc]
        rfl
      have equals : ('=', TokenKind.assign) ∈ punctuation := by decide
      rw [whole, targetHypothesis _ (endsTree_cons (by decide) _), forms_blank (by decide),
        forms_spaced equals, valueHypothesis rest ends]
      simp only [tokenForms, List.append_assoc, List.cons_append]

/-- Legible trees that are rendered alike are written with the same tokens. -/
theorem tokenForms_eq_of_render_eq {first second : Tree} (isFirst : first.IsLegible)
    (isSecond : second.IsLegible) (same : first.render = second.render) :
    first.tokenForms = second.tokenForms := by
  have read := isFirst.readsAsListed [] endsTree_nil
  rw [same, isSecond.readsAsListed [] endsTree_nil] at read
  exact (List.append_cancel_right read).symm

end Tree
end ExpressionChecker

import ExpressionChecker.Proofs.Grammar.Image
import ExpressionChecker.Proofs.Tree.Bracketing
import ExpressionChecker.Proofs.Tree.RoundTrip

namespace ExpressionChecker

/-!
# Rendering leaves the fewest parentheses

Every way to write a statement that is read at all is one of the bracketings of its tree, and every
bracketing is read to that tree again under limits that allow its parentheses.  So whatever can be
taken away from a bracketing leaves a text that is read like it, and only the rendering has nothing
that can be taken away.  It has the fewest parentheses of all, and it opens none deeper than they
do.
-/

open Grammar

/-! ## Bracketings are read -/

namespace Tree

variable {limits : Limits} {least depth : Nat} {tree : Tree} {forms : List (TokenKind × String)}

namespace Bracketed

/-- A bracketing is read to an expression of the same shape. -/
theorem reads (limits : Limits) (bracketed : Bracketed least depth tree forms)
    (possible : least ≤ 255) : Reads limits least depth forms tree := by
  induction bracketed with
  | identifier => exact ((Reads.identifier _).weaken possible).deepen (Nat.zero_le _)
  | number => exact ((Reads.number _).weaken possible).deepen (Nat.zero_le _)
  | @binary least depth operator left right note leftForms rightForms joins tight _ _ leftHypothesis
      rightHypothesis =>
      have bounded : operator.strength + 1 ≤ 255 := by cases operator <;> decide
      have isLeft := leftHypothesis (Nat.le_of_succ_le bounded)
      have isRight := rightHypothesis bounded
      have whole : Reads limits operator.strength (max depth depth)
          (leftForms ++ (.arithmetic, operator.symbol) :: rightForms)
          (.binary operator left right note) := by
        rcases joins with (rfl | rfl) | (rfl | rfl)
        · exact .multiplicative (.inl rfl) isLeft isRight
        · exact .multiplicative (.inr rfl) isLeft isRight
        · exact .additive (.inl rfl) isLeft isRight
        · exact .additive (.inr rfl) isLeft isRight
      rw [Nat.max_self] at whole
      exact whole.weaken tight
  | call _ inductionHypothesis =>
      exact (Reads.call _ (inductionHypothesis (Nat.zero_le _))).weaken possible
  | group _ inductionHypothesis =>
      exact (inductionHypothesis (Nat.zero_le _)).enclose.weaken possible

theorem ne_assignment (bracketed : Bracketed least depth tree forms) {target value : Tree}
    {note : Note} : tree ≠ .assignment target value note := by
  induction bracketed with
  | group _ inductionHypothesis => exact inductionHypothesis
  | _ => exact Tree.noConfusion

/-- The tokens of a bracketing that are all the tokens of a value are read to the end. -/
theorem readAll_start (bracketed : Bracketed 0 limits.depth tree forms)
    (few : tree.operatorCount ≤ limits.operators) (previous : Option Token)
    {tokens rest : List Token} (same : tokens.map Token.form = forms) (ends : EndsStatement rest) :
    ∃ tree', Assembly.readAll limits (.start previous) (tokens ++ rest) = .ok tree' ∧
      tree'.bare = tree.bare := by
  have endsProduct := ends.endsSum.endsProduct
  rcases bracketed.reads limits (Nat.zero_le _) tokens rest .empty [] 0 previous same
    ⟨fun _ => rfl, fun _ => rfl⟩ ⟨endsProduct.endsFactor, fun _ => endsProduct⟩
    (Nat.le_of_eq (Nat.zero_add _)) (by rwa [Nat.zero_add]) with
    ⟨tree', previous', shape, read⟩
  exact ⟨tree', read.trans (Assembly.readAll_end ends), shape⟩

end Bracketed

/-! ## Statements -/

/-- The forms are a way to write a statement. -/
inductive BracketedStatement (depth : Nat) : Tree → List (TokenKind × String) → Prop where
  | expression {tree : Tree} {forms : List (TokenKind × String)}
      (bracketed : Bracketed 0 depth tree forms) : BracketedStatement depth tree forms
  | assignment {name : String} {note note' : Note} {value : Tree}
      {forms : List (TokenKind × String)} (bracketed : Bracketed 0 depth value forms) :
      BracketedStatement depth (.assignment (.identifier name note) value note')
        ((.name, name) :: (.assign, "=") :: forms)

/-- The tree is a statement, and `forms` are the forms of the tokens it is rendered with. -/
inductive WrittenStatement : Tree → List (TokenKind × String) → Prop where
  | expression {tree : Tree} {forms : List (TokenKind × String)} (written : Written tree forms) :
      WrittenStatement tree forms
  | assignment {name : String} {note note' : Note} {value : Tree}
      {forms : List (TokenKind × String)} (free : Spelling.IsFreeName name)
      (written : Written value forms) :
      WrittenStatement (.assignment (.identifier name note) value note')
        ((.name, name) :: (.assign, "=") :: forms)

theorem IsStatement.exists_written {tree : Tree} (isStatement : tree.IsStatement) :
    ∃ rendered, tree.WrittenStatement rendered := by
  cases isStatement with
  | expression isExpression =>
      rcases isExpression.exists_written with ⟨forms, written⟩
      exact ⟨_, .expression written⟩
  | assignment free isExpression =>
      rcases isExpression.exists_written with ⟨forms, written⟩
      exact ⟨_, .assignment free written⟩

namespace WrittenStatement

variable {rendered : List (TokenKind × String)}

theorem forms_render (written : WrittenStatement tree rendered) :
    Token.forms tree.render.toList = rendered ++ [(.endOfInput, Token.endLexeme)] := by
  have atEnd : Token.EndsWord [] := fun _ impossible => by cases impossible
  cases written with
  | expression written =>
      have whole := written.forms_render atEnd
      rwa [List.append_nil, Token.forms_nil] at whole
  | assignment free written =>
      have whole := written.forms_render atEnd
      rw [List.append_nil, Token.forms_nil] at whole
      rw [forms_assignment free, whole]
      rfl

end WrittenStatement

namespace BracketedStatement

variable {rendered : List (TokenKind × String)}

/-- A bracketing is read to a statement of the same shape. -/
theorem ofTokens_eq_ok (bracketed : BracketedStatement limits.depth tree forms)
    (few : tree.operatorCount ≤ limits.operators) {tokens rest : List Token}
    (same : tokens.map Token.form = forms) (ends : EndsStatement rest) :
    ∃ tree', ofTokens limits (tokens ++ rest) = .ok tree' ∧ tree'.bare = tree.bare := by
  cases bracketed with
  | expression bracketed =>
      rcases bracketed.readAll_start few none same ends with ⟨tree', read, shape⟩
      exact ⟨tree', ofTokens_of_readAll read, shape⟩
  | assignment bracketed =>
      simp only [operatorCount, Nat.zero_add] at few
      rcases Token.exists_of_form_cons same with ⟨target, behind, rfl, named, rfl, later⟩
      rcases Token.exists_of_form_cons later with ⟨equals, inside, rfl, assigns, _, isValue⟩
      rcases bracketed.readAll_start few (some equals) isValue ends with ⟨value', read, shape⟩
      refine ⟨.assignment (.identifier target.lexeme ⟨target.position, none⟩) value'
        ⟨equals.position, none⟩, ?_, ?_⟩
      · rw [List.cons_append, List.cons_append, ofTokens, if_pos ⟨named, assigns⟩, read]
        rfl
      · rw [bare_assignment, bare_assignment, shape, bare_identifier, bare_identifier]

/-- Either the parentheses are those of the rendering, or some can be taken away. -/
theorem eq_or_deletes (bracketed : BracketedStatement depth tree forms)
    (written : WrittenStatement tree rendered) :
    forms = rendered ∨
      ∃ forms', DeletesGroup forms forms' ∧ BracketedStatement depth tree forms' := by
  cases bracketed with
  | expression bracketed =>
      cases written with
      | expression written =>
          rcases bracketed.eq_or_deletes written (Nat.zero_le _) with
            same | ⟨forms', deletes, bracketed'⟩
          · exact .inl (same.trans (enclosed_of_le (Nat.zero_le _) _))
          · exact .inr ⟨forms', deletes, .expression bracketed'⟩
      | assignment => exact (bracketed.ne_assignment rfl).elim
  | @assignment name _ _ _ _ bracketed =>
      cases written with
      | expression written => cases written
      | assignment free written =>
          rcases bracketed.eq_or_deletes written (Nat.zero_le _) with
            same | ⟨forms', deletes, bracketed'⟩
          · rw [same, enclosed_of_le (Nat.zero_le _)]
            exact .inl rfl
          · refine .inr ⟨_, ?_, .assignment bracketed'⟩
            exact deletes.behind [(.name, name)] "=" TokenKind.noConfusion

/-- Taking away what can be taken away ends at the rendering, which leaves no more parentheses open
at once. -/
theorem reduces {forms : List (TokenKind × String)}
    (bracketed : BracketedStatement depth tree forms)
    (written : WrittenStatement tree rendered) :
    Relation.ReflTransGen DeletesGroup forms rendered ∧ BracketedStatement depth tree rendered := by
  rcases bracketed.eq_or_deletes written with same | ⟨forms', deletes, bracketed'⟩
  · subst same
    exact ⟨.refl, bracketed⟩
  · have shorter : forms'.length < forms.length := by
      have lengths := deletes.length_eq
      omega
    have later := bracketed'.reduces written
    exact ⟨.head deletes later.1, later.2⟩
termination_by forms.length

end BracketedStatement
end Tree

/-! ## Phrases are bracketings -/

/-- The lexeme that every token of a kind has in a text, if there is only one. -/
def TokenKind.fixedLexeme? : TokenKind → Option String
  | openParenthesis => some "("
  | closeParenthesis => some ")"
  | assign => some "="
  | _ => none

namespace Token

/-- The form of a token, with the lexeme that its kind has in a text. -/
def canonicalForm (token : Token) : TokenKind × String :=
  (token.kind, token.kind.fixedLexeme?.getD token.lexeme)

theorem canonicalForm_of_munch {raw rest : List Char} {token : Token}
    (munch : Munch raw rest token.kind token.lexeme) : token.canonicalForm = token.form := by
  rcases token with ⟨kind, lexeme, position⟩
  have fixed : kind.fixedLexeme?.getD lexeme = lexeme := by
    cases munch with
    | word _ _ spelling => cases spelling <;> rfl
    | number _ _ spelling => cases spelling <;> rfl
    | pair listed =>
        have table : ∀ entry ∈ operatorPairs, entry.2.fixedLexeme? = none := by decide
        have noLexeme : kind.fixedLexeme? = none := table _ listed
        rw [noLexeme]
        rfl
    | single listed =>
        have table : ∀ entry ∈ punctuation, entry.2.fixedLexeme?.getD (String.ofList [entry.1]) =
            String.ofList [entry.1] := by
          decide
        exact table _ listed
    | _ => rfl
  exact congrArg (Prod.mk kind) fixed

/-- In a text every token has the lexeme of its kind. -/
theorem stream_canonicalForm (text : String) :
    ∀ token ∈ stream text, token.canonicalForm = token.form := by
  intro token isToken
  rcases exists_munch_of_mem_stream isToken with ⟨raw, rest, munch⟩
  exact canonicalForm_of_munch munch

theorem canonicalForm_of_fixed {token : Token} {kind : TokenKind} {lexeme : String}
    (isKind : token.kind = kind) (fixed : kind.fixedLexeme? = some lexeme) :
    token.canonicalForm = (kind, lexeme) := by
  rw [canonicalForm, isKind, fixed]
  rfl

theorem canonicalForm_of_free {token : Token} {kind : TokenKind}
    (isKind : token.kind = kind) (free : kind.fixedLexeme? = none) :
    token.canonicalForm = (kind, token.lexeme) := by
  rw [canonicalForm, isKind, free]
  rfl

end Token

namespace Grammar

open ExpressionChecker.Tree ExpressionChecker.Token

/-- Between parentheses stand the forms of what they hold. -/
theorem map_canonicalForm_enclosed {opening closing : Token}
    (opens : opening.kind = .openParenthesis) (closes : closing.kind = .closeParenthesis)
    (content : List Token) : (opening :: (content ++ [closing])).map canonicalForm =
      enclosed true (content.map canonicalForm) := by
  rw [List.map_cons, List.map_append, List.map_singleton, canonicalForm_of_fixed opens rfl,
    canonicalForm_of_fixed closes rfl]
  rfl

theorem canonicalForm_of_spells {token : Token} {operator : Operator}
    (spelt : Spells token operator) : token.canonicalForm = (.arithmetic, operator.symbol) := by
  rw [canonicalForm_of_free spelt.1 rfl, spelt.2]

section Joined

variable {depth : Nat} {left right : Tree} {operator : Operator}
  {leftForms rightForms : List (TokenKind × String)}

theorem bracketed_multiplicative (joins : JoinsFactors operator)
    (isLeft : Bracketed 6 depth left leftForms) (isRight : Bracketed 7 depth right rightForms)
    (note : Note) :
    Bracketed 6 depth (.binary operator left right note)
      (leftForms ++ (.arithmetic, operator.symbol) :: rightForms) := by
  rcases joins with rfl | rfl
  · exact .binary (.inl (.inl rfl)) (Nat.le_refl 6) isLeft isRight
  · exact .binary (.inl (.inr rfl)) (Nat.le_refl 6) isLeft isRight

theorem bracketed_additive (joins : JoinsProducts operator)
    (isLeft : Bracketed 5 depth left leftForms) (isRight : Bracketed 6 depth right rightForms)
    (note : Note) :
    Bracketed 5 depth (.binary operator left right note)
      (leftForms ++ (.arithmetic, operator.symbol) :: rightForms) := by
  rcases joins with rfl | rfl
  · exact .binary (.inr (.inl rfl)) (Nat.le_refl 5) isLeft isRight
  · exact .binary (.inr (.inr rfl)) (Nat.le_refl 5) isLeft isRight

end Joined

mutual

theorem Factor.bracketed (factor : Factor) {depth : Nat} (shallow : factor.nesting ≤ depth) :
    Bracketed 7 depth factor.tree (factor.tokens.map canonicalForm) := by
  cases factor with
  | call callee opening argument closing named opens closes =>
      simp only [Factor.nesting] at shallow
      cases depth with
      | zero => cases shallow
      | succ depth =>
          have inside := Sum.bracketed argument (Nat.le_of_succ_le_succ shallow)
          rw [Factor.tokens, List.map_cons, canonicalForm_of_free named rfl,
            map_canonicalForm_enclosed opens closes]
          exact .call (inside.elsewhere (.inl (Nat.zero_le _)))
  | group opening content closing opens closes =>
      simp only [Factor.nesting] at shallow
      cases depth with
      | zero => cases shallow
      | succ depth =>
          have inside := Sum.bracketed content (Nat.le_of_succ_le_succ shallow)
          rw [Factor.tokens, map_canonicalForm_enclosed opens closes]
          exact .group (inside.elsewhere (.inl (Nat.zero_le _)))
  | name token named =>
      rw [Factor.tokens, List.map_singleton, canonicalForm_of_free named rfl]
      exact .identifier
  | number token numeric =>
      rw [Factor.tokens, List.map_singleton, canonicalForm_of_free numeric rfl]
      exact .number

theorem ProductRest.bracketed (further : ProductRest) {depth : Nat}
    (shallow : further.nesting ≤ depth) {left : Tree} {forms : List (TokenKind × String)}
    (isLeft : Bracketed 6 depth left forms) :
    Bracketed 6 depth (further.treeFrom left) (forms ++ further.tokens.map canonicalForm) := by
  cases further with
  | done =>
      rw [ProductRest.tokens, List.map_nil, List.append_nil]
      exact isLeft
  | more operator token right later spelt multiplicative =>
      simp only [ProductRest.nesting] at shallow
      have factor := Factor.bracketed right (Nat.le_trans (Nat.le_max_left _ _) shallow)
      have whole := ProductRest.bracketed later (Nat.le_trans (Nat.le_max_right _ _) shallow)
        (bracketed_multiplicative multiplicative isLeft factor ⟨token.position, none⟩)
      simp only [ProductRest.tokens, ProductRest.treeFrom, List.map_cons, List.map_append,
        canonicalForm_of_spells spelt]
      simpa only [List.append_assoc, List.cons_append] using whole

theorem Product.bracketed (product : Product) {depth : Nat} (shallow : product.nesting ≤ depth) :
    Bracketed 6 depth product.tree (product.tokens.map canonicalForm) := by
  cases product with
  | of first further =>
      simp only [Product.nesting] at shallow
      have factor := Factor.bracketed first (Nat.le_trans (Nat.le_max_left _ _) shallow)
      rw [Product.tokens, List.map_append]
      exact ProductRest.bracketed further (Nat.le_trans (Nat.le_max_right _ _) shallow)
        (factor.elsewhere (.inl (by decide)))

theorem SumRest.bracketed (further : SumRest) {depth : Nat} (shallow : further.nesting ≤ depth)
    {left : Tree} {forms : List (TokenKind × String)} (isLeft : Bracketed 5 depth left forms) :
    Bracketed 5 depth (further.treeFrom left) (forms ++ further.tokens.map canonicalForm) := by
  cases further with
  | done =>
      rw [SumRest.tokens, List.map_nil, List.append_nil]
      exact isLeft
  | more operator token right later spelt additive =>
      simp only [SumRest.nesting] at shallow
      have product := Product.bracketed right (Nat.le_trans (Nat.le_max_left _ _) shallow)
      have whole := SumRest.bracketed later (Nat.le_trans (Nat.le_max_right _ _) shallow)
        (bracketed_additive additive isLeft product ⟨token.position, none⟩)
      simp only [SumRest.tokens, SumRest.treeFrom, List.map_cons, List.map_append,
        canonicalForm_of_spells spelt]
      simpa only [List.append_assoc, List.cons_append] using whole

/-- A sum is a bracketing of its syntax tree. -/
theorem Sum.bracketed (sum : Sum) {depth : Nat} (shallow : sum.nesting ≤ depth) :
    Bracketed 5 depth sum.tree (sum.tokens.map canonicalForm) := by
  cases sum with
  | of first further =>
      simp only [Sum.nesting] at shallow
      have product := Product.bracketed first (Nat.le_trans (Nat.le_max_left _ _) shallow)
      rw [Sum.tokens, List.map_append]
      exact SumRest.bracketed further (Nat.le_trans (Nat.le_max_right _ _) shallow)
        (product.elsewhere (.inl (by decide)))

end

theorem Statement.bracketed (statement : Statement) {depth : Nat}
    (shallow : statement.nesting ≤ depth) :
    BracketedStatement depth statement.tree (statement.tokens.map canonicalForm) := by
  cases statement with
  | assignment target equals value named assigns =>
      rw [Statement.tokens, List.map_cons, List.map_cons, canonicalForm_of_free named rfl,
        canonicalForm_of_fixed assigns rfl]
      exact .assignment ((value.bracketed shallow).elsewhere (.inl (Nat.zero_le _)))
  | expression value =>
      exact .expression ((value.bracketed shallow).elsewhere (.inl (Nat.zero_le _)))

end Grammar

/-! ## The part that holds the statement -/

namespace Token

/-- The tokens up to the one that ends the statement. -/
def statementPart (tokens : List Token) : List Token :=
  tokens.takeWhile fun token => token.kind ≠ .semicolon ∧ token.kind ≠ .endOfInput

/-- The forms of the tokens that hold the statement. -/
def statementForms (tokens : List Token) : List (TokenKind × String) :=
  (statementPart tokens).map form

theorem statementPart_append {inside rest : List Token}
    (within : ∀ token ∈ inside, token.kind ≠ .semicolon ∧ token.kind ≠ .endOfInput)
    (ends : EndsStatement rest) : statementPart (inside ++ rest) = inside := by
  have all : ∀ token ∈ inside,
      decide (token.kind ≠ .semicolon ∧ token.kind ≠ .endOfInput) = true :=
    fun token listed => decide_eq_true (within token listed)
  rw [statementPart, List.takeWhile_append_of_pos all]
  cases rest with
  | nil => exact List.append_nil inside
  | cons token later =>
      have last : decide (token.kind ≠ .semicolon ∧ token.kind ≠ .endOfInput) = false := by
        refine decide_eq_false fun goesOn => ?_
        exact (ends token rfl).elim goesOn.1 goesOn.2
      rw [List.takeWhile_cons, last]
      exact List.append_nil inside

end Token

namespace Tree

/-- No token of a bracketing ends a statement. -/
theorem Bracketed.continues {least depth : Nat} {tree : Tree} {forms : List (TokenKind × String)}
    (bracketed : Bracketed least depth tree forms) :
    ∀ form ∈ forms, form.1 ≠ .semicolon ∧ form.1 ≠ .endOfInput := by
  have enclosed {forms : List (TokenKind × String)}
      (inside : ∀ form ∈ forms, form.1 ≠ .semicolon ∧ form.1 ≠ .endOfInput) :
      ∀ form ∈ enclosed true forms, form.1 ≠ .semicolon ∧ form.1 ≠ .endOfInput := by
    simp only [Tree.enclosed, if_true, List.forall_mem_cons, List.forall_mem_append]
    exact ⟨⟨TokenKind.noConfusion, TokenKind.noConfusion⟩, inside,
      ⟨TokenKind.noConfusion, TokenKind.noConfusion⟩, fun _ impossible => by cases impossible⟩
  induction bracketed with
  | identifier => simp
  | number => simp
  | binary _ _ _ _ leftHypothesis rightHypothesis =>
      rw [List.forall_mem_append, List.forall_mem_cons]
      exact ⟨leftHypothesis, ⟨TokenKind.noConfusion, TokenKind.noConfusion⟩, rightHypothesis⟩
  | call _ inductionHypothesis =>
      rw [List.forall_mem_cons]
      exact ⟨⟨TokenKind.noConfusion, TokenKind.noConfusion⟩, enclosed inductionHypothesis⟩
  | group _ inductionHypothesis => exact enclosed inductionHypothesis

theorem BracketedStatement.continues {depth : Nat} {tree : Tree}
    {forms : List (TokenKind × String)} (bracketed : BracketedStatement depth tree forms) :
    ∀ form ∈ forms, form.1 ≠ .semicolon ∧ form.1 ≠ .endOfInput := by
  cases bracketed with
  | expression bracketed => exact bracketed.continues
  | assignment bracketed =>
      rw [List.forall_mem_cons, List.forall_mem_cons]
      exact ⟨⟨TokenKind.noConfusion, TokenKind.noConfusion⟩,
        ⟨TokenKind.noConfusion, TokenKind.noConfusion⟩, bracketed.continues⟩

/-- What is read to a tree is a bracketing of the tree, in front of where the statement ends. -/
theorem bracketed_of_ofTokens {limits : Limits} {tokens : List Token} {tree : Tree}
    (success : ofTokens limits tokens = .ok tree) :
    ∃ rest, tokens = Token.statementPart tokens ++ rest ∧ EndsStatement rest ∧
      BracketedStatement limits.depth tree
        ((Token.statementPart tokens).map Token.canonicalForm) ∧
      tree.operatorCount ≤ limits.operators := by
  rcases exists_statement_of_ofTokens success with ⟨statement, rest, rfl, ends, keeps, rfl⟩
  have bracketed := statement.bracketed keeps.shallow
  have within : ∀ token ∈ statement.tokens,
      token.kind ≠ .semicolon ∧ token.kind ≠ .endOfInput :=
    fun token listed => bracketed.continues _ (List.mem_map_of_mem listed)
  rw [Token.statementPart_append within ends]
  exact ⟨rest, rfl, ends, bracketed, statement.operatorCount_tree ▸ keeps.few⟩

/-! ## Renderings -/

/-- The tokens of the text of a statement are those it is written with, and the end of the input. -/
theorem WrittenStatement.stream_render {tree : Tree} {rendered : List (TokenKind × String)}
    (written : WrittenStatement tree rendered)
    (continues : ∀ form ∈ rendered, form.1 ≠ .semicolon ∧ form.1 ≠ .endOfInput) :
    ∃ position, Token.stream tree.render =
        Token.statementPart (Token.stream tree.render) ++ [Token.endOfInput position] ∧
      Token.statementForms (Token.stream tree.render) = rendered := by
  have forms := (Token.stream_forms tree.render).trans written.forms_render
  rcases List.map_eq_append_iff.mp forms with ⟨inside, last, whole, isInside, isLast⟩
  rcases Token.exists_of_form_cons isLast with ⟨token, nothing, rfl, ends, isLexeme, isNothing⟩
  cases List.map_eq_nil_iff.mp isNothing
  have endsStatement : EndsStatement [token] := by
    rintro _ ⟨⟩
    exact .inr ends
  have within : ∀ token ∈ inside, token.kind ≠ .semicolon ∧ token.kind ≠ .endOfInput :=
    fun token listed => continues _ (isInside ▸ List.mem_map_of_mem listed)
  rw [Token.statementForms, whole, Token.statementPart_append within endsStatement]
  refine ⟨token.position, ?_, isInside⟩
  rw [Token.endOfInput, ← ends, ← isLexeme]

/-- The shape of a tree decides how it is written. -/
theorem Written.of_bare {tree tree' : Tree} {forms : List (TokenKind × String)}
    (written : Written tree forms) (alike : tree'.bare = tree.bare) : Written tree' forms := by
  induction written generalizing tree' with
  | identifier free =>
      cases tree' with
      | identifier =>
          cases alike
          exact .identifier free
      | _ => cases alike
  | number spelt =>
      cases tree' with
      | number =>
          cases alike
          exact .number spelt
      | _ => cases alike
  | @binary operator left right _ _ _ joins _ _ leftHypothesis rightHypothesis =>
      cases tree' with
      | binary operator' left' right' note' =>
          simp only [bare_binary, binary.injEq, and_true] at alike
          rcases alike with ⟨rfl, sameLeft, sameRight⟩
          rw [← strength_bare left, ← strength_bare right, ← sameLeft, ← sameRight, strength_bare,
            strength_bare]
          exact .binary joins (leftHypothesis sameLeft) (rightHypothesis sameRight)
      | _ => cases alike
  | call free _ inductionHypothesis =>
      cases tree' with
      | call name' arguments' note' =>
          match arguments' with
          | [] => simp at alike
          | [argument'] =>
              simp only [bare_call, bareAll_cons, bareAll_nil, call.injEq, List.cons.injEq,
                and_true] at alike
              rcases alike with ⟨rfl, same⟩
              exact .call free (inductionHypothesis same)
          | _ :: _ :: _ => simp at alike
      | _ => cases alike

theorem WrittenStatement.of_bare {tree tree' : Tree} {forms : List (TokenKind × String)}
    (written : WrittenStatement tree forms) (alike : tree'.bare = tree.bare) :
    WrittenStatement tree' forms := by
  cases written with
  | expression written => exact .expression (written.of_bare alike)
  | assignment free written =>
      cases tree' with
      | assignment target value note =>
          cases target with
          | identifier name note' =>
              simp only [bare_assignment, bare_identifier, assignment.injEq, identifier.injEq,
                and_true] at alike
              rcases alike with ⟨rfl, same⟩
              exact .assignment free (written.of_bare same)
          | _ => simp at alike
      | _ => cases alike

/-! ## Counting parentheses -/

theorem openings_le_of_reduces {forms rendered : List (TokenKind × String)}
    (reduces : Relation.ReflTransGen DeletesGroup forms rendered) :
    openings rendered ≤ openings forms := by
  induction reduces with
  | refl => exact Nat.le_refl _
  | tail _ deletes inductionHypothesis =>
      have counted := deletes.openings_eq
      omega

theorem openings_canonicalForm (tokens : List Token) :
    openings (tokens.map Token.canonicalForm) = openings (tokens.map Token.form) := by
  rw [openings, openings, List.countP_map, List.countP_map]
  rfl

/-- A way to write a statement that has more parentheses than its rendering can do without a pair,
and then is still read to the statement. -/
theorem BracketedStatement.exists_shorter {limits : Limits} {tree : Tree}
    {forms rendered : List (TokenKind × String)}
    (bracketed : BracketedStatement limits.depth tree forms)
    (written : WrittenStatement tree rendered) (few : tree.operatorCount ≤ limits.operators)
    (other : forms ≠ rendered) : ∃ tokens tree', DeletesGroup forms (tokens.map Token.form) ∧
      ofTokens limits tokens = .ok tree' ∧ tree'.bare = tree.bare := by
  rcases bracketed.eq_or_deletes written with same | ⟨forms', deletes, bracketed'⟩
  · exact absurd same other
  · have placed : (forms'.map fun form => Token.mk form.1 form.2 .start).map Token.form =
        forms' := by
      rw [List.map_map]
      exact List.map_id forms'
    rcases bracketed'.ofTokens_eq_ok few placed endsStatement_nil with ⟨tree', read, shape⟩
    rw [List.append_nil] at read
    exact ⟨_, tree', placed.symm ▸ deletes, read, shape⟩

/-- Rendering leaves the fewest parentheses.  The tokens of the rendering are those of the statement
with some pairs of grouping parentheses taken away, one after the other; no tokens that are read to
a tree of the same shape, under whatever limits, have fewer opening parentheses; so where no pair
can be taken away without another tree or none being read, nothing is.  The rendering is read to a
tree of the same shape under the limits under which the text was. -/
theorem render_fewest_parentheses {limits : Limits} {text : String} {tree : Tree}
    (success : ofTokens limits (Token.stream text) = .ok tree) :
    (∃ position, Token.stream tree.render =
      Token.statementPart (Token.stream tree.render) ++ [Token.endOfInput position]) ∧
    Relation.ReflTransGen DeletesGroup (Token.statementForms (Token.stream text))
      (Token.statementForms (Token.stream tree.render)) ∧
    (∀ limits' tokens tree', ofTokens limits' tokens = .ok tree' → tree'.bare = tree.bare →
      openings (Token.statementForms (Token.stream tree.render)) ≤
        openings (Token.statementForms tokens)) ∧
    ((∀ tokens tree',
        DeletesGroup (Token.statementForms (Token.stream text)) (tokens.map Token.form) →
        ofTokens limits tokens = .ok tree' → tree'.bare ≠ tree.bare) →
      Token.statementForms (Token.stream tree.render) =
        Token.statementForms (Token.stream text)) ∧
    ∃ tree', ofTokens limits (Token.stream tree.render) = .ok tree' ∧ tree'.bare = tree.bare := by
  rcases (isStatement_of_ofTokens success).1.exists_written with ⟨rendered, written⟩
  rcases bracketed_of_ofTokens success with ⟨rest, whole, ends, bracketed, few⟩
  have canonical : (Token.statementPart (Token.stream text)).map Token.canonicalForm =
      Token.statementForms (Token.stream text) := by
    refine List.map_congr_left fun token listed => Token.stream_canonicalForm text token ?_
    exact (List.takeWhile_prefix _).subset listed
  rw [canonical] at bracketed
  rcases bracketed.reduces written with ⟨reduces, reduced⟩
  rcases written.stream_render reduced.continues with ⟨position, tokens, isRendered⟩
  rw [isRendered]
  refine ⟨⟨position, tokens⟩, reduces, ?_, ?_, ?_⟩
  · intro limits' tokens' tree' success' alike
    rcases bracketed_of_ofTokens success' with ⟨rest', _, _, bracketed', _⟩
    rw [Token.statementForms, ← openings_canonicalForm]
    exact openings_le_of_reduces (bracketed'.reduces (written.of_bare alike)).1
  · intro minimal
    by_cases same : Token.statementForms (Token.stream text) = rendered
    · exact same.symm
    · rcases bracketed.exists_shorter written few same with ⟨tokens', tree', deletes, read, shape⟩
      exact absurd shape (minimal tokens' tree' deletes read)
  · rw [tokens]
    refine reduced.ofTokens_eq_ok few isRendered ?_
    rintro _ ⟨⟩
    exact .inr rfl

/-- Of the three pairs one is needed, one belongs to the call, and the one inside of it goes. -/
theorem render_fewest_parentheses_nested : ∃ tree,
    ofTokens ⟨3, 2⟩ (Token.stream "a-(b-f((2)));") = .ok tree ∧
      tree.render = "a - (b - f(2))" ∧
      Relation.ReflTransGen DeletesGroup
        (Token.statementForms (Token.stream "a-(b-f((2)));"))
        (Token.statementForms (Token.stream tree.render)) := by
  have tokens : Token.stream "a-(b-f((2)));" =
      [⟨.name, "a", ⟨1, 1⟩⟩, ⟨.arithmetic, "-", ⟨1, 2⟩⟩, ⟨.openParenthesis, "(", ⟨1, 3⟩⟩,
        ⟨.name, "b", ⟨1, 4⟩⟩, ⟨.arithmetic, "-", ⟨1, 5⟩⟩, ⟨.name, "f", ⟨1, 6⟩⟩,
        ⟨.openParenthesis, "(", ⟨1, 7⟩⟩, ⟨.openParenthesis, "(", ⟨1, 8⟩⟩, ⟨.number, "2", ⟨1, 9⟩⟩,
        ⟨.closeParenthesis, ")", ⟨1, 10⟩⟩, ⟨.closeParenthesis, ")", ⟨1, 11⟩⟩,
        ⟨.closeParenthesis, ")", ⟨1, 12⟩⟩, ⟨.semicolon, ";", ⟨1, 13⟩⟩,
        Token.endOfInput ⟨1, 14⟩] := by
    decide +kernel
  have success : ofTokens ⟨3, 2⟩ (Token.stream "a-(b-f((2)));") =
      .ok (.binary .subtract (.identifier "a" ⟨⟨1, 1⟩, none⟩)
        (.binary .subtract (.identifier "b" ⟨⟨1, 4⟩, none⟩)
          (.call "f" [.number "2" ⟨⟨1, 9⟩, none⟩] ⟨⟨1, 6⟩, none⟩) ⟨⟨1, 5⟩, none⟩)
        ⟨⟨1, 2⟩, none⟩) := by
    rw [tokens]
    rfl
  exact ⟨_, success, by decide +kernel, (render_fewest_parentheses success).2.1⟩

end Tree
end ExpressionChecker

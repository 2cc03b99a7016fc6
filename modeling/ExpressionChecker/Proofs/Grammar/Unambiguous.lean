import ExpressionChecker.Proofs.Grammar

namespace ExpressionChecker
namespace Grammar

/-!
# A text has one derivation

Two phrases of one kind that derive the beginning of the same tokens, and that neither text goes on
to extend, are the same phrase and end at the same place.  The condition on what follows is the
weakest one under which this holds: a name could become a call, and a chain could become longer.
-/

/-! ## Operators and what may follow -/

/-- A token spells at most one operator. -/
theorem Spells.unique {token : Token} {first second : Operator} (isFirst : Spells token first)
    (isSecond : Spells token second) : first = second :=
  Operator.symbol_injective (isFirst.2.symm.trans isSecond.2)

/-- The operators of sums are not those of products. -/
theorem JoinsProducts.not_multiplicative {operator : Operator} (additive : JoinsProducts operator) :
    ¬ JoinsFactors operator := by
  rcases additive with rfl | rfl <;> simp [JoinsFactors]

theorem EndsSum.endsProduct {rest : List Token} (ends : EndsSum rest) : EndsProduct rest :=
  fun token first =>
    ⟨(ends token first).1, fun operator multiplicative =>
      (ends token first).2 operator (Or.inl multiplicative)⟩

theorem EndsProduct.endsFactor {rest : List Token} (ends : EndsProduct rest) : EndsFactor rest :=
  fun token first => (ends token first).1

/-- A token that is neither an operator nor an opening parenthesis ends every phrase. -/
theorem endsSum_cons {token : Token} {rest : List Token}
    (plain : token.kind ≠ .arithmetic) (closed : token.kind ≠ .openParenthesis) :
    EndsSum (token :: rest) := by
  intro first isFirst
  cases Option.mem_some_iff.mp isFirst
  exact ⟨closed, fun _ _ spelt => plain spelt.1⟩

theorem endsSum_closing {closing : Token} {rest : List Token}
    (closes : closing.kind = .closeParenthesis) : EndsSum (closing :: rest) :=
  endsSum_cons (by rw [closes]; decide) (by rw [closes]; decide)

theorem endsStatement_nil : EndsStatement [] :=
  fun _ impossible => by cases impossible

theorem EndsStatement.endsSum {rest : List Token} (ends : EndsStatement rest) : EndsSum rest := by
  cases rest with
  | nil => exact fun _ impossible => by cases impossible
  | cons token rest =>
      rcases ends token rfl with semicolon | atEnd
      · exact endsSum_cons (by rw [semicolon]; decide) (by rw [semicolon]; decide)
      · exact endsSum_cons (by rw [atEnd]; decide) (by rw [atEnd]; decide)

theorem Spells.endsFactor {token : Token} {operator : Operator} (spelt : Spells token operator)
    (rest : List Token) : EndsFactor (token :: rest) := by
  intro first isFirst
  cases Option.mem_some_iff.mp isFirst
  rw [spelt.1]
  decide

/-- An operator of sums ends the product before it. -/
theorem Spells.endsProduct {token : Token} {operator : Operator} (spelt : Spells token operator)
    (additive : JoinsProducts operator) (rest : List Token) : EndsProduct (token :: rest) := by
  intro first isFirst
  cases Option.mem_some_iff.mp isFirst
  refine ⟨by rw [spelt.1]; decide, ?_⟩
  intro other multiplicative otherSpelt
  rw [← spelt.unique otherSpelt] at multiplicative
  exact additive.not_multiplicative multiplicative

/-- The further factors of a product begin with an operator, which ends the factor before them. -/
theorem ProductRest.endsFactor (productRest : ProductRest) {rest : List Token}
    (ends : EndsFactor rest) : EndsFactor (productRest.tokens ++ rest) := by
  cases productRest with
  | done => exact ends
  | more operator token right further spelt multiplicative => exact spelt.endsFactor _

/-- The further products of a sum begin with an operator, which ends the product before them. -/
theorem SumRest.endsProduct (sumRest : SumRest) {rest : List Token}
    (ends : EndsProduct rest) : EndsProduct (sumRest.tokens ++ rest) := by
  cases sumRest with
  | done => exact ends
  | more operator token right further spelt additive => exact spelt.endsProduct additive _

/-! ## Unique reading -/

def Factor.firstKind : Factor → TokenKind
  | .call .. => .name
  | .group .. => .openParenthesis
  | .name .. => .name
  | .number .. => .number

/-- A factor has a first token, and it is of that kind. -/
theorem Factor.exists_tokens_eq_cons (factor : Factor) :
    ∃ first later, factor.tokens = first :: later ∧ first.kind = factor.firstKind := by
  cases factor with
  | call callee opening argument closing named opens closes => exact ⟨_, _, rfl, named⟩
  | group opening content closing opens closes => exact ⟨_, _, rfl, opens⟩
  | name token named => exact ⟨_, _, rfl, named⟩
  | number token numeric => exact ⟨_, _, rfl, numeric⟩

theorem Factor.tokens_ne_nil (factor : Factor) : factor.tokens ≠ [] := by
  rcases factor.exists_tokens_eq_cons with ⟨first, later, tokens, _⟩
  rw [tokens]
  exact List.cons_ne_nil first later

theorem Product.tokens_ne_nil (product : Product) : product.tokens ≠ [] := by
  cases product with
  | of first further => exact List.append_ne_nil_of_left_ne_nil first.tokens_ne_nil further.tokens

/-- Factors at the beginning of one text begin with a token of one kind. -/
theorem Factor.firstKind_eq {factor factor' : Factor} {rest rest' : List Token}
    (same : factor.tokens ++ rest = factor'.tokens ++ rest') :
    factor.firstKind = factor'.firstKind := by
  rcases factor.exists_tokens_eq_cons with ⟨first, later, tokens, kind⟩
  rcases factor'.exists_tokens_eq_cons with ⟨first', later', tokens', kind'⟩
  rw [tokens, tokens'] at same
  rw [← kind, ← kind', (List.cons.inj same).1]

/-- The parenthesis behind the contents of a group or a call belongs to what follows them. -/
theorem append_closing {content content' : List Token} {closing closing' : Token}
    {rest rest' : List Token}
    (same : content ++ [closing] ++ rest = content' ++ [closing'] ++ rest') :
    content ++ closing :: rest = content' ++ closing' :: rest' := by
  simpa only [List.append_assoc, List.singleton_append] using same

mutual

/-- At most one factor begins a text, provided that no parenthesis follows it. -/
theorem Factor.unique (factor factor' : Factor) {rest rest' : List Token}
    (same : factor.tokens ++ rest = factor'.tokens ++ rest')
    (ends : EndsFactor rest) (ends' : EndsFactor rest') : factor = factor' ∧ rest = rest' := by
  have kinds := Factor.firstKind_eq same
  cases factor with
  | call callee opening argument closing named opens closes =>
      simp only [Factor.tokens, List.cons_append] at same
      cases factor' with
      | call callee' opening' argument' closing' named' opens' closes' =>
          simp only [Factor.tokens, List.cons_append, List.cons.injEq] at same
          rcases same with ⟨rfl, rfl, contents⟩
          rcases Sum.unique argument argument' (append_closing contents)
            (endsSum_closing closes) (endsSum_closing closes') with ⟨rfl, tails⟩
          rcases List.cons.inj tails with ⟨rfl, rfl⟩
          exact ⟨rfl, rfl⟩
      | group opening' content' closing' opens' closes' => cases kinds
      | name token' named' =>
          -- Behind the shared name stands a parenthesis, so the name alone is not the factor.
          simp only [Factor.tokens, List.cons_append, List.nil_append, List.cons.injEq] at same
          exact absurd opens (ends' opening (by rw [← same.2]; rfl))
      | number token' numeric' => cases kinds
  | group opening content closing opens closes =>
      simp only [Factor.tokens, List.cons_append] at same
      cases factor' with
      | call callee' opening' argument' closing' named' opens' closes' => cases kinds
      | group opening' content' closing' opens' closes' =>
          simp only [Factor.tokens, List.cons_append, List.cons.injEq] at same
          rcases same with ⟨rfl, contents⟩
          rcases Sum.unique content content' (append_closing contents)
            (endsSum_closing closes) (endsSum_closing closes') with ⟨rfl, tails⟩
          rcases List.cons.inj tails with ⟨rfl, rfl⟩
          exact ⟨rfl, rfl⟩
      | name token' named' => cases kinds
      | number token' numeric' => cases kinds
  | name token named =>
      simp only [Factor.tokens, List.cons_append, List.nil_append] at same
      cases factor' with
      | call callee' opening' argument' closing' named' opens' closes' =>
          simp only [Factor.tokens, List.cons_append, List.cons.injEq] at same
          exact absurd opens' (ends opening' (by rw [same.2]; rfl))
      | group opening' content' closing' opens' closes' => cases kinds
      | name token' named' =>
          rcases List.cons.inj same with ⟨rfl, rfl⟩
          exact ⟨rfl, rfl⟩
      | number token' numeric' => cases kinds
  | number token numeric =>
      simp only [Factor.tokens, List.cons_append, List.nil_append] at same
      cases factor' with
      | call callee' opening' argument' closing' named' opens' closes' => cases kinds
      | group opening' content' closing' opens' closes' => cases kinds
      | name token' named' => cases kinds
      | number token' numeric' =>
          rcases List.cons.inj same with ⟨rfl, rfl⟩
          exact ⟨rfl, rfl⟩

theorem ProductRest.unique (productRest productRest' : ProductRest) {rest rest' : List Token}
    (same : productRest.tokens ++ rest = productRest'.tokens ++ rest')
    (ends : EndsProduct rest) (ends' : EndsProduct rest') :
    productRest = productRest' ∧ rest = rest' := by
  cases productRest with
  | done =>
      cases productRest' with
      | done => exact ⟨rfl, same⟩
      | more operator' token' right' further' spelt' multiplicative' =>
          simp only [ProductRest.tokens, List.nil_append] at same
          exact absurd spelt' ((ends token' (by rw [same]; rfl)).2 operator' multiplicative')
  | more operator token right further spelt multiplicative =>
      cases productRest' with
      | done =>
          simp only [ProductRest.tokens, List.nil_append] at same
          exact absurd spelt ((ends' token (by rw [← same]; rfl)).2 operator multiplicative)
      | more operator' token' right' further' spelt' multiplicative' =>
          simp only [ProductRest.tokens, List.cons_append, List.cons.injEq,
            List.append_assoc] at same
          rcases same with ⟨rfl, operands⟩
          rcases Factor.unique right right' operands
            (further.endsFactor ends.endsFactor) (further'.endsFactor ends'.endsFactor) with
            ⟨rfl, tails⟩
          rcases ProductRest.unique further further' tails ends ends' with ⟨rfl, rfl⟩
          cases spelt.unique spelt'
          exact ⟨rfl, rfl⟩

theorem Product.unique (product product' : Product) {rest rest' : List Token}
    (same : product.tokens ++ rest = product'.tokens ++ rest')
    (ends : EndsProduct rest) (ends' : EndsProduct rest') :
    product = product' ∧ rest = rest' := by
  cases product with
  | of first further =>
      cases product' with
      | of first' further' =>
          simp only [Product.tokens, List.append_assoc] at same
          rcases Factor.unique first first' same
            (further.endsFactor ends.endsFactor) (further'.endsFactor ends'.endsFactor) with
            ⟨rfl, tails⟩
          rcases ProductRest.unique further further' tails ends ends' with ⟨rfl, rfl⟩
          exact ⟨rfl, rfl⟩

theorem SumRest.unique (sumRest sumRest' : SumRest) {rest rest' : List Token}
    (same : sumRest.tokens ++ rest = sumRest'.tokens ++ rest')
    (ends : EndsSum rest) (ends' : EndsSum rest') : sumRest = sumRest' ∧ rest = rest' := by
  cases sumRest with
  | done =>
      cases sumRest' with
      | done => exact ⟨rfl, same⟩
      | more operator' token' right' further' spelt' additive' =>
          simp only [SumRest.tokens, List.nil_append] at same
          exact absurd spelt' ((ends token' (by rw [same]; rfl)).2 operator' (Or.inr additive'))
  | more operator token right further spelt additive =>
      cases sumRest' with
      | done =>
          simp only [SumRest.tokens, List.nil_append] at same
          exact absurd spelt ((ends' token (by rw [← same]; rfl)).2 operator (Or.inr additive))
      | more operator' token' right' further' spelt' additive' =>
          simp only [SumRest.tokens, List.cons_append, List.cons.injEq, List.append_assoc] at same
          rcases same with ⟨rfl, operands⟩
          rcases Product.unique right right' operands
            (further.endsProduct ends.endsProduct) (further'.endsProduct ends'.endsProduct) with
            ⟨rfl, tails⟩
          rcases SumRest.unique further further' tails ends ends' with ⟨rfl, rfl⟩
          cases spelt.unique spelt'
          exact ⟨rfl, rfl⟩

/-- At most one sum begins a text that does not extend it. -/
theorem Sum.unique (sum sum' : Sum) {rest rest' : List Token}
    (same : sum.tokens ++ rest = sum'.tokens ++ rest')
    (ends : EndsSum rest) (ends' : EndsSum rest') : sum = sum' ∧ rest = rest' := by
  cases sum with
  | of first further =>
      cases sum' with
      | of first' further' =>
          simp only [Sum.tokens, List.append_assoc] at same
          rcases Product.unique first first' same
            (further.endsProduct ends.endsProduct) (further'.endsProduct ends'.endsProduct) with
            ⟨rfl, tails⟩
          rcases SumRest.unique further further' tails ends ends' with ⟨rfl, rfl⟩
          exact ⟨rfl, rfl⟩

end

/-! ## Statements -/

/-- A sum whose second token would be an equals sign is a name alone, and the equals sign belongs
to what follows it. -/
theorem Sum.rest_of_equals (sum : Sum) {target equals : Token} {rest later : List Token}
    (same : sum.tokens ++ rest = target :: equals :: later) (ends : EndsSum rest)
    (named : target.kind = .name) (assigns : equals.kind = .assign) : rest = equals :: later := by
  let alone : Sum := .of (.of (.name target named) .done) .done
  have assigned : EndsSum (equals :: later) :=
    endsSum_cons (by rw [assigns]; decide) (by rw [assigns]; decide)
  exact (sum.unique alone same ends assigned).2

theorem EndsStatement.not_equals {equals : Token} {rest : List Token}
    (ends : EndsStatement (equals :: rest)) : equals.kind ≠ .assign := by
  intro assigns
  rcases ends equals rfl with semicolon | atEnd
  · rw [assigns] at semicolon
    cases semicolon
  · rw [assigns] at atEnd
    cases atEnd

/-- A statement that is an expression does not begin with a name and an equals sign. -/
theorem Sum.not_assignment (sum : Sum) {target equals : Token} {rest later : List Token}
    (same : sum.tokens ++ rest = target :: equals :: later) (ends : EndsStatement rest) :
    ¬ (target.kind = .name ∧ equals.kind = .assign) := by
  rintro ⟨named, assigns⟩
  rw [sum.rest_of_equals same ends.endsSum named assigns] at ends
  exact ends.not_equals assigns

/-- A text begins with at most one statement. -/
theorem Statement.unique (statement statement' : Statement) {rest rest' : List Token}
    (same : statement.tokens ++ rest = statement'.tokens ++ rest')
    (ends : EndsStatement rest) (ends' : EndsStatement rest') :
    statement = statement' ∧ rest = rest' := by
  cases statement with
  | assignment target equals value named assigns =>
      cases statement' with
      | assignment target' equals' value' named' assigns' =>
          simp only [Statement.tokens, List.cons_append, List.cons.injEq] at same
          rcases same with ⟨rfl, rfl, values⟩
          rcases value.unique value' values ends.endsSum ends'.endsSum with ⟨rfl, rfl⟩
          exact ⟨rfl, rfl⟩
      | expression value' =>
          exact absurd ⟨named, assigns⟩ (value'.not_assignment same.symm ends')
  | expression value =>
      cases statement' with
      | assignment target' equals' value' named' assigns' =>
          exact absurd ⟨named', assigns'⟩ (value.not_assignment same ends)
      | expression value' =>
          rcases value.unique value' same ends.endsSum ends'.endsSum with ⟨rfl, rfl⟩
          exact ⟨rfl, rfl⟩

end Grammar
end ExpressionChecker

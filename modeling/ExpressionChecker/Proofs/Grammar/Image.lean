import ExpressionChecker.Proofs.Grammar.Acceptance
import ExpressionChecker.Proofs.Tree.Written

namespace ExpressionChecker

/-!
# The trees of statements

The tokens of a text are well spelt: what counts as a name is one that is not reserved, and what
counts as a number is one.  So the syntax trees of the statements of a text are statements that can
be rendered, and their calls are nested no deeper than the parentheses of the text.
-/

namespace Token

/-- A token that counts as a name is a free one, and a token that counts as a number is spelt like
one. -/
structure IsSpelt (token : Token) : Prop where
  name : token.kind = .name → Spelling.IsFreeName token.lexeme
  number : token.kind = .number → Spelling.isNumber token.lexeme.toList = true

theorem isSpelt_of_kind {token : Token} (noName : token.kind ≠ .name)
    (noNumber : token.kind ≠ .number) : token.IsSpelt :=
  ⟨fun named => absurd named noName, fun numeric => absurd numeric noNumber⟩

end Token

theorem WordKind.isFreeName {word : List Char} {kind : TokenKind} (spelling : WordKind word kind)
    (named : kind = .name) : Spelling.IsFreeName (String.ofList word) := by
  cases spelling with
  | name notKeyword notTruthValue spelt =>
      refine ⟨?_, notKeyword, notTruthValue⟩
      rw [String.toList_ofList]
      exact Spelling.isName_iff.mpr spelt
  | keyword => cases named
  | truthValue => cases named
  | malformed => cases named

theorem WordKind.ne_number {word : List Char} {kind : TokenKind} (spelling : WordKind word kind) :
    kind ≠ .number := by
  cases spelling <;> exact TokenKind.noConfusion

theorem NumberKind.isNumber {run : List Char} {kind : TokenKind} (spelling : NumberKind run kind)
    (numeric : kind = .number) : Spelling.isNumber (String.ofList run).toList = true := by
  cases spelling with
  | number spelt =>
      rw [String.toList_ofList]
      exact spelt
  | malformed => cases numeric

theorem NumberKind.ne_name {run : List Char} {kind : TokenKind} (spelling : NumberKind run kind) :
    kind ≠ .name := by
  cases spelling <;> exact TokenKind.noConfusion

namespace Token

theorem isSpelt_of_munch {raw rest : List Char} {token : Token}
    (munch : Munch raw rest token.kind token.lexeme) : token.IsSpelt := by
  rcases token with ⟨kind, lexeme, position⟩
  cases munch with
  | word begins longest spelling =>
      exact ⟨spelling.isFreeName, fun numeric => absurd numeric spelling.ne_number⟩
  | number begins longest spelling =>
      exact ⟨fun named => absurd named spelling.ne_name, spelling.isNumber⟩
  | pair listed =>
      have table : ∀ entry ∈ operatorPairs, entry.2 ≠ .name ∧ entry.2 ≠ .number := by decide
      have entry := table _ listed
      exact isSpelt_of_kind entry.1 entry.2
  | single listed =>
      have table : ∀ entry ∈ punctuation, entry.2 ≠ .name ∧ entry.2 ≠ .number := by decide
      have entry := table _ listed
      exact isSpelt_of_kind entry.1 entry.2
  | _ => exact isSpelt_of_kind TokenKind.noConfusion TokenKind.noConfusion

/-- The tokens of a text are spelt as they may be. -/
theorem stream_isSpelt (text : String) : ∀ token ∈ stream text, token.IsSpelt := by
  intro token isToken
  rcases exists_munch_of_mem_stream isToken with ⟨raw, rest, munch⟩
  exact isSpelt_of_munch munch

end Token

namespace Grammar

/-! ## Syntax trees can be rendered -/

mutual

theorem Factor.isExpression (factor : Factor) (spelt : ∀ token ∈ factor.tokens, token.IsSpelt) :
    factor.tree.IsExpression := by
  cases factor with
  | call callee opening argument closing named opens closes =>
      simp only [Factor.tokens, List.forall_mem_cons, List.forall_mem_append] at spelt
      exact .call (spelt.1.name named) (Sum.isExpression argument spelt.2.2.1)
  | group opening content closing opens closes =>
      simp only [Factor.tokens, List.forall_mem_cons, List.forall_mem_append] at spelt
      exact Sum.isExpression content spelt.2.1
  | name token named =>
      simp only [Factor.tokens, List.forall_mem_cons] at spelt
      exact .identifier (spelt.1.name named)
  | number token numeric =>
      simp only [Factor.tokens, List.forall_mem_cons] at spelt
      exact .number (spelt.1.number numeric)

theorem ProductRest.isExpression (further : ProductRest)
    (spelt : ∀ token ∈ further.tokens, token.IsSpelt) {left : Tree} (isLeft : left.IsExpression) :
    (further.treeFrom left).IsExpression := by
  cases further with
  | done => exact isLeft
  | more operator token right later spells multiplicative =>
      simp only [ProductRest.tokens, List.forall_mem_cons, List.forall_mem_append] at spelt
      exact ProductRest.isExpression later spelt.2.2
        (.binary (Or.inl multiplicative) isLeft (Factor.isExpression right spelt.2.1))

theorem Product.isExpression (product : Product)
    (spelt : ∀ token ∈ product.tokens, token.IsSpelt) : product.tree.IsExpression := by
  cases product with
  | of first further =>
      simp only [Product.tokens, List.forall_mem_append] at spelt
      exact ProductRest.isExpression further spelt.2 (Factor.isExpression first spelt.1)

theorem SumRest.isExpression (further : SumRest)
    (spelt : ∀ token ∈ further.tokens, token.IsSpelt) {left : Tree} (isLeft : left.IsExpression) :
    (further.treeFrom left).IsExpression := by
  cases further with
  | done => exact isLeft
  | more operator token right later spells additive =>
      simp only [SumRest.tokens, List.forall_mem_cons, List.forall_mem_append] at spelt
      exact SumRest.isExpression later spelt.2.2
        (.binary (Or.inr additive) isLeft (Product.isExpression right spelt.2.1))

/-- The syntax tree of a sum of well-spelt tokens is an expression. -/
theorem Sum.isExpression (sum : Sum) (spelt : ∀ token ∈ sum.tokens, token.IsSpelt) :
    sum.tree.IsExpression := by
  cases sum with
  | of first further =>
      simp only [Sum.tokens, List.forall_mem_append] at spelt
      exact SumRest.isExpression further spelt.2 (Product.isExpression first spelt.1)

end

/-- The syntax tree of a statement of well-spelt tokens can be rendered. -/
theorem Statement.isStatement (statement : Statement)
    (spelt : ∀ token ∈ statement.tokens, token.IsSpelt) : statement.tree.IsStatement := by
  cases statement with
  | assignment target equals value named assigns =>
      simp only [Statement.tokens, List.forall_mem_cons] at spelt
      exact .assignment (spelt.1.name named) (value.isExpression spelt.2.2)
  | expression value => exact .expression (value.isExpression spelt)

/-! ## Calls are nested like parentheses -/

mutual

theorem Factor.callsAbove_le (factor : Factor) : factor.tree.callsAbove ≤ factor.nesting := by
  cases factor with
  | call callee opening argument closing named opens closes =>
      have inside := Sum.callsAbove_le argument
      simp only [Factor.tree, Factor.nesting, Tree.callsAbove, Tree.callsAboveArguments]
      omega
  | group opening content closing opens closes =>
      exact Nat.le_succ_of_le (Sum.callsAbove_le content)
  | name token named => exact Nat.le_refl 0
  | number token numeric => exact Nat.le_refl 0

theorem ProductRest.callsAbove_le (further : ProductRest) (left : Tree) :
    (further.treeFrom left).callsAbove ≤ max left.callsAbove further.nesting := by
  cases further with
  | done => exact Nat.le_max_left _ _
  | more operator token right later spelt multiplicative =>
      have factor := Factor.callsAbove_le right
      have whole := ProductRest.callsAbove_le later
        (.binary operator left right.tree ⟨token.position, none⟩)
      simp only [ProductRest.treeFrom, ProductRest.nesting, Tree.callsAbove] at whole ⊢
      omega

theorem Product.callsAbove_le (product : Product) :
    product.tree.callsAbove ≤ product.nesting := by
  cases product with
  | of first further =>
      have factor := Factor.callsAbove_le first
      have whole := ProductRest.callsAbove_le further first.tree
      simp only [Product.tree, Product.nesting]
      omega

theorem SumRest.callsAbove_le (further : SumRest) (left : Tree) :
    (further.treeFrom left).callsAbove ≤ max left.callsAbove further.nesting := by
  cases further with
  | done => exact Nat.le_max_left _ _
  | more operator token right later spelt additive =>
      have product := Product.callsAbove_le right
      have whole := SumRest.callsAbove_le later
        (.binary operator left right.tree ⟨token.position, none⟩)
      simp only [SumRest.treeFrom, SumRest.nesting, Tree.callsAbove] at whole ⊢
      omega

/-- Every call of a sum opens a parenthesis. -/
theorem Sum.callsAbove_le (sum : Sum) : sum.tree.callsAbove ≤ sum.nesting := by
  cases sum with
  | of first further =>
      have product := Product.callsAbove_le first
      have whole := SumRest.callsAbove_le further first.tree
      simp only [Sum.tree, Sum.nesting]
      omega

end

theorem Statement.callsAbove_le (statement : Statement) :
    statement.tree.callsAbove ≤ statement.nesting := by
  cases statement with
  | assignment target equals value named assigns =>
      have inside := value.callsAbove_le
      simp only [Statement.tree, Statement.nesting, Tree.callsAbove]
      omega
  | expression value => exact value.callsAbove_le

/-! ## Operators are counted once -/

mutual

theorem Factor.operatorCount_tree (factor : Factor) :
    factor.tree.operatorCount = factor.operatorCount := by
  cases factor with
  | call callee opening argument closing named opens closes => exact Sum.operatorCount_tree argument
  | group opening content closing opens closes => exact Sum.operatorCount_tree content
  | name token named => rfl
  | number token numeric => rfl

theorem ProductRest.operatorCount_treeFrom (further : ProductRest) (left : Tree) :
    (further.treeFrom left).operatorCount = left.operatorCount + further.operatorCount := by
  cases further with
  | done => rfl
  | more operator token right later spelt multiplicative =>
      have factor := Factor.operatorCount_tree right
      have whole := ProductRest.operatorCount_treeFrom later
        (.binary operator left right.tree ⟨token.position, none⟩)
      simp only [ProductRest.treeFrom, ProductRest.operatorCount, Tree.operatorCount] at whole ⊢
      omega

theorem Product.operatorCount_tree (product : Product) :
    product.tree.operatorCount = product.operatorCount := by
  cases product with
  | of first further =>
      have factor := Factor.operatorCount_tree first
      have whole := ProductRest.operatorCount_treeFrom further first.tree
      simp only [Product.tree, Product.operatorCount]
      omega

theorem SumRest.operatorCount_treeFrom (further : SumRest) (left : Tree) :
    (further.treeFrom left).operatorCount = left.operatorCount + further.operatorCount := by
  cases further with
  | done => rfl
  | more operator token right later spelt additive =>
      have product := Product.operatorCount_tree right
      have whole := SumRest.operatorCount_treeFrom later
        (.binary operator left right.tree ⟨token.position, none⟩)
      simp only [SumRest.treeFrom, SumRest.operatorCount, Tree.operatorCount] at whole ⊢
      omega

/-- Every operator of a sum is a node of its syntax tree. -/
theorem Sum.operatorCount_tree (sum : Sum) : sum.tree.operatorCount = sum.operatorCount := by
  cases sum with
  | of first further =>
      have product := Product.operatorCount_tree first
      have whole := SumRest.operatorCount_treeFrom further first.tree
      simp only [Sum.tree, Sum.operatorCount]
      omega

end

theorem Statement.operatorCount_tree (statement : Statement) :
    statement.tree.operatorCount = statement.operatorCount := by
  cases statement with
  | assignment target equals value named assigns =>
      have inside := value.operatorCount_tree
      simp only [Statement.tree, Statement.operatorCount, Tree.operatorCount, Nat.zero_add]
      omega
  | expression value => exact value.operatorCount_tree

end Grammar

/-- The tree that is read from a text is a statement that can be rendered, and its calls are nested
no deeper than the limit allows. -/
theorem Tree.isStatement_of_ofTokens {limits : Limits} {text : String} {tree : Tree}
    (success : ofTokens limits (Token.stream text) = .ok tree) :
    tree.IsStatement ∧ tree.callsAbove ≤ limits.depth := by
  rcases exists_statement_of_ofTokens success with ⟨statement, rest, same, _, keeps, rfl⟩
  constructor
  · apply statement.isStatement
    intro token isToken
    exact Token.stream_isSpelt text token (same ▸ List.mem_append_left rest isToken)
  · exact Nat.le_trans statement.callsAbove_le keeps.shallow

end ExpressionChecker

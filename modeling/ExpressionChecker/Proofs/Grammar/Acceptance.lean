import ExpressionChecker.Proofs.Assembly

namespace ExpressionChecker

/-!
# The statements that are read are those of the grammar

An assembly that goes on to a tree demands something of the tokens that are still to come: a factor
if its last operand is missing, then the rest of a product and of a sum for every bracket that is
open, and at last the end of the statement.  Every step that succeeds hands the demand of the next
assembly back to the one before it, so the tokens of a run that succeeds are those of a derivation.
Together with what an assembly does with the tokens of a phrase this gives both directions.
-/

namespace Grammar

/-! ## What is still demanded -/

/-- The tokens go on with the rest of the product and of the sum that stand inside of `opened`
parentheses, where `operators` operators have been counted, and then as `outside` demands. -/
def Continues (limits : Limits) (opened operators : Nat) (outside : Nat → List Token → Prop)
    (tokens : List Token) : Prop :=
  ∃ (product : ProductRest) (sum : SumRest) (rest : List Token),
    tokens = product.tokens ++ (sum.tokens ++ rest) ∧
    opened + max product.nesting sum.nesting ≤ limits.depth ∧
    outside (operators + (product.operatorCount + sum.operatorCount)) rest

/-- The tokens close `opened` parentheses one by one, with the rest of a product and of a sum behind
each, and then end the statement. -/
def Closes (limits : Limits) : Nat → Nat → List Token → Prop
  | 0, operators, tokens => operators ≤ limits.operators ∧ EndsStatement tokens
  | opened + 1, operators, tokens =>
    ∃ (closing : Token) (rest : List Token), tokens = closing :: rest ∧
      closing.kind = .closeParenthesis ∧
      Continues limits opened operators (Closes limits opened) rest

/-- What the tokens behind a complete factor have to be for the statement to be complete. -/
def Completes (limits : Limits) (opened operators : Nat) : List Token → Prop :=
  Continues limits opened operators (Closes limits opened)

namespace Completes

variable {limits : Limits} {opened operators : Nat} {rest : List Token}

/-- Where nothing is joined to a factor, only what stands outside matters. -/
theorem of_closes (shallow : opened ≤ limits.depth) (closes : Closes limits opened operators rest) :
    Completes limits opened operators rest :=
  ⟨.done, .done, rest, rfl, shallow, closes⟩

theorem of_multiplicative {operator : Operator} {token : Token} {factor : Factor}
    (spelt : Spells token operator) (multiplicative : JoinsFactors operator)
    (shallow : opened + factor.nesting ≤ limits.depth)
    (later : Completes limits opened (operators + 1 + factor.operatorCount) rest) :
    Completes limits opened operators (token :: (factor.tokens ++ rest)) := by
  rcases later with ⟨product, sum, outer, rfl, deep, closes⟩
  refine ⟨.more operator token factor product spelt multiplicative, sum, outer, ?_, ?_, ?_⟩
  · simp only [ProductRest.tokens, List.cons_append, List.append_assoc]
  · simp only [ProductRest.nesting]
    omega
  · simpa only [ProductRest.operatorCount, Nat.add_assoc] using closes

theorem of_additive {operator : Operator} {token : Token} {factor : Factor}
    (spelt : Spells token operator) (additive : JoinsProducts operator)
    (shallow : opened + factor.nesting ≤ limits.depth)
    (later : Completes limits opened (operators + 1 + factor.operatorCount) rest) :
    Completes limits opened operators (token :: (factor.tokens ++ rest)) := by
  rcases later with ⟨product, sum, outer, rfl, deep, closes⟩
  -- The factor begins a product, and the rest of that product is what follows it.
  refine ⟨.done, .more operator token (.of factor product) sum spelt additive, outer, ?_, ?_, ?_⟩
  · simp only [ProductRest.tokens, SumRest.tokens, Product.tokens, List.cons_append,
      List.append_assoc, List.nil_append]
  · simp only [ProductRest.nesting, SumRest.nesting, Product.nesting]
    omega
  · simpa only [ProductRest.operatorCount, SumRest.operatorCount, Product.operatorCount,
      Nat.zero_add, Nat.add_assoc] using closes

/-- Inside of a parenthesis, a factor and the tokens behind it are a sum, the parenthesis that
closes it, and what is demanded outside. -/
theorem content (factor : Factor) (shallow : opened + 1 + factor.nesting ≤ limits.depth)
    (inside : Completes limits (opened + 1) (operators + factor.operatorCount) rest) :
    ∃ (sum : Sum) (closing : Token) (outer : List Token),
      factor.tokens ++ rest = sum.tokens ++ closing :: outer ∧
      closing.kind = .closeParenthesis ∧ opened + 1 + sum.nesting ≤ limits.depth ∧
      Completes limits opened (operators + sum.operatorCount) outer := by
  rcases inside with ⟨product, sum, _, rfl, deep, closing, outer, rfl, closes, outside⟩
  refine ⟨.of (.of factor product) sum, closing, outer, ?_, closes, ?_, ?_⟩
  · simp only [Sum.tokens, Product.tokens, List.append_assoc]
  · simp only [Sum.nesting, Product.nesting]
    omega
  · unfold Completes
    simpa only [Sum.operatorCount, Product.operatorCount, Nat.add_assoc] using outside

end Completes
end Grammar

namespace Assembly

open Grammar

variable {limits : Limits}

/-! ## Steps that succeed -/

/-- An opening parenthesis is read only if the limit allows another level. -/
theorem openBracket_eq_ok {assembly : Assembly} {opening : Opening} {position : Position}
    {token : Token} {outcome : Outcome}
    (read : (assembly.openBracket limits opening position).map
      (fun next => Outcome.ongoing (next.behind token)) = .ok outcome) :
    assembly.brackets.length < limits.depth ∧
      outcome = .ongoing ⟨.empty, .missing, ⟨opening, assembly.level⟩ :: assembly.brackets,
        assembly.operators, some token⟩ := by
  by_cases deep : limits.depth ≤ assembly.brackets.length
  · rw [openBracket, if_pos deep] at read
    cases read
  · rw [openBracket, if_neg deep] at read
    cases read
    exact ⟨Nat.lt_of_not_le deep, rfl⟩

/-- Where an operand is missing, a name, a number and an opening parenthesis can stand. -/
theorem readOperand_eq_ok {assembly : Assembly} {token : Token} {outcome : Outcome}
    (read : assembly.readOperand limits token = .ok outcome) :
    (token.kind = .name ∧ outcome = .ongoing ⟨assembly.level,
        .name token.lexeme token.position, assembly.brackets, assembly.operators, some token⟩) ∨
    (token.kind = .number ∧ outcome = .ongoing ⟨assembly.level,
        .complete (.number token.lexeme ⟨token.position, none⟩), assembly.brackets,
        assembly.operators, some token⟩) ∨
    (token.kind = .openParenthesis ∧ assembly.brackets.length < limits.depth ∧
      outcome = .ongoing ⟨.empty, .missing, ⟨.group, assembly.level⟩ :: assembly.brackets,
        assembly.operators, some token⟩) := by
  unfold readOperand at read
  split at read
  · rename_i named
    cases read
    exact Or.inl ⟨named, rfl⟩
  · rename_i numeric
    cases read
    exact Or.inr (Or.inl ⟨numeric, rfl⟩)
  · rename_i opens
    exact Or.inr (Or.inr ⟨opens, openBracket_eq_ok read⟩)
  · cases read

/-- Behind a factor, an operator can stand if the limit allows another one; outside of all
parentheses the end of the statement can, and inside of one the parenthesis that closes it. -/
theorem readBehind_eq_ok {assembly : Assembly} {factor : Tree} {token : Token} {outcome : Outcome}
    (read : assembly.readBehind limits factor token = .ok outcome) :
    (∃ operator level, Spells token operator ∧ (JoinsFactors operator ∨ JoinsProducts operator) ∧
      assembly.operators < limits.operators ∧ outcome = .ongoing ⟨level, .missing,
        assembly.brackets, assembly.operators + 1, some token⟩) ∨
    (assembly.brackets = [] ∧ (token.kind = .semicolon ∨ token.kind = .endOfInput) ∧
      outcome = .finished (assembly.level.completeSum factor)) ∨
    (∃ bracket outer level tree, assembly.brackets = bracket :: outer ∧
      token.kind = .closeParenthesis ∧ outcome = .ongoing ⟨level, .complete tree, outer,
        assembly.operators, some token⟩) := by
  unfold readBehind at read
  split at read
  · rename_i operator found
    have joins := operator?_eq_some_iff.mp found
    by_cases many : limits.operators ≤ assembly.operators
    · rw [putOperator, if_pos many] at read
      cases read
    · rw [putOperator, if_neg many] at read
      cases read
      exact Or.inl ⟨operator, _, joins.1, joins.2, Nat.lt_of_not_le many, rfl⟩
  · split at read
    · rename_i noBrackets
      by_cases last : token.kind = .semicolon ∨ token.kind = .endOfInput
      · rw [if_pos last] at read
        cases read
        exact Or.inr (Or.inl ⟨noBrackets, last, rfl⟩)
      · rw [if_neg last] at read
        cases read
    · rename_i bracket outer brackets
      by_cases closes : token.kind = .closeParenthesis
      · rw [if_pos closes] at read
        cases read
        exact Or.inr (Or.inr ⟨bracket, outer, _, _, brackets, closes, rfl⟩)
      · rw [if_neg closes] at read
        cases read

/-! ## Demands of an assembly -/

/-- Neither limit is exceeded. -/
structure Within (limits : Limits) (assembly : Assembly) : Prop where
  shallow : assembly.brackets.length ≤ limits.depth
  few : assembly.operators ≤ limits.operators

/-- The tokens begin with a factor and complete the statement behind it. -/
def DemandsFactor (limits : Limits) (assembly : Assembly) (tokens : List Token) : Prop :=
  ∃ (factor : Factor) (rest : List Token), tokens = factor.tokens ++ rest ∧
    assembly.brackets.length + factor.nesting ≤ limits.depth ∧
    Completes limits assembly.brackets.length (assembly.operators + factor.operatorCount) rest

/-- What an assembly demands of the tokens that are still to come.  Behind a name they may turn the
name into a call, so there the demand is on the name together with them. -/
def Demands (limits : Limits) (assembly : Assembly) (tokens : List Token) : Prop :=
  match assembly.operand with
  | .missing => assembly.DemandsFactor limits tokens
  | .name _ _ =>
    ∀ callee : Token, callee.kind = .name → assembly.DemandsFactor limits (callee :: tokens)
  | .complete _ => Completes limits assembly.brackets.length assembly.operators tokens

/-- What is demanded after a step.  A finished expression demands nothing. -/
def Outcome.Demands (limits : Limits) : Outcome → List Token → Prop
  | .ongoing next, tokens => next.Demands limits tokens
  | .finished _, _ => True

theorem DemandsFactor.of_single {assembly : Assembly} (within : assembly.Within limits)
    (factor : Factor) {token : Token} {rest : List Token} (single : factor.tokens = [token])
    (flat : factor.nesting = 0) (plain : factor.operatorCount = 0)
    (later : Completes limits assembly.brackets.length assembly.operators rest) :
    assembly.DemandsFactor limits (token :: rest) := by
  refine ⟨factor, rest, ?_, ?_, ?_⟩
  · rw [single, List.singleton_append]
  · rw [flat]
    exact within.shallow
  · rw [plain]
    exact later

/-- What stands inside of a parenthesis and the parenthesis that closes it belong to the factor
that the opening parenthesis is part of. -/
theorem DemandsFactor.of_inside {assembly : Assembly} {opening : Opening} {token : Token}
    {rest : List Token}
    (inside : DemandsFactor limits
      ⟨.empty, .missing, ⟨opening, assembly.level⟩ :: assembly.brackets, assembly.operators,
        some token⟩ rest) :
    ∃ (sum : Sum) (closing : Token) (outer : List Token),
      rest = sum.tokens ++ closing :: outer ∧ closing.kind = .closeParenthesis ∧
      assembly.brackets.length + 1 + sum.nesting ≤ limits.depth ∧
      Completes limits assembly.brackets.length
        (assembly.operators + sum.operatorCount) outer := by
  rcases inside with ⟨factor, behind, rfl, shallow, completes⟩
  exact completes.content factor shallow

/-- A token read behind a factor hands its demand back. -/
theorem completes_of_readBehind {assembly : Assembly} (within : assembly.Within limits)
    {factor : Tree} {token : Token} {rest : List Token} {outcome : Outcome}
    (read : assembly.readBehind limits factor token = .ok outcome)
    (later : outcome.Demands limits rest) :
    Completes limits assembly.brackets.length assembly.operators (token :: rest) := by
  rcases readBehind_eq_ok read with ⟨operator, level, spelt, joins, few, rfl⟩ |
    ⟨noBrackets, last, rfl⟩ | ⟨bracket, outer, level, tree, brackets, closes, rfl⟩
  · rcases later with ⟨right, behind, rfl, shallow, completes⟩
    rcases joins with multiplicative | additive
    · exact .of_multiplicative spelt multiplicative shallow completes
    · exact .of_additive spelt additive shallow completes
  · rw [noBrackets]
    refine .of_closes (Nat.zero_le _) ⟨within.few, ?_⟩
    intro first isFirst
    cases Option.mem_some_iff.mp isFirst
    exact last
  · have shallow := within.shallow
    rw [brackets, List.length_cons] at shallow ⊢
    exact .of_closes shallow ⟨token, rest, rfl, closes, later⟩

/-- Every step that succeeds hands its demand back. -/
theorem demands_of_read {assembly : Assembly} (within : assembly.Within limits) {token : Token}
    {rest : List Token} {outcome : Outcome} (read : assembly.read limits token = .ok outcome)
    (later : outcome.Demands limits rest) : assembly.Demands limits (token :: rest) := by
  unfold Demands
  unfold Assembly.read at read
  cases operand : assembly.operand with
  | missing =>
      simp only [operand] at read ⊢
      rcases readOperand_eq_ok read with ⟨named, rfl⟩ | ⟨numeric, rfl⟩ | ⟨opens, deeper, rfl⟩
      · exact later token named
      · exact .of_single within (.number token numeric) rfl rfl rfl later
      · rcases DemandsFactor.of_inside later with
          ⟨content, closing, outer, rfl, closes, shallow, completes⟩
        refine ⟨.group token content closing opens closes, outer, ?_, ?_, completes⟩
        · simp only [Factor.tokens, List.cons_append, List.append_assoc, List.nil_append]
        · simp only [Factor.nesting]
          omega
  | name name position =>
      simp only [operand] at read ⊢
      intro callee named
      by_cases opens : token.kind = .openParenthesis
      · rw [if_pos opens] at read
        rcases openBracket_eq_ok read with ⟨deeper, rfl⟩
        rcases DemandsFactor.of_inside later with
          ⟨argument, closing, outer, rfl, closes, shallow, completes⟩
        refine ⟨.call callee token argument closing named opens closes, outer, ?_, ?_, completes⟩
        · simp only [Factor.tokens, List.cons_append, List.append_assoc, List.nil_append]
        · simp only [Factor.nesting]
          omega
      · rw [if_neg opens] at read
        exact .of_single within (.name callee named) rfl rfl rfl
          (completes_of_readBehind within read later)
  | complete factor =>
      simp only [operand] at read ⊢
      exact completes_of_readBehind within read later

theorem within_of_readBehind {assembly next : Assembly} (within : assembly.Within limits)
    {factor : Tree} {token : Token}
    (read : assembly.readBehind limits factor token = .ok (.ongoing next)) :
    next.Within limits := by
  rcases readBehind_eq_ok read with ⟨operator, level, spelt, joins, few, equal⟩ |
    ⟨noBrackets, last, equal⟩ | ⟨bracket, outer, level, tree, brackets, closes, equal⟩
  · cases equal
    exact ⟨within.shallow, few⟩
  · cases equal
  · cases equal
    have shallow := within.shallow
    rw [brackets, List.length_cons] at shallow
    exact ⟨Nat.le_of_succ_le shallow, within.few⟩

theorem within_of_read {assembly next : Assembly} (within : assembly.Within limits) {token : Token}
    (read : assembly.read limits token = .ok (.ongoing next)) : next.Within limits := by
  unfold Assembly.read at read
  split at read
  · rcases readOperand_eq_ok read with ⟨named, equal⟩ | ⟨numeric, equal⟩ | ⟨opens, deeper, equal⟩
    · cases equal
      exact ⟨within.shallow, within.few⟩
    · cases equal
      exact ⟨within.shallow, within.few⟩
    · cases equal
      exact ⟨deeper, within.few⟩
  · split at read
    · rcases openBracket_eq_ok read with ⟨deeper, equal⟩
      cases equal
      exact ⟨deeper, within.few⟩
    · exact within_of_readBehind within read
  · exact within_of_readBehind within read

theorem demands_of_finish {assembly : Assembly} (within : assembly.Within limits) {tree : Tree}
    (finish : assembly.finish = .ok tree) : assembly.Demands limits [] := by
  have nothing : Completes limits 0 assembly.operators [] :=
    .of_closes (Nat.zero_le _) ⟨within.few, endsStatement_nil⟩
  unfold Assembly.finish at finish
  unfold Demands
  split at finish
  · cases finish
  · rename_i operand noBrackets
    simp only [operand]
    intro callee named
    exact .of_single within (.name callee named) rfl rfl rfl (noBrackets ▸ nothing)
  · rename_i operand noBrackets
    simp only [operand]
    exact noBrackets ▸ nothing
  · cases finish

/-- The tokens of a run that succeeds are those that its first assembly demands. -/
theorem demands_of_readAll {assembly : Assembly} (within : assembly.Within limits) {tree : Tree}
    {tokens : List Token} (success : assembly.readAll limits tokens = .ok tree) :
    assembly.Demands limits tokens := by
  -- The limits are handed on from the front and the demands back from the end, so the assembly is
  -- not fixed.
  induction tokens generalizing assembly with
  | nil => exact demands_of_finish within success
  | cons token rest inductionHypothesis =>
      unfold readAll at success
      split at success
      · rename_i next read
        exact demands_of_read within read (inductionHypothesis (within_of_read within read) success)
      · rename_i finished read
        exact demands_of_read within read True.intro
      · cases success

/-! ## Sums from the start -/

/-- A sum that keeps to the limits and ends a statement is read to its tree. -/
theorem readAll_start (sum : Sum) (previous : Option Token) {rest : List Token}
    (shallow : sum.nesting ≤ limits.depth) (few : sum.operatorCount ≤ limits.operators)
    (ends : EndsStatement rest) :
    readAll limits (.start previous) (sum.tokens ++ rest) = .ok sum.tree := by
  unfold start
  rw [readAll_sum sum (by simpa using shallow) (by simpa using few) ends.endsSum,
    readAll_end ends]
  rfl

/-- Tokens that are read to a tree begin with a sum that keeps to the limits. -/
theorem exists_sum_of_readAll {previous : Option Token} {tokens : List Token} {tree : Tree}
    (success : readAll limits (.start previous) tokens = .ok tree) :
    ∃ (sum : Sum) (rest : List Token), tokens = sum.tokens ++ rest ∧ EndsStatement rest ∧
      sum.nesting ≤ limits.depth ∧ sum.operatorCount ≤ limits.operators ∧ sum.tree = tree := by
  have within : Within limits (.start previous) := ⟨Nat.zero_le _, Nat.zero_le _⟩
  rcases demands_of_readAll within success with ⟨factor, _, rfl, flat, product, sum, rest, rfl,
    shallow, few, ends⟩
  let whole : Sum := .of (.of factor product) sum
  have tokens : factor.tokens ++ (product.tokens ++ (sum.tokens ++ rest)) =
      whole.tokens ++ rest := by
    simp only [whole, Sum.tokens, Product.tokens, List.append_assoc]
  have shallowWhole : whole.nesting ≤ limits.depth := by
    simp only [start, List.length_nil, Nat.zero_add] at flat shallow
    simp only [whole, Sum.nesting, Product.nesting]
    omega
  have fewWhole : whole.operatorCount ≤ limits.operators := by
    simp only [start, Nat.zero_add] at few
    simp only [whole, Sum.operatorCount, Product.operatorCount]
    omega
  have read := readAll_start whole previous shallowWhole fewWhole ends
  rw [tokens, read] at success
  exact ⟨whole, rest, tokens, ends, shallowWhole, fewWhole, Except.ok.inj success⟩

end Assembly

/-! ## Statements -/

namespace Grammar

/-- The derivation keeps to both limits. -/
structure Statement.KeepsTo (limits : Limits) (statement : Statement) : Prop where
  shallow : statement.nesting ≤ limits.depth
  few : statement.operatorCount ≤ limits.operators

/-- The statement derives the first `count` tokens, and the token behind them, if there is one, is
a semicolon or the end of the input. -/
structure Statement.Heads (statement : Statement) (tokens : List Token) (count : Nat) : Prop where
  derives : statement.tokens = tokens.take count
  bounded : count ≤ tokens.length
  ends : ∀ token, tokens[count]? = some token →
    token.kind = .semicolon ∨ token.kind = .endOfInput

theorem Statement.Heads.endsStatement {statement : Statement} {tokens : List Token} {count : Nat}
    (heads : statement.Heads tokens count) : EndsStatement (tokens.drop count) := by
  intro token first
  rw [List.head?_drop] at first
  exact heads.ends token first

theorem Statement.Heads.append_drop {statement : Statement} {tokens : List Token} {count : Nat}
    (heads : statement.Heads tokens count) : statement.tokens ++ tokens.drop count = tokens := by
  rw [heads.derives, List.take_append_drop]

/-- A statement heads its own tokens and whatever ends it. -/
theorem Statement.heads_append (statement : Statement) {rest : List Token}
    (ends : EndsStatement rest) :
    statement.Heads (statement.tokens ++ rest) statement.tokens.length where
  derives := List.take_left.symm
  bounded := by
    rw [List.length_append]
    exact Nat.le_add_right _ _
  ends := by
    intro token found
    rw [List.getElem?_append_right (Nat.le_refl _), Nat.sub_self, ← List.head?_eq_getElem?] at found
    exact ends token found

end Grammar

namespace Tree

open Grammar

/-- A statement that keeps to the limits is read to its syntax tree. -/
theorem ofTokens_statement {limits : Limits} {statement : Statement} {rest : List Token}
    (keeps : statement.KeepsTo limits) (ends : EndsStatement rest) :
    ofTokens limits (statement.tokens ++ rest) = .ok statement.tree := by
  cases statement with
  | assignment target equals value named assigns =>
      have read := Assembly.readAll_start value (some equals) keeps.shallow keeps.few ends
      simp only [Statement.tokens, List.cons_append, ofTokens, named, assigns, and_self, if_true,
        read, Except.map, Statement.tree]
  | expression value =>
      have read := Assembly.readAll_start value none keeps.shallow keeps.few ends
      simp only [Statement.tokens, Statement.tree]
      unfold ofTokens
      split
      · rename_i target equals later same
        rw [if_neg (value.not_assignment same ends), ← same]
        exact read
      · exact read

/-- Tokens that are read as an expression are a statement. -/
theorem ofTokens_of_readAll {limits : Limits} {tokens : List Token} {tree : Tree}
    (success : Assembly.readAll limits (.start none) tokens = .ok tree) :
    ofTokens limits tokens = .ok tree := by
  rcases Assembly.exists_sum_of_readAll success with ⟨sum, rest, rfl, ends, shallow, few, rfl⟩
  have keeps : (Statement.expression sum).KeepsTo limits := ⟨shallow, few⟩
  exact ofTokens_statement keeps ends

/-- Tokens that are read to a tree begin with a statement that has it as its syntax tree. -/
theorem exists_statement_of_ofTokens {limits : Limits} {tokens : List Token} {tree : Tree}
    (success : ofTokens limits tokens = .ok tree) :
    ∃ (statement : Statement) (rest : List Token), tokens = statement.tokens ++ rest ∧
      EndsStatement rest ∧ statement.KeepsTo limits ∧ statement.tree = tree := by
  unfold ofTokens at success
  split at success
  · rename_i target equals later
    by_cases assignment : target.kind = .name ∧ equals.kind = .assign
    · rw [if_pos assignment] at success
      cases read : Assembly.readAll limits (.start (some equals)) later with
      | error rejection =>
          rw [read] at success
          cases success
      | ok value =>
          rw [read] at success
          cases success
          rcases Assembly.exists_sum_of_readAll read with ⟨sum, rest, rfl, ends, shallow, few, rfl⟩
          exact ⟨.assignment target equals sum assignment.1 assignment.2, rest, rfl, ends,
            ⟨shallow, few⟩, rfl⟩
    · rw [if_neg assignment] at success
      rcases Assembly.exists_sum_of_readAll success with ⟨sum, rest, same, ends, shallow, few, rfl⟩
      exact ⟨.expression sum, rest, same, ends, ⟨shallow, few⟩, rfl⟩
  · rcases Assembly.exists_sum_of_readAll success with ⟨sum, rest, same, ends, shallow, few, rfl⟩
    exact ⟨.expression sum, rest, same, ends, ⟨shallow, few⟩, rfl⟩

/-- Exactly the statements of the grammar that keep to the limits are read, each to its syntax tree.
At most one derivation heads a stream of tokens, whatever the limits, and at most one number of
tokens belongs to it. -/
theorem ofTokens_eq_ok_iff_derivation (limits : Limits) (tokens : List Token) :
    (∀ tree, ofTokens limits tokens = .ok tree ↔
      ∃ (count : Nat) (statement : Statement), statement.Heads tokens count ∧
        statement.KeepsTo limits ∧ statement.tree = tree) ∧
    (∀ (count count' : Nat) (statement statement' : Statement), statement.Heads tokens count →
      statement'.Heads tokens count' → count = count' ∧ statement = statement') := by
  constructor
  · intro tree
    constructor
    · intro success
      rcases exists_statement_of_ofTokens success with ⟨statement, rest, rfl, ends, keeps, rfl⟩
      exact ⟨_, statement, statement.heads_append ends, keeps, rfl⟩
    · rintro ⟨count, statement, heads, keeps, rfl⟩
      have read := ofTokens_statement keeps heads.endsStatement
      rwa [heads.append_drop] at read
  · intro count count' statement statement' heads heads'
    have whole := heads.append_drop.trans heads'.append_drop.symm
    rcases statement.unique statement' whole heads.endsStatement heads'.endsStatement with
      ⟨rfl, rests⟩
    have lengths := congrArg List.length rests
    rw [List.length_drop, List.length_drop] at lengths
    have bounded := heads.bounded
    have bounded' := heads'.bounded
    exact ⟨by omega, rfl⟩

end Tree
end ExpressionChecker

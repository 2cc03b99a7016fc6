import ExpressionChecker.Assembly
import ExpressionChecker.Proofs.Grammar.Unambiguous

namespace ExpressionChecker

/-!
# Reading phrases

What an assembly does with the tokens of one phrase does not depend on what the tokens are, only on
the phrase: a factor fills the operand that was missing, a product fills the product, a sum fills
the innermost level.  The limits are met exactly when the phrase keeps to them.  The steps come
first, one equation for each kind of token, and then the phrases by induction on the derivation.
The tokens behind a phrase are arbitrary throughout, so these equations also speak of texts that
go wrong later.
-/

namespace Assembly

open Grammar

variable {limits : Limits}

/-! ## Single tokens -/

/-- An operator is read off a token exactly when the token spells one of the four. -/
theorem operator?_eq_some_iff {token : Token} {operator : Operator} :
    operator? token = some operator ↔
      Spells token operator ∧ (JoinsFactors operator ∨ JoinsProducts operator) := by
  have joins : operator ∈ [Operator.add, .subtract, .multiply, .divide] ↔
      (JoinsFactors operator ∨ JoinsProducts operator) := by
    cases operator <;> simp [JoinsFactors, JoinsProducts]
  by_cases arithmetic : token.kind = .arithmetic
  · simp only [operator?, Spells, arithmetic, true_and, if_true, Option.filter_eq_some_iff,
      decide_eq_true_eq, joins, Operator.ofSymbol?_eq_some_iff]
  · simp [operator?, Spells, arithmetic]

theorem operator?_eq_none {token : Token} (plain : token.kind ≠ .arithmetic) :
    operator? token = none := by
  simp only [operator?, if_neg plain]

theorem operator?_eq_none_of_endsSum {token : Token} {rest : List Token}
    (ends : EndsSum (token :: rest)) : operator? token = none := by
  cases found : operator? token with
  | none => rfl
  | some operator =>
      have spelt := operator?_eq_some_iff.mp found
      exact absurd spelt.1 ((ends token rfl).2 operator spelt.2)

/-! ## Steps -/

section Steps

variable {level outer : Level} {brackets : List Bracket} {operators : Nat}
  {previous : Option Token} {token : Token} {rest : List Token} {factor : Tree}

theorem readAll_name (named : token.kind = .name) :
    readAll limits ⟨level, .missing, brackets, operators, previous⟩ (token :: rest) =
      readAll limits
        ⟨level, .name token.lexeme token.position, brackets, operators, some token⟩ rest := by
  simp only [readAll, read, readOperand, named, behind]

theorem readAll_number (numeric : token.kind = .number) :
    readAll limits ⟨level, .missing, brackets, operators, previous⟩ (token :: rest) =
      readAll limits ⟨level, .complete (.number token.lexeme ⟨token.position, none⟩), brackets,
        operators, some token⟩ rest := by
  simp only [readAll, read, readOperand, numeric, behind]

/-- The parenthesis of a group interrupts the level at which it stands. -/
theorem readAll_group (opens : token.kind = .openParenthesis)
    (shallow : brackets.length < limits.depth) :
    readAll limits ⟨level, .missing, brackets, operators, previous⟩ (token :: rest) =
      readAll limits
        ⟨.empty, .missing, ⟨.group, level⟩ :: brackets, operators, some token⟩ rest := by
  have within : ¬ limits.depth ≤ brackets.length := Nat.not_le_of_lt shallow
  simp only [readAll, read, readOperand, opens, openBracket, if_neg within, Except.map, behind]

/-- The parenthesis of a call interrupts the level at which the name stands. -/
theorem readAll_call {name : String} {position : Position} (opens : token.kind = .openParenthesis)
    (shallow : brackets.length < limits.depth) :
    readAll limits ⟨level, .name name position, brackets, operators, previous⟩ (token :: rest) =
      readAll limits ⟨.empty, .missing, ⟨.call name position, level⟩ :: brackets, operators,
        some token⟩ rest := by
  have within : ¬ limits.depth ≤ brackets.length := Nat.not_le_of_lt shallow
  simp only [readAll, read, if_pos opens, openBracket, if_neg within, Except.map, behind]

/-- A closing parenthesis returns to the level that its partner interrupted. -/
theorem readAll_close {opening : Opening} (closes : token.kind = .closeParenthesis) :
    readAll limits ⟨level, .complete factor, ⟨opening, outer⟩ :: brackets, operators, previous⟩
        (token :: rest) =
      readAll limits ⟨outer, .complete (opening.close (level.completeSum factor)), brackets,
        operators, some token⟩ rest := by
  have plain : operator? token = none := operator?_eq_none (by rw [closes]; decide)
  simp only [readAll, read, readBehind, plain, if_pos closes, behind]

theorem readAll_multiplicative {operator : Operator} (spelt : Spells token operator)
    (multiplicative : JoinsFactors operator) (few : operators < limits.operators) :
    readAll limits ⟨level, .complete factor, brackets, operators, previous⟩ (token :: rest) =
      readAll limits ⟨level.multiplied factor operator token.position, .missing, brackets,
        operators + 1, some token⟩ rest := by
  have found := operator?_eq_some_iff.mpr ⟨spelt, Or.inl multiplicative⟩
  have within : ¬ limits.operators ≤ operators := Nat.not_le_of_lt few
  have joins : operator = .multiply ∨ operator = .divide := multiplicative
  simp only [readAll, read, readBehind, found, putOperator, if_neg within, if_pos joins, Except.map,
    behind]

theorem readAll_additive {operator : Operator} (spelt : Spells token operator)
    (additive : JoinsProducts operator) (few : operators < limits.operators) :
    readAll limits ⟨level, .complete factor, brackets, operators, previous⟩ (token :: rest) =
      readAll limits ⟨level.added factor operator token.position, .missing, brackets,
        operators + 1, some token⟩ rest := by
  have found := operator?_eq_some_iff.mpr ⟨spelt, Or.inr additive⟩
  have within : ¬ limits.operators ≤ operators := Nat.not_le_of_lt few
  have joins : ¬ (operator = .multiply ∨ operator = .divide) := additive.not_multiplicative
  simp only [readAll, read, readBehind, found, putOperator, if_neg within, if_neg joins, Except.map,
    behind]

/-- Where a statement may end, a level without brackets is finished. -/
theorem readAll_end (ends : EndsStatement rest) :
    readAll limits ⟨level, .complete factor, [], operators, previous⟩ rest =
      .ok (level.completeSum factor) := by
  cases rest with
  | nil => simp only [readAll, finish]
  | cons token later =>
      have plain := operator?_eq_none_of_endsSum ends.endsSum
      have last : token.kind = .semicolon ∨ token.kind = .endOfInput := ends token rfl
      simp only [readAll, read, readBehind, plain, if_pos last]

/-! ## Assemblies that read alike -/

/-- Assemblies that agree on the next token and at the end read alike. -/
theorem readAll_congr {first second : Assembly} (atEnd : first.finish = second.finish)
    (atToken : ∀ token ∈ rest.head?, first.read limits token = second.read limits token) :
    first.readAll limits rest = second.readAll limits rest := by
  cases rest with
  | nil => exact atEnd
  | cons token later => simp only [readAll, atToken token rfl]

/-- A name that is not called is an operand. -/
theorem readAll_identifier {name : String} {position : Position} (ends : EndsFactor rest) :
    readAll limits ⟨level, .name name position, brackets, operators, previous⟩ rest =
      readAll limits ⟨level, .complete (.identifier name ⟨position, none⟩), brackets, operators,
        previous⟩ rest := by
  apply readAll_congr
  · cases brackets <;> rfl
  · intro token first
    have plain : ¬ token.kind = .openParenthesis := ends token first
    simp only [read, if_neg plain]
    rfl

/-- The factor that a product waited for completes the operation, and the level reads like one at
which no product was begun. -/
theorem readAll_multiplied {operator : Operator} {position : Position} {right : Tree}
    (fresh : level.product = none) :
    readAll limits ⟨level.multiplied factor operator position, .complete right, brackets,
        operators, previous⟩ rest =
      readAll limits ⟨level, .complete (.binary operator factor right ⟨position, none⟩), brackets,
        operators, previous⟩ rest := by
  rcases level with ⟨sum, product⟩
  cases fresh
  apply readAll_congr
  · cases brackets <;> rfl
  · intro token _
    rfl

/-- Unless another factor is joined to it, the product that a sum waited for completes the
operation, and the level reads like one at which nothing was begun. -/
theorem readAll_added {operator : Operator} {position : Position} {right : Tree}
    (ends : EndsProduct rest) :
    readAll limits ⟨Level.empty.added factor operator position, .complete right, brackets,
        operators, previous⟩ rest =
      readAll limits ⟨.empty, .complete (.binary operator factor right ⟨position, none⟩), brackets,
        operators, previous⟩ rest := by
  apply readAll_congr
  · cases brackets <;> rfl
  · intro token first
    cases found : operator? token with
    | none =>
        simp only [read, readBehind, found]
        rfl
    | some joining =>
        have spelt := (operator?_eq_some_iff.mp found).1
        have joins : ¬ (joining = .multiply ∨ joining = .divide) :=
          fun multiplicative => (ends token first).2 joining multiplicative spelt
        simp only [read, readBehind, found, putOperator, if_neg joins]
        rfl

end Steps

/-! ## Phrases -/

theorem getLast?_closing (opening content : List Token) (closing : Token) :
    (opening ++ (content ++ [closing])).getLast? = some closing := by
  rw [← List.append_assoc, List.getLast?_concat]

theorem getLast?_joined (token : Token) {right : List Token} (later : List Token)
    (previous : Option Token) (present : right ≠ []) :
    later.getLast?.or right.getLast? = (token :: (right ++ later)).getLast?.or previous := by
  have last := List.getLast?_eq_some_getLast present
  rw [← List.singleton_append, List.getLast?_append, List.getLast?_append, last]
  cases later.getLast? <;> rfl

mutual

/-- The tokens of a factor fill the missing operand. -/
theorem readAll_factor (factor : Factor) {level : Level} {brackets : List Bracket}
    {operators : Nat} {previous : Option Token} {rest : List Token}
    (shallow : brackets.length + factor.nesting ≤ limits.depth)
    (few : operators + factor.operatorCount ≤ limits.operators) (ends : EndsFactor rest) :
    readAll limits ⟨level, .missing, brackets, operators, previous⟩ (factor.tokens ++ rest) =
      readAll limits ⟨level, .complete factor.tree, brackets, operators + factor.operatorCount,
        factor.tokens.getLast?⟩ rest := by
  cases factor with
  | call callee opening argument closing named opens closes =>
      simp only [Factor.nesting, Factor.operatorCount] at shallow few
      have last : (callee :: opening :: (argument.tokens ++ [closing])).getLast? = some closing :=
        getLast?_closing [callee, opening] argument.tokens closing
      simp only [Factor.tokens, last, List.cons_append, List.append_assoc, List.nil_append]
      rw [readAll_name named, readAll_call opens (by omega),
        readAll_sum argument (by simp only [List.length_cons]; omega) few
          (endsSum_closing closes), readAll_close closes]
      rfl
  | group opening content closing opens closes =>
      simp only [Factor.nesting, Factor.operatorCount] at shallow few
      have last : (opening :: (content.tokens ++ [closing])).getLast? = some closing :=
        getLast?_closing [opening] content.tokens closing
      simp only [Factor.tokens, last, List.cons_append, List.append_assoc, List.nil_append]
      rw [readAll_group opens (by omega),
        readAll_sum content (by simp only [List.length_cons]; omega) few
          (endsSum_closing closes), readAll_close closes]
      rfl
  | name token named =>
      simp only [Factor.tokens, List.cons_append, List.nil_append]
      rw [readAll_name named, readAll_identifier ends]
      rfl
  | number token numeric =>
      simp only [Factor.tokens, List.cons_append, List.nil_append]
      rw [readAll_number numeric]
      rfl

theorem readAll_productRest (further : ProductRest) {level : Level} {left : Tree}
    {brackets : List Bracket} {operators : Nat} {previous : Option Token} {rest : List Token}
    (fresh : level.product = none) (shallow : brackets.length + further.nesting ≤ limits.depth)
    (few : operators + further.operatorCount ≤ limits.operators) (ends : EndsFactor rest) :
    readAll limits ⟨level, .complete left, brackets, operators, previous⟩
        (further.tokens ++ rest) =
      readAll limits ⟨level, .complete (further.treeFrom left), brackets,
        operators + further.operatorCount, further.tokens.getLast?.or previous⟩ rest := by
  cases further with
  | done => rfl
  | more operator token right later spelt multiplicative =>
      simp only [ProductRest.nesting, ProductRest.operatorCount] at shallow few
      simp only [ProductRest.tokens, List.cons_append, List.append_assoc]
      rw [readAll_multiplicative spelt multiplicative (by omega),
        readAll_factor right (by omega) (by omega) (later.endsFactor ends),
        readAll_multiplied fresh, readAll_productRest later fresh (by omega) (by omega) ends,
        getLast?_joined token later.tokens previous right.tokens_ne_nil]
      simp only [ProductRest.treeFrom, ProductRest.operatorCount, Nat.add_assoc]

theorem readAll_product (product : Product) {level : Level} {brackets : List Bracket}
    {operators : Nat} {previous : Option Token} {rest : List Token}
    (fresh : level.product = none) (shallow : brackets.length + product.nesting ≤ limits.depth)
    (few : operators + product.operatorCount ≤ limits.operators) (ends : EndsFactor rest) :
    readAll limits ⟨level, .missing, brackets, operators, previous⟩ (product.tokens ++ rest) =
      readAll limits ⟨level, .complete product.tree, brackets,
        operators + product.operatorCount, product.tokens.getLast?⟩ rest := by
  cases product with
  | of first further =>
      simp only [Product.nesting, Product.operatorCount] at shallow few
      simp only [Product.tokens, List.append_assoc]
      rw [readAll_factor first (by omega) (by omega) (further.endsFactor ends),
        readAll_productRest further fresh (by omega) (by omega) ends]
      simp only [Product.tree, Product.operatorCount, Nat.add_assoc, List.getLast?_append]

theorem readAll_sumRest (further : SumRest) {left : Tree} {brackets : List Bracket}
    {operators : Nat} {previous : Option Token} {rest : List Token}
    (shallow : brackets.length + further.nesting ≤ limits.depth)
    (few : operators + further.operatorCount ≤ limits.operators) (ends : EndsProduct rest) :
    readAll limits ⟨.empty, .complete left, brackets, operators, previous⟩
        (further.tokens ++ rest) =
      readAll limits ⟨.empty, .complete (further.treeFrom left), brackets,
        operators + further.operatorCount, further.tokens.getLast?.or previous⟩ rest := by
  cases further with
  | done => rfl
  | more operator token right later spelt additive =>
      simp only [SumRest.nesting, SumRest.operatorCount] at shallow few
      simp only [SumRest.tokens, List.cons_append, List.append_assoc]
      have follows := later.endsProduct ends
      rw [readAll_additive spelt additive (by omega),
        readAll_product right rfl (by omega) (by omega) follows.endsFactor,
        readAll_added follows, readAll_sumRest later (by omega) (by omega) ends,
        getLast?_joined token later.tokens previous right.tokens_ne_nil]
      simp only [SumRest.treeFrom, SumRest.operatorCount, Nat.add_assoc]

/-- The tokens of a sum fill a level at which nothing is begun. -/
theorem readAll_sum (sum : Sum) {brackets : List Bracket} {operators : Nat}
    {previous : Option Token} {rest : List Token}
    (shallow : brackets.length + sum.nesting ≤ limits.depth)
    (few : operators + sum.operatorCount ≤ limits.operators) (ends : EndsSum rest) :
    readAll limits ⟨.empty, .missing, brackets, operators, previous⟩ (sum.tokens ++ rest) =
      readAll limits ⟨.empty, .complete sum.tree, brackets, operators + sum.operatorCount,
        sum.tokens.getLast?⟩ rest := by
  cases sum with
  | of first further =>
      simp only [Sum.nesting, Sum.operatorCount] at shallow few
      simp only [Sum.tokens, List.append_assoc]
      have follows := further.endsProduct ends.endsProduct
      rw [readAll_product first rfl (by omega) (by omega) follows.endsFactor,
        readAll_sumRest further (by omega) (by omega) ends.endsProduct]
      simp only [Sum.tree, Sum.operatorCount, Nat.add_assoc, List.getLast?_append]

end

end Assembly
end ExpressionChecker

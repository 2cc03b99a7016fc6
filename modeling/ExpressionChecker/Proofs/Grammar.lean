import ExpressionChecker.Token
import ExpressionChecker.Tree

namespace ExpressionChecker
namespace Grammar

/-!
# The grammar of statements

The phrases of the grammar

* `Statement := IDENT '=' Sum | Sum`
* `Sum := Product (('+' | '-') Product)*`
* `Product := Factor (('*' | '/') Factor)*`
* `Factor := IDENT '(' Sum ')' | '(' Sum ')' | IDENT | NUMBER`

are kept here as data, with the tokens that they derive.  A phrase is a derivation: every token
stands at the place where a rule demands it, and the rule's demand on its kind is a field.  A
repetition is a list, so the grammar itself says nothing about association.  The syntax tree of a
phrase is a function of the phrase, and it is there that chains are folded from the left and
that grouping parentheses disappear.

Nothing here mentions how a statement is read.
-/

/-- The token is the arithmetic token with exactly the operator's symbol. -/
def Spells (token : Token) (operator : Operator) : Prop :=
  token.kind = .arithmetic ∧ token.lexeme = operator.symbol

/-- The two operators that join the products of a sum. -/
def JoinsProducts (operator : Operator) : Prop :=
  operator = .add ∨ operator = .subtract

/-- The two operators that join the factors of a product. -/
def JoinsFactors (operator : Operator) : Prop :=
  operator = .multiply ∨ operator = .divide

mutual

/-- A call, a group in parentheses, a name or a number. -/
inductive Factor where
  | call (callee opening : Token) (argument : Sum) (closing : Token)
      (named : callee.kind = .name) (opens : opening.kind = .openParenthesis)
      (closes : closing.kind = .closeParenthesis)
  | group (opening : Token) (content : Sum) (closing : Token)
      (opens : opening.kind = .openParenthesis) (closes : closing.kind = .closeParenthesis)
  | name (token : Token) (named : token.kind = .name)
  | number (token : Token) (numeric : token.kind = .number)

/-- The repetition `(('*' | '/') Factor)*`. -/
inductive ProductRest where
  | done
  | more (operator : Operator) (token : Token) (right : Factor) (rest : ProductRest)
      (spelt : Spells token operator) (multiplicative : JoinsFactors operator)

/-- A factor and the factors joined to it. -/
inductive Product where
  | of (first : Factor) (rest : ProductRest)

/-- The repetition `(('+' | '-') Product)*`. -/
inductive SumRest where
  | done
  | more (operator : Operator) (token : Token) (right : Product) (rest : SumRest)
      (spelt : Spells token operator) (additive : JoinsProducts operator)

/-- A product and the products joined to it. -/
inductive Sum where
  | of (first : Product) (rest : SumRest)

end

/-- An assignment to a name, or an expression alone. -/
inductive Statement where
  | assignment (target equals : Token) (value : Sum)
      (named : target.kind = .name) (assigns : equals.kind = .assign)
  | expression (value : Sum)

/-! ## The tokens that a phrase derives -/

mutual

/-- The tokens of a factor. -/
def Factor.tokens : Factor → List Token
  | .call callee opening argument closing .. =>
    callee :: opening :: (argument.tokens ++ [closing])
  | .group opening content closing .. => opening :: (content.tokens ++ [closing])
  | .name token _ => [token]
  | .number token _ => [token]

def ProductRest.tokens : ProductRest → List Token
  | .done => []
  | .more _ token right rest .. => token :: (right.tokens ++ rest.tokens)

def Product.tokens : Product → List Token
  | .of first rest => first.tokens ++ rest.tokens

def SumRest.tokens : SumRest → List Token
  | .done => []
  | .more _ token right rest .. => token :: (right.tokens ++ rest.tokens)

def Sum.tokens : Sum → List Token
  | .of first rest => first.tokens ++ rest.tokens

end

def Statement.tokens : Statement → List Token
  | .assignment target equals value .. => target :: equals :: value.tokens
  | .expression value => value.tokens

/-! ## The syntax tree of a phrase -/

mutual

/-- The syntax tree of a factor.  A call stands at its callee, and a group leaves no node. -/
def Factor.tree : Factor → Tree
  | .call callee _ argument .. => .call callee.lexeme [argument.tree] ⟨callee.position, none⟩
  | .group _ content .. => content.tree
  | .name token _ => .identifier token.lexeme ⟨token.position, none⟩
  | .number token _ => .number token.lexeme ⟨token.position, none⟩

/-- The syntax tree of a product whose factors so far have the tree `left`. -/
def ProductRest.treeFrom (left : Tree) : ProductRest → Tree
  | .done => left
  | .more operator token right rest .. =>
    rest.treeFrom (.binary operator left right.tree ⟨token.position, none⟩)

def Product.tree : Product → Tree
  | .of first rest => rest.treeFrom first.tree

/-- The syntax tree of a sum whose products so far have the tree `left`. -/
def SumRest.treeFrom (left : Tree) : SumRest → Tree
  | .done => left
  | .more operator token right rest .. =>
    rest.treeFrom (.binary operator left right.tree ⟨token.position, none⟩)

def Sum.tree : Sum → Tree
  | .of first rest => rest.treeFrom first.tree

end

/-- The syntax tree of a statement.  An assignment stands at its equals sign. -/
def Statement.tree : Statement → Tree
  | .assignment target equals value .. =>
    .assignment (.identifier target.lexeme ⟨target.position, none⟩) value.tree
      ⟨equals.position, none⟩
  | .expression value => value.tree

/-! ## What the limits measure -/

mutual

/-- How deep the parentheses of groups and calls are nested in a factor. -/
def Factor.nesting : Factor → Nat
  | .call _ _ argument .. => argument.nesting + 1
  | .group _ content .. => content.nesting + 1
  | .name .. => 0
  | .number .. => 0

def ProductRest.nesting : ProductRest → Nat
  | .done => 0
  | .more _ _ right rest .. => max right.nesting rest.nesting

def Product.nesting : Product → Nat
  | .of first rest => max first.nesting rest.nesting

def SumRest.nesting : SumRest → Nat
  | .done => 0
  | .more _ _ right rest .. => max right.nesting rest.nesting

def Sum.nesting : Sum → Nat
  | .of first rest => max first.nesting rest.nesting

end

mutual

/-- The number of binary operators in a factor. -/
def Factor.operatorCount : Factor → Nat
  | .call _ _ argument .. => argument.operatorCount
  | .group _ content .. => content.operatorCount
  | .name .. => 0
  | .number .. => 0

def ProductRest.operatorCount : ProductRest → Nat
  | .done => 0
  | .more _ _ right rest .. => 1 + right.operatorCount + rest.operatorCount

def Product.operatorCount : Product → Nat
  | .of first rest => first.operatorCount + rest.operatorCount

def SumRest.operatorCount : SumRest → Nat
  | .done => 0
  | .more _ _ right rest .. => 1 + right.operatorCount + rest.operatorCount

def Sum.operatorCount : Sum → Nat
  | .of first rest => first.operatorCount + rest.operatorCount

end

def Statement.nesting : Statement → Nat
  | .assignment _ _ value .. => value.nesting
  | .expression value => value.nesting

def Statement.operatorCount : Statement → Nat
  | .assignment _ _ value .. => value.operatorCount
  | .expression value => value.operatorCount

/-! ## What may follow a phrase -/

/-- The tokens do not go on with a parenthesis, which would turn a name into a call. -/
def EndsFactor (rest : List Token) : Prop :=
  ∀ token ∈ rest.head?, token.kind ≠ .openParenthesis

/-- The tokens continue neither the last factor of a product nor the product. -/
def EndsProduct (rest : List Token) : Prop :=
  ∀ token ∈ rest.head?, token.kind ≠ .openParenthesis ∧
    ∀ operator, JoinsFactors operator → ¬ Spells token operator

/-- The tokens continue neither the last product of a sum nor the sum. -/
def EndsSum (rest : List Token) : Prop :=
  ∀ token ∈ rest.head?, token.kind ≠ .openParenthesis ∧
    ∀ operator, JoinsFactors operator ∨ JoinsProducts operator → ¬ Spells token operator

/-- A statement ends at a semicolon, at the end-of-input token, or where the tokens run out. -/
def EndsStatement (rest : List Token) : Prop :=
  ∀ token ∈ rest.head?, token.kind = .semicolon ∨ token.kind = .endOfInput

end Grammar
end ExpressionChecker

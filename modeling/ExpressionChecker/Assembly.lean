import ExpressionChecker.Limits
import ExpressionChecker.Rejection
import ExpressionChecker.Tree

namespace ExpressionChecker

/-!
# Assembling a statement from tokens

The statements of the language are

* `Statement := IDENT '=' Sum | Sum`
* `Sum := Product (('+' | '-') Product)*`
* `Product := Factor (('*' | '/') Factor)*`
* `Factor := IDENT '(' Sum ')' | '(' Sum ')' | IDENT | NUMBER`

and a statement ends at a semicolon or at the end of the input.  What follows the semicolon is not
looked at.  The tokens are read one by one from left to right.  An `Assembly` holds the unfinished
part of the tree: for every bracket that is still open, the sum and the product that wait for an
operand.  A tree is built the moment its last token is known, so chains associate to the left, and
parentheses that only group leave no node.
-/

/-! ## Unfinished operations -/

/-- An operation whose right operand is still to come. -/
structure Pending where
  left : Tree
  operator : Operator
  position : Position
deriving Repr

namespace Pending

/-- Supplies the right operand of an operation, if there is one that waits for it. -/
def supply : Option Pending → Tree → Tree
  | none, operand => operand
  | some pending, operand =>
    .binary pending.operator pending.left operand ⟨pending.position, none⟩

end Pending

/-- The operations that wait for an operand between one pair of brackets: a sum that waits for its
next product and a product that waits for its next factor. -/
structure Level where
  sum : Option Pending
  product : Option Pending
deriving Repr

namespace Level

/-- The level at which nothing waits. -/
def empty : Level := ⟨none, none⟩

/-- The product that a factor completes. -/
def completeProduct (level : Level) (factor : Tree) : Tree :=
  Pending.supply level.product factor

/-- The sum that a factor completes. -/
def completeSum (level : Level) (factor : Tree) : Tree :=
  Pending.supply level.sum (level.completeProduct factor)

/-- The level at which the product up to a factor waits for another factor. -/
def multiplied (level : Level) (factor : Tree) (operator : Operator) (position : Position) :
    Level :=
  { level with product := some ⟨level.completeProduct factor, operator, position⟩ }

/-- The level at which the sum up to a factor waits for another product. -/
def added (level : Level) (factor : Tree) (operator : Operator) (position : Position) :
    Level :=
  ⟨some ⟨level.completeSum factor, operator, position⟩, none⟩

end Level

/-- What an open parenthesis belongs to: a group, or the call of a function whose name stands in
front of it. -/
inductive Opening where
  | group
  | call (name : String) (position : Position)
deriving Repr

namespace Opening

/-- The factor that a closing parenthesis makes of what the parentheses hold. -/
def close : Opening → Tree → Tree
  | group, content => content
  | call name position, content => .call name [content] ⟨position, none⟩

end Opening

/-- An open parenthesis together with the level that it interrupts. -/
structure Bracket where
  opening : Opening
  outer : Level
deriving Repr

/-- The last operand of the innermost level. -/
inductive Operand where
  | missing
  | name (name : String) (position : Position)
  | complete (factor : Tree)
deriving Repr

/-- The unfinished part of a statement: the innermost level and its last operand, the open
brackets from the inside out, the number of operators, and the token that was read last. -/
structure Assembly where
  level : Level
  operand : Operand
  brackets : List Bracket
  operators : Nat
  previous : Option Token
deriving Repr

namespace Assembly

/-- The assembly of an expression behind the given token. -/
def start (previous : Option Token) : Assembly :=
  ⟨.empty, .missing, [], 0, previous⟩

/-- The assembly of the same tokens and one more. -/
def behind (assembly : Assembly) (token : Token) : Assembly :=
  { assembly with previous := some token }

/-! ## Refusing a token -/

/-- Why the input cannot end here. -/
def refuseEnd (assembly : Assembly) (expected : Expectation) (position : Position) : Rejection :=
  match assembly.previous with
  | some previous => .endedAfter expected previous.lexeme previous.position
  | none => .unexpected expected .nothing position

/-- Why a token cannot stand here. -/
def refuse (assembly : Assembly) (expected : Expectation) (token : Token) : Rejection :=
  match token.kind with
  | .fault error => .lexical error token.position
  | .endOfInput => assembly.refuseEnd expected token.position
  | kind => .unexpected expected (.token kind token.lexeme) token.position

/-! ## Reading a token -/

/-- The four operators of the grammar, by the token they are read from. -/
def operator? (token : Token) : Option Operator :=
  if token.kind = .arithmetic then
    (Operator.ofSymbol? token.lexeme).filter (· ∈ [.add, .subtract, .multiply, .divide])
  else none

/-- Opens a bracket, unless as many are open as the limit allows. -/
def openBracket (limits : Limits) (assembly : Assembly) (opening : Opening) (position : Position) :
    Except Rejection Assembly :=
  if limits.depth ≤ assembly.brackets.length then
    .error (.nestedTooDeep limits.depth position)
  else
    .ok { assembly with
      level := .empty
      operand := .missing
      brackets := ⟨opening, assembly.level⟩ :: assembly.brackets }

/-- Puts an operator behind a factor, unless there are as many as the limit allows. -/
def putOperator (limits : Limits) (assembly : Assembly) (factor : Tree) (operator : Operator)
    (position : Position) : Except Rejection Assembly :=
  if limits.operators ≤ assembly.operators then
    .error (.tooManyOperators limits.operators position)
  else
    .ok { assembly with
      level :=
        if operator = .multiply ∨ operator = .divide then
          assembly.level.multiplied factor operator position
        else assembly.level.added factor operator position
      operand := .missing
      operators := assembly.operators + 1 }

/-- What reading a token leads to: an assembly that goes on, or the finished expression. -/
inductive Outcome where
  | ongoing (assembly : Assembly)
  | finished (tree : Tree)
deriving Repr

/-- Reads a token that stands behind a complete factor. -/
def readBehind (limits : Limits) (assembly : Assembly) (factor : Tree) (token : Token) :
    Except Rejection Outcome :=
  match operator? token with
  | some operator =>
    (assembly.putOperator limits factor operator token.position).map fun next =>
      .ongoing (next.behind token)
  | none =>
    match assembly.brackets with
    | [] =>
      if token.kind = .semicolon ∨ token.kind = .endOfInput then
        .ok (.finished (assembly.level.completeSum factor))
      else .error (assembly.refuse .endOfStatement token)
    | bracket :: outer =>
      if token.kind = .closeParenthesis then
        .ok (.ongoing (behind { assembly with
          level := bracket.outer
          operand := .complete (bracket.opening.close (assembly.level.completeSum factor))
          brackets := outer } token))
      else .error (assembly.refuse .closingParenthesis token)

/-- Reads a token where an operand has to follow. -/
def readOperand (limits : Limits) (assembly : Assembly) (token : Token) :
    Except Rejection Outcome :=
  match token.kind with
  | .name =>
    .ok (.ongoing (behind { assembly with operand := .name token.lexeme token.position } token))
  | .number =>
    let factor := Tree.number token.lexeme ⟨token.position, none⟩
    .ok (.ongoing (behind { assembly with operand := .complete factor } token))
  | .openParenthesis =>
    (assembly.openBracket limits .group token.position).map fun next => .ongoing (next.behind token)
  | _ => .error (assembly.refuse .operand token)

/-- Reads one token. -/
def read (limits : Limits) (assembly : Assembly) (token : Token) : Except Rejection Outcome :=
  match assembly.operand with
  | .missing => assembly.readOperand limits token
  | .name name position =>
    if token.kind = .openParenthesis then
      (assembly.openBracket limits (.call name position) position).map fun next =>
        .ongoing (next.behind token)
    else assembly.readBehind limits (.identifier name ⟨position, none⟩) token
  | .complete factor => assembly.readBehind limits factor token

/-- Finishes the expression where the tokens run out. -/
def finish (assembly : Assembly) : Except Rejection Tree :=
  match assembly.operand, assembly.brackets with
  | .missing, _ => .error (assembly.refuseEnd .operand .start)
  | .name name position, [] =>
    .ok (assembly.level.completeSum (.identifier name ⟨position, none⟩))
  | .complete factor, [] => .ok (assembly.level.completeSum factor)
  | _, _ :: _ => .error (assembly.refuseEnd .closingParenthesis .start)

/-- Reads tokens until the expression is finished. -/
def readAll (limits : Limits) (assembly : Assembly) : List Token → Except Rejection Tree
  | [] => assembly.finish
  | token :: rest =>
    match assembly.read limits token with
    | .ok (.ongoing next) => readAll limits next rest
    | .ok (.finished tree) => .ok tree
    | .error rejection => .error rejection

end Assembly

/-! ## Statements -/

namespace Tree

/-- The tree of the first statement of a stream of tokens. -/
def ofTokens (limits : Limits) : List Token → Except Rejection Tree
  | target :: equals :: rest =>
    if target.kind = .name ∧ equals.kind = .assign then
      (Assembly.readAll limits (.start (some equals)) rest).map fun value =>
        .assignment (.identifier target.lexeme ⟨target.position, none⟩) value
          ⟨equals.position, none⟩
    else Assembly.readAll limits (.start none) (target :: equals :: rest)
  | tokens => Assembly.readAll limits (.start none) tokens

end Tree
end ExpressionChecker

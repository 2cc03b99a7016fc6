import ExpressionChecker.Assembly
import ExpressionChecker.Proofs.Token.Forms
import ExpressionChecker.Proofs.Tree.Relabeling

namespace ExpressionChecker

/-!
# Reading tokens that stand elsewhere

An assembly copies the positions of its tokens into the tree or into the rejection and never looks
at them.  So if every token is moved, what is read is the same with its positions moved.  The one
position that comes from no token is the start of the text, which an empty list of tokens is
rejected at; moves that leave it alone are considered.
-/

variable (move : Position → Position)

/-! ## Moving what has been read -/

/-- The rejection at its new position. -/
def Rejection.moved : Rejection → Rejection
  | unexpected expected found position => unexpected expected found (move position)
  | endedAfter expected lexeme position => endedAfter expected lexeme (move position)
  | lexical error position => lexical error (move position)
  | nestedTooDeep limit position => nestedTooDeep limit (move position)
  | tooManyOperators limit position => tooManyOperators limit (move position)

/-- The operation with the positions moved. -/
def Pending.moved (pending : Pending) : Pending :=
  ⟨pending.left.moved move, pending.operator, move pending.position⟩

/-- The level with the positions moved. -/
def Level.moved (level : Level) : Level :=
  ⟨level.sum.map (Pending.moved move), level.product.map (Pending.moved move)⟩

/-- The opening with its position moved. -/
def Opening.moved : Opening → Opening
  | group => group
  | call name position => call name (move position)

/-- The bracket with the positions moved. -/
def Bracket.moved (bracket : Bracket) : Bracket :=
  ⟨bracket.opening.moved move, bracket.outer.moved move⟩

/-- The operand with its positions moved. -/
def Operand.moved : Operand → Operand
  | missing => missing
  | name lexeme position => name lexeme (move position)
  | complete factor => complete (factor.moved move)

namespace Assembly

/-- The assembly with the positions moved. -/
def moved (assembly : Assembly) : Assembly :=
  ⟨assembly.level.moved move, assembly.operand.moved move,
    assembly.brackets.map (Bracket.moved move), assembly.operators,
    assembly.previous.map (Token.moved move)⟩

/-- The outcome with the positions moved. -/
def Outcome.moved : Outcome → Outcome
  | ongoing assembly => ongoing (assembly.moved move)
  | finished tree => finished (tree.moved move)

end Assembly

/-- The answer with its positions moved, be it a result or a rejection. -/
def Rejection.movedAnswer {Result : Type} (moved : Result → Result) :
    Except Rejection Result → Except Rejection Result
  | .ok result => .ok (moved result)
  | .error rejection => .error (rejection.moved move)

open Rejection (movedAnswer)

/-! ## Completing operations -/

theorem Pending.supply_moved (pending : Option Pending) (operand : Tree) :
    supply (pending.map (moved move)) (operand.moved move) =
      (supply pending operand).moved move := by
  cases pending <;> rfl

namespace Level

theorem completeProduct_moved (level : Level) (factor : Tree) :
    (level.moved move).completeProduct (factor.moved move) =
      (level.completeProduct factor).moved move :=
  Pending.supply_moved move level.product factor

theorem completeSum_moved (level : Level) (factor : Tree) :
    (level.moved move).completeSum (factor.moved move) = (level.completeSum factor).moved move := by
  rw [completeSum, completeProduct_moved, completeSum]
  exact Pending.supply_moved move level.sum _

theorem multiplied_moved (level : Level) (factor : Tree) (operator : Operator)
    (position : Position) :
    (level.moved move).multiplied (factor.moved move) operator (move position) =
      (level.multiplied factor operator position).moved move := by
  rw [multiplied, completeProduct_moved]
  rfl

theorem added_moved (level : Level) (factor : Tree) (operator : Operator) (position : Position) :
    (level.moved move).added (factor.moved move) operator (move position) =
      (level.added factor operator position).moved move := by
  rw [added, completeSum_moved]
  rfl

end Level

theorem Opening.close_moved (opening : Opening) (content : Tree) :
    (opening.moved move).close (content.moved move) = (opening.close content).moved move := by
  cases opening <;> rfl

/-! ## Reading -/

namespace Assembly

variable (limits : Limits) (assembly : Assembly) (token : Token)

theorem refuseEnd_moved (expected : Expectation) (position : Position) :
    (assembly.moved move).refuseEnd expected (move position) =
      (assembly.refuseEnd expected position).moved move := by
  rcases assembly with ⟨level, operand, brackets, operators, previous⟩
  cases previous <;> rfl

theorem refuse_moved (expected : Expectation) :
    (assembly.moved move).refuse expected (token.moved move) =
      (assembly.refuse expected token).moved move := by
  rcases token with ⟨kind, lexeme, position⟩
  cases kind with
  | endOfInput => exact refuseEnd_moved move assembly expected position
  | _ => rfl

theorem openBracket_moved (opening : Opening) (position : Position) :
    (assembly.moved move).openBracket limits (opening.moved move) (move position) =
      movedAnswer move (moved move) (assembly.openBracket limits opening position) := by
  simp only [openBracket, moved, List.length_map]
  split <;> rfl

theorem putOperator_moved (factor : Tree) (operator : Operator) (position : Position) :
    (assembly.moved move).putOperator limits (factor.moved move) operator (move position) =
      movedAnswer move (moved move) (assembly.putOperator limits factor operator position) := by
  simp only [putOperator, moved, Level.multiplied_moved, Level.added_moved]
  split
  · rfl
  · split <;> rfl

/-- What an assembly leads to behind a token. -/
theorem map_behind_moved (answer : Except Rejection Assembly) :
    ((movedAnswer move (moved move) answer).map
        fun next => .ongoing (next.behind (token.moved move))) =
      movedAnswer move (Outcome.moved move)
        (answer.map fun next => .ongoing (next.behind token)) := by
  cases answer <;> rfl

theorem readBehind_moved (factor : Tree) :
    (assembly.moved move).readBehind limits (factor.moved move) (token.moved move) =
      movedAnswer move (Outcome.moved move) (assembly.readBehind limits factor token) := by
  have operators : operator? (token.moved move) = operator? token := rfl
  have kinds : (token.moved move).kind = token.kind := rfl
  have refusal (expected : Expectation) :=
    congrArg (Except.error (α := Outcome)) (refuse_moved move assembly token expected)
  unfold readBehind
  rw [operators]
  cases operator? token with
  | some operator =>
      have puts := putOperator_moved move limits assembly factor operator token.position
      exact (congrArg (Except.map _) puts).trans (map_behind_moved move token _)
  | none =>
      rcases assembly with ⟨level, operand, brackets, operators, previous⟩
      cases brackets with
      | nil =>
          simp only [moved, List.map_nil, kinds, Level.completeSum_moved]
          split
          · rfl
          · exact refusal .endOfStatement
      | cons bracket outer =>
          simp only [moved, List.map_cons, Bracket.moved, kinds, Level.completeSum_moved,
            Opening.close_moved]
          split
          · rfl
          · exact refusal .closingParenthesis

theorem readOperand_moved :
    (assembly.moved move).readOperand limits (token.moved move) =
      movedAnswer move (Outcome.moved move) (assembly.readOperand limits token) := by
  have refusal := congrArg (Except.error (α := Outcome)) (refuse_moved move assembly token .operand)
  rcases token with ⟨kind, lexeme, position⟩
  cases kind with
  | openParenthesis =>
      have opens := openBracket_moved move limits assembly .group position
      exact (congrArg (Except.map _) opens).trans (map_behind_moved move _ _)
  | name => rfl
  | number => rfl
  | _ => exact refusal

/-- A moved token leads to the same with its positions moved. -/
theorem read_moved :
    (assembly.moved move).read limits (token.moved move) =
      movedAnswer move (Outcome.moved move) (assembly.read limits token) := by
  rcases assembly with ⟨level, operand, brackets, operators, previous⟩
  cases operand with
  | missing => exact readOperand_moved move limits _ token
  | name name position =>
      have opens := openBracket_moved move limits
        ⟨level, .name name position, brackets, operators, previous⟩ (.call name position) position
      have goesOn := readBehind_moved move limits
        ⟨level, .name name position, brackets, operators, previous⟩ token
        (.identifier name ⟨position, none⟩)
      refine (if_congr Iff.rfl ((congrArg (Except.map _) opens).trans (map_behind_moved move _ _))
        goesOn).trans ?_
      exact (apply_ite (movedAnswer move (Outcome.moved move)) _ _ _).symm
  | complete factor => exact readBehind_moved move limits _ token factor

variable (keepsStart : move .start = .start)

include keepsStart

theorem finish_moved :
    (assembly.moved move).finish = movedAnswer move (Tree.moved move) assembly.finish := by
  have atStart (expected : Expectation) :
      Except.error (α := Tree) ((assembly.moved move).refuseEnd expected .start) =
        .error ((assembly.refuseEnd expected .start).moved move) := by
    rw [← refuseEnd_moved, keepsStart]
  rcases assembly with ⟨level, operand, brackets, operators, previous⟩
  have whole (factor : Tree) :=
    congrArg (Except.ok (ε := Rejection)) (Level.completeSum_moved move level factor)
  cases operand with
  | missing => exact atStart .operand
  | name name position =>
      cases brackets with
      | nil => exact whole (.identifier name ⟨position, none⟩)
      | cons bracket outer => exact atStart .closingParenthesis
  | complete factor =>
      cases brackets with
      | nil => exact whole factor
      | cons bracket outer => exact atStart .closingParenthesis

theorem readAll_moved (tokens : List Token) :
    (assembly.moved move).readAll limits (tokens.map (Token.moved move)) =
      movedAnswer move (Tree.moved move) (assembly.readAll limits tokens) := by
  induction tokens generalizing assembly with
  | nil => exact finish_moved move assembly keepsStart
  | cons token rest inductionHypothesis =>
      rw [List.map_cons, readAll, readAll, read_moved]
      cases assembly.read limits token with
      | error rejection => rfl
      | ok outcome =>
          cases outcome with
          | ongoing next => exact inductionHypothesis next
          | finished tree => rfl

end Assembly

/-- Moved tokens yield the moved tree, or are rejected for the same reason at the moved position. -/
theorem Tree.ofTokens_moved (keepsStart : move .start = .start) (limits : Limits)
    (tokens : List Token) :
    ofTokens limits (tokens.map (Token.moved move)) =
      movedAnswer move (moved move) (ofTokens limits tokens) := by
  have expression (tokens : List Token) :=
    Assembly.readAll_moved move limits (.start none) keepsStart tokens
  match tokens with
  | [] => exact expression []
  | [token] => exact expression [token]
  | target :: equals :: rest =>
      have value := Assembly.readAll_moved move limits (.start (some equals)) keepsStart rest
      have assignment : (Assembly.readAll limits (.start (some (equals.moved move)))
            (rest.map (Token.moved move))).map (fun value =>
              assignment (identifier target.lexeme ⟨move target.position, none⟩) value
                ⟨move equals.position, none⟩) =
          movedAnswer move (moved move) ((Assembly.readAll limits (.start (some equals)) rest).map
            fun value => assignment (identifier target.lexeme ⟨target.position, none⟩) value
              ⟨equals.position, none⟩) := by
        refine (congrArg (Except.map _) value).trans ?_
        cases Assembly.readAll limits (.start (some equals)) rest <;> rfl
      exact (if_congr Iff.rfl assignment (expression (target :: equals :: rest))).trans
        (apply_ite (movedAnswer move (moved move)) _ _ _).symm

end ExpressionChecker

import ExpressionChecker.Proofs.Grammar.Unambiguous
import ExpressionChecker.Proofs.Tree.Legible

namespace ExpressionChecker

/-!
# Rendering is unambiguous

The shape of a legible tree can be recovered from the tokens that the tree is written with, for the
whole table of operators.  The tokens are read from left to right, and what is unfinished is kept
from the inside out.  When an operator comes up, everything that binds at least as tightly in front
of it is finished first, so chains associate to the left, while an assignment waits for whatever
follows its equals sign.  Since the recovery is a function of the tokens, no text can be the
rendering of two shapes.
-/

namespace Tree

/-! ## Unfinished nodes -/

/-- A node whose last part is still to come, or an open parenthesis. -/
inductive Unfinished where
  | unary (operator : Operator)
  | binary (left : Tree) (operator : Operator)
  | assignment (target : Tree)
  | group
  | call (name : String) (arguments : List Tree)

namespace Unfinished

/-- The node with its last part. -/
def finish : Unfinished → Tree → Tree
  | unary operator, operand => .unary operator operand noNote
  | binary left operator, right => .binary operator left right noNote
  | assignment target, value => .assignment target value noNote
  | group, content => content
  | call name arguments, last => .call name (arguments ++ [last]) noNote

/-- How tightly a node binds its last part.  Parentheses keep theirs until they are closed. -/
def strength? : Unfinished → Option Nat
  | unary operator | binary _ operator => some operator.strength
  | assignment _ => some 0
  | group | call .. => none

/-- Finishes nodes with a tree, from the inside out, as long as they bind at least so tightly. -/
def settle (least : Nat) : List Unfinished → Tree → List Unfinished × Tree
  | [], tree => ([], tree)
  | node :: outer, tree =>
    if node.strength?.any (least ≤ ·) then settle least outer (node.finish tree)
    else (node :: outer, tree)

theorem settle_of_le {least strength : Nat} {node : Unfinished}
    (binds : node.strength? = some strength) (enough : least ≤ strength)
    (outer : List Unfinished) (tree : Tree) :
    settle least (node :: outer) tree = settle least outer (node.finish tree) := by
  rw [settle, binds, Option.any_some, decide_eq_true enough, if_pos rfl]

/-- The innermost node does not bind so tightly. -/
def Looser (strength : Nat) (unfinished : List Unfinished) : Prop :=
  ∀ node ∈ unfinished.head?, ∀ binds ∈ node.strength?, binds < strength

theorem Looser.mono {strength strength' : Nat} {unfinished : List Unfinished}
    (looser : Looser strength unfinished) (more : strength ≤ strength') :
    Looser strength' unfinished :=
  fun node innermost binds known => Nat.lt_of_lt_of_le (looser node innermost binds known) more

theorem Looser.settle_eq {strength : Nat} {unfinished : List Unfinished}
    (looser : Looser strength unfinished) (tree : Tree) :
    settle strength unfinished tree = (unfinished, tree) := by
  cases unfinished with
  | nil => rfl
  | cons node outer =>
      rw [settle, if_neg]
      intro binding
      rcases (Option.any_eq_true _ _).mp binding with ⟨binds, known, enough⟩
      exact absurd (of_decide_eq_true enough) (Nat.not_le_of_lt (looser node rfl binds known))

theorem looser_cons {strength binds : Nat} {node : Unfinished} (known : node.strength? = some binds)
    (less : binds < strength) (outer : List Unfinished) : Looser strength (node :: outer) := by
  intro node' innermost binds' known'
  cases Option.mem_some_iff.mp innermost
  rw [known] at known'
  cases Option.mem_some_iff.mp known'
  exact less

/-- Inside of parentheses nothing is bound from outside. -/
theorem looser_parenthesis {node : Unfinished} (open' : node.strength? = none)
    (strength : Nat) (outer : List Unfinished) : Looser strength (node :: outer) := by
  intro node' innermost binds known
  cases Option.mem_some_iff.mp innermost
  rw [open'] at known
  cases known

end Unfinished

/-! ## Reading tokens -/

/-- What some tokens have been read to: the unfinished nodes from the inside out, and the operand
that was read last, if none is missing. -/
structure Recovery where
  unfinished : List Unfinished
  operand : Option Tree

namespace Recovery

open Unfinished

/-- Reads a token where an operand is missing.  A call without arguments is closed here. -/
def readOperand (outer : List Unfinished) (form : TokenKind × String) : Option Recovery :=
  match form.1 with
  | .name => some ⟨outer, some (.identifier form.2 noNote)⟩
  | .number => some ⟨outer, some (.number form.2 noNote)⟩
  | .openParenthesis => some ⟨.group :: outer, none⟩
  | .closeParenthesis =>
    match outer with
    | .call name [] :: outer => some ⟨outer, some (.call name [] noNote)⟩
    | _ => none
  | _ => (Operator.ofSymbol? form.2).map fun operator => ⟨.unary operator :: outer, none⟩

/-- Reads a token that stands behind an operand. -/
def readBehind (outer : List Unfinished) (operand : Tree) (form : TokenKind × String) :
    Option Recovery :=
  match form.1 with
  | .openParenthesis =>
    match operand with
    | .identifier name _ => some ⟨.call name [] :: outer, none⟩
    | _ => none
  | .closeParenthesis =>
    match settle 0 outer operand with
    | (node :: outer, content) => some ⟨outer, some (node.finish content)⟩
    | _ => none
  | .comma =>
    match settle 0 outer operand with
    | (.call name arguments :: outer, argument) =>
      some ⟨.call name (arguments ++ [argument]) :: outer, none⟩
    | _ => none
  | .assign =>
    let target := settle 1 outer operand
    some ⟨.assignment target.2 :: target.1, none⟩
  | _ => (Operator.ofSymbol? form.2).map fun operator =>
    let left := settle operator.strength outer operand
    ⟨.binary left.2 operator :: left.1, none⟩

/-- Reads one token. -/
def next? (recovery : Recovery) (form : TokenKind × String) : Option Recovery :=
  match recovery.operand with
  | none => readOperand recovery.unfinished form
  | some operand => readBehind recovery.unfinished operand form

/-- The tree that has been read when no token is left. -/
def tree? (recovery : Recovery) : Option Tree :=
  match recovery.operand.map (settle 0 recovery.unfinished) with
  | some ([], tree) => some tree
  | _ => none

/-- The shape of the tree that is written with some tokens. -/
def ofForms? (forms : List (TokenKind × String)) : Option Tree :=
  (forms.foldlM next? ⟨[], none⟩).bind tree?

theorem next?_prefix (operator : Operator) (outer : List Unfinished) :
    next? ⟨outer, none⟩ (operator.tokenKind, operator.symbol) =
      some ⟨.unary operator :: outer, none⟩ := by
  have known := Operator.ofSymbol?_symbol operator
  cases operator <;> simp only [next?, readOperand, Operator.tokenKind, known, Option.map_some]

theorem next?_infix (operator : Operator) (outer : List Unfinished) (operand : Tree) :
    next? ⟨outer, some operand⟩ (operator.tokenKind, operator.symbol) =
      some ⟨.binary (settle operator.strength outer operand).2 operator ::
        (settle operator.strength outer operand).1, none⟩ := by
  have known := Operator.ofSymbol?_symbol operator
  cases operator <;> simp only [next?, readBehind, Operator.tokenKind, known, Option.map_some]

end Recovery

/-! ## Recovering a tree from its tokens -/

open Unfinished Recovery

/-- Nothing in front of a tree claims a part of it.  Only operations and assignments have parts that
could be claimed. -/
def Undisturbed (outer : List Unfinished) : Tree → Prop
  | .binary operator .. => Looser operator.strength outer
  | .assignment .. => Looser 1 outer
  | _ => True

theorem strength_pos (operator : Operator) : 1 ≤ operator.strength := by
  cases operator <;> decide

theorem strength_lt_not {operator : Operator} (joins : operator ≠ .not) :
    operator.strength < Operator.not.strength := by
  cases operator <;> first | exact absurd rfl joins | decide

theorem Unfinished.Looser.undisturbed {bound : Nat} {outer : List Unfinished} {tree : Tree}
    (looser : Looser bound outer) (fits : bound ≤ max 1 tree.strength) :
    Undisturbed outer tree := by
  cases tree with
  | binary operator left right note =>
      have positive := strength_pos operator
      exact looser.mono (by simp only [strength] at fits; omega)
  | assignment target value note => exact looser.mono fits
  | _ => exact trivial

/-- What binds as tightly as a negation has no parts that could be claimed. -/
theorem IsLegible.undisturbed {tree : Tree} (legible : tree.IsLegible)
    (tight : Operator.not.strength ≤ tree.strength) (outer : List Unfinished) :
    Undisturbed outer tree := by
  cases legible with
  | binary joins => exact absurd tight (Nat.not_le_of_lt (strength_lt_not joins))
  | assignment => exact absurd tight (Nat.not_le_of_lt (strength_pos .not))
  | _ => exact trivial

theorem one_le_strength {tree : Tree} (single : ¬ tree.IsAssignment) : 1 ≤ tree.strength := by
  cases tree with
  | unary operator operand note => exact strength_pos operator
  | binary operator left right note => exact strength_pos operator
  | assignment target value note => exact absurd ⟨target, value, note, rfl⟩ single
  | _ => exact (by decide : 1 ≤ 255)

/-- Where an operand is missing, the tokens are read to a tree, as far as anything behind them can
tell that binds at most so tightly. -/
def RecoversTo (outer : List Unfinished) (forms : List (TokenKind × String)) (bound : Nat)
    (tree : Tree) : Prop :=
  ∃ inner operand, forms.foldlM next? ⟨outer, none⟩ = some ⟨inner, some operand⟩ ∧
    ∀ least ≤ bound, settle least inner operand = settle least outer tree

/-- Wherever nothing disturbs it, a tree is recovered from the tokens it is written with. -/
def Recovers (tree : Tree) : Prop :=
  ∀ outer, Undisturbed outer tree → RecoversTo outer tree.tokenForms tree.strength tree.bare

namespace Recovers

variable {tree left right target value : Tree} {outer : List Unfinished}

/-- What is read between parentheses or commas is complete at its end. -/
theorem exists_inside (recovers : tree.Recovers) {node : Unfinished} (opens : node.strength? = none)
    (outer : List Unfinished) : ∃ inner operand,
      tree.tokenForms.foldlM next? ⟨node :: outer, none⟩ = some ⟨inner, some operand⟩ ∧
        settle 0 inner operand = (node :: outer, tree.bare) := by
  have looser (strength : Nat) := looser_parenthesis opens strength outer
  rcases recovers (node :: outer) ((looser 0).undisturbed (Nat.zero_le _)) with
    ⟨inner, operand, run, settles⟩
  exact ⟨inner, operand, run, (settles 0 (Nat.zero_le _)).trans ((looser 0).settle_eq _)⟩

theorem foldlM_closing (recovers : tree.Recovers) {node : Unfinished}
    (opens : node.strength? = none) (outer : List Unfinished) :
    (tree.tokenForms ++ [(TokenKind.closeParenthesis, ")")]).foldlM next? ⟨node :: outer, none⟩ =
      some ⟨outer, some (node.finish tree.bare)⟩ := by
  rcases recovers.exists_inside opens outer with ⟨inner, operand, run, content⟩
  rw [List.foldlM_append, run]
  simp only [Option.bind_eq_bind, Option.bind_some, List.foldlM_cons, List.foldlM_nil, next?,
    readBehind, content, Option.pure_def]

/-- An operand is recovered with the parentheses around it, or without any where nothing disturbs
it. -/
theorem operand (recovers : tree.Recovers) {needed : Bool} {bound : Nat}
    (tight : needed = false → Undisturbed outer tree ∧ bound ≤ tree.strength) :
    RecoversTo outer (enclosed needed tree.tokenForms) bound tree.bare := by
  cases needed with
  | false =>
      rcases recovers outer (tight rfl).1 with ⟨inner, operand, run, settles⟩
      exact ⟨inner, operand, run, fun least enough =>
        settles least (Nat.le_trans enough (tight rfl).2)⟩
  | true =>
      have opening : next? ⟨outer, none⟩ (.openParenthesis, "(") =
          some ⟨.group :: outer, none⟩ := rfl
      have opens : Unfinished.group.strength? = none := rfl
      refine ⟨outer, tree.bare, ?_, fun _ _ => rfl⟩
      rw [enclosed, if_pos rfl, List.foldlM_cons, opening]
      exact recovers.foldlM_closing opens outer

theorem identifier (name : String) (note : Note) : (Tree.identifier name note).Recovers :=
  fun outer _ => ⟨outer, _, rfl, fun _ _ => rfl⟩

theorem number (literal : String) (note : Note) : (Tree.number literal note).Recovers :=
  fun outer _ => ⟨outer, _, rfl, fun _ _ => rfl⟩

theorem negation (note : Note) (legible : tree.IsLegible) (recovers : tree.Recovers) :
    (Tree.unary .not tree note).Recovers := by
  intro outer _
  have inside : RecoversTo (.unary .not :: outer)
      (enclosed (tree.strength < Operator.not.strength) tree.tokenForms) Operator.not.strength
      tree.bare := by
    apply recovers.operand
    intro tight
    have enough := Nat.le_of_not_lt (of_decide_eq_false tight)
    exact ⟨legible.undisturbed enough _, enough⟩
  rcases inside with ⟨inner, operand, run, settles⟩
  refine ⟨inner, operand, ?_, fun least enough => ?_⟩
  · rw [tokenForms, List.foldlM_cons, next?_prefix]
    exact run
  · exact (settles least enough).trans (settle_of_le rfl enough outer _)

/-- An operation is recovered from its operands.  In front of the operator everything is finished
that belongs to the left one. -/
theorem binary (operator : Operator) (note : Note) (isLeft : left.Recovers)
    (isRight : right.Recovers) : (Tree.binary operator left right note).Recovers := by
  intro outer undisturbed
  have looser : Looser operator.strength outer := undisturbed
  have front : RecoversTo outer (enclosed (left.strength < operator.strength) left.tokenForms)
      operator.strength left.bare := by
    apply isLeft.operand
    intro tight
    have enough := Nat.le_of_not_lt (of_decide_eq_false tight)
    exact ⟨looser.undisturbed (Nat.le_trans enough (Nat.le_max_right _ _)), enough⟩
  have behind : RecoversTo (.binary left.bare operator :: outer)
      (enclosed (right.strength ≤ operator.strength) right.tokenForms) operator.strength
      right.bare := by
    apply isRight.operand
    intro tight
    have more := Nat.lt_of_not_le (of_decide_eq_false tight)
    have looser' : Looser (operator.strength + 1) (.binary left.bare operator :: outer) :=
      looser_cons rfl (Nat.lt_succ_self _) outer
    exact ⟨looser'.undisturbed (Nat.le_trans more (Nat.le_max_right _ _)), Nat.le_of_lt more⟩
  rcases front with ⟨inner, operand, run, settles⟩
  have complete := (settles _ (Nat.le_refl _)).trans (looser.settle_eq left.bare)
  rcases behind with ⟨inner', operand', run', settles'⟩
  refine ⟨inner', operand', ?_, fun least enough => ?_⟩
  · rw [tokenForms, List.foldlM_append, run, Option.bind_eq_bind, Option.bind_some,
      List.foldlM_cons, next?_infix, complete]
    exact run'
  · exact (settles' least enough).trans (settle_of_le rfl enough outer _)

theorem assignment (note : Note) (single : ¬ target.IsAssignment) (isTarget : target.Recovers)
    (isValue : value.Recovers) : (Tree.assignment target value note).Recovers := by
  intro outer undisturbed
  have looser : Looser 1 outer := undisturbed
  have looser' : Looser 1 (.assignment target.bare :: outer) := looser_cons rfl Nat.one_pos outer
  rcases isTarget outer (looser.undisturbed (Nat.le_max_left _ _)) with
    ⟨inner, operand, run, settles⟩
  have complete := (settles 1 (one_le_strength single)).trans (looser.settle_eq target.bare)
  have equals : next? ⟨inner, some operand⟩ (.assign, "=") =
      some ⟨.assignment target.bare :: outer, none⟩ := by
    simp only [next?, readBehind, complete]
  rcases isValue _ (looser'.undisturbed (Nat.le_max_left _ _)) with
    ⟨inner', operand', run', settles'⟩
  refine ⟨inner', operand', ?_, fun least enough => ?_⟩
  · rw [tokenForms, List.foldlM_append, run, Option.bind_eq_bind, Option.bind_some,
      List.foldlM_cons, equals]
    exact run'
  · exact (settles' least (Nat.le_trans enough (Nat.zero_le _))).trans
      (settle_of_le rfl enough outer _)

/-- The arguments of a call are recovered one by one. -/
theorem foldlM_arguments {arguments : List Tree}
    (recover : ∀ argument ∈ arguments, argument.Recovers) (present : arguments ≠ [])
    (name : String) (earlier : List Tree) (outer : List Unfinished) :
    (tokenFormsOfAll arguments ++ [(TokenKind.closeParenthesis, ")")]).foldlM next?
        ⟨.call name earlier :: outer, none⟩ =
      some ⟨outer, some (.call name (earlier ++ bareAll arguments) noNote)⟩ := by
  have opens : (Unfinished.call name earlier).strength? = none := rfl
  match arguments with
  | [] => exact absurd rfl present
  | [argument] => exact (recover argument List.mem_cons_self).foldlM_closing opens outer
  | argument :: next :: later =>
      rw [List.forall_mem_cons] at recover
      rcases recover.1.exists_inside opens outer with ⟨inner, operand, run, content⟩
      have comma : next? ⟨inner, some operand⟩ (.comma, ",") =
          some ⟨.call name (earlier ++ [argument.bare]) :: outer, none⟩ := by
        simp only [next?, readBehind, content]
      have remaining := foldlM_arguments recover.2 (List.cons_ne_nil _ _) name
        (earlier ++ [argument.bare]) outer
      have listed : tokenFormsOfAll (argument :: next :: later) =
          argument.tokenForms ++ (.comma, ",") :: tokenFormsOfAll (next :: later) := by
        simp only [tokenFormsOfAll]
      rw [listed, List.append_assoc, List.foldlM_append, run, Option.bind_eq_bind,
        Option.bind_some, List.cons_append, List.foldlM_cons, comma, Option.bind_eq_bind,
        Option.bind_some, remaining, List.append_assoc]
      rfl

theorem call (name : String) {arguments : List Tree} (note : Note)
    (recover : ∀ argument ∈ arguments, argument.Recovers) :
    (Tree.call name arguments note).Recovers := by
  intro outer _
  refine ⟨outer, _, ?_, fun _ _ => rfl⟩
  cases arguments with
  | nil => rfl
  | cons argument later =>
      exact foldlM_arguments recover (List.cons_ne_nil _ _) name [] outer

end Recovers

/-- A legible tree is recovered from the tokens it is written with. -/
theorem IsLegible.recovers {tree : Tree} (legible : tree.IsLegible) : tree.Recovers := by
  induction legible with
  | identifier free => exact .identifier _ _
  | number spelt => exact .number _ _
  | negation isOperand inductionHypothesis => exact .negation _ isOperand inductionHypothesis
  | binary joins isLeft isRight leftHypothesis rightHypothesis =>
      exact .binary _ _ leftHypothesis rightHypothesis
  | call free areArguments inductionHypothesis => exact .call _ _ inductionHypothesis
  | assignment single isTarget isValue targetHypothesis valueHypothesis =>
      exact .assignment _ single targetHypothesis valueHypothesis

/-- The shape of a legible tree is a function of the tokens it is written with. -/
theorem IsLegible.ofForms?_tokenForms {tree : Tree} (legible : tree.IsLegible) :
    ofForms? tree.tokenForms = some tree.bare := by
  have nothing : Looser 1 [] := fun _ impossible => by cases impossible
  rcases legible.recovers [] (nothing.undisturbed (Nat.le_max_left _ _)) with
    ⟨inner, operand, run, settles⟩
  rw [ofForms?, run, Option.bind_some, tree?, Option.map_some, settles 0 (Nat.zero_le _)]
  rfl

/-- Legible trees are rendered alike exactly if they have one shape. -/
theorem render_eq_iff_bare_eq {first second : Tree} (isFirst : first.IsLegible)
    (isSecond : second.IsLegible) : first.render = second.render ↔ first.bare = second.bare := by
  constructor
  · intro same
    have recovered := isFirst.ofForms?_tokenForms
    rw [tokenForms_eq_of_render_eq isFirst isSecond same, isSecond.ofForms?_tokenForms] at recovered
    exact (Option.some.inj recovered).symm
  · exact render_eq_of_bare_eq

/-- The tree of `f() = x = !(a && b) || 3 - (4 - c) % 2 <= g(y = 1.5, !!z)`, with one note at all
nodes. -/
def crowdedAssignment (note : Note) : Tree :=
  let name (name : String) : Tree := .identifier name note
  let number (literal : String) : Tree := .number literal note
  .assignment (.call "f" [] note)
    (.assignment (name "x")
      (.binary .or (.unary .not (.binary .and (name "a") (name "b") note) note)
        (.binary .lessOrEqual
          (.binary .subtract (number "3")
            (.binary .remainder (.binary .subtract (number "4") (name "c") note) (number "2") note)
            note)
          (.call "g" [.assignment (name "y") (number "1.5") note,
            .unary .not (.unary .not (name "z") note) note] note) note) note) note) note

theorem isLegible_crowdedAssignment (note : Note) : (crowdedAssignment note).IsLegible := by
  have free : ∀ name ∈ ["f", "x", "a", "b", "c", "g", "y", "z"], Spelling.IsFreeName name := by
    intro name listed
    simp only [List.mem_cons, List.not_mem_nil, or_false] at listed
    rcases listed with rfl | rfl | rfl | rfl | rfl | rfl | rfl | rfl <;>
      exact ⟨by decide, by decide, by decide⟩
  have single {tree : Tree} (positive : tree.strength ≠ 0) : ¬ tree.IsAssignment := by
    rintro ⟨target, value, note, rfl⟩
    exact positive rfl
  have default : (Tree.assignment (.identifier "y" note) (.number "1.5" note) note).IsLegible :=
    .assignment (single (Nat.succ_ne_zero 254)) (.identifier (free "y" (by decide)))
      (.number (by decide))
  have twice : (Tree.unary .not (.unary .not (.identifier "z" note) note) note).IsLegible :=
    .negation (.negation (.identifier (free "z" (by decide))))
  have either : (Tree.unary .not
      (.binary .and (.identifier "a" note) (.identifier "b" note) note) note).IsLegible :=
    .negation (.binary (by decide) (.identifier (free "a" (by decide)))
      (.identifier (free "b" (by decide))))
  refine .assignment (single (Nat.succ_ne_zero 254))
    (.call (free "f" (by decide)) (List.forall_mem_nil _)) ?_
  refine .assignment (single (Nat.succ_ne_zero 254)) (.identifier (free "x" (by decide))) ?_
  refine .binary (by decide) either (.binary (by decide) ?_ (.call (free "g" (by decide))
    (List.forall_mem_cons.mpr ⟨default, List.forall_mem_singleton.mpr twice⟩)))
  exact .binary (by decide) (.number (by decide))
    (.binary (by decide)
      (.binary (by decide) (.number (by decide)) (.identifier (free "c" (by decide))))
      (.number (by decide)))

/-- Where the nodes of the assignment stood in the source cannot be seen in its text. -/
theorem crowdedAssignment_shape :
    let first := crowdedAssignment ⟨⟨1, 2⟩, none⟩
    let second := crowdedAssignment ⟨⟨3, 4⟩, some .decimal⟩
    first.render = "f() = x = !(a && b) || 3 - (4 - c) % 2 <= g(y = 1.5, !!z)" ∧
      second.render = first.render ∧ second.bare = first.bare := by
  have same : (crowdedAssignment ⟨⟨3, 4⟩, some .decimal⟩).render =
      (crowdedAssignment ⟨⟨1, 2⟩, none⟩).render := by decide
  exact ⟨by decide, same, (render_eq_iff_bare_eq (isLegible_crowdedAssignment _)
    (isLegible_crowdedAssignment _)).mp same⟩

end Tree
end ExpressionChecker

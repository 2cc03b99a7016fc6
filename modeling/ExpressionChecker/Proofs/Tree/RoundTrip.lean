import ExpressionChecker.Proofs.Grammar.Acceptance
import ExpressionChecker.Proofs.Text.Nesting
import ExpressionChecker.Proofs.Tree.Written

namespace ExpressionChecker

/-!
# Rendered statements are read back

The text of a statement is read as a statement of the same shape.  What the text is read as is
known, so it remains to follow the tokens of an expression through an assembly.  An expression that
binds loosely needs an assembly at which nothing waits that would claim a part of it, and it must
not be followed by what would claim its last operand; the parentheses of a rendering stand exactly
where one of this could happen.
-/

open Grammar

/-! ## Tokens of given forms -/

namespace Token

theorem exists_of_form_cons {tokens : List Token} {kind : TokenKind} {lexeme : String}
    {forms : List (TokenKind × String)} (same : tokens.map form = (kind, lexeme) :: forms) :
    ∃ token later, tokens = token :: later ∧ token.kind = kind ∧ token.lexeme = lexeme ∧
      later.map form = forms := by
  rcases List.map_eq_cons_iff.mp same with ⟨token, later, rfl, isForm, behind⟩
  rw [form, Prod.mk.injEq] at isForm
  exact ⟨token, later, rfl, isForm.1, isForm.2, behind⟩

theorem exists_of_form_enclosed {tokens : List Token} {forms : List (TokenKind × String)}
    (same : tokens.map form = Tree.enclosed true forms) :
    ∃ opening inside closing, tokens = opening :: (inside ++ [closing]) ∧
      opening.kind = .openParenthesis ∧ closing.kind = .closeParenthesis ∧
      inside.map form = forms := by
  rcases exists_of_form_cons same with ⟨opening, later, rfl, opens, _, behind⟩
  rcases List.map_eq_append_iff.mp behind with ⟨inside, last, rfl, isInside, isLast⟩
  rcases exists_of_form_cons isLast with ⟨closing, nothing, rfl, closes, _, ends⟩
  cases List.map_eq_nil_iff.mp ends
  exact ⟨opening, inside, closing, rfl, opens, closes, isInside⟩

end Token

namespace Tree

open Assembly

/-! ## Where an expression can stand -/

/-- Nothing waits at the level that would claim a part of an expression of the given strength. -/
structure Suits (strength : Nat) (level : Level) : Prop where
  noProduct : strength ≤ 6 → level.product = none
  noSum : strength ≤ 5 → level = .empty

/-- The tokens do not go on with what would claim the end of an expression of the given
strength. -/
structure Releases (strength : Nat) (rest : List Token) : Prop where
  endsFactor : EndsFactor rest
  endsProduct : strength ≤ 5 → EndsProduct rest

/-- Tokens of the given forms, where nothing claims a part of them, are read to an operand of the
shape of `tree`.  Inside of them at most `depth` further parentheses are open. -/
def Reads (limits : Limits) (strength depth : Nat) (forms : List (TokenKind × String))
    (tree : Tree) : Prop :=
  ∀ (tokens rest : List Token) (level : Level) (brackets : List Bracket) (operators : Nat)
    (previous : Option Token), tokens.map Token.form = forms → Suits strength level →
    Releases strength rest → brackets.length + depth ≤ limits.depth →
    operators + tree.operatorCount ≤ limits.operators →
    ∃ tree' previous', tree'.bare = tree.bare ∧
      readAll limits ⟨level, .missing, brackets, operators, previous⟩ (tokens ++ rest) =
        readAll limits ⟨level, .complete tree', brackets, operators + tree.operatorCount,
          previous'⟩ rest

namespace Reads

variable {limits : Limits} {strength depth depth' : Nat}
  {forms forms' : List (TokenKind × String)} {tree left right : Tree} {note : Note}

/-- What can be read anywhere can be read where less could interfere. -/
theorem weaken {least : Nat} (weaker : least ≤ strength)
    (reads : Reads limits strength depth forms tree) : Reads limits least depth forms tree := by
  intro tokens rest level brackets operators previous same suits releases
  apply reads tokens rest level brackets operators previous same
  · exact ⟨fun loose => suits.noProduct (by omega), fun loose => suits.noSum (by omega)⟩
  · exact ⟨releases.endsFactor, fun loose => releases.endsProduct (by omega)⟩

/-- What leaves fewer parentheses open keeps to the limit where more may be open. -/
theorem deepen (more : depth ≤ depth') (reads : Reads limits strength depth forms tree) :
    Reads limits strength depth' forms tree := by
  intro tokens rest level brackets operators previous same suits releases shallow
  exact reads tokens rest level brackets operators previous same suits releases
    (Nat.le_trans (Nat.add_le_add_left more _) shallow)

theorem identifier (name : String) :
    Reads limits 255 0 [(.name, name)] (.identifier name note) := by
  intro tokens rest level brackets operators previous same suits releases shallow few
  rcases Token.exists_of_form_cons same with ⟨token, later, rfl, named, rfl, behind⟩
  cases List.map_eq_nil_iff.mp behind
  refine ⟨.identifier token.lexeme ⟨token.position, none⟩, some token, rfl, ?_⟩
  rw [List.singleton_append, readAll_name named, readAll_identifier releases.endsFactor]
  rfl

theorem number (literal : String) :
    Reads limits 255 0 [(.number, literal)] (.number literal note) := by
  intro tokens rest level brackets operators previous same suits releases shallow few
  rcases Token.exists_of_form_cons same with ⟨token, later, rfl, numeric, rfl, behind⟩
  cases List.map_eq_nil_iff.mp behind
  refine ⟨.number token.lexeme ⟨token.position, none⟩, some token, rfl, ?_⟩
  rw [List.singleton_append, readAll_number numeric]
  rfl

/-- What stands between parentheses is read at a level of its own. -/
theorem inside (reads : Reads limits strength depth forms tree) (tokens rest : List Token)
    {closing : Token} (brackets : List Bracket) {operators : Nat} (previous : Option Token)
    (same : tokens.map Token.form = forms) (closes : closing.kind = .closeParenthesis)
    (shallow : brackets.length + depth ≤ limits.depth)
    (few : operators + tree.operatorCount ≤ limits.operators) :
    ∃ tree' previous', tree'.bare = tree.bare ∧
      readAll limits ⟨.empty, .missing, brackets, operators, previous⟩
          (tokens ++ closing :: rest) =
        readAll limits ⟨.empty, .complete tree', brackets, operators + tree.operatorCount,
          previous'⟩ (closing :: rest) := by
  have ends : EndsProduct (closing :: rest) := (endsSum_closing closes).endsProduct
  exact reads tokens (closing :: rest) .empty brackets operators previous same
    ⟨fun _ => rfl, fun _ => rfl⟩ ⟨ends.endsFactor, fun _ => ends⟩ shallow few

/-- Parentheses make a factor of any expression. -/
theorem enclose (reads : Reads limits strength depth forms tree) :
    Reads limits 255 (depth + 1) (enclosed true forms) tree := by
  intro tokens rest level brackets operators previous same suits releases shallow few
  rcases Token.exists_of_form_enclosed same with
    ⟨opening, content, closing, rfl, opens, closes, isContent⟩
  have deeper : (⟨.group, level⟩ :: brackets : List Bracket).length + depth ≤ limits.depth := by
    rw [List.length_cons]
    omega
  rcases reads.inside content rest _ (some opening) isContent closes deeper few with
    ⟨tree', previous', shape, contentRead⟩
  refine ⟨tree', some closing, shape, ?_⟩
  rw [List.cons_append, List.append_assoc, List.singleton_append,
    readAll_group opens (by omega), contentRead, readAll_close closes]
  rfl

/-- A name in front of the parentheses makes a call of them. -/
theorem call (name : String) (reads : Reads limits strength depth forms tree) :
    Reads limits 255 (depth + 1) ((.name, name) :: enclosed true forms)
      (.call name [tree] note) := by
  intro tokens rest level brackets operators previous same suits releases shallow few
  rcases Token.exists_of_form_cons same with ⟨callee, later, rfl, named, rfl, behind⟩
  rcases Token.exists_of_form_enclosed behind with
    ⟨opening, content, closing, rfl, opens, closes, isContent⟩
  have deeper : (⟨.call callee.lexeme callee.position, level⟩ :: brackets : List Bracket).length +
      depth ≤ limits.depth := by
    rw [List.length_cons]
    omega
  simp only [operatorCount, operatorCountOfAll, Nat.add_zero] at few ⊢
  rcases reads.inside content rest _ (some opening) isContent closes deeper few with
    ⟨tree', previous', shape, contentRead⟩
  refine ⟨.call callee.lexeme [tree'] ⟨callee.position, none⟩, some closing, ?_, ?_⟩
  · rw [bare_call, bare_call, bareAll_cons, bareAll_cons, shape]
  · rw [List.cons_append, List.cons_append, List.append_assoc, List.singleton_append,
      readAll_name named, readAll_call opens (by omega), contentRead, readAll_close closes]
    rfl

/-- An operand is read where its operator needs it, in parentheses if it binds too loosely. -/
theorem operand {least : Nat} (reads : Reads limits strength depth forms tree) (needed : Bool)
    (factor : least ≤ 255) (enough : needed = false → least ≤ strength) :
    Reads limits least (if needed then depth + 1 else depth) (enclosed needed forms) tree := by
  cases needed with
  | false => exact reads.weaken (enough rfl)
  | true => exact reads.enclose.weaken factor

theorem multiplicative {operator : Operator} (joins : JoinsFactors operator)
    (isLeft : Reads limits 6 depth forms left) (isRight : Reads limits 7 depth' forms' right) :
    Reads limits 6 (max depth depth') (forms ++ (.arithmetic, operator.symbol) :: forms')
      (.binary operator left right note) := by
  intro tokens rest level brackets operators previous same suits releases shallow few
  rcases List.map_eq_append_iff.mp same with ⟨leftTokens, behind, rfl, sameLeft, sameBehind⟩
  rcases Token.exists_of_form_cons sameBehind with
    ⟨token, rightTokens, rfl, arithmetic, symbol, sameRight⟩
  have spelt : Spells token operator := ⟨arithmetic, symbol⟩
  have fresh := suits.noProduct (Nat.le_refl 6)
  simp only [operatorCount] at few ⊢
  rcases isLeft leftTokens (token :: (rightTokens ++ rest)) level brackets operators previous
    sameLeft suits ⟨spelt.endsFactor _, by omega⟩ (by omega) (by omega) with
    ⟨left', leftPrevious, leftShape, leftRead⟩
  rcases isRight rightTokens rest (level.multiplied left' operator token.position) brackets
    (operators + left.operatorCount + 1) (some token) sameRight ⟨by omega, by omega⟩
    ⟨releases.endsFactor, by omega⟩ (by omega) (by omega) with
    ⟨right', rightPrevious, rightShape, rightRead⟩
  refine ⟨.binary operator left' right' ⟨token.position, none⟩, rightPrevious, ?_, ?_⟩
  · rw [bare_binary, bare_binary, leftShape, rightShape]
  · rw [List.append_assoc, List.cons_append, leftRead,
      readAll_multiplicative spelt joins (by omega), rightRead, readAll_multiplied fresh]
    simp only [Nat.add_assoc]

theorem additive {operator : Operator} (joins : JoinsProducts operator)
    (isLeft : Reads limits 5 depth forms left) (isRight : Reads limits 6 depth' forms' right) :
    Reads limits 5 (max depth depth') (forms ++ (.arithmetic, operator.symbol) :: forms')
      (.binary operator left right note) := by
  intro tokens rest level brackets operators previous same suits releases shallow few
  rcases List.map_eq_append_iff.mp same with ⟨leftTokens, behind, rfl, sameLeft, sameBehind⟩
  rcases Token.exists_of_form_cons sameBehind with
    ⟨token, rightTokens, rfl, arithmetic, symbol, sameRight⟩
  have spelt : Spells token operator := ⟨arithmetic, symbol⟩
  have ends := releases.endsProduct (Nat.le_refl 5)
  cases suits.noSum (Nat.le_refl 5)
  simp only [operatorCount] at few ⊢
  rcases isLeft leftTokens (token :: (rightTokens ++ rest)) .empty brackets operators previous
    sameLeft suits ⟨spelt.endsFactor _, fun _ => spelt.endsProduct joins _⟩ (by omega)
    (by omega) with ⟨left', leftPrevious, leftShape, leftRead⟩
  rcases isRight rightTokens rest (Level.empty.added left' operator token.position) brackets
    (operators + left.operatorCount + 1) (some token) sameRight ⟨fun _ => rfl, by omega⟩
    ⟨releases.endsFactor, by omega⟩ (by omega) (by omega) with
    ⟨right', rightPrevious, rightShape, rightRead⟩
  refine ⟨.binary operator left' right' ⟨token.position, none⟩, rightPrevious, ?_, ?_⟩
  · rw [bare_binary, bare_binary, leftShape, rightShape]
  · rw [List.append_assoc, List.cons_append, leftRead, readAll_additive spelt joins (by omega),
      rightRead, readAll_added ends]
    simp only [Nat.add_assoc]

end Reads

/-! ## Written expressions -/

/-- A word adds nothing if neither parenthesis could begin it or continue it. -/
theorem adds_word {word run : List Char} {c : Char} (begins continues : Char → Prop)
    (outside : ¬ (begins '(' ∨ begins ')' ∨ continues '(' ∨ continues ')'))
    (whole : word = c :: run) (first : begins c) (later : ∀ c' ∈ run, continues c') :
    Text.Adds 0 word := by
  rw [whole]
  apply Text.Adds.of_plain
  rw [List.forall_mem_cons]
  constructor
  · constructor
    · rintro rfl
      exact outside (Or.inl first)
    · rintro rfl
      exact outside (Or.inr (Or.inl first))
  · intro c' inside
    constructor
    · rintro rfl
      exact outside (Or.inr (Or.inr (Or.inl (later _ inside))))
    · rintro rfl
      exact outside (Or.inr (Or.inr (Or.inr (later _ inside))))

theorem adds_name {name : String} (free : Spelling.IsFreeName name) :
    Text.Adds 0 name.toList := by
  rcases Spelling.isName_run free.spelt with ⟨c, run, whole, begins, continues⟩
  exact adds_word (fun c => c.isAlpha = true ∨ c = '_') (fun c => c.isAlphanum = true ∨ c = '_')
    (by decide) whole begins continues

theorem adds_number {literal : String} (spelt : Spelling.isNumber literal.toList = true) :
    Text.Adds 0 literal.toList := by
  rcases Spelling.isNumber_run spelt with ⟨c, run, whole, digit, continues⟩
  exact adds_word (fun c => c.isDigit = true) (fun c => Reading.continuesNumber c = true)
    (by decide) whole digit continues

theorem adds_parenthesized {text : String} {depth : Nat} (adds : Text.Adds depth text.toList)
    (needed : Bool) :
    Text.Adds (if needed then depth + 1 else depth) (parenthesized needed text).toList := by
  cases needed with
  | false => exact adds
  | true =>
      have whole := toList_parenthesized text []
      rw [List.append_nil] at whole
      rw [whole]
      exact adds.enclose

theorem adds_binary {operator : Operator} {left right : Tree} {depth depth' : Nat} (note : Note)
    (isLeft : Text.Adds depth
      (parenthesized (left.strength < operator.strength) left.render).toList)
    (isRight : Text.Adds depth'
      (parenthesized (right.strength ≤ operator.strength) right.render).toList) :
    Text.Adds (max depth depth') (Tree.binary operator left right note).render.toList := by
  have plain : Text.Adds 0 (' ' :: (operator.symbol.toList ++ [' '])) := by
    apply Text.Adds.of_plain
    cases operator <;> simp [Operator.symbol]
  have whole := toList_render_binary operator left right note []
  have adds := isLeft.append (plain.append isRight)
  rw [Nat.zero_max] at adds
  rw [List.append_nil] at whole
  simpa only [whole, List.cons_append, List.append_assoc, List.nil_append, List.append_nil]
    using adds

/-- The tokens that an expression is written with are read to an expression of its shape, and no
more parentheses are open than in its text. -/
theorem Written.reads (limits : Limits) {tree : Tree} {forms : List (TokenKind × String)}
    (written : Written tree forms) :
    ∃ depth, Text.Adds depth tree.render.toList ∧
      Reads limits tree.strength depth forms tree := by
  induction written with
  | @identifier name note free => exact ⟨0, adds_name free, .identifier name⟩
  | @number literal note spelt => exact ⟨0, adds_number spelt, .number literal⟩
  | @binary operator left right note leftForms rightForms joins isLeft isRight leftHypothesis
      rightHypothesis =>
      rcases leftHypothesis with ⟨depth, leftAdds, leftReads⟩
      rcases rightHypothesis with ⟨depth', rightAdds, rightReads⟩
      refine ⟨_, adds_binary note (adds_parenthesized leftAdds _)
        (adds_parenthesized rightAdds _), ?_⟩
      -- Where the rendering leaves the parentheses out, the operand is strong enough: at least as
      -- strong as the operator on the left, and stronger on the right.
      have leftOperand := leftReads.operand (left.strength < operator.strength)
        (show operator.strength ≤ 255 by cases operator <;> decide)
        (fun tight => Nat.le_of_not_lt (of_decide_eq_false tight))
      have rightOperand := rightReads.operand (right.strength ≤ operator.strength)
        (show operator.strength + 1 ≤ 255 by cases operator <;> decide)
        (fun tight => Nat.lt_of_not_le (of_decide_eq_false tight))
      rcases joins with (rfl | rfl) | (rfl | rfl)
      · exact .multiplicative (Or.inl rfl) leftOperand rightOperand
      · exact .multiplicative (Or.inr rfl) leftOperand rightOperand
      · exact .additive (Or.inl rfl) leftOperand rightOperand
      · exact .additive (Or.inr rfl) leftOperand rightOperand
  | @call name argument note forms free isArgument inductionHypothesis =>
      rcases inductionHypothesis with ⟨depth, adds, reads⟩
      refine ⟨depth + 1, ?_, .call name reads⟩
      have whole := toList_render_call name argument note []
      rw [List.append_nil, List.append_nil] at whole
      rw [whole]
      have adds' := (adds_name free).append (adds_parenthesized adds true)
      rwa [Nat.zero_max] at adds'

/-! ## Statements -/

/-- The text of an expression is read, in front of the end of the input, to an expression of its
shape. -/
theorem IsExpression.readAll_stream {limits : Limits} {tree : Tree}
    (isExpression : tree.IsExpression) (shallow : Text.nesting tree.render ≤ limits.depth)
    (few : tree.operatorCount ≤ limits.operators) (previous : Option Token) {tokens : List Token}
    (same : tokens.map Token.form = Token.forms tree.render.toList) :
    ∃ tree', readAll limits (.start previous) tokens = .ok tree' ∧ tree'.bare = tree.bare := by
  rcases isExpression.exists_written with ⟨forms, written⟩
  rcases written.reads limits with ⟨depth, adds, reads⟩
  have atEnd : Token.EndsWord [] := fun _ impossible => absurd impossible (by simp)
  have whole := written.forms_render atEnd
  rw [List.append_nil, Token.forms_nil] at whole
  rcases List.map_eq_append_iff.mp (same.trans whole) with ⟨inside, last, rfl, isInside, isLast⟩
  rcases Token.exists_of_form_cons isLast with ⟨endToken, nothing, rfl, ends, _, isNothing⟩
  cases List.map_eq_nil_iff.mp isNothing
  have endsStatement : EndsStatement [endToken] := by
    intro first isFirst
    cases Option.mem_some_iff.mp isFirst
    exact Or.inr ends
  have endsProduct := endsStatement.endsSum.endsProduct
  rw [Text.nesting, adds.nestingFrom_zero] at shallow
  rcases reads inside [endToken] .empty [] 0 previous isInside ⟨fun _ => rfl, fun _ => rfl⟩
    ⟨endsProduct.endsFactor, fun _ => endsProduct⟩ (by simpa using shallow) (by simpa using few)
    with ⟨tree', previous', shape, read⟩
  exact ⟨tree', read.trans (readAll_end endsStatement), shape⟩

theorem toList_render_assignment (name : String) (note note' : Note) (value : Tree) :
    (Tree.assignment (.identifier name note) value note').render.toList =
      name.toList ++ (' ' :: '=' :: ' ' :: value.render.toList) := by
  simp only [render, String.toList_append, List.append_assoc]
  rfl

/-- An assignment to a name is read as the name, an equals sign and the value. -/
theorem forms_assignment {name : String} (free : Spelling.IsFreeName name) (note note' : Note)
    (value : Tree) :
    Token.forms (Tree.assignment (.identifier name note) value note').render.toList =
      (.name, name) :: (.assign, "=") :: Token.forms value.render.toList := by
  have listed : ('=', TokenKind.assign) ∈ punctuation := by decide
  rw [toList_render_assignment, Token.forms_name free (Token.endsWord_cons (Or.inl rfl) _),
    Token.forms_blank (by decide), Token.forms_spaced listed]

/-- The target of an assignment adds no parentheses. -/
theorem nesting_assignment {name : String} (free : Spelling.IsFreeName name) (note note' : Note)
    (value : Tree) :
    Text.nesting (Tree.assignment (.identifier name note) value note').render =
      Text.nesting value.render := by
  have plain : Text.Adds 0 [' ', '=', ' '] := .of_plain (by simp)
  have front := (adds_name free).append plain 0 value.render.toList
  rw [Text.nesting, toList_render_assignment, Text.nesting]
  simpa only [List.append_assoc, List.cons_append, List.nil_append, Nat.max_self, Nat.add_zero,
    Nat.zero_max] using front

/-- The text of a statement is read to a statement of its shape under all limits that allow its
operators and its parentheses.  What has been read is rendered as the same text again. -/
theorem ofTokens_stream_render {limits : Limits} {tree : Tree} (isStatement : tree.IsStatement)
    (few : tree.operatorCount ≤ limits.operators)
    (shallow : Text.nesting tree.render ≤ limits.depth) :
    ∃ tree', ofTokens limits (Token.stream tree.render) = .ok tree' ∧ tree'.bare = tree.bare ∧
      tree'.render = tree.render := by
  have same := Token.stream_forms tree.render
  cases isStatement with
  | expression isExpression =>
      rcases isExpression.readAll_stream shallow few none same with ⟨tree', read, shape⟩
      exact ⟨tree', ofTokens_of_readAll read, shape, render_eq_of_bare_eq shape⟩
  | @assignment name note note' value free isExpression =>
      rw [forms_assignment free] at same
      rw [nesting_assignment free] at shallow
      simp only [operatorCount, Nat.zero_add] at few
      rcases Token.exists_of_form_cons same with ⟨target, behind, tokens, named, rfl, later⟩
      rcases Token.exists_of_form_cons later with ⟨equals, rest, rfl, assigns, _, isValue⟩
      rcases isExpression.readAll_stream shallow few (some equals) isValue with
        ⟨value', read, shape⟩
      have shape' : (Tree.assignment (.identifier target.lexeme ⟨target.position, none⟩) value'
          ⟨equals.position, none⟩).bare =
          (Tree.assignment (.identifier target.lexeme note) value note').bare := by
        rw [bare_assignment, bare_assignment, shape, bare_identifier, bare_identifier]
      refine ⟨_, ?_, shape', render_eq_of_bare_eq shape'⟩
      rw [tokens, ofTokens, if_pos ⟨named, assigns⟩, read]
      rfl

/-- The tree of `x = a - (b - c) * sqrt(2.5)`, with notes that it did not get from a text. -/
def mixedStatement : Tree :=
  let note : Note := ⟨⟨7, 7⟩, some .decimal⟩
  .assignment (.identifier "x" note)
    (.binary .subtract (.identifier "a" note)
      (.binary .multiply (.binary .subtract (.identifier "b" note) (.identifier "c" note) note)
        (.call "sqrt" [.number "2.5" note] note) note) note) note

/-- The statement has exactly three operators and parentheses that are nested once. -/
theorem ofTokens_stream_mixedStatement :
    mixedStatement.render = "x = a - (b - c) * sqrt(2.5)" ∧
      ∃ tree', ofTokens ⟨1, 3⟩ (Token.stream mixedStatement.render) = .ok tree' ∧
        tree'.bare = mixedStatement.bare ∧ tree'.render = mixedStatement.render := by
  have free : ∀ name ∈ ["x", "a", "b", "c", "sqrt"], Spelling.IsFreeName name := by
    intro name listed
    simp only [List.mem_cons, List.not_mem_nil, or_false] at listed
    rcases listed with rfl | rfl | rfl | rfl | rfl <;> exact ⟨by decide, by decide, by decide⟩
  have isStatement : mixedStatement.IsStatement :=
    .assignment (free "x" (by decide))
      (.binary (Or.inr (Or.inr rfl)) (.identifier (free "a" (by decide)))
        (.binary (Or.inl (Or.inl rfl))
          (.binary (Or.inr (Or.inr rfl)) (.identifier (free "b" (by decide)))
            (.identifier (free "c" (by decide))))
          (.call (free "sqrt" (by decide)) (.number (by decide)))))
  exact ⟨by decide, ofTokens_stream_render isStatement (by decide) (by decide)⟩

end Tree
end ExpressionChecker

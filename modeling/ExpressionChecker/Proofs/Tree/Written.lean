import ExpressionChecker.Proofs.Grammar
import ExpressionChecker.Proofs.Spelling
import ExpressionChecker.Proofs.Token.Forms
import ExpressionChecker.Proofs.Tree.Shape

namespace ExpressionChecker

/-!
# The tokens that an expression is written with

The trees that source text can stand for are expressions of names, numbers, the four operators and
calls with one argument, and assignments of an expression to a name.  Such a tree is rendered as
the text of certain tokens, and these can be listed without looking at any text: the text of a name
or a number ends where the rendering goes on, and no operator runs together with what follows it.
-/

open Grammar (JoinsProducts JoinsFactors)

/-- The kind of the tokens that an operator is written with. -/
def Operator.tokenKind : Operator → TokenKind
  | add | subtract | multiply | divide | remainder => .arithmetic
  | less | greater | lessOrEqual | greaterOrEqual | equal | notEqual => .relational
  | and | or | not => .logical

namespace Tree

/-- The expressions that source text can stand for. -/
inductive IsExpression : Tree → Prop where
  | identifier {name : String} {note : Note} (free : Spelling.IsFreeName name) :
      IsExpression (.identifier name note)
  | number {literal : String} {note : Note} (spelt : Spelling.isNumber literal.toList = true) :
      IsExpression (.number literal note)
  | binary {operator : Operator} {left right : Tree} {note : Note}
      (joins : JoinsFactors operator ∨ JoinsProducts operator) (isLeft : IsExpression left)
      (isRight : IsExpression right) : IsExpression (.binary operator left right note)
  | call {name : String} {argument : Tree} {note : Note} (free : Spelling.IsFreeName name)
      (isArgument : IsExpression argument) : IsExpression (.call name [argument] note)

/-- The statements that source text can stand for. -/
inductive IsStatement : Tree → Prop where
  | expression {tree : Tree} (isExpression : IsExpression tree) : IsStatement tree
  | assignment {name : String} {note note' : Note} {value : Tree}
      (free : Spelling.IsFreeName name) (isExpression : IsExpression value) :
      IsStatement (.assignment (.identifier name note) value note')

/-! ## Forms -/

/-- Puts the forms of parentheses around forms where they are needed. -/
def enclosed (needed : Bool) (forms : List (TokenKind × String)) : List (TokenKind × String) :=
  if needed then (.openParenthesis, "(") :: (forms ++ [(.closeParenthesis, ")")]) else forms

/-- The tree is an expression, and `forms` are the forms of the tokens it is written with. -/
inductive Written : Tree → List (TokenKind × String) → Prop where
  | identifier {name : String} {note : Note} (free : Spelling.IsFreeName name) :
      Written (.identifier name note) [(.name, name)]
  | number {literal : String} {note : Note} (spelt : Spelling.isNumber literal.toList = true) :
      Written (.number literal note) [(.number, literal)]
  | binary {operator : Operator} {left right : Tree} {note : Note}
      {leftForms rightForms : List (TokenKind × String)}
      (joins : JoinsFactors operator ∨ JoinsProducts operator) (isLeft : Written left leftForms)
      (isRight : Written right rightForms) :
      Written (.binary operator left right note)
        (enclosed (left.strength < operator.strength) leftForms ++
          (.arithmetic, operator.symbol) ::
            enclosed (right.strength ≤ operator.strength) rightForms)
  | call {name : String} {argument : Tree} {note : Note} {forms : List (TokenKind × String)}
      (free : Spelling.IsFreeName name) (isArgument : Written argument forms) :
      Written (.call name [argument] note) ((.name, name) :: enclosed true forms)

theorem IsExpression.exists_written {tree : Tree} (isExpression : tree.IsExpression) :
    ∃ forms, tree.Written forms := by
  induction isExpression with
  | identifier free => exact ⟨_, .identifier free⟩
  | number spelt => exact ⟨_, .number spelt⟩
  | binary joins isLeft isRight leftHypothesis rightHypothesis =>
      rcases leftHypothesis with ⟨leftForms, left⟩
      rcases rightHypothesis with ⟨rightForms, right⟩
      exact ⟨_, .binary joins left right⟩
  | call free isArgument inductionHypothesis =>
      rcases inductionHypothesis with ⟨forms, argument⟩
      exact ⟨_, .call free argument⟩

end Tree

/-! ## Tokens in front of a text -/

namespace Token

open Spelling

/-- The text goes on with a character that ends a name and a number. -/
def EndsWord (rest : List Char) : Prop :=
  ∀ c ∈ rest.head?, c = ' ' ∨ c = '(' ∨ c = ')'

theorem endsWord_cons {c : Char} (ends : c = ' ' ∨ c = '(' ∨ c = ')') (rest : List Char) :
    EndsWord (c :: rest) := by
  intro first isFirst
  cases Option.mem_some_iff.mp isFirst
  exact ends

/-- Words and numbers start tokens. -/
theorem startsToken_of_isAlphanum {c : Char} (alphanumeric : c.isAlphanum = true)
    (rest : List Char) : Layout.StartsToken (c :: rest) := by
  have notSlash : c ≠ '/' := by
    rintro rfl
    cases alphanumeric
  exact Layout.startsToken_cons (isBlank_of_isAlphanum alphanumeric) notSlash rest

/-- A name is read wherever it is not followed by what would continue the word. -/
theorem forms_name_of_stops {name : String} (free : IsFreeName name) {rest : List Char}
    (stops : ∀ c ∈ rest.head?, Reading.continuesWord c = false) :
    forms (name.toList ++ rest) = (.name, name) :: forms rest := by
  rcases isName_run free.spelt with ⟨c, run, whole, begins, continues⟩
  have same : String.ofList (c :: run) = name := by rw [← whole, String.ofList_toList]
  have alphabetic : Text.isAlphabetic c = true ∨ c = '_' := begins.imp_left isAlphabetic_of_isAlpha
  have longest : LongestRun Reading.continuesWord run rest :=
    ⟨fun c' inside => continuesWord_of_ascii (continues c' inside), stops⟩
  have spelling : WordKind (c :: run) .name := by
    refine .name ?_ ?_ (isName_iff.mp (whole ▸ free.spelt))
    · exact same ▸ free.notKeyword
    · exact same ▸ free.notTruthValue
  have starts : Layout.StartsToken (c :: run ++ rest) := by
    rcases begins with letter | rfl
    · exact startsToken_of_isAlphanum (by rw [Char.isAlphanum, letter, Bool.true_or]) _
    · exact Layout.startsToken_cons (by decide) (by decide) _
  have front := forms_munch starts (.word alphabetic longest spelling) rfl
  rwa [same, ← whole] at front

theorem forms_name {name : String} (free : IsFreeName name) {rest : List Char}
    (ends : EndsWord rest) : forms (name.toList ++ rest) = (.name, name) :: forms rest := by
  apply forms_name_of_stops free
  intro c first
  rcases ends c first with rfl | rfl | rfl <;> decide

/-- A number is read wherever it is not followed by what would continue it. -/
theorem forms_number_of_stops {literal : String} (spelt : isNumber literal.toList = true)
    {rest : List Char} (stops : ∀ c ∈ rest.head?, Reading.continuesNumber c = false) :
    forms (literal.toList ++ rest) = (.number, literal) :: forms rest := by
  rcases isNumber_run spelt with ⟨c, run, whole, digit, continues⟩
  have same : String.ofList (c :: run) = literal := by rw [← whole, String.ofList_toList]
  have longest : LongestRun (fun c => c.isDigit || c ∈ ['.', 'e', 'E', '+', '-']) run rest := by
    rw [← Reading.continuesNumber_eq]
    exact ⟨continues, stops⟩
  have spelling : NumberKind (c :: run) .number := .number (whole ▸ spelt)
  have starts : Layout.StartsToken (c :: run ++ rest) :=
    startsToken_of_isAlphanum (by rw [Char.isAlphanum, digit, Bool.or_true]) _
  have front := forms_munch starts (.number (isDigit_iff.mp digit) longest spelling) rfl
  rwa [same, ← whole] at front

theorem forms_number {literal : String} (spelt : isNumber literal.toList = true)
    {rest : List Char} (ends : EndsWord rest) :
    forms (literal.toList ++ rest) = (.number, literal) :: forms rest := by
  apply forms_number_of_stops spelt
  intro c first
  rcases ends c first with rfl | rfl | rfl <;> decide

theorem forms_single {c : Char} {kind : TokenKind} {rest : List Char}
    (listed : (c, kind) ∈ punctuation) (starts : Layout.StartsToken (c :: rest))
    (unpaired : Unpaired c rest) : forms (c :: rest) = (kind, String.ofList [c]) :: forms rest := by
  have table : ∀ entry ∈ punctuation, entry.2.endsStream = false := by decide
  exact forms_munch starts (.single listed unpaired) (table _ listed)

/-- A parenthesis is never part of a longer token. -/
theorem forms_parenthesis {c : Char} {kind : TokenKind} (listed : (c, kind) ∈ punctuation)
    (parenthesis : c = '(' ∨ c = ')') (rest : List Char) :
    forms (c :: rest) = (kind, String.ofList [c]) :: forms rest := by
  have unpaired : Unpaired c rest := by
    intro second _ kind' pair
    rcases parenthesis with rfl | rfl <;> simp [operatorPairs] at pair
  have starts : Layout.StartsToken (c :: rest) := by
    rcases parenthesis with rfl | rfl <;> exact Layout.startsToken_cons (by decide) (by decide) rest
  exact forms_single listed starts unpaired

theorem forms_open (rest : List Char) :
    forms ('(' :: rest) = (.openParenthesis, "(") :: forms rest :=
  forms_parenthesis (by decide) (Or.inl rfl) rest

theorem forms_close (rest : List Char) :
    forms (')' :: rest) = (.closeParenthesis, ")") :: forms rest :=
  forms_parenthesis (by decide) (Or.inr rfl) rest

/-- A space keeps a character apart from what follows, also a slash. -/
theorem forms_spaced {c : Char} {kind : TokenKind} (listed : (c, kind) ∈ punctuation)
    (rest : List Char) : forms (c :: ' ' :: rest) = (kind, String.ofList [c]) :: forms rest := by
  have table : ∀ entry ∈ punctuation, Text.isBlank entry.1 = false := by decide
  have unpaired : Unpaired c (' ' :: rest) := by
    intro second first kind' pair
    cases Option.mem_some_iff.mp first
    simp [operatorPairs] at pair
  have starts : Layout.StartsToken (c :: ' ' :: rest) := by
    refine ⟨?_, ?_, ?_⟩
    · intro first isFirst
      cases Option.mem_some_iff.mp isFirst
      exact table _ listed
    · simp [List.cons_prefix_cons]
    · simp [List.cons_prefix_cons]
  have isBlank : Text.isBlank ' ' = true := by decide
  rw [forms_single listed starts unpaired, forms_blank isBlank]

/-- Two characters that make up an operator are never taken apart. -/
theorem forms_pair {first second : Char} {kind : TokenKind}
    (listed : ((first, second), kind) ∈ operatorPairs) (rest : List Char) :
    forms (first :: second :: rest) = (kind, String.ofList [first, second]) :: forms rest := by
  have table : ∀ entry ∈ operatorPairs, Text.isBlank entry.1.1 = false ∧ entry.1.1 ≠ '/' ∧
      entry.2.endsStream = false := by decide
  rcases table _ listed with ⟨notBlank, notSlash, goesOn⟩
  exact forms_munch (Layout.startsToken_cons notBlank notSlash _) (.pair listed) goesOn

/-- An operator between blanks is read as one token. -/
theorem forms_infix {operator : Operator} (joins : operator ≠ .not) (rest : List Char) :
    forms (operator.symbol.toList ++ ' ' :: rest) =
      (operator.tokenKind, operator.symbol) :: forms rest := by
  have spaced {first second : Char} {kind : TokenKind}
      (listed : ((first, second), kind) ∈ operatorPairs) :
      forms (first :: second :: ' ' :: rest) =
        (kind, String.ofList [first, second]) :: forms rest := by
    have isBlank : Text.isBlank ' ' = true := by decide
    rw [forms_pair listed, forms_blank isBlank]
  cases operator with
  | not => exact absurd rfl joins
  | lessOrEqual => exact spaced (by decide)
  | greaterOrEqual => exact spaced (by decide)
  | equal => exact spaced (by decide)
  | notEqual => exact spaced (by decide)
  | and => exact spaced (by decide)
  | or => exact spaced (by decide)
  | _ => exact forms_spaced (by decide) rest

theorem forms_operator {operator : Operator}
    (joins : JoinsFactors operator ∨ JoinsProducts operator) (rest : List Char) :
    forms (operator.symbol.toList ++ ' ' :: rest) =
      (.arithmetic, operator.symbol) :: forms rest := by
  rcases joins with (rfl | rfl) | (rfl | rfl) <;> exact forms_infix (by decide) rest

end Token

namespace Tree

open Token

/-! ## Rendered text -/

theorem toList_parenthesized (text : String) (rest : List Char) :
    (parenthesized true text).toList ++ rest = '(' :: (text.toList ++ ')' :: rest) := by
  simp only [parenthesized, if_true, String.toList_append, List.append_assoc]
  rfl

theorem toList_render_binary (operator : Operator) (left right : Tree) (note : Note)
    (rest : List Char) : (Tree.binary operator left right note).render.toList ++ rest =
      (parenthesized (left.strength < operator.strength) left.render).toList ++ ' ' ::
        (operator.symbol.toList ++ ' ' ::
          ((parenthesized (right.strength ≤ operator.strength) right.render).toList ++ rest)) := by
  simp only [render, String.toList_append, List.append_assoc]
  rfl

theorem toList_render_call (name : String) (argument : Tree) (note : Note) (rest : List Char) :
    (Tree.call name [argument] note).render.toList ++ rest =
      name.toList ++ ((parenthesized true argument.render).toList ++ rest) := by
  simp only [render, renderAll, parenthesized, if_true, String.toList_append, List.append_assoc]

/-- Parentheses around a text are read as parentheses around its tokens. -/
theorem forms_parenthesized {text : String} {inside : List (TokenKind × String)}
    (reads : ∀ rest, EndsWord rest → forms (text.toList ++ rest) = inside ++ forms rest)
    (needed : Bool) {rest : List Char} (ends : EndsWord rest) :
    forms ((parenthesized needed text).toList ++ rest) = enclosed needed inside ++ forms rest := by
  cases needed with
  | false => exact reads rest ends
  | true =>
      have inner := reads (')' :: rest) (endsWord_cons (Or.inr (Or.inr rfl)) rest)
      rw [toList_parenthesized, forms_open, inner, forms_close]
      simp only [enclosed, if_true, List.cons_append, List.append_assoc, List.nil_append]

/-- The text of an expression is read as the tokens that the expression is written with. -/
theorem Written.forms_render {tree : Tree} {listed : List (TokenKind × String)}
    (written : Written tree listed) {rest : List Char} (ends : EndsWord rest) :
    forms (tree.render.toList ++ rest) = listed ++ forms rest := by
  induction written generalizing rest with
  | identifier free => exact forms_name free ends
  | number spelt => exact forms_number spelt ends
  | @binary operator left right note _ _ joins isLeft isRight leftHypothesis rightHypothesis =>
      have readRight := forms_parenthesized (fun _ => rightHypothesis)
        (right.strength ≤ operator.strength) ends
      rw [toList_render_binary,
        forms_parenthesized (fun _ => leftHypothesis) _ (endsWord_cons (Or.inl rfl) _),
        forms_blank (by decide), forms_operator joins, readRight]
      simp only [List.append_assoc, List.cons_append]
  | @call name argument note inside free isArgument inductionHypothesis =>
      have readArgument := forms_parenthesized (fun _ => inductionHypothesis) true ends
      have opens : EndsWord ((parenthesized true argument.render).toList ++ rest) := by
        rw [toList_parenthesized]
        exact endsWord_cons (Or.inr (Or.inl rfl)) _
      rw [toList_render_call, forms_name free opens, readArgument]
      rfl

end Tree
end ExpressionChecker

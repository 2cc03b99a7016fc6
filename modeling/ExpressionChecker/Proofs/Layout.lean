import ExpressionChecker.Proofs.Analysis.Relabeling
import ExpressionChecker.Proofs.Assembly.Moves
import ExpressionChecker.Proofs.Token.Spacing
import ExpressionChecker.Report

namespace ExpressionChecker

/-!
# Layout does not matter

What a check finds out about a text depends on the forms of its tokens, up to positions: neither
reading a statement nor analyzing its tree asks where anything stands.  And the forms do not depend
on the layout between the tokens, as long as it keeps them apart.
-/

/-! ## Forgetting positions -/

/-- The rejection apart from where it arose. -/
abbrev Rejection.unplaced : Rejection → Rejection :=
  Rejection.moved Position.forgotten

/-- The symbol apart from where it was declared. -/
abbrev Symbol.unplaced : Symbol → Symbol :=
  Symbol.relabeled (.moved Position.forgotten)

/-- The analyses are the same up to positions, and up to the wording of what they found. -/
structure Analysis.Alike (analysis analysis' : Analysis) : Prop where
  tree : analysis'.tree.unplaced = analysis.tree.unplaced
  symbols : analysis'.scopes.symbols.map Symbol.unplaced =
    analysis.scopes.symbols.map Symbol.unplaced
  codes : analysis'.codes = analysis.codes

/-- The outcomes are the same up to positions. -/
inductive Outcome.Alike : Outcome → Outcome → Prop where
  | rejected {rejection rejection' : Rejection} (same : rejection'.unplaced = rejection.unplaced) :
      Alike (.rejected rejection) (.rejected rejection')
  | analyzed {analysis analysis' : Analysis} (alike : analysis.Alike analysis') :
      Alike (.analyzed analysis) (.analyzed analysis')

/-! ## From forms to outcomes -/

/-- Trees that differ in positions only have analyses that are the same up to positions. -/
theorem Analysis.ofTree_alike (limits : Limits) {tree tree' : Tree}
    (same : tree'.unplaced = tree.unplaced) : (ofTree limits tree).Alike (ofTree limits tree') := by
  have relabels (tree : Tree) : Relabels (.moved Position.forgotten) (ofTree limits tree)
      (ofTree limits tree.unplaced) :=
    ofTree_relabeled Function.injective_id rfl limits tree
  have first := relabels tree
  have second := relabels tree'
  rw [same] at second
  exact ⟨second.tree.symm.trans first.tree, second.symbols.symm.trans first.symbols,
    second.found.codes_eq.symm.trans first.found.codes_eq⟩

/-- Tokens of the same forms have the same outcome up to positions. -/
theorem Outcome.ofTokens_alike (limits : Limits) {tokens tokens' : List Token}
    (same : tokens'.map Token.form = tokens.map Token.form) :
    (ofTokens limits tokens).Alike (ofTokens limits tokens') := by
  have moved : tokens'.map (Token.moved Position.forgotten) =
      tokens.map (Token.moved Position.forgotten) :=
    Token.map_moved_of_forms same .start
  have answers : Rejection.movedAnswer Position.forgotten Tree.unplaced
        (Tree.ofTokens limits tokens') =
      Rejection.movedAnswer Position.forgotten Tree.unplaced (Tree.ofTokens limits tokens) := by
    rw [← Tree.ofTokens_moved _ rfl, ← Tree.ofTokens_moved _ rfl, moved]
  unfold ofTokens
  cases first : Tree.ofTokens limits tokens with
  | ok tree =>
      cases second : Tree.ofTokens limits tokens' with
      | ok tree' =>
          rw [first, second] at answers
          exact .analyzed (Analysis.ofTree_alike limits (Except.ok.inj answers))
      | error rejection' =>
          rw [first, second] at answers
          cases answers
  | error rejection =>
      cases second : Tree.ofTokens limits tokens' with
      | ok tree' =>
          rw [first, second] at answers
          cases answers
      | error rejection' =>
          rw [first, second] at answers
          exact .rejected (Except.error.inj answers)

/-! ## Texts -/

namespace Report

/-- The tokens of a text without fatal errors may be set apart by any other layout, be it around
tokens that were glued together: the tokens keep their kinds, lexemes and errors, and the outcome is
the same up to positions under all limits. -/
theorem unchanged_by_layout {text text' : String} {gap chars : List Char}
    (readable : ∀ token ∈ Token.stream text, ¬ token.IsFatal) (closed : Layout.ClosedGap gap)
    (spaced : Spaced (Segment.raws (Segment.ofText text)) chars)
    (whole : text'.toList = gap ++ chars) (limits : Limits) :
    (ofText limits text').tokens.map Token.form = (ofText limits text).tokens.map Token.form ∧
      (ofText limits text).outcome.Alike (ofText limits text').outcome := by
  have same := Token.stream_forms_of_spaced readable closed spaced whole
  exact ⟨same, Outcome.ofTokens_alike limits same⟩

/-- Nothing in the first text is set apart, not even the malformed number from the lone `&`. -/
theorem unchanged_by_layout_glued :
    (ofText ⟨1, 1⟩ "/**/y =\n2 //c\n;\t3e & ").tokens.map Token.form =
        (ofText ⟨1, 1⟩ "y=2;3e&").tokens.map Token.form ∧
      (ofText ⟨1, 1⟩ "y=2;3e&").outcome.Alike
        (ofText ⟨1, 1⟩ "/**/y =\n2 //c\n;\t3e & ").outcome := by
  have tokens : Token.stream "y=2;3e&" =
      [⟨.name, "y", ⟨1, 1⟩⟩, ⟨.assign, "=", ⟨1, 2⟩⟩, ⟨.number, "2", ⟨1, 3⟩⟩,
        ⟨.semicolon, ";", ⟨1, 4⟩⟩, ⟨.fault (.malformedNumber "3e"), "3e", ⟨1, 5⟩⟩,
        ⟨.fault (.unexpectedCharacter '&'), "&", ⟨1, 7⟩⟩, Token.endOfInput ⟨1, 8⟩] := by
    decide +kernel
  have raws : Segment.raws (Segment.ofText "y=2;3e&") =
      [['y'], ['='], ['2'], [';'], ['3', 'e'], ['&']] := by
    decide +kernel
  have readable : ∀ token ∈ Token.stream "y=2;3e&", ¬ token.IsFatal := by
    rw [tokens]
    simp [Token.IsFatal, Token.endOfInput]
  have blank {c : Char} {gap : List Char} (isBlank : Text.isBlank c = true)
      (closed : Layout.ClosedGap gap) {raws : List (List Char)} {chars : List Char}
      (later : Spaced raws chars) (raw : List Char) :
      Spaced (raw :: raws) (raw ++ ((c :: gap) ++ chars)) := by
    refine .token (fun rest => .blank isBlank (closed rest)) ?_
      (fun _ => List.cons_ne_nil _ _) later
    rintro _ ⟨⟩
    exact isBlank
  have none : Layout.ClosedGap [] := fun _ => .none
  have comment : Layout.ClosedGap "//c\n".toList :=
    fun _ => .lineComment (by decide : '\n' ∉ ['c']) .none
  have inFront : Layout.ClosedGap "/**/".toList :=
    fun _ => .blockComment (by decide : ¬ Layout.blockEnd <:+: [] ++ ['*']) .none
  have space : Text.isBlank ' ' = true := by decide
  have spaced := blank space none (blank (by decide : Text.isBlank '\n' = true) none
    (blank space comment (blank (by decide : Text.isBlank '\t' = true) none
      (blank space none (blank space none .nothing ['&']) ['3', 'e']) [';']) ['2']) ['=']) ['y']
  rw [← raws] at spaced
  exact unchanged_by_layout readable inFront spaced rfl ⟨1, 1⟩

end Report
end ExpressionChecker

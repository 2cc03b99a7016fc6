import ExpressionChecker.CommandLine
import Mathlib.Data.List.Basic

namespace ExpressionChecker

/-!
# What a run writes

What a run writes is a row of items on each of its two outputs.  On the standard output these are the
tokens, the outline of the tree and the written analysis, which has a heading and the findings; on
the standard error they are findings.  The text of an output is the text of its items, so that it can
be told from the items whether anything of a report is missing or written twice.
-/

/-! ## A token is one line -/

theorem newline_not_mem_digits (number : Nat) : '\n' ∉ (toString number).toList := by
  intro listed
  rw [Nat.toString_eq_repr, Nat.toList_repr] at listed
  have isDigit := Nat.isDigit_of_mem_toDigits (by decide) (by decide) listed
  cases isDigit

theorem TokenKind.newline_not_mem_label (kind : TokenKind) : '\n' ∉ kind.label.toList := by
  cases kind with
  | fault error => exact (by decide : '\n' ∉ "ERROR".toList)
  | _ => decide

namespace Token

theorem newline_not_mem_onOneLine (lexeme : String) : '\n' ∉ (onOneLine lexeme).toList := by
  rw [onOneLine, String.toList_ofList, List.mem_flatMap]
  rintro ⟨c, _, listed⟩
  split at listed
  · exact (by decide : '\n' ∉ ['\\', 'n']) listed
  · rename_i other
    split at listed
    · exact (by decide : '\n' ∉ ['\\', 't']) listed
    · exact other (List.mem_singleton.mp listed).symm

/-- No line ends inside the listing entry of a token, whatever its lexeme holds. -/
theorem newline_not_mem_text (token : Token) : '\n' ∉ token.text.toList := by
  have label := token.kind.newline_not_mem_label
  have lexeme := newline_not_mem_onOneLine token.lexeme
  have line := newline_not_mem_digits token.position.line
  have column := newline_not_mem_digits token.position.column
  rw [text]
  simp only [String.toList_append, List.mem_append, not_or]
  exact ⟨⟨⟨⟨⟨by decide, label⟩, by decide⟩, lexeme⟩, by decide⟩,
    ⟨⟨⟨by decide, line⟩, by decide⟩, column⟩, by decide⟩

end Token

/-! ## Items -/

/-- Something that a run writes about a report. -/
inductive Item where
  | token (written : Token)
  | outline (tree : Tree)
  | heading (analysis : Analysis)
  | nothingListed
  | listed (found : Diagnostic)
  | finding (found : Diagnostic)

namespace Item

/-- The text of an item, with the line feed that ends it. -/
def text : Item → String
  | token written => written.text ++ "\n"
  | outline tree => tree.outlineText
  | heading analysis =>
    analysis.summary ++ "Symbol table:\n" ++ analysis.scopes.text ++ "Diagnostics:\n"
  | nothingListed => "  none\n"
  | listed found => s!"  {found.text}\n"
  | finding found => found.text ++ "\n"

/-- The tree that an item writes. -/
def tree? : Item → Option Tree
  | outline tree => some tree
  | _ => none

/-- The finding that an item writes. -/
def finding? : Item → Option Diagnostic
  | listed found | finding found => some found
  | _ => none

end Item

namespace Analysis

/-- The items of a written analysis. -/
def items (analysis : Analysis) : List Item :=
  .heading analysis ::
    if analysis.diagnostics = [] then [.nothingListed] else analysis.diagnostics.map .listed

theorem findings_items (analysis : Analysis) :
    analysis.items.filterMap Item.finding? = analysis.diagnostics := by
  rw [items, List.filterMap_cons_none rfl]
  split
  · rename_i nothing
    rw [nothing]
    rfl
  · rw [List.filterMap_map]
    exact List.filterMap_some

end Analysis

namespace Report

/-- The items that a report has on the standard output. -/
def outputItems (report : Report) (emission : Emission) : List Item :=
  (if emission.includes .tokens then report.tokens.map .token else []) ++
    (if emission.includes .tree then report.tree?.toList.map .outline else []) ++
    match report.outcome with
    | .rejected _ => []
    | .analyzed analysis => if emission.includes .analysis then analysis.items else []

/-- The items that a report has on the standard error. -/
def errorItems (report : Report) (emission : Emission) : List Item :=
  let ending :=
    match report.outcome with
    | .rejected rejection => [rejection.diagnostic]
    | .analyzed analysis => if emission.includes .analysis then [] else analysis.diagnostics
  (report.lexical ++ ending).map .finding

end Report

/-! ## Nothing is missing and nothing is written twice -/

namespace Analysis

end Analysis

namespace Report

variable (report : Report) (emission : Emission)

/-- What can be seen of the items on the standard output, part by part. -/
theorem filterMap_outputItems {α : Type} (view : Item → Option α) :
    (report.outputItems emission).filterMap view =
      (if emission.includes .tokens then report.tokens.filterMap (view ∘ .token) else []) ++
        (if emission.includes .tree then report.tree?.toList.filterMap (view ∘ .outline) else []) ++
        match report.outcome with
        | .rejected _ => []
        | .analyzed analysis =>
          if emission.includes .analysis then analysis.items.filterMap view else [] := by
  rw [outputItems, List.filterMap_append, List.filterMap_append]
  congr 1
  · congr 1
    · split
      · exact List.filterMap_map
      · rfl
    · split
      · exact List.filterMap_map
      · rfl
  · cases report.outcome with
    | rejected rejection => rfl
    | analyzed analysis => simp only [apply_ite (List.filterMap view), List.filterMap_nil]

theorem findings_outputItems :
    (report.outputItems emission).filterMap Item.finding? =
      match report.outcome with
      | .rejected _ => []
      | .analyzed analysis =>
        if emission.includes .analysis then analysis.diagnostics else [] := by
  have hidesToken : Item.finding? ∘ Item.token = fun _ => none := rfl
  have hidesOutline : Item.finding? ∘ Item.outline = fun _ => none := rfl
  rw [filterMap_outputItems, hidesToken, hidesOutline, List.filterMap_none, List.filterMap_none]
  cases report.outcome with
  | rejected rejection => simp
  | analyzed analysis => simp [analysis.findings_items]

theorem findings_errorItems :
    (report.errorItems emission).filterMap Item.finding? =
      report.lexical ++
        match report.outcome with
        | .rejected rejection => [rejection.diagnostic]
        | .analyzed analysis =>
          if emission.includes .analysis then [] else analysis.diagnostics := by
  rw [errorItems, List.filterMap_map]
  exact List.filterMap_some

/-- The findings on the two outputs are those of the report, each in its place. -/
theorem findings_items :
    (report.errorItems emission).filterMap Item.finding? ++
      (report.outputItems emission).filterMap Item.finding? = report.diagnostics := by
  rw [findings_errorItems, findings_outputItems, diagnostics]
  cases report.outcome with
  | rejected rejection => exact List.append_nil _
  | analyzed analysis =>
      simp only [List.append_assoc]
      congr 1
      split
      · rfl
      · exact List.append_nil _

end Report

/-! ## The status -/

namespace CommandLine

variable {surroundings : Surroundings} {arguments : List String} {plan : Plan} {text : String}

/-- A run with a plan whose input is a text is the result of checking the text. -/
theorem run_eq (planned : Plan.make arguments surroundings.environment = .ok plan)
    (decoded : plan.decode (surroundings.read plan.source) = .ok text) (reporting : FailureReport) :
    run surroundings arguments reporting =
      (Report.ofText plan.limits text).result plan.emission := by
  simp only [run, planned, Plan.conclude, decoded]

end CommandLine
end ExpressionChecker

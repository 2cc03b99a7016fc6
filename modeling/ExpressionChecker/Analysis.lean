import ExpressionChecker.Analysis.Verification
import ExpressionChecker.Limits

namespace ExpressionChecker

/-!
# Analysis of a tree

An analysis runs the declaration pass and the verification pass, and then warns of every variable
that was never read.  When a pass is interrupted, its reason is reported last, and the tree stays
as it was.  Warnings do not make an analysis fail.
-/

namespace Scopes

/-- The warnings about variables that were declared and never read. -/
def unusedWarnings (scopes : Scopes) : List Diagnostic :=
  (scopes.symbols.filter (!·.used)).map fun symbol =>
    .report .unusedVariable symbol.position
      s!"Variable '{symbol.name}' is declared but never used"

end Scopes

/-! ## The passes over a tree -/

/-- How far the passes over a tree came. -/
inductive Passes where
  | undeclared (interruption : Interruption)
  | unverified (declared : Declarations) (reason : DepthExceeded)
  | complete (declared : Declarations) (verified : Verified)

namespace Passes

/-- Runs the passes over a tree. -/
def run (limits : Limits) (tree : Tree) : Passes :=
  match tree.declare limits.depth 0 .empty with
  | .error interruption => .undeclared interruption
  | .ok declared =>
    match tree.verify limits.depth 0 declared.scopes with
    | .error reason => .unverified declared reason
    | .ok verified => .complete declared verified

end Passes

/-! ## The result -/

/-- The result of analyzing a tree: the tree with the types found, the variables, and the
findings. -/
structure Analysis where
  tree : Tree
  scopes : Scopes
  diagnostics : List Diagnostic

namespace Analysis

/-- The result of the passes over a tree. -/
def ofPasses (tree : Tree) : Passes → Analysis
  | .undeclared interruption =>
    { tree
      scopes := interruption.gathered.scopes
      diagnostics := interruption.gathered.diagnostics ++ [interruption.reason.diagnostic] }
  | .unverified declared reason =>
    { tree
      scopes := declared.scopes
      diagnostics := declared.diagnostics ++ [reason.diagnostic] }
  | .complete declared verified =>
    { tree := verified.tree
      scopes := verified.scopes
      diagnostics :=
        declared.diagnostics ++ verified.diagnostics ++ verified.scopes.unusedWarnings }

/-- Analyzes a tree. -/
def ofTree (limits : Limits) (tree : Tree) : Analysis :=
  ofPasses tree (.run limits tree)

/-- Whether no finding is an error. -/
def succeeded (analysis : Analysis) : Bool :=
  !Diagnostic.anyError analysis.diagnostics

/-- The findings that are errors. -/
def errors (analysis : Analysis) : List Diagnostic :=
  analysis.diagnostics.filter Diagnostic.isError

/-- The findings that are warnings. -/
def warnings (analysis : Analysis) : List Diagnostic :=
  analysis.diagnostics.filter Diagnostic.isWarning

/-- The codes of the findings, in order. -/
def codes (analysis : Analysis) : List DiagnosticCode :=
  analysis.diagnostics.map Diagnostic.code

/-- The first line of the written result. -/
def summary (analysis : Analysis) : String :=
  if analysis.succeeded then s!"Analysis succeeded ({analysis.warnings.length} warning(s))\n"
  else
    s!"Analysis failed ({analysis.errors.length} error(s), " ++
      s!"{analysis.warnings.length} warning(s))\n"

/-- The written result: a summary, the variables, and the findings. -/
def text (analysis : Analysis) : String :=
  let findings := analysis.diagnostics.map fun diagnostic => s!"  {diagnostic.text}\n"
  analysis.summary ++ "Symbol table:\n" ++ analysis.scopes.text ++ "Diagnostics:\n" ++
    if findings = [] then "  none\n" else String.join findings

end Analysis
end ExpressionChecker

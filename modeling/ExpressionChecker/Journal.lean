import ExpressionChecker.Report

namespace ExpressionChecker

/-!
# Journal of a check

The journal lists what a check does, in order, for readers who want to watch it work.  An entry
has a grade, a message, named values, and the activities in which it was written, outermost first.
The journal is computed from the same results as the report and does not influence them.
-/

/-- How much an entry matters. -/
inductive Grade where
  | trace
  | debug
  | warning
deriving DecidableEq, Repr

namespace Grade

/-- The name of a grade. -/
def name : Grade → String
  | trace => "TRACE"
  | debug => "DEBUG"
  | warning => "WARN"

end Grade

/-- A value with its name, both as they are written. -/
structure NamedValue where
  name : String
  value : String
deriving DecidableEq, Repr

/-- Something a check is busy with, and the values that describe it. -/
structure Activity where
  name : String
  values : List NamedValue
deriving DecidableEq, Repr

/-- An entry of the journal. -/
structure JournalEntry where
  grade : Grade
  message : String
  values : List NamedValue
  activities : List Activity
deriving DecidableEq, Repr

namespace JournalEntry

/-- The entry written within a further, outer activity. -/
def within (activity : Activity) (entry : JournalEntry) : JournalEntry :=
  { entry with activities := activity :: entry.activities }

end JournalEntry

namespace Journal

/-- A named number. -/
def number (name : String) (value : Nat) : NamedValue := ⟨name, toString value⟩

/-- A named truth value. -/
def truth (name : String) (value : Bool) : NamedValue := ⟨name, if value then "true" else "false"⟩

/-! ## The stages of a check -/

/-- What is written while a text of so many bytes is read as the given tokens. -/
def ofTokens (bytes : Nat) (tokens : List Token) : List JournalEntry :=
  let scanned := tokens.map fun token =>
    (⟨.trace, "scanned", [⟨"token", token.text⟩], []⟩ : JournalEntry)
  let faults := tokens.filter (·.kind.error?.isSome)
  let done : JournalEntry :=
    ⟨.debug, "tokenized", [number "tokens" tokens.length, number "errors" faults.length], []⟩
  (scanned ++ [done]).map (.within ⟨"tokenize", [number "len" bytes]⟩)

/-- What is written while so many tokens are assembled with the given result. -/
def ofAssembly (count : Nat) (result : Except Rejection Tree) : List JournalEntry :=
  let done : JournalEntry :=
    match result with
    | .ok tree => ⟨.debug, "parsed", [number "nodes" tree.size], []⟩
    | .error rejection => ⟨.debug, "parse failed", [⟨"error", rejection.message⟩], []⟩
  [done.within ⟨"parse_tokens_with", [number "tokens" count]⟩]

/-- The entry about a completed declaration pass. -/
def declared (declared : Declarations) : JournalEntry :=
  ⟨.debug, "declaration pass finished",
    [number "symbols" declared.scopes.size, number "diagnostics" declared.diagnostics.length], []⟩

/-- The entry about a completed verification pass, which counts the findings of both passes. -/
def verified (declared : Declarations) (verified : Verified) : JournalEntry :=
  ⟨.debug, "verification pass finished",
    [number "diagnostics" (declared.diagnostics.length + verified.diagnostics.length)], []⟩

/-- The entry about an interrupted pass. -/
def interrupted (reason : DepthExceeded) : JournalEntry :=
  ⟨.warning, "analysis aborted", [⟨"error", reason.message⟩], []⟩

/-- What is written while the passes run over a tree. -/
def ofPasses : Passes → List JournalEntry
  | .undeclared interruption => [interrupted interruption.reason]
  | .unverified declarations reason => [declared declarations, interrupted reason]
  | .complete declarations verification =>
    [declared declarations, verified declarations verification]

/-- What is written while a tree is analyzed. -/
def ofTree (limits : Limits) (tree : Tree) : List JournalEntry :=
  let passes := Passes.run limits tree
  let analysis := Analysis.ofPasses tree passes
  let done : JournalEntry :=
    ⟨.debug, "analysis finished",
      [truth "success" analysis.succeeded, number "diagnostics" analysis.diagnostics.length,
        number "symbols" analysis.scopes.size], []⟩
  (ofPasses passes ++ [done]).map (.within ⟨"analyze", [number "nodes" tree.size]⟩)

/-- What is written while a text is checked. -/
def ofText (limits : Limits) (text : String) : List JournalEntry :=
  let bytes := text.utf8ByteSize
  let tokens := Token.stream text
  let result := Tree.ofTokens limits tokens
  let analysis :=
    match result with
    | .ok tree => ofTree limits tree
    | .error _ => []
  let done : JournalEntry :=
    ⟨.debug, "frontend finished",
      [number "tokens" tokens.length, number "lexical" (Token.diagnostics tokens).length,
        truth "parsed" result.isOk], []⟩
  (ofTokens bytes tokens ++ ofAssembly tokens.length result ++ analysis ++ [done]).map
    (.within ⟨"run", [number "len" bytes]⟩)

end Journal
end ExpressionChecker

import ExpressionChecker.CommandLine.Directory
import ExpressionChecker.Journal
import ExpressionChecker.Tree.Outline

namespace ExpressionChecker

/-!
# The command line

A run has three stages.  The arguments and the environment make a plan; the plan says which input
to read; and the input decides what is written and the exit status.  Each stage can fail, and then
the stages behind it do not matter: nothing is written but the error, and the status is one.
-/

/-- What a run writes and the status it ends with.  The errors are its findings or its failure: the
journal is written to the same place, but its lines are no part of the result. -/
structure RunResult where
  status : Nat
  output : String
  errors : String
deriving DecidableEq, Repr

/-! ## Failures -/

/-- A run that failed before its input was checked, with the cause if something else caused it. -/
structure RunFailure where
  message : String
  cause : Option String := none
deriving DecidableEq, Repr

/-- How a failure is reported in an environment.  The program hands its failures on to be reported,
and an environment can ask for more in a report than the failure. -/
abbrev FailureReport : Type := (String → Option String) → RunFailure → String

namespace RunFailure

/-- The lines of a cause, set apart from its heading. -/
def indented (cause : String) : String :=
  "    " ++ String.ofList (cause.toList.flatMap fun c =>
    if c = '\n' then ['\n', ' ', ' ', ' ', ' '] else [c])

/-- The failure and its cause, and nothing else. -/
def plainReport (failure : RunFailure) : String :=
  s!"Error: {failure.message}\n" ++
    match failure.cause with
    | none => ""
    | some cause => s!"\nCaused by:\n{indented cause}\n"

/-- The result of a failed run: only the report is written. -/
def result (failure : RunFailure) (report : RunFailure → String) : RunResult :=
  ⟨1, "", report failure⟩

end RunFailure

/-- Reports of nothing but the failure, whatever the environment asks for. -/
def FailureReport.plain : FailureReport :=
  fun _ failure => failure.plainReport

/-! ## Plans -/

/-- A checked command line: what to write, what to read, and the limits to keep to. -/
structure Plan where
  emission : Emission
  verbose : Bool
  source : InputSource
  limits : Limits
deriving DecidableEq, Repr

namespace Plan

/-- The plan for a list of arguments and an environment.  The arguments are judged first. -/
def make (arguments : List String) (environment : String → Option String) :
    Except RunFailure Plan :=
  match Options.ofArguments arguments with
  | .error error => .error { message := error.message }
  | .ok options =>
    match Limits.ofEnvironment environment with
    | .error invalid => .error { message := invalid.message }
    | .ok limits =>
      .ok
        { emission := options.emission
          verbose := options.verbose
          source := .ofOptions options
          limits := options.limits limits }

/-- The text that the bytes of the input hold, or the failure of reading them. -/
def decode (plan : Plan) (input : Except InputError ByteArray) : Except RunFailure String :=
  (input.bind decodeText).mapError fun error =>
    ⟨s!"Reading {plan.source.text}", some error.message⟩

end Plan

/-! ## What is written -/

namespace Report

/-- Lines, each ended by a line feed. -/
def lines (texts : List String) : String :=
  String.join (texts.map (· ++ "\n"))

/-- The listing of the tokens. -/
def tokenListing (report : Report) : String :=
  lines (report.tokens.map Token.text)

/-- The written outline of the tree, or nothing if there is none. -/
def treeListing (report : Report) : String :=
  match report.tree? with
  | some tree => tree.outlineText
  | none => ""

/-- What is written to the standard output. -/
def output (report : Report) (emission : Emission) : String :=
  (if emission.includes .tokens then report.tokenListing else "") ++
    (if emission.includes .tree then report.treeListing else "") ++
    match report.outcome with
    | .rejected _ => ""
    | .analyzed analysis => if emission.includes .analysis then analysis.text else ""

/-- What is written to the standard error.  The findings of an analysis appear there unless the
analysis itself is written. -/
def errorOutput (report : Report) (emission : Emission) : String :=
  let analyzed := report.outcome.analysis?.isSome && emission.includes .analysis
  let ending := if analyzed then [] else report.outcome.diagnostics
  lines ((report.lexical ++ ending).map Diagnostic.text)

/-- The result of a run that came as far as checking its input. -/
def result (report : Report) (emission : Emission) : RunResult :=
  ⟨if report.hasErrors then 1 else 0, report.output emission, report.errorOutput emission⟩

end Report

/-! ## Whole runs -/

/-- What a run finds around it.  A variable of the environment whose value is no text counts as
unset. -/
structure Surroundings where
  environment : String → Option String
  files : String → Except InputError ByteArray
  standardInput : Except InputError ByteArray

namespace Surroundings

/-- The surroundings of a run in a directory that holds nothing but some files. -/
def inDirectory (directory : Directory) (environment : String → Option String)
    (standardInput : ByteArray) : Surroundings :=
  ⟨environment, directory.read, .ok standardInput⟩

/-- The bytes of an input, or what kept them from being read. -/
def read (surroundings : Surroundings) : InputSource → Except InputError ByteArray
  | .file path => surroundings.files path
  | .standardInput => surroundings.standardInput

end Surroundings

namespace Plan

/-- Checks the input that a plan asked for. -/
def conclude (plan : Plan) (input : Except InputError ByteArray) (report : RunFailure → String) :
    RunResult :=
  match plan.decode input with
  | .error failure => failure.result report
  | .ok text => (Report.ofText plan.limits text).result plan.emission

end Plan

namespace CommandLine

/-- The result of running the program with the given arguments, where failures are reported in the
given way. -/
def run (surroundings : Surroundings) (arguments : List String)
    (reporting : FailureReport := .plain) : RunResult :=
  let report := reporting surroundings.environment
  match Plan.make arguments surroundings.environment with
  | .error failure => failure.result report
  | .ok plan => plan.conclude (surroundings.read plan.source) report

end CommandLine
end ExpressionChecker

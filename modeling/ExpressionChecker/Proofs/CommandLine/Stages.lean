import ExpressionChecker.Proofs.CommandLine
import Mathlib.Data.List.Induction

namespace ExpressionChecker

/-!
# The stages of a run

The arguments of a run are settings, each a flag with its value if it takes one, and at most one
path behind them.  They are judged before the environment, and the environment before the input.  A
run that fails ends at the first of these stages that fails, and nothing that comes later has a part
in its result.
-/

/-! ## Flags and words -/

namespace Emission

/-- The words for emissions. -/
def names : List (String × Emission) :=
  [("tokens", tokens), ("tree", tree), ("analysis", analysis), ("all", everything)]

end Emission

namespace Flag

end Flag

/-! ## Settings -/

/-- What a flag sets, with its value if it takes one. -/
inductive Setting where
  | emission (chosen : Emission)
  | depth (limit : Nat)
  | operators (limit : Nat)
  | verbose
deriving DecidableEq, Repr

namespace Setting

/-- The options with a setting made. -/
def apply (options : Options) : Setting → Options
  | emission chosen => { options with emission := chosen }
  | depth limit => { options with depth := some limit }
  | operators limit => { options with operators := some limit }
  | verbose => { options with verbose := true }

end Setting

namespace Options

end Options

/-! ## Arguments -/

namespace Arguments

end Arguments

namespace Options

end Options

/-! ## The environment -/

namespace Limits

variable {environment : String → Option String}

end Limits

/-! ## Reports of failures -/

namespace FailureReport

/-- The variables that ask for backtraces.  The first of them that is set decides. -/
def backtraceVariables : List String := ["RUST_LIB_BACKTRACE", "RUST_BACKTRACE"]

/-- Whether an environment asks for a backtrace behind each failure. -/
def asksForBacktrace (environment : String → Option String) : Bool :=
  (backtraceVariables.findSome? environment).any (· ≠ "0")

/-- Two environments ask for the same backtraces if neither asks for any, or if the variables that
ask for them have the same values. -/
def SameBacktraces (environment environment' : String → Option String) : Prop :=
  (asksForBacktrace environment = false ∧ asksForBacktrace environment' = false) ∨
    ∀ name ∈ backtraceVariables, environment' name = environment name

/-- What is documented of reports.  They begin with the failure, all that can follow is a backtrace,
and none follows unless it is asked for.  No other variable has a part in it. -/
structure IsDocumented (reporting : FailureReport) : Prop where
  begins : ∀ environment failure, ∃ backtrace,
    reporting environment failure = failure.plainReport ++ backtrace
  plain : ∀ environment failure, asksForBacktrace environment = false →
    reporting environment failure = failure.plainReport
  asked : ∀ environment environment' failure,
    (∀ name ∈ backtraceVariables, environment' name = environment name) →
      reporting environment' failure = reporting environment failure

theorem IsDocumented.same {reporting : FailureReport} (documented : reporting.IsDocumented)
    {environment environment' : String → Option String}
    (same : SameBacktraces environment environment') (failure : RunFailure) :
    reporting environment' failure = reporting environment failure := by
  rcases same with ⟨none, none'⟩ | agree
  · rw [documented.plain _ _ none, documented.plain _ _ none']
  · exact documented.asked _ _ _ agree

end FailureReport

/-! ## Whole runs -/

namespace Plan

variable {arguments : List String} {environment : String → Option String}

end Plan

namespace CommandLine

section Failures

variable {reporting : FailureReport} {surroundings : Surroundings} {arguments : List String}
  {failure : RunFailure}

end Failures

end CommandLine
end ExpressionChecker

import ExpressionChecker.Limits

namespace ExpressionChecker

/-!
# Options of the command line

The arguments are flags, some of them with a value, and at most one path behind them.  A value is
taken as it stands, even if it looks like a flag.  The last occurrence of an option counts, and
the first argument that is wrong decides the error.
-/

/-- What is written about a text. -/
inductive Emission where
  | tokens
  | tree
  | analysis
  | everything
deriving DecidableEq, Repr, Inhabited

namespace Emission

/-- The emission that a word asks for. -/
def ofName? : String → Option Emission
  | "tokens" => some tokens
  | "tree" => some tree
  | "analysis" => some analysis
  | "all" => some everything
  | _ => none

/-- Whether a part is among what is written. -/
def includes (emission part : Emission) : Bool :=
  emission = everything || emission = part

end Emission

/-- What the arguments ask for. -/
structure Options where
  emission : Emission := .analysis
  depth : Option Nat := none
  operators : Option Nat := none
  verbose : Bool := false
  path : Option String := none
deriving DecidableEq, Repr, Inhabited

/-- Why a list of arguments is refused. -/
inductive ArgumentError where
  | missingEmission (flag : String)
  | missingDepth (flag : String)
  | missingOperators (flag : String)
  | unknownEmission (name : String)
  | invalidLimit (invalid : InvalidLimit)
  | severalPaths
deriving DecidableEq, Repr

namespace ArgumentError

/-- The wording of a refusal. -/
def message : ArgumentError → String
  | missingEmission flag => s!"Missing emit mode after {flag}"
  | missingDepth flag => s!"Missing depth after {flag}"
  | missingOperators flag => s!"Missing operator count after {flag}"
  | unknownEmission name =>
    s!"Unknown emit mode '{name}', expected tokens, tree, analysis or all"
  | invalidLimit invalid => invalid.message
  | severalPaths => "Only one input file is supported"

end ArgumentError

/-- The role that an argument has by its spelling. -/
inductive Flag where
  | emission
  | depth
  | operators
  | verbose
  | path
deriving DecidableEq, Repr

namespace Flag

/-- The role of an argument.  Whatever is spelt like no flag is a path. -/
def ofArgument : String → Flag
  | "--emit" | "-e" => emission
  | "--max-depth" => depth
  | "--max-operators" => operators
  | "--verbose" | "-v" => verbose
  | _ => path

end Flag

namespace Options

/-- Reads the word for an emission. -/
def readEmission (name : String) : Except ArgumentError Emission :=
  match Emission.ofName? name with
  | some emission => .ok emission
  | none => .error (.unknownEmission name)

/-- Reads the value of a limit. -/
def readLimit (flag value : String) : Except ArgumentError Nat :=
  (Limits.read flag value).mapError .invalidLimit

/-- Reads further arguments on top of the options read before them. -/
def readAll (options : Options) : List String → Except ArgumentError Options
  | [] => .ok options
  | [argument] =>
    match Flag.ofArgument argument with
    | .emission => .error (.missingEmission argument)
    | .depth => .error (.missingDepth argument)
    | .operators => .error (.missingOperators argument)
    | .verbose => .ok { options with verbose := true }
    | .path => .ok { options with path := some argument }
  | argument :: value :: rest =>
    match Flag.ofArgument argument with
    | .emission => do
      let emission ← readEmission value
      readAll { options with emission } rest
    | .depth => do
      let depth ← readLimit argument value
      readAll { options with depth := some depth } rest
    | .operators => do
      let operators ← readLimit argument value
      readAll { options with operators := some operators } rest
    | .verbose => readAll { options with verbose := true } (value :: rest)
    | .path => .error .severalPaths

/-- Reads a list of arguments. -/
def ofArguments (arguments : List String) : Except ArgumentError Options :=
  readAll {} arguments

/-- The limits to keep to: those of the flags, and for the others those given. -/
def limits (options : Options) (otherwise : Limits) : Limits :=
  ⟨options.depth.getD otherwise.depth, options.operators.getD otherwise.operators⟩

end Options
end ExpressionChecker

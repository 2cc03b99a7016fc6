import ExpressionChecker.CommandLine

namespace ExpressionChecker

/-!
# The program

Reads the input that the command line asks for, writes the result of the run, and ends with its
status.  The journal is written to the standard error besides, its warnings by every run and its
debugging entries by verbose ones.
-/

/-- An error that the system reported with a number.  Some numbers arrive with their sign turned,
and it is turned back. -/
def numberedError (details : String) (code : UInt32) : InputError :=
  .other details (if code < 0x80000000 then code else -code).toNat

/-- An error met while an input was read. -/
def inputError : IO.Error → InputError
  | .noFileOrDirectory .. => .notFound
  | .inappropriateType _ code details | .permissionDenied _ code details
  | .invalidArgument _ code details | .resourceExhausted _ code details
  | .noSuchThing _ code details | .hardwareFault code details | .otherError code details =>
    numberedError details code
  | other => numberedError (toString other) 0

/-- Reads a stream to its end. -/
partial def readToEnd (stream : IO.FS.Stream) (read : ByteArray) : IO ByteArray := do
  let bytes ← stream.read 65536
  if bytes.isEmpty then return read else readToEnd stream (read ++ bytes)

/-- Reads an input, or says what kept it from being read. -/
def readSource (source : InputSource) : IO (Except InputError ByteArray) := do
  try
    match source with
    | .file path => return .ok (← IO.FS.readBinFile path)
    | .standardInput => return .ok (← readToEnd (← IO.getStdin) .empty)
  catch error => return .error (inputError error)

/-- The environment variables that a plan may depend on. -/
def readEnvironment : IO (String → Option String) := do
  let depth ← IO.getEnv Limits.depthVariable
  let operators ← IO.getEnv Limits.operatorsVariable
  return fun name =>
    if name = Limits.depthVariable then depth
    else if name = Limits.operatorsVariable then operators
    else none

/-- The line that is written for an entry of the journal. -/
def journalLine (entry : JournalEntry) : String :=
  let activities := entry.activities.map fun activity => s!"{activity.name}: "
  let values := entry.values.map fun named => s!" {named.name}={named.value}"
  s!"{entry.grade.name} " ++ String.join activities ++ entry.message ++ String.join values

/-- Whether an entry is written by a run. -/
def isWritten (plan : Plan) (entry : JournalEntry) : Bool :=
  match entry.grade with
  | .trace => false
  | .debug => plan.verbose
  | .warning => true

/-- Writes the journal of a run. -/
def writeJournal (plan : Plan) (input : Except InputError ByteArray) : IO Unit := do
  if let .ok text := plan.decode input then
    for entry in (Journal.ofText plan.limits text).filter (isWritten plan) do
      IO.eprintln (journalLine entry)

/-- Writes the result of a run and gives its status. -/
def conclude (result : RunResult) : IO UInt32 := do
  IO.print result.output
  IO.eprint result.errors
  return result.status.toUInt32

end ExpressionChecker

/-- Runs the program with the given arguments. -/
def main (arguments : List String) : IO UInt32 := do
  let environment ← ExpressionChecker.readEnvironment
  let report := ExpressionChecker.RunFailure.plainReport
  match ExpressionChecker.Plan.make arguments environment with
  | .error failure => ExpressionChecker.conclude (failure.result report)
  | .ok plan =>
    let input ← ExpressionChecker.readSource plan.source
    ExpressionChecker.writeJournal plan input
    ExpressionChecker.conclude (plan.conclude input report)

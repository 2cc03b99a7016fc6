import ExpressionChecker.CommandLine.Options

namespace ExpressionChecker

/-!
# Inputs of a run

The text to check comes from a file or from the standard input.  An input can fail to be read, and
what was read can fail to be text.
-/

/-- What keeps an input from being read as text. -/
inductive InputError where
  | notFound
  | notDirectory
  | isDirectory
  | nameTooLong
  | notText
  | other (details : String) (number : Nat)
deriving DecidableEq, Repr

namespace InputError

/-- The wording of an error that the system numbers. -/
def numbered (details : String) (number : Nat) : String :=
  s!"{details} (os error {number})"

/-- The wording of an error. -/
def message : InputError → String
  | notFound => numbered "No such file or directory" 2
  | notDirectory => numbered "Not a directory" 20
  | isDirectory => numbered "Is a directory" 21
  | nameTooLong => numbered "File name too long" 36
  | notText => "stream did not contain valid UTF-8"
  | other details number => numbered details number

end InputError

/-- Where the text to check comes from. -/
inductive InputSource where
  | file (path : String)
  | standardInput
deriving DecidableEq, Repr

namespace InputSource

/-- The input that the options ask for. -/
def ofOptions (options : Options) : InputSource :=
  match options.path with
  | some path => file path
  | none => standardInput

/-- The name of an input in messages. -/
def text : InputSource → String
  | file path => path
  | standardInput => "stdin"

end InputSource

/-- The text that bytes encode. -/
def decodeText (bytes : ByteArray) : Except InputError String :=
  match String.fromUTF8? bytes with
  | some text => .ok text
  | none => .error .notText

end ExpressionChecker

import ExpressionChecker.Diagnostic.PlainLetters
import ExpressionChecker.Token

namespace ExpressionChecker

/-!
# Diagnostics

Every stage of a check reports what it finds in one form: a position, a code, a severity and a
message in plain letters.  The code fixes the severity, and only an unused variable is a mere
warning.
-/

/-- What a diagnostic is about. -/
inductive DiagnosticCode where
  | lexicalError
  | structureError
  | undeclaredVariable
  | duplicateVariable
  | invalidNumber
  | unknownOperator
  | operandType
  | incompatibleTypes
  | undefinedFunction
  | wrongArgumentCount
  | argumentType
  | invalidAssignment
  | incompatibleAssignment
  | unusedVariable
  | internalError
deriving DecidableEq, Repr, Inhabited

/-- How grave a diagnostic is. -/
inductive Severity where
  | warning
  | error
deriving DecidableEq, Repr, Inhabited

namespace DiagnosticCode

/-- Every code, once, in the order of the stages that report it. -/
def all : List DiagnosticCode :=
  [lexicalError, structureError, undeclaredVariable, duplicateVariable, invalidNumber,
    unknownOperator, operandType, incompatibleTypes, undefinedFunction, wrongArgumentCount,
    argumentType, invalidAssignment, incompatibleAssignment, unusedVariable, internalError]

/-- The tag by which other programs recognise a code. -/
def tag : DiagnosticCode → String
  | lexicalError => "ERRO_LEXICO"
  | structureError => "ERRO_SINTATICO"
  | undeclaredVariable => "VAR_NAO_DECLARADA"
  | duplicateVariable => "VAR_DUPLICADA"
  | invalidNumber => "NUMERO_INVALIDO"
  | unknownOperator => "OPERADOR_DESCONHECIDO"
  | operandType => "TIPO_OPERANDO"
  | incompatibleTypes => "TIPOS_INCOMPATIVEIS"
  | undefinedFunction => "FUNCAO_NAO_DEFINIDA"
  | wrongArgumentCount => "ARGUMENTOS_INCORRETOS"
  | argumentType => "TIPO_ARGUMENTO"
  | invalidAssignment => "ATRIBUICAO_INVALIDA"
  | incompatibleAssignment => "ATRIBUICAO_INCOMPATIVEL"
  | unusedVariable => "VAR_NAO_UTILIZADA"
  | internalError => "ERRO_INTERNO"

/-- The code with a tag. -/
def ofTag? (tag : String) : Option DiagnosticCode :=
  all.find? (·.tag = tag)

/-- The severity that a code has. -/
def severity : DiagnosticCode → Severity
  | unusedVariable => .warning
  | _ => .error

end DiagnosticCode

/-- One finding of a check. -/
structure Diagnostic where
  position : Position
  code : DiagnosticCode
  severity : Severity
  message : String
deriving DecidableEq, Repr, Inhabited

namespace Diagnostic

/-- A finding with the severity of its code and its message in plain letters. -/
def report (code : DiagnosticCode) (position : Position) (message : String) : Diagnostic :=
  ⟨position, code, code.severity, PlainLetters.ofText message⟩

/-- Whether a finding is an error. -/
def isError (diagnostic : Diagnostic) : Bool :=
  diagnostic.severity = .error

/-- Whether a finding is a warning. -/
def isWarning (diagnostic : Diagnostic) : Bool :=
  diagnostic.severity = .warning

/-- The written form `[line:column] TAG: message`. -/
def text (diagnostic : Diagnostic) : String :=
  s!"[{diagnostic.position.text}] {diagnostic.code.tag}: {diagnostic.message}"

/-- Whether errors are among the findings. -/
def anyError (diagnostics : List Diagnostic) : Bool :=
  diagnostics.any isError

end Diagnostic

namespace Token

/-- The finding about a token that is none of the language. -/
def diagnostic? (token : Token) : Option Diagnostic :=
  token.kind.error?.map fun error => .report .lexicalError token.position error.message

/-- The findings about the tokens of a stream that are none of the language. -/
def diagnostics (tokens : List Token) : List Diagnostic :=
  tokens.filterMap diagnostic?

end Token
end ExpressionChecker

import ExpressionChecker.Main
import ExpressionChecker.Tree.Equality
import ExpressionChecker.Tree.Rendering
import ExpressionChecker.Proofs.Grammar
import ExpressionChecker.Proofs.Grammar.Unambiguous
import ExpressionChecker.Proofs.Assembly
import ExpressionChecker.Proofs.Grammar.Acceptance
import ExpressionChecker.Proofs.Token.Gap
import ExpressionChecker.Proofs.Token.Literal
import ExpressionChecker.Proofs.Token.Munch
import ExpressionChecker.Proofs.Token.Tiling
import ExpressionChecker.Proofs.Token.Forms
import ExpressionChecker.Proofs.Spelling
import ExpressionChecker.Proofs.Tree.Shape
import ExpressionChecker.Proofs.Tree.Written
import ExpressionChecker.Proofs.Text.Nesting
import ExpressionChecker.Proofs.Tree.RoundTrip
import ExpressionChecker.Proofs.Grammar.Image
import ExpressionChecker.Proofs.Scopes
import ExpressionChecker.Proofs.Analysis.Expression
import ExpressionChecker.Proofs.Analysis.Verdict
import ExpressionChecker.Proofs.Tree.Traversal
import ExpressionChecker.Proofs.Analysis.Declaration
import ExpressionChecker.Proofs.Analysis.Verification
import ExpressionChecker.Proofs.Analysis.Interruption
import ExpressionChecker.Proofs.Analysis.Accounting
import ExpressionChecker.Proofs.Assembly.Runs
import ExpressionChecker.Proofs.Grammar.Violation
import ExpressionChecker.Proofs.Limits
import ExpressionChecker.Proofs.Scopes.Operations
import ExpressionChecker.Proofs.Place
import ExpressionChecker.Proofs.Place.Boundary
import ExpressionChecker.Proofs.Token.Location
import ExpressionChecker.Proofs.FirstStatement
import ExpressionChecker.Proofs.Token.Progress
import ExpressionChecker.Proofs.Analysis.Relabeling
import ExpressionChecker.Proofs.Analysis.Annotations
import ExpressionChecker.Proofs.Analysis.DeclaredTypes
import ExpressionChecker.Proofs.Analysis.StatementTypes
import ExpressionChecker.Proofs.Assembly.Moves
import ExpressionChecker.Proofs.Layout
import ExpressionChecker.Proofs.Tree.Bracketing
import ExpressionChecker.Proofs.Tree.FewestParentheses
import ExpressionChecker.Proofs.Tree.Blurring
import ExpressionChecker.Proofs.Analysis.UnknownTypes
import ExpressionChecker.Proofs.CommandLine
import ExpressionChecker.Proofs.Tree.Legible
import ExpressionChecker.Proofs.Tree.Unambiguous
import ExpressionChecker.Proofs.Spelling.Bytewise
import ExpressionChecker.Proofs.Token.StringLiteral
import ExpressionChecker.Proofs.Tree.Height
import ExpressionChecker.Proofs.Analysis.RecursionDepth
import ExpressionChecker.Proofs.Token.LineByLine
import ExpressionChecker.Proofs.Analysis.Renaming
import ExpressionChecker.Proofs.Scopes.Blocks
import ExpressionChecker.Proofs.CommandLine.Stages
import ExpressionChecker.Proofs.Limits.Written
import ExpressionChecker.Proofs.Tree.Address
import ExpressionChecker.Proofs.Tree.Size
import ExpressionChecker.Proofs.Tree.Outline
import ExpressionChecker.Proofs.Diagnostic.OneLine
import ExpressionChecker.Proofs.Diagnostic.PlainLetters

import GridGame.Board
import GridGame.Code.Expr
import GridGame.Code.Literal
import GridGame.Code.Printout
import GridGame.Code.Statement
import GridGame.Command
import GridGame.Compilation
import GridGame.Declarations
import GridGame.Document
import GridGame.Document.Json
import GridGame.EditDistance
import GridGame.Excerpt
import GridGame.Expectation
import GridGame.Files
import GridGame.Json
import GridGame.Json.Token
import GridGame.Kind
import GridGame.Lowering
import GridGame.Main
import GridGame.Notice
import GridGame.Outline
import GridGame.Path
import GridGame.Piece
import GridGame.Progress
import GridGame.Project
import GridGame.Scope
import GridGame.Settings
import GridGame.Settings.Text
import GridGame.Setup
import GridGame.Span
import GridGame.Suggestion
import GridGame.Text.Digits
import GridGame.Text.Quoted
import GridGame.Text.Search
import GridGame.Text.Unprintable
import GridGame.Toml.Reader
import GridGame.Toml.Scalar
import GridGame.Toml.Table
import GridGame.Toml.Value
import GridGame.Tree
import GridGame.Tree.Builder
import GridGame.Tree.Visit
import GridGame.Proofs.Building
import GridGame.Proofs.Numbering
import GridGame.Proofs.Visibility
import GridGame.Proofs.Success
import GridGame.Proofs.Programs
import GridGame.Proofs.Uses
import GridGame.Proofs.Variables
import GridGame.Proofs.Builds
import GridGame.Proofs.Origins
import GridGame.Proofs.Placements
import GridGame.Proofs.Identifiers
import GridGame.Proofs.Copies
import GridGame.Proofs.Printouts
import GridGame.Proofs.Histories
import GridGame.Proofs.Accounts
import GridGame.Proofs.Limits
import GridGame.Proofs.Lifetimes
import GridGame.Proofs.Redeclarations
import GridGame.Proofs.Starts
import GridGame.Proofs.JsonTexts
import GridGame.Proofs.DocumentTexts
import GridGame.Proofs.DocumentTrees
import GridGame.Proofs.Continuations
import GridGame.Proofs.Beginnings
import GridGame.Proofs.Lookups
import GridGame.Proofs.Aliases
import GridGame.Proofs.ReadingBack
import GridGame.Proofs.FailedPlacements
import GridGame.Proofs.ArithmeticTokens
import GridGame.Proofs.Literals
import GridGame.Proofs.Collecting
import GridGame.Proofs.CompleteAssignments
import GridGame.Proofs.PrintoutLayouts
import GridGame.Proofs.ColumnLetters
import GridGame.Proofs.Coordinates
import GridGame.Proofs.Rounds
import GridGame.Proofs.Suggestions
import GridGame.Proofs.Visits
import GridGame.Proofs.Fragments
import GridGame.Proofs.Edits
import GridGame.Proofs.Grids
import GridGame.Proofs.WrittenFiles
import GridGame.Proofs.Excerpts

import GameScript.CommandLine.Entry
import GameScript.CommandLine.ErrorText
import GameScript.CommandLine.Option
import GameScript.CommandLine.Request
import GameScript.CommandLine.Run
import GameScript.Compare.Divergence
import GameScript.Compare.Mismatch
import GameScript.Config
import GameScript.Decimal.Binary
import GameScript.Decimal.Layout
import GameScript.Decimal.Read
import GameScript.Decimal.Shortest
import GameScript.Diagnostic.Excerpt
import GameScript.Diagnostic.Problem
import GameScript.Diagnostic.Report
import GameScript.Fold.Arithmetic
import GameScript.Fold.Evaluate
import GameScript.Layout.Format
import GameScript.Layout.Lines
import GameScript.Layout.Pack
import GameScript.Layout.RoundTrip
import GameScript.Lexer.Dialect
import GameScript.Lexer.Error
import GameScript.Lexer.Lexer
import GameScript.Lexer.Scan
import GameScript.Location
import GameScript.Main
import GameScript.Outline.Outline
import GameScript.Outline.Tree
import GameScript.Parser.Declaration
import GameScript.Parser.Expression
import GameScript.Parser.Pending
import GameScript.Parser.Recast
import GameScript.Parser.Recovery
import GameScript.Parser.Session
import GameScript.Parser.Statement
import GameScript.Parser.Step
import GameScript.Parser.SwitchLabels
import GameScript.Proofs.Abreast
import GameScript.Proofs.Accepted
import GameScript.Proofs.Advance
import GameScript.Proofs.Agreement
import GameScript.Proofs.Anchored
import GameScript.Proofs.Assignments
import GameScript.Proofs.Beside
import GameScript.Proofs.Bodies
import GameScript.Proofs.Boundary
import GameScript.Proofs.Braces
import GameScript.Proofs.CaseInsensitive
import GameScript.Proofs.Clean
import GameScript.Proofs.Complain
import GameScript.Proofs.Completeness
import GameScript.Proofs.Composed
import GameScript.Proofs.Concatenation
import GameScript.Proofs.Continued
import GameScript.Proofs.Cursors
import GameScript.Proofs.Cutting
import GameScript.Proofs.DanglingElse
import GameScript.Proofs.Declared
import GameScript.Proofs.Decoding
import GameScript.Proofs.Discipline
import GameScript.Proofs.Display
import GameScript.Proofs.Doubles
import GameScript.Proofs.Everywhere
import GameScript.Proofs.Excerpts
import GameScript.Proofs.Faultless
import GameScript.Proofs.FoldedAlike
import GameScript.Proofs.Formatted
import GameScript.Proofs.Formed
import GameScript.Proofs.Frame
import GameScript.Proofs.Halting
import GameScript.Proofs.Handlers
import GameScript.Proofs.Headed
import GameScript.Proofs.Inside
import GameScript.Proofs.Integers
import GameScript.Proofs.Laid
import GameScript.Proofs.Laying
import GameScript.Proofs.Layouts
import GameScript.Proofs.LetterCase
import GameScript.Proofs.Lexing
import GameScript.Proofs.Like
import GameScript.Proofs.LikeDeclaration
import GameScript.Proofs.LikeStatement
import GameScript.Proofs.Literals
import GameScript.Proofs.Located
import GameScript.Proofs.Mirrored
import GameScript.Proofs.Moves
import GameScript.Proofs.Nesting
import GameScript.Proofs.Noted
import GameScript.Proofs.Numbered
import GameScript.Proofs.Ordered
import GameScript.Proofs.Packed
import GameScript.Proofs.Packing
import GameScript.Proofs.Parts
import GameScript.Proofs.Permissive
import GameScript.Proofs.Pieces
import GameScript.Proofs.Places
import GameScript.Proofs.Plain
import GameScript.Proofs.Precedence
import GameScript.Proofs.Printing
import GameScript.Proofs.Recased
import GameScript.Proofs.Recasting
import GameScript.Proofs.Registered
import GameScript.Proofs.Regrouped
import GameScript.Proofs.Remainder
import GameScript.Proofs.Remarked
import GameScript.Proofs.Rendered
import GameScript.Proofs.Repacked
import GameScript.Proofs.Reread
import GameScript.Proofs.Restored
import GameScript.Proofs.Retelling
import GameScript.Proofs.Retold
import GameScript.Proofs.Rooted
import GameScript.Proofs.Segments
import GameScript.Proofs.Sentences
import GameScript.Proofs.Shape
import GameScript.Proofs.Shift
import GameScript.Proofs.Shifting
import GameScript.Proofs.Showing
import GameScript.Proofs.Sound
import GameScript.Proofs.SourceOrder
import GameScript.Proofs.Spacing
import GameScript.Proofs.Spelling
import GameScript.Proofs.Squeezed
import GameScript.Proofs.Stacking
import GameScript.Proofs.Standing
import GameScript.Proofs.Steady
import GameScript.Proofs.Stored
import GameScript.Proofs.Stubs
import GameScript.Proofs.Switched
import GameScript.Proofs.SwitchedBody
import GameScript.Proofs.Termination
import GameScript.Proofs.Trivia
import GameScript.Proofs.Turn
import GameScript.Proofs.Underway
import GameScript.Proofs.Unerring
import GameScript.Proofs.Unlabelled
import GameScript.Proofs.Upcoming
import GameScript.Proofs.WellFormed
import GameScript.Proofs.Whole
import GameScript.Text.Alphanumeric
import GameScript.Text.Basic
import GameScript.Text.Hidden
import GameScript.Token
import GameScript.TokenStream
import GameScript.Tree.Expr
import GameScript.Tree.Recast
import GameScript.Tree.Relabel
import GameScript.Tree.Render
import GameScript.Tree.Script
import GameScript.Tree.Stmt
import GameScript.Tree.View
import GameScript.Value.Literal
import GameScript.Value.Value
import GameScript.Vocabulary.Directive
import GameScript.Vocabulary.Keyword
import GameScript.Vocabulary.Operator
import GameScript.Vocabulary.Punctuation

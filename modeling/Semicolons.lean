import Semicolons.Bracket
import Semicolons.CommandLine.Arguments
import Semicolons.CommandLine.Session
import Semicolons.Conversion
import Semicolons.Diagnostic
import Semicolons.Failure
import Semicolons.Files
import Semicolons.Insertion
import Semicolons.Keyword
import Semicolons.Lexeme.Basic
import Semicolons.Lexeme.Fault
import Semicolons.Lexeme.Kind
import Semicolons.Lexeme.Phase
import Semicolons.Listing
import Semicolons.Main
import Semicolons.Nesting
import Semicolons.Path
import Semicolons.Place
import Semicolons.Policy
import Semicolons.Position
import Semicolons.Problem
import Semicolons.Proofs.CommandLine.Session
import Semicolons.Proofs.Conversion
import Semicolons.Proofs.Files.Written
import Semicolons.Proofs.Insertion.Confluence
import Semicolons.Proofs.Insertion.Decision
import Semicolons.Proofs.Insertion.LineFeedRule
import Semicolons.Proofs.Insertion.Lines
import Semicolons.Proofs.Insertion.Points
import Semicolons.Proofs.Insertion.Relexing
import Semicolons.Proofs.Insertion.Returns
import Semicolons.Proofs.Insertion.Rule
import Semicolons.Proofs.Insertion.Spacing
import Semicolons.Proofs.Lexeme.Cut
import Semicolons.Proofs.Lexeme.Delimited
import Semicolons.Proofs.Lexeme.Layout
import Semicolons.Proofs.Lexeme.LongestMark
import Semicolons.Proofs.Lexeme.Lookahead
import Semicolons.Proofs.Lexeme.Maximal
import Semicolons.Proofs.Lexeme.Number
import Semicolons.Proofs.Lexeme.Punctuated
import Semicolons.Proofs.Lexeme.Spacing
import Semicolons.Proofs.Listing
import Semicolons.Proofs.Nesting.Pairing
import Semicolons.Proofs.Nesting.Partner
import Semicolons.Proofs.Nesting.Reading
import Semicolons.Proofs.Nesting.Word
import Semicolons.Proofs.Place.Ahead
import Semicolons.Proofs.Place.Gap
import Semicolons.Proofs.Place.LineStart
import Semicolons.Proofs.Place.Parentheses
import Semicolons.Proofs.Place.Runs
import Semicolons.Proofs.Place.Visible
import Semicolons.Proofs.Position.Order
import Semicolons.Proofs.Problem.Acceptance
import Semicolons.Proofs.Problem.ClosingBracket
import Semicolons.Proofs.Problem.Delimited
import Semicolons.Proofs.Problem.DetachedBody
import Semicolons.Proofs.Problem.LeftOpen
import Semicolons.Proofs.Problem.Lexical
import Semicolons.Proofs.Problem.Log
import Semicolons.Proofs.Problem.Mapped
import Semicolons.Proofs.Problem.Outline
import Semicolons.Proofs.Problem.Placement
import Semicolons.Proofs.Problem.Reconversion
import Semicolons.Proofs.Problem.Repetition
import Semicolons.Proofs.Problem.Report
import Semicolons.Proofs.Problem.Returns
import Semicolons.Proofs.Problem.Spacing
import Semicolons.Proofs.Problem.Structural
import Semicolons.Proofs.Signature.Backward
import Semicolons.Proofs.Signature.Body
import Semicolons.Proofs.Signature.Declaration
import Semicolons.Proofs.Signature.Defect
import Semicolons.Proofs.Signature.Parentheses
import Semicolons.Proofs.Signature.Punctuated
import Semicolons.Proofs.Signature.Result
import Semicolons.Proofs.Site.Counting
import Semicolons.Proofs.Site.Pairing
import Semicolons.Proofs.Site.Punctuated
import Semicolons.Proofs.Site.Sequence
import Semicolons.Proofs.Token.Layout
import Semicolons.Proofs.Token.Maximal
import Semicolons.Proofs.Token.Number
import Semicolons.Proofs.Token.Restart
import Semicolons.Proofs.Token.Tiling
import Semicolons.Proofs.Transfer.Reading
import Semicolons.Proofs.Transfer.SizeLimit
import Semicolons.Proofs.Transfer.Writing
import Semicolons.Proofs.World.Outcome
import Semicolons.Proofs.World.Target
import Semicolons.Punctuation
import Semicolons.Signature
import Semicolons.Site
import Semicolons.Span
import Semicolons.Text.Quoted
import Semicolons.Token
import Semicolons.Transfer
import Semicolons.Unicode.Alphabetic
import Semicolons.Unicode.Boundaries
import Semicolons.Unicode.GraphemeExtend
import Semicolons.Unicode.Numeric
import Semicolons.Unicode.Unprintable
import Semicolons.World

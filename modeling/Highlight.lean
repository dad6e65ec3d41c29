import Highlight.Catalog.Basic
import Highlight.Catalog.Bundle
import Highlight.Catalog.Call
import Highlight.Catalog.Registration
import Highlight.Definition.Basic
import Highlight.Definition.Error
import Highlight.Definition.Normal
import Highlight.Definition.Reader
import Highlight.Definition.Stock
import Highlight.Definition.Writer
import Highlight.Dictionary
import Highlight.Error
import Highlight.File.Access
import Highlight.File.Frame
import Highlight.File.Path
import Highlight.Grammar.Basic
import Highlight.Grammar.Compilation
import Highlight.Grammar.Keywords
import Highlight.Grammar.Mode
import Highlight.Hook
import Highlight.Json.Binary
import Highlight.Json.Decoding
import Highlight.Json.Document
import Highlight.Json.Fault
import Highlight.Json.Parser
import Highlight.Json.Value
import Highlight.Json.Writer
import Highlight.Main
import Highlight.Pattern.Bracket
import Highlight.Pattern.CharSet
import Highlight.Pattern.Composition
import Highlight.Pattern.Error
import Highlight.Pattern.Escape
import Highlight.Pattern.Extent
import Highlight.Pattern.Matcher
import Highlight.Pattern.Node
import Highlight.Pattern.Parser
import Highlight.Pattern.Plan
import Highlight.Pattern.Regex
import Highlight.Pattern.RuleSet
import Highlight.Pattern.Source
import Highlight.Pattern.Token
import Highlight.Proofs.Catalog.Bundle
import Highlight.Proofs.Catalog.Calls
import Highlight.Proofs.Catalog.Rejecting
import Highlight.Proofs.Catalog.Restoring
import Highlight.Proofs.Definition.Covering
import Highlight.Proofs.Definition.Parts
import Highlight.Proofs.Definition.Pieces
import Highlight.Proofs.Definition.Settled
import Highlight.Proofs.Definition.Within
import Highlight.Proofs.Grammar.Arrangement
import Highlight.Proofs.Grammar.Brackets
import Highlight.Proofs.Grammar.Covering
import Highlight.Proofs.Grammar.Cycles
import Highlight.Proofs.Grammar.Ending
import Highlight.Proofs.Grammar.Exploring
import Highlight.Proofs.Grammar.Inheriting
import Highlight.Proofs.Grammar.Places
import Highlight.Proofs.Grammar.Recording
import Highlight.Proofs.Grammar.Terminators
import Highlight.Proofs.Grammar.Uniting
import Highlight.Proofs.Json.Covering
import Highlight.Proofs.Outcome
import Highlight.Proofs.Pattern.Carrying
import Highlight.Proofs.Pattern.Choice
import Highlight.Proofs.Pattern.Composing
import Highlight.Proofs.Pattern.Counting
import Highlight.Proofs.Pattern.Matching
import Highlight.Proofs.Pattern.Planning
import Highlight.Proofs.Pattern.Printing
import Highlight.Proofs.Pattern.Reading.Basic
import Highlight.Proofs.Pattern.Reading.Bracket
import Highlight.Proofs.Pattern.Reading.Escape
import Highlight.Proofs.Pattern.Reading.Name
import Highlight.Proofs.Pattern.Reading.Numbering
import Highlight.Proofs.Pattern.Reading.Placing
import Highlight.Proofs.Pattern.Reading.Sequence
import Highlight.Proofs.Pattern.Reading.Token
import Highlight.Proofs.Pattern.Remembering
import Highlight.Proofs.Pattern.Renumbering
import Highlight.Proofs.Pattern.RoundTrip
import Highlight.Proofs.Pattern.Standing
import Highlight.Proofs.Pattern.Union
import Highlight.Proofs.Pattern.Walking
import Highlight.Proofs.Scan.Activations
import Highlight.Proofs.Scan.Alike
import Highlight.Proofs.Scan.Bounds
import Highlight.Proofs.Scan.Brackets
import Highlight.Proofs.Scan.Conservation
import Highlight.Proofs.Scan.Degradation
import Highlight.Proofs.Scan.Detection
import Highlight.Proofs.Scan.Emission
import Highlight.Proofs.Scan.Hits
import Highlight.Proofs.Scan.Isolation
import Highlight.Proofs.Scan.Ledger
import Highlight.Proofs.Scan.Looping
import Highlight.Proofs.Scan.Moves
import Highlight.Proofs.Scan.Nesting
import Highlight.Proofs.Scan.Options
import Highlight.Proofs.Scan.Order
import Highlight.Proofs.Scan.Parts
import Highlight.Proofs.Scan.Progressing
import Highlight.Proofs.Scan.Ranking
import Highlight.Proofs.Scan.Regrouping
import Highlight.Proofs.Scan.Returning
import Highlight.Proofs.Scan.Round
import Highlight.Proofs.Scan.Scoring
import Highlight.Proofs.Scan.Spans
import Highlight.Proofs.Scan.Standing
import Highlight.Proofs.Scan.Transitions
import Highlight.Proofs.Scan.Turning
import Highlight.Proofs.Settling
import Highlight.Proofs.Text.Digits
import Highlight.Proofs.Tree.Brackets
import Highlight.Proofs.Tree.Building
import Highlight.Proofs.Tree.Leaves
import Highlight.Proofs.Tree.Markup
import Highlight.Proofs.Tree.Reading
import Highlight.Proofs.Tree.Tags
import Highlight.Proofs.Tree.Words
import Highlight.Registry
import Highlight.Scan.Detection
import Highlight.Scan.Emission
import Highlight.Scan.Result
import Highlight.Scan.Run
import Highlight.Scan.Settings
import Highlight.Scan.Stack
import Highlight.Scan.State
import Highlight.Scan.Step
import Highlight.Text
import Highlight.Text.Quoted
import Highlight.Text.Words
import Highlight.Tool.Bundler
import Highlight.Tool.Highlighter
import Highlight.Tool.Outcome
import Highlight.Tool.Request
import Highlight.Tree.Basic
import Highlight.Tree.Builder
import Highlight.Tree.Html
import Highlight.Tree.Json
import Highlight.Unicode.Category
import Highlight.Unicode.LetterCase
import Highlight.Unicode.Letters
import Highlight.Unicode.Lowercase
import Highlight.Unicode.Printable
import Highlight.Unicode.Ranges
import Highlight.Unicode.Script

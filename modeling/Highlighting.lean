import Highlighting.Registry
import Highlighting.Output.Format
import Highlighting.Config.Settings
import Highlighting.CommandLine.Run
import Highlighting.Main
import Highlighting.Proofs.Pattern
import Highlighting.Proofs.Scan.Candidates
import Highlighting.Proofs.Tree
import Highlighting.Proofs.Scan.Core
import Highlighting.Proofs.Scan.Cache
import Highlighting.Proofs.Regex.Bounds
import Highlighting.Proofs.Scan.Lossless
import Highlighting.Proofs.Grammar
import Highlighting.Proofs.Scan.Place
import Highlighting.Proofs.Scan.Path
import Highlighting.Proofs.Scan.Moves
import Highlighting.Proofs.Scan.Termination
import Highlighting.Proofs.Scan.Trail
import Highlighting.Proofs.Scan.Retrace
import Highlighting.Proofs.Scan.Replay
import Highlighting.Proofs.Scan.Standing
import Highlighting.Proofs.Scan.Marks
import Highlighting.Proofs.Scan.Brackets
import Highlighting.Proofs.Regex.Steady
import Highlighting.Proofs.Scan.Pieces
import Highlighting.Proofs.Scan.Spans
import Highlighting.Proofs.Grammar.Lenient
import Highlighting.Proofs.Scan.Lenient
import Highlighting.Proofs.Grammar.Keywords
import Highlighting.Proofs.Grammar.Realized
import Highlighting.Proofs.Language.Tables
import Highlighting.Proofs.NumberLiteral.Longest
import Highlighting.Proofs.Regex.Starts
import Highlighting.Proofs.Tree.First
import Highlighting.Proofs.Scan.Numbers
import Highlighting.Proofs.Language.BuiltIn
import Highlighting.Proofs.Grammar.Lines
import Highlighting.Proofs.Scan.Seam.Behind
import Highlighting.Proofs.Scan.Seam.Buffer
import Highlighting.Proofs.Scan.Leaves
import Highlighting.Proofs.Tree.Glue
import Highlighting.Proofs.Scan.Seam.Joined
import Highlighting.Proofs.Language.Lines
import Highlighting.Proofs.Scan.Lookbehind
import Highlighting.Proofs.Language.Assembly
import Highlighting.Proofs.Language.Names
import Highlighting.Proofs.Language.DottedNames
import Highlighting.Proofs.Tree.Kept
import Highlighting.Proofs.Scan.Wards
import Highlighting.Proofs.Scan.Abandonment
import Highlighting.Proofs.Grammar.Wards
import Highlighting.Proofs.Language.Illegal
import Highlighting.Proofs.Scan.Crossings
import Highlighting.Proofs.Scan.Stretches
import Highlighting.Proofs.Grammar.Rules
import Highlighting.Proofs.Pattern.Literals
import Highlighting.Proofs.Language.Literals
import Highlighting.Proofs.Language.Contexts
import Highlighting.Proofs.Language.Sequences
import Highlighting.Proofs.Registry
import Highlighting.Proofs.Detection
import Highlighting.Proofs.Text.Source
import Highlighting.Proofs.Scan.Tiles
import Highlighting.Proofs.Scan.Sums
import Highlighting.Proofs.Scan.Relevance
import Highlighting.Proofs.Language.EmptyWord
import Highlighting.Proofs.Scan.Checked
import Highlighting.Proofs.Scan.InBounds
import Highlighting.Proofs.Scan.Seam.Delimiters
import Highlighting.Proofs.Scan.Outset
import Highlighting.Proofs.Language.Members
import Highlighting.Proofs.Language.Delimiters
import Highlighting.Proofs.Language.MemberAccess
import Highlighting.Proofs.Grammar.Numbering
import Highlighting.Proofs.NumberLiteral.Backtracking
import Highlighting.Proofs.Regex.Classes
import Highlighting.Proofs.Regex.Enclosed
import Highlighting.Proofs.Regex.Reaching
import Highlighting.Proofs.Pattern.Leftmost
import Highlighting.Proofs.Language.Relevance
import Highlighting.Proofs.Tree.Labels
import Highlighting.Proofs.Language.Strings
import Highlighting.Proofs.Pattern.WholeWords
import Highlighting.Proofs.Tree.Merged
import Highlighting.Proofs.Output.Html
import Highlighting.Proofs.Language.Verbatim
import Highlighting.Proofs.Language.HexStrings
import Highlighting.Proofs.Pattern.Hygiene
import Highlighting.Proofs.Output.Terminal
import Highlighting.Proofs.Output.Listing
import Highlighting.Proofs.Theme
import Highlighting.Proofs.CommandLine.Settings
import Highlighting.Proofs.Scan.TrailOrder

import QueryLabel.FileTree
import QueryLabel.Main
import QueryLabel.Response.Decode
import QueryLabel.Proofs.Json.Grammar
import QueryLabel.Proofs.Json.NumberGrammar
import QueryLabel.Proofs.Json.StringGrammar
import QueryLabel.Proofs.Json.Completeness
import QueryLabel.Proofs.Json.Soundness
import QueryLabel.Proofs.Json.Document
import QueryLabel.Proofs.Request
import QueryLabel.Proofs.Json.Printing
import QueryLabel.Proofs.Binary64.Rounding
import QueryLabel.Proofs.Binary64.Shortest
import QueryLabel.Proofs.Binary64.Literal
import QueryLabel.Proofs.Binary64.Layout
import QueryLabel.Proofs.Json.NumberText
import QueryLabel.Proofs.Response.Printing
import QueryLabel.Proofs.Response.Decoding
import QueryLabel.Proofs.Engine
import QueryLabel.Proofs.Transfer
import QueryLabel.Proofs.Text.Position
import QueryLabel.Proofs.Json.Run
import QueryLabel.Proofs.Json.Extent
import QueryLabel.Proofs.Json.Refusal
import QueryLabel.Proofs.Request.Extent
import QueryLabel.Proofs.Request.Refusal
import QueryLabel.Proofs.Json.Unambiguous
import QueryLabel.Proofs.Json.Canonical
import QueryLabel.Proofs.Engine.Echo
import QueryLabel.Proofs.Json.Printable
import QueryLabel.Proofs.Json.Fragment
import QueryLabel.Proofs.Engine.Printable
import QueryLabel.Proofs.Filter.Crash
import QueryLabel.Proofs.Config.Layers
import QueryLabel.Proofs.Config.Resolution
import QueryLabel.Proofs.Process
import QueryLabel.Proofs.Process.Environment
import QueryLabel.Proofs.Binary64.Rank
import QueryLabel.Proofs.Binary64.Scaling
import QueryLabel.Proofs.Json.Score
import QueryLabel.Proofs.Response.Scores
import QueryLabel.Proofs.Engine.Configured
import QueryLabel.Proofs.Binary64.Correct
import QueryLabel.Proofs.Binary64.Fewest
import QueryLabel.Proofs.Binary64.Exact
import QueryLabel.Proofs.Json.NumberValue
import QueryLabel.Proofs.Response.Numbers
import QueryLabel.Proofs.Json.Token
import QueryLabel.Proofs.Json.Spacing
import QueryLabel.Proofs.Request.Spacing
import QueryLabel.Proofs.Json.Encoding
import QueryLabel.Proofs.Request.Encoding
import QueryLabel.Proofs.Json.Lookup
import QueryLabel.Proofs.Json.Numeral
import QueryLabel.Proofs.Request.Precedence
import QueryLabel.Proofs.Request.RoundTrip
import QueryLabel.Proofs.Engine.Positional
import QueryLabel.Proofs.Query
import QueryLabel.Proofs.Query.Building
import QueryLabel.Proofs.Request.OtherFields

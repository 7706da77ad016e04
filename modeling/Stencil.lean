import Stencil.Text.Blank
import Stencil.Text.Utf8
import Stencil.Text.Search
import Stencil.Text.Alphanumeric
import Stencil.Text.Casing
import Stencil.Text.Quoted
import Stencil.Text.Encoding
import Stencil.Number.Numeral
import Stencil.Number.Shortest
import Stencil.Json.Reader
import Stencil.Json.Fields
import Stencil.Path.Reader
import Stencil.Value.Text
import Stencil.Value.Equality
import Stencil.Expression.Reader
import Stencil.Token.Scan
import Stencil.Model.Inference
import Stencil.Document.Parser
import Stencil.Partials
import Stencil.Context
import Stencil.Formatter.Standard
import Stencil.Provider.Stock
import Stencil.Settings
import Stencil.Options
import Stencil.Sink
import Stencil.Signal
import Stencil.Render.Items
import Stencil.Render.Run
import Stencil.Template
import Stencil.Diagnostic.Errors
import Stencil.Diagnostic.Json
import Stencil.Proofs.Text.Blanks
import Stencil.Proofs.Text.Occurrence
import Stencil.Proofs.Number.Decimal
import Stencil.Proofs.Path.Characters
import Stencil.Proofs.Expression.Grammar
import Stencil.Proofs.Expression.Steps
import Stencil.Proofs.Expression.Faults
import Stencil.Proofs.Document.Grammar
import Stencil.Proofs.Document.Growth
import Stencil.Proofs.Document.Steps
import Stencil.Proofs.Document.Balance
import Stencil.Proofs.Expression.Completeness
import Stencil.Proofs.Expression.Printing
import Stencil.Proofs.Token.Classes
import Stencil.Proofs.Token.Printed
import Stencil.Proofs.Document.Printing
import Stencil.Proofs.Document.Roundtrip
import Stencil.Proofs.Render.Limit
import Stencil.Proofs.Html.Escape
import Stencil.Proofs.Render.Items
import Stencil.Proofs.Render.Device
import Stencil.Proofs.Render.Markup
import Stencil.Proofs.Render.Validity
import Stencil.Proofs.Document.Paths
import Stencil.Proofs.Document.Preorder
import Stencil.Proofs.Document.Handling
import Stencil.Proofs.Document.Recovery
import Stencil.Proofs.Model.Insertion
import Stencil.Proofs.Value.Address
import Stencil.Proofs.Render.Readings
import Stencil.Proofs.Path.Segments
import Stencil.Proofs.Render.View
import Stencil.Proofs.Model.Coverage
import Stencil.Proofs.Render.Congruence
import Stencil.Proofs.Render.Overflow
import Stencil.Proofs.Render.Nesting
import Stencil.Proofs.Render.Recursion
import Stencil.Proofs.Render.Termination
import Stencil.Proofs.Render.Cancellation
import Stencil.Proofs.Text.Decoding
import Stencil.Proofs.Document.SelfReference
import Stencil.Proofs.Render.Encodings
import Stencil.Proofs.Render.SelfReference
import Stencil.Proofs.Render.Evaluation
import Stencil.Proofs.Render.Sections
import Stencil.Proofs.Render.Lockstep
import Stencil.Proofs.Render.Room
import Stencil.Proofs.Render.Observation
import Stencil.Proofs.Formatter.Selection
import Stencil.Proofs.Formatter.Applicability
import Stencil.Proofs.Formatter.Ranking
import Stencil.Proofs.Formatter.Conformity
import Stencil.Proofs.Formatter.Fallbacks
import Stencil.Proofs.Path.Extension
import Stencil.Proofs.Context.Resolution
import Stencil.Proofs.Expression.Soundness
import Stencil.Proofs.Number.Rounding
import Stencil.Proofs.Number.Shortest
import Stencil.Proofs.Expression.Display
import Stencil.Proofs.Expression.Rereading
import Stencil.Proofs.Span.Position
import Stencil.Proofs.Token.Pieces
import Stencil.Proofs.Token.Tiling
import Stencil.Proofs.Document.Stacks
import Stencil.Proofs.Document.Scopes
import Stencil.Proofs.Document.Extents
import Stencil.Proofs.Diagnostic.Location
import Stencil.Proofs.Context.Keys
import Stencil.Proofs.Number.Integers
import Stencil.Proofs.Formatter.Conversion
import Stencil.Proofs.Value.Equality
import Stencil.Proofs.Diagnostic.Details
import Stencil.Proofs.Expression.Recovery
import Stencil.Proofs.Path.Language
import Stencil.Proofs.KeyMap.Order
import Stencil.Proofs.Model.Union
import Stencil.Proofs.Model.Listing
import Stencil.Proofs.Model.Parts
import Stencil.Proofs.Token.Faultless
import Stencil.Proofs.Token.Seams
import Stencil.Proofs.Token.Canonical
import Stencil.Proofs.Expression.Places
import Stencil.Proofs.Document.Places
import Stencil.Proofs.Document.Canonical
import Stencil.Proofs.Span.Lookup
import Stencil.Proofs.Value.Plain
import Stencil.Proofs.Expression.Cursor
import Stencil.Proofs.Expression.Bounds

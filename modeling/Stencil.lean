import Stencil.Cache
import Stencil.Cache.Relations
import Stencil.Cache.Store
import Stencil.Calendar
import Stencil.Command
import Stencil.Command.Words
import Stencil.Config
import Stencil.Config.Merge
import Stencil.Config.Problem
import Stencil.Config.Settings
import Stencil.Config.Value
import Stencil.Datum
import Stencil.Decimal.Binary
import Stencil.Decimal.Fixed
import Stencil.Decimal.Reading
import Stencil.Decimal.Shortest
import Stencil.Digest.Md5
import Stencil.Directive
import Stencil.Engine
import Stencil.Failure
import Stencil.Files.Path
import Stencil.Files.Tree
import Stencil.Identifier
import Stencil.Include
import Stencil.Json.Reader
import Stencil.Json.Writer
import Stencil.Language.Access
import Stencil.Language.Arithmetic
import Stencil.Language.Check
import Stencil.Language.Compare
import Stencil.Language.Display
import Stencil.Language.Evaluate
import Stencil.Language.Filters
import Stencil.Language.Iterate
import Stencil.Language.Kind
import Stencil.Language.Methods
import Stencil.Language.Parse
import Stencil.Language.Syntax
import Stencil.Language.Template
import Stencil.Language.Tests
import Stencil.Language.Token
import Stencil.Language.Value
import Stencil.Log.Journal
import Stencil.Log.Line
import Stencil.Log.Logger
import Stencil.Log.Record
import Stencil.Log.Setup
import Stencil.Main
import Stencil.Minify
import Stencil.Note
import Stencil.Percent
import Stencil.Placeholder
import Stencil.Proofs.Cache.Cascade
import Stencil.Proofs.Cache.Dependents
import Stencil.Proofs.Cache.Invalidation
import Stencil.Proofs.Cache.Order
import Stencil.Proofs.Cache.Store
import Stencil.Proofs.Cache.Versions
import Stencil.Proofs.Config.Merge
import Stencil.Proofs.Config.Precedence
import Stencil.Proofs.Config.Readjusting
import Stencil.Proofs.Config.Reports
import Stencil.Proofs.Config.Validation
import Stencil.Proofs.Datum
import Stencil.Proofs.Decimal.Binary
import Stencil.Proofs.Directive
import Stencil.Proofs.Files
import Stencil.Proofs.Files.Listing
import Stencil.Proofs.Files.Path
import Stencil.Proofs.Files.Settling
import Stencil.Proofs.Files.Walk
import Stencil.Proofs.Identifier
import Stencil.Proofs.Identifier.Canonical
import Stencil.Proofs.Include
import Stencil.Proofs.Include.Directives
import Stencil.Proofs.Json.Numbers
import Stencil.Proofs.Json.RoundTrip
import Stencil.Proofs.Json.Strings
import Stencil.Proofs.Log.Decoding
import Stencil.Proofs.Minify
import Stencil.Proofs.Placeholder.Filling
import Stencil.Proofs.Placeholder.Masking
import Stencil.Proofs.Placeholder.Occurrences
import Stencil.Proofs.Placeholder.Simultaneous
import Stencil.Proofs.Placeholder.Substitution
import Stencil.Proofs.Placeholder.Token
import Stencil.Proofs.Reading.Assembly
import Stencil.Proofs.Reading.Circles
import Stencil.Proofs.Reading.Edges
import Stencil.Proofs.Reading.Flatten
import Stencil.Proofs.Reading.Resumption
import Stencil.Proofs.Reading.Steps
import Stencil.Proofs.Session.Account
import Stencil.Proofs.Session.Alone
import Stencil.Proofs.Session.Asking
import Stencil.Proofs.Session.Change
import Stencil.Proofs.Session.Circularity
import Stencil.Proofs.Session.Coherence
import Stencil.Proofs.Session.Confinement
import Stencil.Proofs.Session.Documented
import Stencil.Proofs.Session.Entries
import Stencil.Proofs.Session.Failing
import Stencil.Proofs.Session.Fetching
import Stencil.Proofs.Session.Flattening
import Stencil.Proofs.Session.Freshness
import Stencil.Proofs.Session.Patience
import Stencil.Proofs.Session.Precision
import Stencil.Proofs.Session.Precompiling
import Stencil.Proofs.Session.Provenance
import Stencil.Proofs.Session.Relating
import Stencil.Proofs.Session.Replacement
import Stencil.Proofs.Session.Requests
import Stencil.Proofs.Session.Rereading
import Stencil.Proofs.Session.Reset
import Stencil.Proofs.Session.Run
import Stencil.Proofs.Session.Sequence
import Stencil.Proofs.Session.Sharing
import Stencil.Proofs.Session.Step
import Stencil.Proofs.Session.Visiting
import Stencil.Proofs.Shrink.Gap
import Stencil.Proofs.Shrink.Script
import Stencil.Proofs.Text.Find
import Stencil.Reading
import Stencil.Session
import Stencil.Session.Calls
import Stencil.Session.Fault
import Stencil.Shrink.Script
import Stencil.Shrink.Stylesheet
import Stencil.Surroundings
import Stencil.Terminal.Lines
import Stencil.Terminal.Markup
import Stencil.Terminal.Table
import Stencil.Text.Base64
import Stencil.Text.Blank
import Stencil.Text.Case
import Stencil.Text.Columns
import Stencil.Text.Cut
import Stencil.Text.Digit
import Stencil.Text.Find
import Stencil.Text.Printable
import Stencil.Text.Quoted
import Stencil.Text.Runs
import Stencil.Text.Utf8
import Stencil.Text.Word
import Stencil.Yaml.Block
import Stencil.Yaml.Cursor
import Stencil.Yaml.Fault
import Stencil.Yaml.Moment
import Stencil.Yaml.Node
import Stencil.Yaml.Plain
import Stencil.Yaml.Quoted
import Stencil.Yaml.Reader
import Stencil.Yaml.Scalar
import Stencil.Yaml.Token

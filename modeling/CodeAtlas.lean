import CodeAtlas.Command.Arguments
import CodeAtlas.Command.Switch
import CodeAtlas.Config.Compose
import CodeAtlas.Config.Connection
import CodeAtlas.Config.Document
import CodeAtlas.Config.Environment
import CodeAtlas.Config.VocabularyFile
import CodeAtlas.Config.Warned
import CodeAtlas.Data.Access
import CodeAtlas.Data.Display
import CodeAtlas.Data.Equal
import CodeAtlas.Data.Json.Printer
import CodeAtlas.Data.Json.Reader
import CodeAtlas.Data.Order
import CodeAtlas.Data.Value
import CodeAtlas.Digest.Sha1
import CodeAtlas.Entity.Declared
import CodeAtlas.Entity.Uri
import CodeAtlas.Extract.Batch
import CodeAtlas.Extract.Process
import CodeAtlas.Extract.Schedule
import CodeAtlas.Extract.Source
import CodeAtlas.Extract.Types
import CodeAtlas.Failure
import CodeAtlas.Files.Discovery
import CodeAtlas.Files.Path
import CodeAtlas.Files.Tree
import CodeAtlas.Files.Write
import CodeAtlas.Graph.Connect
import CodeAtlas.Graph.Database
import CodeAtlas.Graph.Ingest
import CodeAtlas.Graph.Payload
import CodeAtlas.Graph.Statement
import CodeAtlas.Index.Answer
import CodeAtlas.Index.Basic
import CodeAtlas.Index.Load
import CodeAtlas.Index.Question
import CodeAtlas.Index.Search
import CodeAtlas.Index.Tool
import CodeAtlas.Java.Grammar
import CodeAtlas.Java.Rule
import CodeAtlas.Java.Token
import CodeAtlas.Log.Context
import CodeAtlas.Main
import CodeAtlas.Model.Basic
import CodeAtlas.Model.Stats
import CodeAtlas.Model.Wire
import CodeAtlas.Number.Binary64
import CodeAtlas.Number.Decimal
import CodeAtlas.Number.Shortest
import CodeAtlas.Pipeline.Classifier
import CodeAtlas.Pipeline.Flow
import CodeAtlas.Pipeline.Vocabulary
import CodeAtlas.Proofs.Entity.Components
import CodeAtlas.Proofs.Entity.Signature
import CodeAtlas.Proofs.Exchange.Entries
import CodeAtlas.Proofs.Exchange.RoundTrip
import CodeAtlas.Proofs.Extract.Comments
import CodeAtlas.Proofs.Extract.Membership
import CodeAtlas.Proofs.Extract.Scheduling
import CodeAtlas.Proofs.Model.Statistics
import CodeAtlas.Proofs.Order.StableSort
import CodeAtlas.Proofs.Pipeline.Classification
import CodeAtlas.Proofs.Pipeline.Links
import CodeAtlas.Proofs.Tree.DocumentOrder
import CodeAtlas.Proofs.Tree.WithoutComments
import CodeAtlas.Run.Extraction
import CodeAtlas.Run.Interrupt
import CodeAtlas.Run.Pipeline
import CodeAtlas.Run.Report
import CodeAtlas.Run.Stamp
import CodeAtlas.Text.Base64
import CodeAtlas.Text.Blank
import CodeAtlas.Text.Casing
import CodeAtlas.Text.CasingTable
import CodeAtlas.Text.Digits
import CodeAtlas.Text.Identifier
import CodeAtlas.Text.Lines
import CodeAtlas.Text.Printable
import CodeAtlas.Text.Quoted
import CodeAtlas.Text.Ranges
import CodeAtlas.Text.Utf8
import CodeAtlas.Tree.Comments
import CodeAtlas.Tree.Faults
import CodeAtlas.Tree.Kind
import CodeAtlas.Tree.Node
import CodeAtlas.Tree.Source
import CodeAtlas.Tree.Traversal
import CodeAtlas.Yaml.Content
import CodeAtlas.Yaml.Cursor
import CodeAtlas.Yaml.Node
import CodeAtlas.Yaml.ScalarText
import CodeAtlas.Yaml.ScalarValue
import CodeAtlas.Yaml.Tag
import CodeAtlas.Yaml.Token
import CodeAtlas.Proofs.Entity.Declared
import CodeAtlas.Proofs.Index.MethodLookup
import CodeAtlas.Proofs.Graph.MethodIdentity
import CodeAtlas.Graph.PropertyGraph
import CodeAtlas.Graph.Query
import CodeAtlas.Proofs.Graph.Depiction
import CodeAtlas.Proofs.Graph.Query
import CodeAtlas.Proofs.Graph.Subgraph
import CodeAtlas.Proofs.Graph.Storing
import CodeAtlas.Proofs.Graph.Commitment
import CodeAtlas.Proofs.Graph.Mirror
import CodeAtlas.Proofs.Text.Encoding
import CodeAtlas.Proofs.Data.Json
import CodeAtlas.Proofs.Text.Lines
import CodeAtlas.Proofs.Exchange.Line
import CodeAtlas.Proofs.Index.Latest
import CodeAtlas.Proofs.Index.Reloading
import CodeAtlas.Proofs.Index.Searching
import CodeAtlas.Proofs.Index.Surfaces
import CodeAtlas.Proofs.Graph.Accounting
import CodeAtlas.Proofs.Files.Writing
import CodeAtlas.Proofs.Run.Extraction
import CodeAtlas.Proofs.Run.Report
import CodeAtlas.Proofs.Run.Steps
import CodeAtlas.Proofs.Tree.Subtrees
import CodeAtlas.Proofs.Pipeline.CallSites
import CodeAtlas.Proofs.Pipeline.Joining
import CodeAtlas.Proofs.Exchange.Ordinals
import CodeAtlas.Proofs.Index.ToolCalls
import CodeAtlas.Proofs.Index.Resaving
import CodeAtlas.Proofs.Pipeline.Binding
import CodeAtlas.Proofs.Graph.Lossless
import CodeAtlas.Proofs.Extract.Supertypes
import CodeAtlas.Proofs.Entity.Distinctness
import CodeAtlas.Proofs.Extract.Acceptance
import CodeAtlas.Proofs.Entity.NameTokens
import CodeAtlas.Proofs.Index.Matches
import CodeAtlas.Proofs.Index.Bounds
import CodeAtlas.Proofs.Index.Verbatim
import CodeAtlas.Proofs.Config.Declarations
import CodeAtlas.Proofs.Config.Vocabularies
import CodeAtlas.Proofs.Index.Recount
import CodeAtlas.Proofs.Tree.Visits
import CodeAtlas.Proofs.Files.Sources
import CodeAtlas.Proofs.Run.Closing

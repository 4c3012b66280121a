import Interchange.Attempt
import Interchange.Binding
import Interchange.Calendar.Clock
import Interchange.Calendar.Date
import Interchange.Coercion
import Interchange.Command.Arguments
import Interchange.Command.Report
import Interchange.Command.Run
import Interchange.Config
import Interchange.Decimal.Binary64
import Interchange.Decimal.Numeral
import Interchange.Decimal.Rounding
import Interchange.Decimal.Shortest
import Interchange.Engine.Dispatcher
import Interchange.Engine.Notices
import Interchange.Engine.Strategy
import Interchange.ErrorLog
import Interchange.Files.Access
import Interchange.Files.Folder
import Interchange.Files.Location
import Interchange.Interface
import Interchange.Json
import Interchange.Json.Text
import Interchange.LineGroup
import Interchange.Main
import Interchange.Mapping
import Interchange.Path.Expr
import Interchange.Path.Grammar
import Interchange.Path.Reading
import Interchange.Path.Segment
import Interchange.Path.Selection
import Interchange.Path.Writing
import Interchange.Proofs.Acceptance
import Interchange.Proofs.Arena
import Interchange.Proofs.AttributeLists
import Interchange.Proofs.Binding
import Interchange.Proofs.Calendar
import Interchange.Proofs.Canonical
import Interchange.Proofs.Characters
import Interchange.Proofs.Checked
import Interchange.Proofs.Declarations
import Interchange.Proofs.Declared
import Interchange.Proofs.Deeds
import Interchange.Proofs.DigitGroups
import Interchange.Proofs.Elements
import Interchange.Proofs.Entries
import Interchange.Proofs.Escaping
import Interchange.Proofs.Evaluation
import Interchange.Proofs.Faults
import Interchange.Proofs.FieldNames
import Interchange.Proofs.Fields
import Interchange.Proofs.Finality
import Interchange.Proofs.Formatting
import Interchange.Proofs.Grammar
import Interchange.Proofs.History
import Interchange.Proofs.Holdings
import Interchange.Proofs.Idempotence
import Interchange.Proofs.Independence
import Interchange.Proofs.Insertion
import Interchange.Proofs.Isolation
import Interchange.Proofs.LeadingZeros
import Interchange.Proofs.LineBreaks
import Interchange.Proofs.LineGroup
import Interchange.Proofs.Lines
import Interchange.Proofs.Loading
import Interchange.Proofs.Lookups
import Interchange.Proofs.Mapping
import Interchange.Proofs.Members
import Interchange.Proofs.Memory
import Interchange.Proofs.Messages
import Interchange.Proofs.Namespaces
import Interchange.Proofs.Naming
import Interchange.Proofs.Nesting
import Interchange.Proofs.Numbering
import Interchange.Proofs.Octets
import Interchange.Proofs.Operands
import Interchange.Proofs.Outcome
import Interchange.Proofs.Ownership
import Interchange.Proofs.Partition
import Interchange.Proofs.Parts
import Interchange.Proofs.Pieces
import Interchange.Proofs.Policies
import Interchange.Proofs.Priority
import Interchange.Proofs.Readable
import Interchange.Proofs.Records
import Interchange.Proofs.ReferenceForms
import Interchange.Proofs.References
import Interchange.Proofs.Registration
import Interchange.Proofs.Reports
import Interchange.Proofs.Rereading
import Interchange.Proofs.Rounding
import Interchange.Proofs.Rows
import Interchange.Proofs.Run
import Interchange.Proofs.Scanning
import Interchange.Proofs.Selection
import Interchange.Proofs.Sorting
import Interchange.Proofs.Spelling
import Interchange.Proofs.Splitting
import Interchange.Proofs.Summary
import Interchange.Proofs.Survey
import Interchange.Proofs.Tables
import Interchange.Proofs.Tags
import Interchange.Proofs.Traversal
import Interchange.Proofs.Uniqueness
import Interchange.Proofs.Walking
import Interchange.Proofs.WholeNumbers
import Interchange.Proofs.Words
import Interchange.Proofs.Writing
import Interchange.Registry
import Interchange.Rule
import Interchange.RuleFile
import Interchange.Schema.Description
import Interchange.Schema.Loader
import Interchange.Schema.Survey
import Interchange.Shape
import Interchange.ShippingNotice
import Interchange.Store.Attempts
import Interchange.Store.Records
import Interchange.Store.Storage
import Interchange.Text.Blank
import Interchange.Text.Case
import Interchange.Text.Letter
import Interchange.Text.Quoted
import Interchange.Text.Utf8
import Interchange.Transform
import Interchange.Xml.Assembly
import Interchange.Xml.Attribute
import Interchange.Xml.Canonical
import Interchange.Xml.Document
import Interchange.Xml.Event
import Interchange.Xml.Reader
import Interchange.Xml.Reference
import Interchange.Xml.Walk
import Interchange.Yaml.Decoding
import Interchange.Yaml.Fault
import Interchange.Yaml.Layout
import Interchange.Yaml.Meaning
import Interchange.Yaml.Node
import Interchange.Yaml.Scalar
import Interchange.Yaml.Source
import Interchange.Yaml.Token

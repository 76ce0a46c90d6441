import CilProbe.Assembly.Basic
import CilProbe.Assembly.Bodies
import CilProbe.Assembly.Members
import CilProbe.Assembly.TypeNames
import CilProbe.Binary64
import CilProbe.Binary64.Reader
import CilProbe.Binary64.Text
import CilProbe.Bytes
import CilProbe.Bytes.Hex
import CilProbe.CallGraph.Basic
import CilProbe.CallGraph.Build
import CilProbe.CallGraph.Export
import CilProbe.CallGraph.Indexed
import CilProbe.Code.Body
import CilProbe.Code.DecodeError
import CilProbe.Code.Instruction
import CilProbe.Code.Listing
import CilProbe.Compressed
import CilProbe.Conversion
import CilProbe.DateTime
import CilProbe.DateTime.Calendar
import CilProbe.DateTime.Reader
import CilProbe.Decimal.Basic
import CilProbe.Decimal.Notation
import CilProbe.Decimal.Reader
import CilProbe.Decimal.Shortest
import CilProbe.Dependency
import CilProbe.Fault
import CilProbe.FileTree
import CilProbe.Guid
import CilProbe.Guid.Reader
import CilProbe.Host
import CilProbe.Host.Reflection
import CilProbe.Host.Script
import CilProbe.Host.Scripted
import CilProbe.Image.Basic
import CilProbe.Image.Managed
import CilProbe.Invocation.Boundary
import CilProbe.Invocation.Outcome
import CilProbe.Invocation.Pipeline
import CilProbe.Main
import CilProbe.Metadata.Basic
import CilProbe.Metadata.Error
import CilProbe.Metadata.Heap
import CilProbe.Metadata.Query
import CilProbe.Metadata.Table
import CilProbe.Metadata.Token
import CilProbe.Method
import CilProbe.Opcode
import CilProbe.Path
import CilProbe.Position
import CilProbe.Report
import CilProbe.Report.Options
import CilProbe.Report.Usage
import CilProbe.Session
import CilProbe.Signature.Basic
import CilProbe.Signature.Reader
import CilProbe.Synthesis.Argument
import CilProbe.Synthesis.Instance
import CilProbe.Text.Blank
import CilProbe.Text.CodePoints
import CilProbe.Text.Digit
import CilProbe.Text.Hex
import CilProbe.Text.JsonString
import CilProbe.Text.Lowercase
import CilProbe.Text.Numeral
import CilProbe.Text.Quoted
import CilProbe.Text.Unprintable
import CilProbe.Text.Utf16
import CilProbe.Text.Utf8
import CilProbe.TimeSpan
import CilProbe.TimeSpan.Reader
import CilProbe.TypeName
import CilProbe.Value
import CilProbe.Proofs.Code.Argument
import CilProbe.Proofs.Code.Item
import CilProbe.Proofs.Code.Listing
import CilProbe.Proofs.Code.Pieces
import CilProbe.Proofs.Code.Resolution
import CilProbe.Proofs.CallGraph.Order
import CilProbe.Proofs.CallGraph.Build
import CilProbe.Proofs.CallGraph.Search
import CilProbe.Proofs.CallGraph.Queue
import CilProbe.Proofs.CallGraph.Assembly
import CilProbe.Proofs.Code.Text
import CilProbe.Proofs.Failure
import CilProbe.Proofs.Metadata.Layout
import CilProbe.Proofs.Signature.Failure
import CilProbe.Proofs.Assembly.Failure
import CilProbe.Proofs.Assembly.Methods
import CilProbe.Proofs.Inspection
import CilProbe.Proofs.Assembly.Identity
import CilProbe.Proofs.Buffer
import CilProbe.Proofs.Metadata.Acceptance
import CilProbe.Proofs.Metadata.Tables
import CilProbe.Proofs.Metadata.RoundTrip
import CilProbe.Proofs.Signature.RoundTrip
import CilProbe.Proofs.Signature.Closed
import CilProbe.Proofs.Signature.Substitution
import CilProbe.Proofs.Assembly.Instantiation
import CilProbe.Proofs.Synthesis.Search
import CilProbe.Proofs.Synthesis.Described
import CilProbe.Proofs.Synthesis.Memo
import CilProbe.Proofs.Invocation.Preparation
import CilProbe.Proofs.Invocation.Ending
import CilProbe.Proofs.Invocation.Orderly
import CilProbe.Proofs.Invocation.Cancelled
import CilProbe.Proofs.Invocation.Output
import CilProbe.Proofs.Invocation.Sights
import CilProbe.Proofs.Signature.Reading
import CilProbe.Inspection.Members
import CilProbe.Inspection.Query
import CilProbe.Proofs.Inspection.Memory
import CilProbe.Proofs.Inspection.TypeNames
import CilProbe.Proofs.Inspection.Members
import CilProbe.Proofs.Inspection.Query
import CilProbe.Proofs.Invocation.Batch
import CilProbe.Proofs.Metadata.Heap
import CilProbe.Proofs.Metadata.HeapRoundTrip
import CilProbe.Proofs.Assembly.Ownership
import CilProbe.Proofs.Signature.Extent
import CilProbe.Proofs.Code.Body
import CilProbe.Proofs.Image.Bodies
import CilProbe.Proofs.Conversion.Integer
import CilProbe.Proofs.Conversion.Parameter
import CilProbe.Proofs.Conversion.Enumeration
import CilProbe.Proofs.Conversion.TimeSpan
import CilProbe.Proofs.Conversion.Decimal
import CilProbe.Proofs.Conversion.Range
import CilProbe.Proofs.Synthesis.Arguments
import CilProbe.Proofs.Synthesis.Watched
import CilProbe.Proofs.Synthesis.Depth
import CilProbe.Proofs.Signature.Rows
import CilProbe.Proofs.Signature.Marks
import CilProbe.Proofs.Assembly.GenericFlags
import CilProbe.Proofs.Assembly.InstantiationFlags
import CilProbe.Proofs.CallGraph.Expansion
import CilProbe.Proofs.Assembly.InstantiationCalls
import CilProbe.Proofs.CallGraph.Indexed
import CilProbe.Proofs.Metadata.Directory
import CilProbe.Proofs.TypeName
import CilProbe.Proofs.Assembly.TypeNames
import CilProbe.Proofs.Signature.ShortNames
import CilProbe.Proofs.Compressed
import CilProbe.Proofs.Lists
import CilProbe.Proofs.Path
import CilProbe.Proofs.FileTree
import CilProbe.Proofs.Dependency

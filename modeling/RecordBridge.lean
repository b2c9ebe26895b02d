import RecordBridge.Block
import RecordBridge.Buffer
import RecordBridge.Conversion.Assignment
import RecordBridge.Conversion.Container
import RecordBridge.Conversion.Field
import RecordBridge.Conversion.Guard
import RecordBridge.Conversion.Progress
import RecordBridge.Conversion.Record
import RecordBridge.Conversion.Request
import RecordBridge.Conversion.Source
import RecordBridge.Conversion.Statement
import RecordBridge.Deferred
import RecordBridge.Descriptor.Basic
import RecordBridge.Descriptor.Encoding
import RecordBridge.Descriptor.Lowering
import RecordBridge.Descriptor.Registry
import RecordBridge.Draft
import RecordBridge.Error
import RecordBridge.Generator
import RecordBridge.GoType
import RecordBridge.Header.Binding
import RecordBridge.Header.Form
import RecordBridge.Header.Reading
import RecordBridge.Header.Statement
import RecordBridge.Main
import RecordBridge.Naming.Identifier
import RecordBridge.Naming.Initialism
import RecordBridge.Naming.Snake
import RecordBridge.Place
import RecordBridge.Plugin.Error
import RecordBridge.Plugin.Parameters
import RecordBridge.Plugin.Reply
import RecordBridge.Schema.Basic
import RecordBridge.Schema.OpenRecord
import RecordBridge.Schema.Reach
import RecordBridge.Schema.Walk
import RecordBridge.Table
import RecordBridge.Text.Alphabetic
import RecordBridge.Text.Blank
import RecordBridge.Text.CaseMapping
import RecordBridge.Text.CharSpan
import RecordBridge.Text.LetterCase
import RecordBridge.Text.Quoted
import RecordBridge.Text.Split
import RecordBridge.Text.Visible
import RecordBridge.Wire.Basic
import RecordBridge.Wire.Message
import RecordBridge.Proofs.Conversion.Nesting
import RecordBridge.Proofs.Conversion.Termination
import RecordBridge.Proofs.Conversion.Derivation
import RecordBridge.Proofs.Conversion.Emission
import RecordBridge.Proofs.Conversion.Containers
import RecordBridge.Proofs.Conversion.Correctness
import RecordBridge.Proofs.Conversion.Allocation
import RecordBridge.Proofs.Conversion.TargetSafety
import RecordBridge.Proofs.Conversion.LocalWrites
import RecordBridge.Proofs.Indices
import RecordBridge.Proofs.Conversion.Declarations
import RecordBridge.Proofs.Conversion.LocalFunctions
import RecordBridge.Proofs.Conversion.Scoping
import RecordBridge.Proofs.Conversion.LocalNames
import RecordBridge.Proofs.Execution.Reads
import RecordBridge.Proofs.Conversion.SourceSafety
import RecordBridge.Proofs.Conversion.Assignments
import RecordBridge.Proofs.Conversion.Arbitration
import RecordBridge.Proofs.Conversion.Locality
import RecordBridge.Proofs.Conversion.Convertible
import RecordBridge.Proofs.Conversion.Identity
import RecordBridge.Proofs.Conversion.Layout
import RecordBridge.Proofs.Conversion.Recursion
import RecordBridge.Proofs.Conversion.SourcePaths
import RecordBridge.Proofs.Conversion.Chunks
import RecordBridge.Proofs.Conversion.Elements
import RecordBridge.Proofs.Conversion.StandIns
import RecordBridge.Proofs.Conversion.Copies
import RecordBridge.Proofs.Conversion.Guards
import RecordBridge.Proofs.Conversion.Allowing
import RecordBridge.Proofs.Buffer
import RecordBridge.Proofs.Generator
import RecordBridge.Proofs.Header.Binding
import RecordBridge.Proofs.Header.Filling
import RecordBridge.Proofs.Header.Keeping
import RecordBridge.Proofs.Header.Paths
import RecordBridge.Proofs.Header.Faults
import RecordBridge.Proofs.Header.VariableNames
import RecordBridge.Proofs.Header.Reading
import RecordBridge.Proofs.Header.Apart
import RecordBridge.Proofs.Casing
import RecordBridge.Proofs.Descriptor.Lowering
import RecordBridge.Proofs.Descriptor.Failure
import RecordBridge.Proofs.Descriptor.GoNames
import RecordBridge.Proofs.Plugin.Pieces
import RecordBridge.Proofs.Plugin.Reply
import RecordBridge.Proofs.Schema.Walk

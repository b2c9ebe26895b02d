import RecordBridge.Block
import RecordBridge.Text.Quoted

/-!
# Causes of failure

Why a generator gives no statements. A `GenerationError` is the fault of its inputs and comes with
an answer of no lines. A `Breakdown` is a use that callers have to rule out; it cuts a run short.
-/

namespace RecordBridge

/-- The kinds of type that hold fields or elements. -/
inductive Shape where
  | record
  | list
  | set
  | map
  deriving DecidableEq, Repr

/-- The word for a shape in messages. -/
def Shape.word : Shape → String
  | .record => "struct"
  | .list => "list"
  | .set => "set"
  | .map => "map"

/-- Why statements cannot be generated. -/
inductive GenerationError where
  /-- A mapping names a source path that leads to no field. -/
  | unknownSource (path : String)
  /-- A required target field has no source. -/
  | missingRequired (field : String)
  /-- The keys of a target map are not text. -/
  | keyNotText (field : String)
  /-- A header is bound to a field that cannot hold it. -/
  | headerTarget (header field : String)
  /-- The source of a target field has another shape. -/
  | incompatible (field : String) (expected : Shape)
  /-- A target path leads to no field. -/
  | unknownTarget (path : String)
  /-- The package of a named type is not known, for the given reason. -/
  | unresolvedPackage (typeName reason : String)
  deriving DecidableEq, Repr

/-- The wording of an error. -/
def GenerationError.message : GenerationError → String
  | .unknownSource path => "failed to find field ( " ++ path ++ " ) for transform"
  | .missingRequired field =>
    "required toField " ++ field ++ " does not have a valid fromField mapping"
  | .keyNotText field => "could not convert key (" ++ field ++ "), map is not string-keyed"
  | .headerTarget header field =>
    "invalid: trying to assign header " ++ header ++ " to non-string field in " ++ field
  | .incompatible field expected =>
    "could not convert " ++ expected.word ++ " fields, incompatible type for " ++ field
  | .unknownTarget path => "could not find field path in client request " ++ path
  | .unresolvedPackage typeName _ =>
    "could not lookup fieldType when building converter for " ++ typeName

/-- What cuts a run short. -/
inductive Breakdown where
  /-- A generated line would hold a line feed. -/
  | brokenLine (line : Line)
  /-- A header is bound to a field of type `int8`. -/
  | byteHeader
  /-- A type without a name is used where a named type is meant. -/
  | unnamedType (name : String)
  deriving DecidableEq, Repr

/-- The wording of a breakdown. -/
def Breakdown.message : Breakdown → String
  | .brokenLine line => "generated line contains a newline: " ++ Text.quoted line.indented
  | .byteHeader => "i8 header fields are not supported"
  | .unnamedType name => name ++ " is not a named type"

/-- A breakdown as it is seen from the block around it. -/
def Breakdown.deeper : Breakdown → Breakdown
  | .brokenLine line => .brokenLine line.deeper
  | fault => fault

/-- Why generating stops. -/
inductive Stop where
  | failed (cause : GenerationError)
  | broke (fault : Breakdown)
  /-- The bound on the nesting of records is used up. -/
  | unfinished
  deriving DecidableEq, Repr

/-- The cause of a stop as it is seen from the block around it. -/
def Stop.deeper : Stop → Stop
  | .broke fault => .broke fault.deeper
  | stop => stop

end RecordBridge

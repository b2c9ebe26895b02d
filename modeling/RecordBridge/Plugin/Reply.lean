import RecordBridge.Conversion.Request
import RecordBridge.Descriptor.Encoding
import RecordBridge.Descriptor.Lowering
import RecordBridge.Header.Binding
import RecordBridge.Plugin.Parameters

/-!
# The plugin

A request holds descriptors of files and a parameter that names messages in them. The response holds
one file with the generated statements, or an error. How a name is put into snake case is up to the
program.
-/

namespace RecordBridge

/-- A request to the plugin. -/
structure PluginRequest where
  parameter : String
  files : List FileDescriptor

/-- A generated file. -/
structure GeneratedFile where
  name : String
  content : String
  deriving DecidableEq, Repr

/-- The response of the plugin. -/
structure PluginResponse where
  error : Option String := none
  files : List GeneratedFile := []
  deriving DecidableEq, Repr

/-- What becomes of a request. -/
inductive Reply where
  | answered (response : PluginResponse)
  | broke (fault : Breakdown)
  | unfinished
  deriving DecidableEq, Repr

namespace PluginResponse

/-- The features that the plugin supports: fields of proto3 that are marked optional. -/
def features : Nat :=
  1

/-- The bytes of a response. -/
def encode (r : PluginResponse) : Wire.Bytes :=
  (match r.error with
    | some message => Wire.writeText 1 message
    | none => []) ++
  Wire.writeNumber 2 features ++
  r.files.flatMap fun f =>
    Wire.writeDelimited 15 (Wire.writeText 1 f.name ++ Wire.writeText 15 f.content)

end PluginResponse

namespace PluginRequest

/-- The request in some bytes. -/
def decode (bytes : Wire.Bytes) : Except Wire.DecodeError PluginRequest := do
  let v ← Wire.readAll RequestPart.grammar .request bytes
  .ok ⟨v.text 2, (v.messages 15).map .ofValues⟩

/-- The run of the generator that the parameters ask for, between the messages that they name. -/
def run (registry : Registry) (p : Parameters) : Except PluginError Outcome := do
  let name ← p.target
  let (target, lowered) := registry.lower name {}
  let target ← target
  match p.mode with
  | .convert =>
    let name ← p.source
    let (source, lowered) := registry.lower name lowered
    let source ← source
    .ok (ConversionRequest.run
      { schema := lowered.schema
        resolve := registry.package
        source := lowered.schema.fields source
        target := lowered.schema.fields target
        mappings := p.mappings
        optional := p.optional.keys })
  | mode =>
    .ok (BindingRequest.run
      { schema := lowered.schema
        resolve := registry.package
        target := lowered.schema.fields target
        mappings := p.mappings
        readsLiterals := mode = .propagate })

/-- The content of a file with the given lines. -/
def content (lines : List String) : String :=
  String.intercalate "\n" lines ++ "\n"

/-- The reply to a request whose parameters have been read. -/
def reply (r : PluginRequest) (snakeCase : String → String) (p : Parameters) :
    Except PluginError Reply := do
  match ← run (.ofFiles r.files) p with
  | .lines lines =>
    let name ← p.outputName snakeCase
    .ok (.answered { files := [⟨name, content lines⟩] })
  | .failed cause => .error (.generation cause)
  | .broke fault _ => .ok (.broke fault)
  | .unfinished => .ok .unfinished

/-- The reply to a request. Errors are part of the response. -/
def respond (r : PluginRequest) (snakeCase : String → String := snake) : Reply :=
  match Parameters.read r.parameter >>= r.reply snakeCase with
  | .ok reply => reply
  | .error e => .answered { error := some e.message }

/-- The exit code of the plugin, and what it writes, when it reads some bytes. -/
def serve (bytes : Wire.Bytes) (snakeCase : String → String := snake) : UInt32 × Wire.Bytes :=
  match decode bytes with
  | .error _ => (1, [])
  | .ok request =>
    match request.respond snakeCase with
    | .answered response => (0, response.encode)
    | .broke _ => (101, [])
    | .unfinished => (101, [])

end PluginRequest

end RecordBridge

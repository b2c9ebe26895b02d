import RecordBridge.Descriptor.Basic
import RecordBridge.Wire.Message

/-!
# Requests and responses as bytes

The request of the compiler to a plugin is read by a grammar of its message types, and then taken
apart into descriptors. The response is written field by field.
-/

namespace RecordBridge

open Wire

/-- The message types within a request. -/
inductive RequestPart where
  | request
  | version
  | file
  | message
  | field
  | enum
  | oneof
  | fileOptions
  | messageOptions
  deriving DecidableEq, Repr

namespace RequestPart

/-- The name of a message type. -/
def name : RequestPart → String
  | .request => "CodeGeneratorRequest"
  | .version => "Version"
  | .file => "FileDescriptorProto"
  | .message => "DescriptorProto"
  | .field => "FieldDescriptorProto"
  | .enum => "EnumDescriptorProto"
  | .oneof => "OneofDescriptorProto"
  | .fileOptions => "FileOptions"
  | .messageOptions => "MessageOptions"

/-- The known fields of a message type. -/
def rules : RequestPart → List (Rule RequestPart)
  | .request =>
    [⟨1, "file_to_generate", .text⟩, ⟨2, "parameter", .text⟩,
      ⟨3, "compiler_version", .message .version⟩, ⟨15, "proto_file", .message .file⟩]
  | .version =>
    [⟨1, "major", .number⟩, ⟨2, "minor", .number⟩, ⟨3, "patch", .number⟩, ⟨4, "suffix", .text⟩]
  | .file =>
    [⟨1, "name", .text⟩, ⟨2, "package", .text⟩, ⟨3, "dependency", .text⟩,
      ⟨4, "message_type", .message .message⟩, ⟨5, "enum_type", .message .enum⟩,
      ⟨7, "extension", .message .field⟩, ⟨8, "options", .message .fileOptions⟩,
      ⟨12, "syntax", .text⟩]
  | .message =>
    [⟨1, "name", .text⟩, ⟨2, "field", .message .field⟩, ⟨3, "nested_type", .message .message⟩,
      ⟨4, "enum_type", .message .enum⟩, ⟨6, "extension", .message .field⟩,
      ⟨7, "options", .message .messageOptions⟩, ⟨8, "oneof_decl", .message .oneof⟩,
      ⟨10, "reserved_name", .text⟩]
  | .field =>
    [⟨1, "name", .text⟩, ⟨2, "extendee", .text⟩, ⟨3, "number", .number⟩, ⟨4, "label", .number⟩,
      ⟨5, "type", .number⟩, ⟨6, "type_name", .text⟩, ⟨7, "default_value", .text⟩,
      ⟨9, "oneof_index", .number⟩, ⟨10, "json_name", .text⟩, ⟨17, "proto3_optional", .number⟩]
  | .enum => [⟨1, "name", .text⟩, ⟨5, "reserved_name", .text⟩]
  | .oneof => [⟨1, "name", .text⟩]
  | .fileOptions => [⟨11, "go_package", .text⟩]
  | .messageOptions =>
    [⟨1, "message_set_wire_format", .number⟩, ⟨2, "no_standard_descriptor_accessor", .number⟩,
      ⟨3, "deprecated", .number⟩, ⟨7, "map_entry", .number⟩]

/-- The grammar of requests. -/
def grammar : Grammar RequestPart :=
  ⟨name, rules⟩

end RequestPart

namespace FieldDescriptor

/-- The field described by the values of a message. -/
def ofValues (v : Values) : FieldDescriptor where
  name := v.text 1
  number := (v.int32? 3).getD 0
  label := .ofNumber (v.int32? 4)
  type := .ofNumber (v.int32? 5)
  typeName := v.text 6
  inOneof := (v.int32? 9).isSome
  proto3Optional := v.flag 17

end FieldDescriptor

/-- The names of the enumerations described by some messages. -/
def enumNames (messages : List Values) : List String :=
  messages.map (·.text 1)

namespace MessageDescriptor

mutual

/-- The message described by a value. -/
def ofValue : Value → MessageDescriptor
  | .message fields =>
    .mk (Values.text fields 1) ((Values.messages fields 2).map .ofValues) (ofField 3 fields)
      (enumNames (Values.messages fields 4)) ((Values.merged fields 7).flag 7)
  | _ => .mk "" [] [] [] false

/-- The messages described by the values of a field. -/
def ofField (number : Nat) : List (Nat × Value) → List MessageDescriptor
  | [] => []
  | (n, v) :: rest => if n = number then ofValue v :: ofField number rest else ofField number rest

end

end MessageDescriptor

namespace FileDescriptor

/-- The file described by the values of a message. -/
def ofValues (v : Values) : FileDescriptor where
  name := v.text 1
  package := v.text 2
  syntaxName := v.text 12
  goPackage := (v.merged 8).text 11
  messages := MessageDescriptor.ofField 4 v
  enums := enumNames (v.messages 5)

end FileDescriptor

end RecordBridge

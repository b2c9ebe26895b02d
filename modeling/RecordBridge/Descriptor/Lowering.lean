import RecordBridge.Descriptor.Registry
import RecordBridge.Plugin.Error
import RecordBridge.Schema.Reach

/-!
# Lowering

Messages as records of a schema. Presence follows the Go code for protobuf: messages, members of a
oneof and fields marked optional are pointers, other scalars are values. A message is entered before
its fields are lowered, so that messages may refer to themselves; one that fails stays entered,
without fields.
-/

namespace RecordBridge

/-- The messages that have been lowered. -/
structure Lowered where
  /-- The full names of the messages entered, the latest first. -/
  entered : List String := []
  /-- The records of the messages that were lowered without failure. -/
  schema : Schema := {}

/-- Lowers declarations, with what has been lowered kept also after a failure. -/
abbrev Lowering := ExceptT PluginError (StateM Lowered)

namespace Lowering

/-- Makes a message known as entered. -/
def enter (name : String) : Lowering Unit :=
  modify fun l => { l with entered := name :: l.entered }

/-- Attaches the fields of a record. -/
def attach (ref : RecordRef) (fields : List Field) : Lowering Unit :=
  modify fun l => { l with schema := ⟨l.schema.records ++ [(ref.id, fields)]⟩ }

variable (r : Registry)

/-- The map entry that a field repeats, if it does. -/
def mapEntry? (field : FieldDescriptor) : Option MessageDescriptor :=
  if field.label = .repeated && field.type = .message then
    match r.message? field.typeName with
    | some m => if m.descriptor.isMapEntry then some m.descriptor else none
    | none => none
  else none

/-- Whether a field always holds a value. -/
def isRequired (proto3 : Bool) (field : FieldDescriptor) : Bool :=
  if field.label = .repeated then true
  else if field.proto3Optional || field.inOneof then false
  else if proto3 then field.type != .message
  else field.label = .required

/-- The type of the values of a field of the message `owner`. Messages are lowered with `lower`. -/
def valueType (lower : String → Lowering RecordRef) (owner : String) (field : FieldDescriptor) :
    Lowering FieldType :=
  match field.type with
  | .double | .float => return .double
  | .int32 | .sint32 | .sfixed32 => return .int32
  | .int64 | .sint64 | .sfixed64 | .uint32 | .fixed32 | .uint64 | .fixed64 => return .int64
  | .bool => return .bool
  | .string => return .text
  | .bytes => return .binary
  | .enum =>
    match r.enum? field.typeName with
    | some e => return .enum e.goName e.file
    | none => throw (.unsupported (owner ++ "." ++ field.name) ("unknown enum " ++ field.typeName))
  | .message => return .record (← lower field.typeName)
  | .group =>
    throw (.unsupported (owner ++ "." ++ field.name) "groups have no Go field mapping")

/-- The type of the keys or values of a map: that of the entry field with a number. -/
def entryType (lower : String → Lowering RecordRef) (owner : String) (field : FieldDescriptor)
    (entry : MessageDescriptor) (number : Nat) : Lowering FieldType :=
  match entry.fields.find? fun inner => inner.number == Int.ofNat number with
  | some inner => valueType r lower owner inner
  | none =>
    throw (.unsupported (owner ++ "." ++ field.name) ("map entry has no field " ++ toString number))

/-- The type of a field. -/
def typeOf (lower : String → Lowering RecordRef) (owner : String) (field : FieldDescriptor) :
    Lowering FieldType :=
  match mapEntry? r field with
  | some entry => do
    let key ← entryType r lower owner field entry 1
    let value ← entryType r lower owner field entry 2
    return .map key value
  | none => do
    let type ← valueType r lower owner field
    return if field.label = .repeated then .list type else type

/-- Lowers the fields of a message, of which the first is the field `first` of the schema. -/
def fieldsOf (lower : String → Lowering RecordRef) (owner : String) (proto3 : Bool) :
    (first : Nat) → List FieldDescriptor → Lowering (List Field)
  | _, [] => return []
  | first, field :: rest => do
    let type ← typeOf r lower owner field
    let lowered : Field :=
      { id := first, name := field.name, required := isRequired proto3 field, type }
    return lowered :: (← fieldsOf lower owner proto3 (first + 1) rest)

/-- The number of the first field of the message at a position. -/
def firstField (position : Nat) : Nat :=
  (r.messages.take position).foldl (fun n m => n + m.2.descriptor.fields.length) 0

/-- Lowers a message and the messages that it refers to, unless it was entered before. Messages are
entered within each other up to `depth` levels. -/
def message : (depth : Nat) → (name : String) → Lowering RecordRef
  | 0, name =>
    match r.message? name with
    | some m => return r.ref name m
    | none => throw (.messageNotFound name)
  | depth + 1, name =>
    match r.message? name with
    | none => throw (.messageNotFound name)
    | some m => do
      let ref := r.ref name m
      if (← get).entered.contains name then return ref
      enter name
      let fields ←
        fieldsOf r (message depth) name m.proto3 (firstField r ref.id) m.descriptor.fields
      attach ref fields
      return ref

/-- The full name of a message that may be given without its leading dot. -/
def fullName (name : String) : String :=
  if Text.startsWith "." name then name else "." ++ name

/-- Lowers a message by its name. Messages cannot be entered deeper than there are messages. -/
def named (name : String) : Lowering RecordRef :=
  message r (r.messages.length + 1) (fullName name)

end Lowering

/-- Lowers a message, and tells also what has been lowered if that fails. -/
def Registry.lower (r : Registry) (name : String) (l : Lowered) :
    Except PluginError RecordRef × Lowered :=
  (Lowering.named r name).run l

end RecordBridge

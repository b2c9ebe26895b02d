import RecordBridge.Naming.Identifier

/-!
# Descriptors

The declarations of protobuf files as the compiler hands them to a plugin.
-/

namespace RecordBridge

/-- How often a field occurs. -/
inductive Label where
  | optional
  | required
  | repeated
  deriving DecidableEq, Repr

/-- The label of a number; others read as optional. -/
def Label.ofNumber : Option Int → Label
  | some 2 => .required
  | some 3 => .repeated
  | _ => .optional

/-- The type of a field. -/
inductive ProtoType where
  | double
  | float
  | int64
  | uint64
  | int32
  | fixed64
  | fixed32
  | bool
  | string
  | group
  | message
  | bytes
  | uint32
  | enum
  | sfixed32
  | sfixed64
  | sint32
  | sint64
  deriving DecidableEq, Repr

/-- The type of a number; others read as `double`. -/
def ProtoType.ofNumber : Option Int → ProtoType
  | some 2 => .float
  | some 3 => .int64
  | some 4 => .uint64
  | some 5 => .int32
  | some 6 => .fixed64
  | some 7 => .fixed32
  | some 8 => .bool
  | some 9 => .string
  | some 10 => .group
  | some 11 => .message
  | some 12 => .bytes
  | some 13 => .uint32
  | some 14 => .enum
  | some 15 => .sfixed32
  | some 16 => .sfixed64
  | some 17 => .sint32
  | some 18 => .sint64
  | _ => .double

/-- A field of a message. -/
structure FieldDescriptor where
  name : String
  number : Int
  label : Label
  type : ProtoType
  /-- The full name of the message or enumeration, if the type is one. -/
  typeName : String
  inOneof : Bool
  proto3Optional : Bool
  deriving DecidableEq, Repr

/-- A message with the messages and enumerations declared within it. -/
inductive MessageDescriptor where
  | mk (name : String) (fields : List FieldDescriptor) (nested : List MessageDescriptor)
      (enums : List String) (isMapEntry : Bool)

namespace MessageDescriptor

/-- The name of a message within its scope. -/
def name : MessageDescriptor → String
  | .mk name _ _ _ _ => name

/-- The fields of a message. -/
def fields : MessageDescriptor → List FieldDescriptor
  | .mk _ fields _ _ _ => fields

/-- Whether a message stands for the entries of a map. -/
def isMapEntry : MessageDescriptor → Bool
  | .mk _ _ _ _ isMapEntry => isMapEntry

end MessageDescriptor

/-- A file. -/
structure FileDescriptor where
  name : String
  package : String
  syntaxName : String
  /-- The Go package that the file asks for, or the empty text. -/
  goPackage : String
  messages : List MessageDescriptor
  enums : List String

namespace FileDescriptor

/-- Whether scalar fields without a label are plain values. -/
def isProto3 (f : FileDescriptor) : Bool :=
  f.syntaxName == "proto3"

/-- The name before the names of the declarations in a file. -/
def scope (f : FileDescriptor) : String :=
  if f.package.isEmpty then "" else "." ++ f.package

/-- The name of the Go package of a file. It is what follows the semicolon, or else the last
element, of the Go package that the file asks for. A file that asks for none gets the last part of
its package, and one without a package the stem of its own name. -/
def goPackageName (f : FileDescriptor) : String :=
  packageWord <|
    if !f.goPackage.isEmpty then
      match Text.cutFirst ';' f.goPackage.toList with
      | some (_, name) => String.ofList name
      | none => Text.afterLast '/' f.goPackage
    else if !f.package.isEmpty then Text.afterLast '.' f.package
    else
      let base := Text.afterLast '/' f.name
      (Text.dropEnd? ".proto" base).getD base

end FileDescriptor

end RecordBridge

import RecordBridge.Table

/-!
# Schemas

The records that the generators read and fill: field types, fields and the fields of every record.
Records may refer to themselves and to each other, so a type holds only a reference to a record and
the schema tells the fields.
-/

namespace RecordBridge

/-- A reference to a record type. References with one `id` mean the same record. -/
structure RecordRef where
  id : Nat
  name : String
  file : String
  deriving DecidableEq, Repr, Inhabited

/-- How a set appears in Go: as the keys of a map where its elements allow it, or as a slice. -/
inductive SetForm where
  | keyed
  | slice
  deriving DecidableEq, Repr, Inhabited

/-- The type of a field. -/
inductive FieldType where
  | bool
  | int8
  | int16
  | int32
  | int64
  | double
  | text
  | binary
  /-- A named enumeration. -/
  | enum (name file : String)
  /-- A named alias of another type. -/
  | alias (name file : String) (target : FieldType)
  | record (ref : RecordRef)
  | list (element : FieldType)
  | set (element : FieldType) (form : SetForm)
  | map (key value : FieldType)
  deriving DecidableEq, Repr, Inhabited

namespace FieldType

/-- The type behind all aliases. -/
def root : FieldType → FieldType
  | .alias _ _ target => target.root
  | other => other

/-- The record behind a type, also behind aliases. -/
def record? (t : FieldType) : Option RecordRef :=
  match t.root with
  | .record ref => some ref
  | _ => none

/-- Whether a type is text or an alias of text. -/
def isText (t : FieldType) : Bool :=
  match t.root with
  | .text => true
  | _ => false

/-- The name of a type in the schema language. -/
def name : FieldType → String
  | .bool => "bool"
  | .int8 => "byte"
  | .int16 => "i16"
  | .int32 => "i32"
  | .int64 => "i64"
  | .double => "double"
  | .text => "string"
  | .binary => "binary"
  | .enum name _ => name
  | .alias name _ _ => name
  | .record ref => ref.name
  | .list element => "list<" ++ element.name ++ ">"
  | .set element _ => "set<" ++ element.name ++ ">"
  | .map key value => "map<" ++ key.name ++ ", " ++ value.name ++ ">"

/-- The schema file that declares a named type. -/
def file? : FieldType → Option String
  | .enum _ file => some file
  | .alias _ file _ => some file
  | .record ref => some ref.file
  | _ => none

/-- Whether values of a type can be keys of a Go map. -/
def isHashable (t : FieldType) : Bool :=
  match t.root with
  | .bool | .int8 | .int16 | .int32 | .int64 | .double | .text | .enum _ _ => true
  | _ => false

end FieldType

/-- A field of a record. Occurrences with one `id` are the same field. -/
structure Field where
  id : Nat
  name : String
  required : Bool
  type : FieldType
  annotations : List (String × String) := []
  deriving DecidableEq, Repr, Inhabited

/-- The fields of the records, by the `id` of the record. -/
structure Schema where
  records : List (Nat × List Field) := []
  deriving Repr, Inhabited

namespace Schema

/-- The fields of a record in order; none if the schema does not tell them. -/
def fields (s : Schema) (ref : RecordRef) : List Field :=
  (s.records.lookup ref.id).getD []

end Schema

end RecordBridge

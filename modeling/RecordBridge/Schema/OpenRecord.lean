import RecordBridge.Schema.Basic
import RecordBridge.Text.Quoted

/-!
# Open records

A record is declared before its fields are known, so that its fields can refer to it. Fields are
attached once and stay.
-/

namespace RecordBridge

/-- A declared record, with its fields once they are attached. -/
structure OpenRecord where
  name : String
  file : String
  attached : Option (List Field) := none

namespace OpenRecord

/-- The fields of a record, none before they are attached. -/
def fields (r : OpenRecord) : List Field :=
  r.attached.getD []

/-- Attaches fields to a record that has none attached yet, even an empty list. -/
def attach? (r : OpenRecord) (fields : List Field) : Option OpenRecord :=
  match r.attached with
  | none => some { r with attached := some fields }
  | some _ => none

/-- The record with the names of its fields, for messages. -/
def describe (r : OpenRecord) : String :=
  "StructSpec \x7b name: " ++ Text.quoted r.name ++ ", file: " ++ Text.quoted r.file ++
    ", fields: [" ++ String.intercalate ", " (r.fields.map (Text.quoted ·.name)) ++ "] \x7d"

end OpenRecord

end RecordBridge

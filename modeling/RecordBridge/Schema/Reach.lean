import RecordBridge.Schema.Basic

/-!
# Reachable records

Which records occur within a record, at any depth, and which records occur within themselves. The
search is breadth first. It enters each record once, so that each occurrence of a record in the
schema is looked at no more than once.
-/

namespace RecordBridge

namespace FieldType

/-- The records that occur in a type: behind aliases, as elements, as keys and as values. -/
def mentions : FieldType → List RecordRef
  | .record ref => [ref]
  | .alias _ _ target => target.mentions
  | .list element => element.mentions
  | .set element _ => element.mentions
  | .map key value => key.mentions ++ value.mentions
  | _ => []

end FieldType

namespace Schema

/-- The records that occur in the types of some fields. -/
def mentioned (fields : List Field) : List RecordRef :=
  fields.flatMap (·.type.mentions)

/-- The records that occur in the fields of a record. -/
def successors (s : Schema) (id : Nat) : List Nat :=
  (mentioned ((s.records.lookup id).getD [])).map (·.id)

/-- Enters records in order, each behind those that wait, and returns the records entered, the
latest first. Records seen are passed over. At most `steps` records are looked at. -/
def search (s : Schema) : (steps : Nat) → (seen waiting : List Nat) → List Nat
  | 0, seen, _ => seen
  | _ + 1, seen, [] => seen
  | steps + 1, seen, id :: waiting =>
    if id ∈ seen then s.search steps seen waiting
    else s.search steps (id :: seen) (waiting ++ s.successors id)

/-- How often records occur in the schema. A search that enters each record once looks at no more
than these records, and at those that it starts with. -/
def occurrences (s : Schema) : Nat :=
  (s.records.flatMap fun r => mentioned r.2).length

/-- The records that can be reached from some records, these included. The record that was met first
comes last. -/
def reachable (s : Schema) (start : List Nat) : List Nat :=
  s.search (start.length + s.occurrences) [] start

/-- Whether a record occurs within itself. -/
def isCyclic (s : Schema) (id : Nat) : Bool :=
  id ∈ s.reachable (s.successors id)

end Schema

end RecordBridge

import RecordBridge.Place

/-!
# Sources

Where a target field takes its value from. A source field of the same name is its direct source; a
mapping of its path names another one. If there are both, one of them is the primary source, and the
other one may stand in for it where it is absent.
-/

namespace RecordBridge

/-- A path into other data from which a target takes its value. -/
structure Mapping where
  source : String
  /-- Whether it goes before a direct source. -/
  overrides : Bool
  deriving DecidableEq, Repr, Inhabited

/-- Mappings by target path. -/
abbrev Mappings := Table Mapping

/-- A source field and the place that holds it. -/
structure Source where
  field : Field
  place : Place
  deriving DecidableEq, Repr

/-- A mapping whose path has been followed: the field and its path in Go names. -/
structure MappedField where
  field : Field
  path : Path
  overrides : Bool
  deriving DecidableEq, Repr

/-- The field of a name, which may be its schema name or its Go name; the case of ASCII letters does
not count. -/
def findSource? (fields : List Field) (name : String) : Option Field :=
  fields.find? fun f =>
    Text.sameIgnoringCase f.name name || Text.sameIgnoringCase (pascal f.name) name

/-- Follows names through nested records from some fields; the path so far is `path`. -/
def followSource (s : Schema) (path : Path) : List Field → List String → Option (Path × Field)
  | _, [] => none
  | fields, name :: rest =>
    match findSource? fields name with
    | none => none
    | some field =>
      let here := Path.select path (pascal field.name)
      if rest.isEmpty then some (here, field)
      else match field.type.record? with
        | some ref => followSource s here (s.fields ref) rest
        | none => none

/-- The field at a dotted path, with the path in Go names. -/
def Schema.sourceAt? (s : Schema) (fields : List Field) (path : String) : Option (Path × Field) :=
  followSource s [] fields (Text.split '.' path)

/-- Follows the source paths of mappings, in order of their targets. -/
def Schema.followMappings (s : Schema) (fields : List Field) :
    List (String × Mapping) → Except GenerationError (List (String × MappedField))
  | [] => .ok []
  | (target, mapping) :: rest =>
    match s.sourceAt? fields mapping.source with
    | none => .error (.unknownSource mapping.source)
    | some (path, field) => do
      let mapped ← s.followMappings fields rest
      .ok ((target, ⟨field, path, mapping.overrides⟩) :: mapped)

/-- The primary source of a target field, and what stands in for it. A mapped source is primary
without a direct one or if it overrides it; the other source stands in for an optional primary
one. -/
def arbitrate (direct mapped : Option Source) (overrides : Bool) :
    Option Source × Option Source :=
  match direct, mapped with
  | direct, none => (direct, none)
  | none, some mapped => (some mapped, none)
  | some direct, some mapped =>
    let (primary, other) := if overrides then (mapped, direct) else (direct, mapped)
    (some primary, if primary.field.required then none else some other)

end RecordBridge

import RecordBridge.Conversion.Source
import RecordBridge.Header.Form

/-!
# Binding headers

The statements that fill fields of a request `in` from headers. Mappings tell the header for each
target path. Populating takes text fields only; propagating also reads literals. The two agree on text
fields, each by a rule of its own.
-/

namespace RecordBridge

/-- The field at the end of names through nested records, and the records on the way. Names agree up
to the case of ASCII letters. -/
def followTarget (s : Schema) : List Field → List String → Option (List RecordRef × Field)
  | _, [] => none
  | fields, name :: rest =>
    match fields.find? fun f => Text.sameIgnoringCase f.name name with
    | none => none
    | some field =>
      if rest.isEmpty then some ([], field)
      else match field.type.record? with
        | some ref =>
          (followTarget s (s.fields ref) rest).map fun (refs, last) => (ref :: refs, last)
        | none => none

/-- A request to bind headers. -/
structure BindingRequest where
  schema : Schema
  resolve : Resolver
  target : List Field
  mappings : Mappings
  /-- Whether fields of other types than text are allowed. -/
  readsLiterals : Bool

namespace BindingRequest

variable (r : BindingRequest)

/-- The place of a path as it is written in a mapping. -/
def place (names : List String) : Place :=
  ⟨.input, names.map .field⟩

/-- Allocates the records on the way to a field, each if it is absent, outermost first. They are
given with their names; `before` are the names of the records passed. -/
def allocateAbove (resolve : Resolver) (before : List String) :
    List (String × RecordRef) → HeaderWriting Unit Unit
  | [] => return
  | (name, ref) :: rest => do
    let here := before ++ [name]
    let type ← Draft.ofExcept (namedType resolve ref.name ref.file)
    Draft.write (.nest (.ifUnset (place here)) (.ofList [.allocate (place here) type]) .done)
    allocateAbove resolve here rest

/-- How one way of binding treats a field. -/
structure BindingRule where
  /-- The form in which a field takes a header. -/
  form : (header : String) → Field → HeaderWriting Unit HeaderForm
  /-- The head under which a header is written to a place, if there is one, by whether the mapping
  overrides. -/
  condition? : (overrides : Bool) → Place → Field → Option HeaderHead

/-- Populating fills text fields only. A mapping that does not override fills an optional field that is
absent, and a required one that is not empty. -/
def populating : BindingRule where
  form header field :=
    match field.type with
    | .text => return .plain
    | .alias _ _ _ =>
      if field.type.isText then return (← headerForm r.resolve field.type).getD .plain
      else Draft.fail (.headerTarget header field.name)
    | _ => Draft.fail (.headerTarget header field.name)
  condition? overrides place field :=
    if overrides then none
    else if field.required then some (.ifNotEmpty place) else some (.ifUnset place)

/-- Propagating fills every field that can hold a header. Only fields that are text or optional have a
value that shows that they are not filled yet. -/
def propagating : BindingRule where
  form header field := formFor r.resolve header field
  condition? overrides place field :=
    if overrides then none
    else if !field.required then some (.ifUnset place)
    else if field.type.isText then some (.ifNotEmpty place)
    else none

/-- The statements that write a header to a field, under the condition for it. -/
def storeUnder (condition? : Option HeaderHead) (store : HeaderCode) : HeaderCode :=
  match condition? with
  | some head => .nest head store .done
  | none => store

/-- Writes the statements for one mapping. -/
def bind (rule : BindingRule) (entry : String × Mapping) : HeaderWriting Unit Unit := do
  let names := Text.split '.' entry.1
  let header := entry.2.source
  match followTarget r.schema r.target names with
  | none => Draft.fail (.unknownTarget entry.1)
  | some (records, field) => do
    let form ← rule.form header field
    Draft.nest (.ifHeader header) do
      allocateAbove r.resolve [] (names.zip records)
      Draft.write <| storeUnder (rule.condition? entry.2.overrides (place names) field)
        (form.store (place names) .text field.required)

/-- The rule by which a request binds its fields. -/
def rule : BindingRule :=
  if r.readsLiterals then r.propagating else r.populating

/-- Writes the statements for all mappings, in order of the target paths. -/
def draft : HeaderWriting Unit Unit :=
  r.mappings.entries.forM (r.bind r.rule)

/-- The lines that bind headers, in order of the target paths, or why there are none. -/
def run : Outcome :=
  r.draft.outcome ()

end BindingRequest

end RecordBridge

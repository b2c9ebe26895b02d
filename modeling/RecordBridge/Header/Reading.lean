import RecordBridge.Deferred
import RecordBridge.Header.Form
import RecordBridge.Schema.Walk

/-!
# Reading headers

The statements that fill the fields of an endpoint request from its headers. A field is bound to a
header by an annotation. Required records are allocated on the way, optional ones before the first
header beneath them is written.
-/

namespace RecordBridge

/-- A request to read headers. -/
structure ReadingRequest where
  schema : Schema
  resolve : Resolver
  fields : List Field
  /-- The first part of the key of the annotation. -/
  annotationSpace : String

namespace ReadingRequest

/-- The first part of the key of the annotation, unless another one is given. -/
def defaultSpace : String :=
  "gateway"

/-- The header to which a field is bound. -/
def boundHeader? (r : ReadingRequest) (field : Field) : Option String :=
  match field.annotations.lookup (r.annotationSpace ++ ".http.ref") with
  | some reference => Text.dropStart? "headers." reference
  | none => none

/-- What changes while headers are read. -/
structure Progress where
  /-- How often each variable name was made from a header. -/
  counts : List (String × Nat) := []
  /-- The optional records met so far. -/
  optional : Deferred := .empty
  /-- Whether a header was read. -/
  anyHeader : Bool := false

/-- Writes statements that read headers. -/
abbrev Reading := HeaderWriting Progress

/-- The variable for the next header with a name in camel case; later ones are numbered. -/
def nextVariable (name : String) : Reading HeaderVar := do
  let seen := ((← Draft.state).counts.lookup name).getD 0
  Draft.update fun p => { p with counts := (name, seen + 1) :: p.counts }
  if seen = 0 then return .named (name ++ "Value")
  else return .named (name ++ "No" ++ toString seen ++ "Value")

/-- The place of a visited field. -/
def placeOf (v : Visit) : Place :=
  ⟨.requestBody, v.goNames.flatMap (Path.select [])⟩

/-- Allocates a record if it is absent. -/
def allocate (place : Place) (type : GoType) : HeaderCode :=
  .nest (.ifUnset place) (.ofList [.allocate place type]) .done

/-- Writes a header to a visited field, after the optional records above it are allocated. -/
def store (v : Visit) (header : HeaderVar) (form : HeaderForm) : Reading Unit := do
  let place := placeOf v
  let above := (← Draft.state).optional.waiting ['.'] place.path
  above.forM fun parent => Draft.write (allocate { place with path := parent.1 } parent.2)
  Draft.write (form.store place header v.field.required)

/-- Writes the statements for a bound field. -/
def readHeader (r : ReadingRequest) (v : Visit) (header : String) : Reading Unit := do
  let form ← formFor r.resolve header v.field
  let var ← nextVariable (camel header)
  if v.field.required then
    Draft.write (.ofList [.fetch var header])
    store v var form
  else
    Draft.write (.ofList [.fetchTested var header])
    Draft.nest (.ifExists var) (store v var form)
  Draft.update fun p => { p with anyHeader := true }

/-- Writes the statements for a visited field. -/
def visit (r : ReadingRequest) (v : Visit) : Reading Unit :=
  match v.field.type.record? with
  | some ref => do
    let type ← Draft.ofExcept (namedType r.resolve ref.name ref.file)
    let place := placeOf v
    if v.field.required then Draft.write (allocate place type)
    else Draft.update fun p => { p with optional := p.optional.defer place.path type }
  | none =>
    match r.boundHeader? v.field with
    | some header => readHeader r v header
    | none => return

/-- Writes the statements for all visits, and tells whether a header was read. -/
def draft (r : ReadingRequest) : Reading Bool := do
  r.schema.forVisits r.visit r.fields
  return (← Draft.state).anyHeader

/-- The lines that read headers, or why there are none. No line is needed if no header is read. -/
def run (r : ReadingRequest) : Outcome :=
  match r.draft {} with
  | .ok (anyHeader, code, _) => .lines (if anyHeader then code.lines.map Line.indented else [])
  | .error halt => halt.outcome

end ReadingRequest

end RecordBridge

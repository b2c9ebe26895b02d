import RecordBridge.Conversion.Container

/-!
# Converting fields

Each field of a target record is filled from its sources, in order of declaration. A record without
a source is filled beneath if something beneath it is mapped. `fillFields` ties the knot between
fields and records, up to a bound on how deep records are nested in each other.
-/

namespace RecordBridge

variable (c : Settings) (fill : Fill) (pos : Position)

/-- The direct source of a target field: the source field of the same name. -/
def directSource (target : Field) : Option Source :=
  match pos.source with
  | none => none
  | some (place, fields) =>
    (fields.find? fun f => Text.sameIgnoringCase f.name target.name).map fun f =>
      ⟨f, place.select (pascal f.name)⟩

/-- The primary source of a target field, and what stands in for it. `path` is the path of the field
in the whole target record. -/
def sourcesOf (target : Field) (path : String) : Option Source × Option Source :=
  match c.mapping? path with
  | none => (directSource pos target, none)
  | some mapped =>
    arbitrate (directSource pos target)
      (some ⟨mapped.field, ⟨c.mappedRoot, mapped.path⟩⟩) mapped.overrides

/-- Fills a target record that has no source but something mapped beneath it. A required record is
allocated at once, an optional one is deferred. -/
def fillMapped (target : Field) (record : RecordRef) (path : Path) : Writing Unit := do
  let type ← Draft.ofExcept (target.type.goType c.resolve)
  if target.required then
    Draft.write (← Writing.guards pos path)
    Writing.assign path (.newRecord type)
  else
    Draft.update fun p => { p with deferred := p.deferred.defer (pos.scope ++ path) type }
  fill { pos with target := path, source := none } (c.schema.fields record)

/-- What becomes of a target field without a source. -/
def fillUnsourced (target : Field) (path : Path) : Writing Unit :=
  let whole := Path.bare (pos.scope ++ path)
  match target.type.record?, c.mapsBelow whole with
  | some record, true => fillMapped c fill pos target record path
  | _, _ =>
    if target.required && !c.allowsUnset whole then Draft.fail (.missingRequired target.name)
    else return

/-- Assigns one source to a target field. -/
def assignField (target : Field) (path : Path) (cast : Bool → Cast) (source : Source)
    (onlyIfSet : Bool) : Writing Unit := do
  let guards ← Writing.guards pos path
  Draft.write <| Assignment.code
    { source := source.place
      sourceRequired := source.field.required
      target := path
      targetRequired := target.required
      cast := cast source.field.required
      onlyIfSet } guards

/-- Assigns to a target field what stands in, and then the primary source if that is set. -/
def assignSources (target : Field) (path : Path) (cast : Bool → Cast) (primary : Source)
    (standIn : Option Source) : Writing Unit :=
  match standIn with
  | none => assignField pos target path cast primary false
  | some standIn => do
    assignField pos target path cast standIn false
    assignField pos target path cast primary true

/-- Fills a record field from a source. -/
def fillRecord (target : Field) (record : RecordRef) (path : Path) (source : Source) :
    Writing Unit :=
  match source.field.type.record? with
  | none => Draft.fail (.incompatible target.name .record)
  | some origin => do
    let job : RecordJob := ⟨record, origin, path⟩
    if c.needsHelper record origin then
      let helper ← helperFor c fill pos job
      Draft.write (← Writing.guards pos path)
      Writing.assign path (.call helper source.place)
    else
      let type ← Draft.ofExcept (target.type.goType c.resolve)
      convertInline c fill pos job type source.place source.place

/-- Fills a target field from its sources. -/
def fillSourced (target : Field) (path : Path) (primary : Source) (standIn : Option Source) :
    Writing Unit :=
  let job : ContainerJob :=
    { field := target.name
      path
      primary := .ofSource primary
      standIn := standIn.map .ofSource }
  match target.type.root with
  | .record record => fillRecord c fill pos target record path primary
  | .list element =>
    convertList c pos element (convertElement c fill pos target.name element element) job
  | .set element form =>
    convertSet c pos element form (convertElement c fill pos target.name element element) job
  | .map key value =>
    convertMap c pos key value (convertElement c fill pos target.name value value) job
  | .binary => do
    let type ← Draft.ofExcept (target.type.goType c.resolve)
    assignSources pos target path (fun _ => .bytes type) primary standIn
  | _ => do
    let type ← Draft.ofExcept (target.type.goType c.resolve)
    assignSources pos target path (Cast.forPresence type · target.required) primary standIn

/-- Fills one field of the target record. -/
def fillField (target : Field) : Writing Unit :=
  let path := pos.target.select (pascal target.name)
  match sourcesOf c pos target (Path.bare (pos.scope ++ path)) with
  | (some primary, standIn) => fillSourced c fill pos target path primary standIn
  | (none, _) => fillUnsourced c fill pos target path

/-- Fills the fields of a record, and of the records within it up to `depth` levels. -/
def fillFields (c : Settings) : (depth : Nat) → Fill
  | 0, _, _ => Draft.stop .unfinished
  | depth + 1, pos, fields => fields.forM (fillField c (fillFields c depth) pos)

end RecordBridge

import RecordBridge.Conversion.Record

/-!
# Converting containers

Lists, sets and maps are made anew, with room for the elements of the source, and filled by a loop
that converts each element. Where another source stands in for an absent one, a local variable holds
the container that the loop runs over.
-/

namespace RecordBridge

/-- A container or element to be converted: its type and where it is found. -/
structure Operand where
  type : FieldType
  place : Place

namespace Operand

/-- The operand of a source field. -/
def ofSource (s : Source) : Operand :=
  ⟨s.field.type, s.place⟩

/-- The elements of a list. -/
def listElements? (x : Operand) : Option FieldType :=
  match x.type.root with
  | .list element => some element
  | _ => none

/-- The elements of a set, and its form. -/
def setElements? (x : Operand) : Option (FieldType × SetForm) :=
  match x.type.root with
  | .set element form => some (element, form)
  | _ => none

/-- The values of a map. -/
def mapValues? (x : Operand) : Option FieldType :=
  match x.type.root with
  | .map _ value => some value
  | _ => none

end Operand

/-- Whether a set of a form with elements of a type is the keys of a map. -/
def isKeyed (element : FieldType) (form : SetForm) : Bool :=
  form = .keyed && element.isHashable

/-- A slot of a target container, and the source of its value. -/
structure Slot where
  /-- The path of the slot, below `out`. -/
  path : Path
  /-- The variable that holds the element in the loop. -/
  value : Var
  primary : Operand
  standIn : Option Operand
  /-- The flag that tells whether the loop runs over the primary source. -/
  selector : Option Var

/-- A container to be converted. `field` is the name of the target field that it belongs to. -/
structure ContainerJob where
  field : String
  /-- The path of the target, below `out`. -/
  path : Path
  primary : Operand
  standIn : Option Operand

/-- The job of filling a slot with a container, whose source is the element in the loop. -/
def Slot.job (slot : Slot) (field : String) : ContainerJob where
  field := field
  path := slot.path
  primary := ⟨slot.primary.type, .ofVar slot.value⟩
  standIn := none

variable (c : Settings) (fill : Fill) (pos : Position)

/-- The operand with a part of its type, which it must have if it is a container of the right
shape. -/
def shaped {α : Type} (field : String) (shape : Shape) (part? : Operand → Option α) (x : Operand) :
    Writing α :=
  match part? x with
  | some part => Draft.value part
  | none => Draft.fail (.incompatible field shape)

/-- The same for what stands in, if anything does. -/
def shapedStandIn {α : Type} (field : String) (shape : Shape) (part? : Operand → Option α) :
    Option Operand → Writing (Option α)
  | none => return none
  | some x => return some (← shaped field shape part? x)

/-- The place over which a loop runs. If something stands in for the source, it is a variable that
holds the source if that is set; a flag may tell which of the two it holds. -/
def selectSource (primary : Place) (standIn : Option Place) (flagged : Bool) :
    Writing (Place × Option Var) :=
  match standIn with
  | none => return (primary, none)
  | some standIn => do
    let chosen := Var.sourceList (← Writing.fresh)
    if flagged then
      let flag := Var.overridden (← Writing.fresh)
      Writing.statement (.define chosen (.read standIn))
      Writing.statement (.define flag (.flag false))
      Draft.nest (.ifSet [primary]) do
        Writing.statement (.assign (.ofVar chosen) (.read primary))
        Writing.statement (.assign (.ofVar flag) (.flag true))
      return (.ofVar chosen, some flag)
    else
      Writing.statement (.define chosen (.read standIn))
      Draft.nest (.ifSet [primary]) do
        Writing.statement (.assign (.ofVar chosen) (.read primary))
      return (.ofVar chosen, none)

/-- Whether elements are converted in place from one of two sources: both are records, and they need
no local function. -/
def choosesPerElement (target source : FieldType) : Bool :=
  match target.record?, source.record? with
  | some target, some source => !c.needsHelper target source
  | _, _ => false

/-- Makes the container of a job after the guards for the records above it. -/
def makeContainer (job : ContainerJob) (value : Expr) : Writing Unit := do
  Draft.write (← Writing.guards pos job.path)
  Writing.assign job.path value

/-- Fills a slice, whose elements are of type `element`, from sources with elements of the types
`primary` and `standIn`. -/
def convertSlice (element : FieldType) (convert : Slot → Writing Unit) (job : ContainerJob)
    (primary : FieldType) (standIn : Option FieldType) : Writing Unit := do
  let type ← Draft.ofExcept (element.heldType c.resolve)
  let (source, selector) ← selectSource job.primary.place (job.standIn.map (·.place))
    (choosesPerElement c element primary)
  makeContainer pos job (.make (.slice type) source)
  let index := Var.index (← Writing.fresh)
  let value := Var.value (← Writing.fresh)
  Draft.nest (.each index value source) <| Writing.enclosed <| convert
    { path := job.path ++ [.index index]
      value
      primary := ⟨primary, job.primary.place.element index⟩
      standIn := match job.standIn, standIn with
        | some x, some type => some ⟨type, x.place.element index⟩
        | _, _ => none
      selector }

/-- Fills a list. -/
def convertList (element : FieldType) (convert : Slot → Writing Unit) (job : ContainerJob) :
    Writing Unit := do
  let primary ← shaped job.field .list Operand.listElements? job.primary
  let standIn ← shapedStandIn job.field .list Operand.listElements? job.standIn
  convertSlice c pos element convert job primary standIn

/-- Fills a set. If neither side is the keys of a map, both are slices and filled as such. -/
def convertSet (element : FieldType) (form : SetForm) (convert : Slot → Writing Unit)
    (job : ContainerJob) : Writing Unit := do
  let (primary, primaryForm) ← shaped job.field .set Operand.setElements? job.primary
  let standIn ← shapedStandIn job.field .set Operand.setElements? job.standIn
  let intoKeys := isKeyed element form
  let fromKeys := isKeyed primary primaryForm
  if !intoKeys && !fromKeys then
    convertSlice c pos element convert job primary (standIn.map (·.1))
  else if !element.isHashable then
    Draft.fail (.incompatible job.field .set)
  else
    let type ← Draft.ofExcept (element.goType c.resolve)
    let (source, _) ← selectSource job.primary.place (job.standIn.map (·.place)) false
    makeContainer pos job
      (if intoKeys then .make (.keySet type) source else .makeRoom (.slice type) source)
    let value := Var.value (← Writing.fresh)
    Draft.nest (if fromKeys then .eachKey value source else .eachValue value source) <|
      if intoKeys then Writing.assign (job.path ++ [.keyAs type value]) .present
      else Writing.assign job.path (.append ⟨.output, job.path⟩ type value)

/-- The Go type of the keys of a target map, which must be text. -/
def keyType (field : String) (key : FieldType) : Writing GoType :=
  if key.isText then Draft.ofExcept (key.goType c.resolve)
  else Draft.fail (.keyNotText field)

/-- Fills a map. Keys of a named type are converted to it. -/
def convertMap (key value : FieldType) (convert : Slot → Writing Unit) (job : ContainerJob) :
    Writing Unit := do
  let keyGo ← keyType c job.field key
  let primary ← shaped job.field .map Operand.mapValues? job.primary
  let standIn ← shapedStandIn job.field .map Operand.mapValues? job.standIn
  let valueGo ← Draft.ofExcept (value.heldType c.resolve)
  let (source, selector) ← selectSource job.primary.place (job.standIn.map (·.place))
    (choosesPerElement c value primary)
  makeContainer pos job (.make (.map keyGo valueGo) source)
  let position := Var.key (← Writing.fresh)
  let element := Var.value (← Writing.fresh)
  Draft.nest (.each position element source) <| Writing.enclosed <| convert
    { path := job.path ++ [if key = .text then .index position else .keyAs keyGo position]
      value := element
      primary := ⟨primary, job.primary.place.element position⟩
      standIn := match job.standIn, standIn with
        | some x, some type => some ⟨type, x.place.element position⟩
        | _, _ => none
      selector }

/-- Converts a record held in a container. `type` is its type there. -/
def convertRecordElement (field : String) (slot : Slot) (type : FieldType) (target : RecordRef)
    (source : Operand) : Writing Unit :=
  match source.type.record? with
  | none => Draft.fail (.incompatible field .record)
  | some origin => do
    let job : RecordJob := ⟨target, origin, slot.path⟩
    if c.needsHelper target origin then
      let helper ← helperFor c fill pos job
      Writing.assign slot.path (.call helper (.ofVar slot.value))
    else
      let go ← Draft.ofExcept (type.goType c.resolve)
      convertInline c fill pos job go (.ofVar slot.value) source.place

/-- Converts the element of a slot into the type `whole`, of which `type` is left once some aliases
are taken off. -/
def convertElement (field : String) (whole : FieldType) : FieldType → Slot → Writing Unit
  | .alias _ _ target, slot => convertElement field whole target slot
  | .record target, slot =>
    match slot.selector, slot.standIn with
    | some selector, some standIn =>
      Draft.fork (.ifFlag selector)
        (convertRecordElement c fill pos field slot whole target slot.primary)
        (convertRecordElement c fill pos field slot whole target standIn)
    | _, _ => convertRecordElement c fill pos field slot whole target slot.primary
  | .list element, slot =>
    convertList c pos element (convertElement field element element) (slot.job field)
  | .set element form, slot =>
    convertSet c pos element form (convertElement field element element) (slot.job field)
  | .map key value, slot =>
    convertMap c pos key value (convertElement field value value) (slot.job field)
  | _, slot => do
    let type ← Draft.ofExcept (whole.goType c.resolve)
    Writing.assign slot.path (.convert (.plain type) (.ofVar slot.value))

end RecordBridge

import RecordBridge.Conversion.Request
import RecordBridge.Proofs.Draft

/-!
# What a conversion writes

`Emits` says by rules which statements a conversion writes for a record, a field, a container or an
element, from which progress and up to which. There is one rule for each way in which something is
converted, and no bound on the depth: a conversion that finishes has a derivation
(`emits_of_fillFields`). Properties of the statements are proved by induction on derivations.
-/

namespace RecordBridge

open Draft

/-! ## Pieces of code -/

/-- Whether a type holds no fields or elements, and is no alias. -/
def FieldType.isLeaf : FieldType → Bool
  | .alias _ _ _ | .record _ | .list _ | .set _ _ | .map _ _ => false
  | _ => true

/-- Whether a type is a list, a set or a map. -/
def FieldType.isContainer : FieldType → Bool
  | .list _ | .set _ _ | .map _ _ => true
  | _ => false

/-- Containers are no leaves. -/
theorem FieldType.isLeaf_of_isContainer {t : FieldType} (h : t.isContainer = true) :
    t.isLeaf = false := by
  cases t <;> first
    | rfl
    | cases h

/-- No alias is left behind all aliases. -/
theorem FieldType.root_ne_alias (t : FieldType) (name file : String) (target : FieldType) :
    t.root ≠ .alias name file target := by
  induction t with
  | «alias» _ _ _ ih => exact ih
  | _ => exact nofun

/-- The record behind a type. -/
theorem FieldType.root_of_record {t : FieldType} {ref : RecordRef} (h : t.record? = some ref) :
    t.root = .record ref := by
  rw [record?] at h
  split at h
  · rename_i heq
    cases h
    exact heq
  · cases h

/-- The type behind that of an operand of a shape. -/
theorem Operand.root_of_listElements {x : Operand} {element : FieldType}
    (h : x.listElements? = some element) : x.type.root = .list element := by
  rw [listElements?] at h
  split at h
  · rename_i heq
    cases h
    exact heq
  · cases h

theorem Operand.root_of_setElements {x : Operand} {element : FieldType} {form : SetForm}
    (h : x.setElements? = some (element, form)) : x.type.root = .set element form := by
  rw [setElements?] at h
  split at h
  · rename_i heq
    cases h
    exact heq
  · cases h

theorem Operand.exists_root_of_mapValues {x : Operand} {value : FieldType}
    (h : x.mapValues? = some value) : ∃ key, x.type.root = .map key value := by
  rw [mapValues?] at h
  split at h
  · rename_i key value' heq
    cases h
    exact ⟨key, heq⟩
  · cases h

/-- The path of a field of the record at a position. -/
def Position.path (pos : Position) (f : Field) : Path :=
  pos.target.select (pascal f.name)

/-- The path of a field in the whole target record, as mappings spell it. -/
def Position.key (pos : Position) (f : Field) : String :=
  Path.bare (pos.scope ++ pos.path f)

/-- The cast to a leaf of a type, by whether the source is required. -/
def leafCast (f : Field) (type : GoType) : Bool → Cast :=
  match f.type.root with
  | .binary => fun _ => .bytes type
  | _ => (Cast.forPresence type · f.required)

/-- The assignment of one source to a leaf. -/
def leafAssignment (pos : Position) (f : Field) (type : GoType) (source : Source)
    (onlyIfSet : Bool) : Assignment where
  source := source.place
  sourceRequired := source.field.required
  target := pos.path f
  targetRequired := f.required
  cast := leafCast f type source.field.required
  onlyIfSet

/-- The assignments to a leaf: what stands in, and then the primary source. -/
def leafCode (guards : Code) (pos : Position) (f : Field) (type : GoType) (primary : Source) :
    Option Source → Code
  | none => (leafAssignment pos f type primary false).code guards
  | some standIn =>
    (leafAssignment pos f type standIn false).code guards ++
      (leafAssignment pos f type primary true).code guards

/-- A record converted in place, with `body` for its fields. -/
def inlineCode (guards : Code) (path : Path) (type : GoType) (tested : Place) (body : Code) :
    Code :=
  let filled := guards ++ .step (.assign ⟨.output, path⟩ (.newRecord type)) body
  if guards.isEmpty then
    .fork (.ifSet [tested]) filled (.step (.assign ⟨.output, path⟩ .absent) .done) .done
  else .nest (.ifSet [tested]) filled .done

/-- A call of a local function. -/
def callCode (guards : Code) (path : Path) (helper : Var) (argument : Place) : Code :=
  guards ++ .step (.assign ⟨.output, path⟩ (.call helper argument)) .done

/-- The body of a local function, with `body` for the fields of its result. -/
def helperBlock (target : GoType) (body : Code) : Code :=
  .fork (.ifSet [.ofVar .input])
    (.step (.assign (.ofVar .output) (.newRecord target)) body)
    (.step (.assign (.ofVar .output) .absent) .done)
    (.step .giveBack .done)

/-- A local function, with `body` for the fields of its result. -/
def helperCode (helper : HelperSignature) (body : Code) : Code :=
  .step (.declare helper) (.nest (.helperBody helper) (helperBlock helper.target body) .done)

/-- The container that a loop runs over: the statements that choose it, its place, the flag that
tells whether it is the primary source, and the last number given to a variable. -/
structure Selection where
  code : Code
  source : Place
  flag : Option Var
  counter : Nat

/-- The choice between a primary source and what stands in for it. -/
def Selection.of (counter : Nat) (primary : Place) (standIn : Option Place) (flagged : Bool) :
    Selection :=
  match standIn with
  | none => ⟨.done, primary, none, counter⟩
  | some standIn =>
    let chosen := Var.sourceList (counter + 1)
    let take := Statement.assign (.ofVar chosen) (.read primary)
    if flagged then
      let flag := Var.overridden (counter + 2)
      { code := .step (.define chosen (.read standIn)) <| .step (.define flag (.flag false)) <|
          .nest (.ifSet [primary])
            (.step take (.step (.assign (.ofVar flag) (.flag true)) .done)) .done
        source := .ofVar chosen
        flag := some flag
        counter := counter + 2 }
    else
      { code := .step (.define chosen (.read standIn)) <|
          .nest (.ifSet [primary]) (.step take .done) .done
        source := .ofVar chosen
        flag := none
        counter := counter + 1 }

/-- The part of what stands in, if anything does; none if it has another shape. -/
def standInPart {α : Type} (part? : Operand → Option α) : Option Operand → Option (Option α)
  | none => some none
  | some x => (part? x).map some

/-- What stands in has the shape that was asked for. -/
theorem exists_of_standInPart {α : Type} {part? : Operand → Option α} {standIn : Option Operand}
    {parts : Option α} (h : standInPart part? standIn = some parts) :
    ∀ y ∈ standIn, ∃ part, part? y = some part := by
  rintro y rfl
  obtain ⟨part, hpart, -⟩ := Option.map_eq_some_iff.mp h
  exact ⟨part, hpart⟩

/-- A loop that converts the elements of a container one by one. -/
structure Loop where
  /-- The Go type of the container that is made. -/
  made : GoType
  /-- The variable of the index or key with a given number. -/
  position : Nat → Var
  /-- The step to the slot at an index or key. -/
  step : Var → Step
  /-- The types of the elements, of the target and of the two sources. -/
  element : FieldType
  primary : FieldType
  standIn : Option FieldType

/-- The containers that are converted by a loop over elements: lists, sets if neither side is the
keys of a map, and maps with keys of text. -/
inductive Loop.Converts (c : Settings) (job : ContainerJob) : FieldType → Loop → Prop where
  | list {element primary : FieldType} {standIn : Option FieldType} {type : GoType}
      (hprimary : job.primary.listElements? = some primary)
      (hstandIn : standInPart Operand.listElements? job.standIn = some standIn)
      (htype : element.heldType c.resolve = .ok type) :
      Converts c job (.list element) ⟨.slice type, .index, .index, element, primary, standIn⟩
  | set {element primary : FieldType} {form primaryForm : SetForm}
      {standIn : Option (FieldType × SetForm)} {type : GoType}
      (hprimary : job.primary.setElements? = some (primary, primaryForm))
      (hstandIn : standInPart Operand.setElements? job.standIn = some standIn)
      (hkeyed : isKeyed element form = false) (hprimaryKeyed : isKeyed primary primaryForm = false)
      (htype : element.heldType c.resolve = .ok type) :
      Converts c job (.set element form)
        ⟨.slice type, .index, .index, element, primary, standIn.map (·.1)⟩
  | map {key value primary : FieldType} {standIn : Option FieldType} {keyGo type : GoType}
      (htext : key.isText = true) (hkey : key.goType c.resolve = .ok keyGo)
      (hprimary : job.primary.mapValues? = some primary)
      (hstandIn : standInPart Operand.mapValues? job.standIn = some standIn)
      (htype : value.heldType c.resolve = .ok type) :
      Converts c job (.map key value)
        ⟨.map keyGo type, .key, fun v => if key = .text then .index v else .keyAs keyGo v, value,
          primary, standIn⟩

namespace Loop

/-- The choice of the container that a loop runs over. -/
def selection (loop : Loop) (c : Settings) (job : ContainerJob) (counter : Nat) : Selection :=
  .of counter job.primary.place (job.standIn.map (·.place))
    (choosesPerElement c loop.element loop.primary)

/-- The slot that a loop fills. The numbers of its variables follow `counter`. -/
def slot (loop : Loop) (job : ContainerJob) (flag : Option Var) (counter : Nat) : Slot where
  path := job.path ++ [loop.step (loop.position (counter + 1))]
  value := .value (counter + 2)
  primary := ⟨loop.primary, job.primary.place.element (loop.position (counter + 1))⟩
  standIn := match job.standIn, loop.standIn with
    | some x, some type => some ⟨type, x.place.element (loop.position (counter + 1))⟩
    | _, _ => none
  selector := flag

/-- What stands in for an element is that element of what stands in for the container. -/
theorem exists_of_standIn_slot {loop : Loop} {job : ContainerJob} {flag : Option Var} {n : Nat}
    {x : Operand} (h : (loop.slot job flag n).standIn = some x) :
    ∃ y type, job.standIn = some y ∧ loop.standIn = some type ∧
      x = ⟨type, y.place.element (loop.position (n + 1))⟩ := by
  cases hjob : job.standIn with
  | none => simp [slot, hjob] at h
  | some y =>
    cases htype : loop.standIn with
    | none => simp [slot, hjob, htype] at h
    | some type =>
      simp only [slot, hjob, htype, Option.some.injEq] at h
      exact ⟨y, type, rfl, rfl, h.symm⟩

/-- The statements of a loop, with `body` for each element. -/
def code (loop : Loop) (guards : Code) (job : ContainerJob) (chosen : Selection) (body : Code) :
    Code :=
  chosen.code ++ (guards ++
    .step (.assign ⟨.output, job.path⟩ (.make loop.made chosen.source))
      (.nest (.each (loop.position (chosen.counter + 1)) (.value (chosen.counter + 2))
        chosen.source) body .done))

end Loop

/-- The statements that convert a set where one of the sides is the keys of a map. -/
def keysCode (guards : Code) (path : Path) (type : GoType) (intoKeys fromKeys : Bool)
    (chosen : Selection) : Code :=
  let value := Var.value (chosen.counter + 1)
  chosen.code ++ (guards ++
    .step (.assign ⟨.output, path⟩
        (if intoKeys then .make (.keySet type) chosen.source
          else .makeRoom (.slice type) chosen.source))
      (.nest (if fromKeys then .eachKey value chosen.source else .eachValue value chosen.source)
        (.step (if intoKeys then .assign ⟨.output, path ++ [.keyAs type value]⟩ .present
          else .assign ⟨.output, path⟩ (.append ⟨.output, path⟩ type value)) .done) .done))

/-! ## The rules -/

/-- Something that a conversion writes. -/
inductive Task where
  /-- Some fields of the record at a position. -/
  | fields (pos : Position) (fields : List Field)
  | field (pos : Position) (target : Field)
  /-- A record of a type. It is filled if `tested` is set, and `base` leads to the fields of its
  source. It stands in a field, or in a container, which is made before its elements. -/
  | record (pos : Position) (job : RecordJob) (type : FieldType) (tested base : Place)
      (inField : Bool)
  /-- A container of a type, which is no alias. -/
  | container (pos : Position) (type : FieldType) (job : ContainerJob)
  /-- An element of a type, for a field of a name. -/
  | element (pos : Position) (field : String) (type : FieldType) (slot : Slot)

/-- The guards for the deferred records above a path, as far as they are needed. -/
def guardsAbove (p : Progress) (pos : Position) (path : Path) (needed : Bool) : Code :=
  if needed then p.deferred.guards pos.scope path else .done

/-- The progress after a local function came into scope. -/
def Progress.define (p : Progress) (job : RecordJob) : Progress :=
  { p with
    counter := p.counter + 1
    helpers := ⟨job.target.id, job.source.id, .helper (pascal job.target.name) (p.counter + 1)⟩ ::
      p.helpers }

/-- The local function in scope for a record. -/
def Progress.helper? (p : Progress) (job : RecordJob) : Option Helper :=
  p.helpers.find? fun h => h.target == job.target.id && h.source == job.source.id

/-- The local function that is found is one in scope, for the two records. -/
theorem Progress.of_helper?_eq_some {p : Progress} {job : RecordJob} {helper : Helper}
    (h : p.helper? job = some helper) :
    helper ∈ p.helpers ∧ helper.target = job.target.id ∧ helper.source = job.source.id := by
  have hids := List.find?_some h
  simp only [Bool.and_eq_true, beq_iff_eq] at hids
  exact ⟨List.mem_of_find?_eq_some h, hids⟩

/-- The position of the fields of a record that is converted in place. -/
def Position.inline (c : Settings) (pos : Position) (job : RecordJob) (base : Place) : Position :=
  { pos with target := job.path, source := some (base, c.schema.fields job.source) }

/-- The position of the fields of a record that is converted by a local function. -/
def Position.inHelper (c : Settings) (pos : Position) (job : RecordJob) : Position where
  target := []
  source := some (.ofVar .input, c.schema.fields job.source)
  scope := pos.scope ++ job.path

/-- The position of the fields of a record without a source. -/
def Position.unsourced (pos : Position) (path : Path) : Position :=
  { pos with target := path, source := none }

/-- The statements that are written for a task, from one progress to another. -/
inductive Emits (c : Settings) : Task → Progress → Code → Progress → Prop where
  | noFields {pos : Position} {p : Progress} : Emits c (.fields pos []) p .done p
  | moreFields {pos : Position} {f : Field} {fs : List Field} {p q r : Progress} {b₁ b₂ : Code}
      (hfirst : Emits c (.field pos f) p b₁ q) (hrest : Emits c (.fields pos fs) q b₂ r) :
      Emits c (.fields pos (f :: fs)) p (b₁ ++ b₂) r
  -- Fields with a source
  | leaf {pos : Position} {f : Field} {p : Progress} {primary : Source} {standIn : Option Source}
      {type : GoType} (hsources : sourcesOf c pos f (pos.key f) = (some primary, standIn))
      (hleaf : f.type.root.isLeaf = true) (htype : f.type.goType c.resolve = .ok type) :
      Emits c (.field pos f) p
        (leafCode (p.deferred.guards pos.scope (pos.path f)) pos f type primary standIn) p
  | recordField {pos : Position} {f : Field} {p q : Progress} {b : Code} {primary : Source}
      {standIn : Option Source} {target origin : RecordRef}
      (hsources : sourcesOf c pos f (pos.key f) = (some primary, standIn))
      (hroot : f.type.root = .record target) (horigin : primary.field.type.record? = some origin)
      (hrecord : Emits c (.record pos ⟨target, origin, pos.path f⟩ f.type primary.place
        primary.place true) p b q) :
      Emits c (.field pos f) p b q
  | containerField {pos : Position} {f : Field} {p q : Progress} {b : Code} {primary : Source}
      {standIn : Option Source}
      (hsources : sourcesOf c pos f (pos.key f) = (some primary, standIn))
      (hroot : f.type.root.isContainer = true)
      (hcontainer : Emits c (.container pos f.type.root
        ⟨f.name, pos.path f, .ofSource primary, standIn.map .ofSource⟩) p b q) :
      Emits c (.field pos f) p b q
  -- Fields without a source
  | allocated {pos : Position} {f : Field} {p q : Progress} {b : Code} {other : Option Source}
      {record : RecordRef} {type : GoType}
      (hsources : sourcesOf c pos f (pos.key f) = (none, other))
      (hrecord : f.type.record? = some record) (hmaps : c.mapsBelow (pos.key f) = true)
      (htype : f.type.goType c.resolve = .ok type) (hrequired : f.required = true)
      (hfields : Emits c (.fields (pos.unsourced (pos.path f)) (c.schema.fields record)) p b q) :
      Emits c (.field pos f) p
        (p.deferred.guards pos.scope (pos.path f) ++
          .step (.assign ⟨.output, pos.path f⟩ (.newRecord type)) b) q
  | deferred {pos : Position} {f : Field} {p q : Progress} {b : Code} {other : Option Source}
      {record : RecordRef} {type : GoType}
      (hsources : sourcesOf c pos f (pos.key f) = (none, other))
      (hrecord : f.type.record? = some record) (hmaps : c.mapsBelow (pos.key f) = true)
      (htype : f.type.goType c.resolve = .ok type) (hoptional : f.required = false)
      (hfields : Emits c (.fields (pos.unsourced (pos.path f)) (c.schema.fields record))
        { p with deferred := p.deferred.defer (pos.scope ++ pos.path f) type } b q) :
      Emits c (.field pos f) p b q
  | unset {pos : Position} {f : Field} {p : Progress} {other : Option Source}
      (hsources : sourcesOf c pos f (pos.key f) = (none, other))
      (hmaps : f.type.record? = none ∨ c.mapsBelow (pos.key f) = false)
      (hmay : f.required = false ∨ c.allowsUnset (pos.key f) = true) :
      Emits c (.field pos f) p .done p
  -- Records
  | inline {pos : Position} {job : RecordJob} {type : FieldType} {tested base : Place}
      {inField : Bool} {p q : Progress} {b : Code} {go : GoType}
      (hneeds : c.needsHelper job.target job.source = false)
      (htype : type.goType c.resolve = .ok go)
      (hfields : Emits c (.fields (pos.inline c job base) (c.schema.fields job.target)) p b q) :
      Emits c (.record pos job type tested base inField) p
        (inlineCode (p.deferred.guards pos.scope job.path) job.path go tested b)
        { q with helpers := p.helpers }
  | call {pos : Position} {job : RecordJob} {type : FieldType} {tested base : Place}
      {inField : Bool} {p : Progress} {helper : Helper}
      (hneeds : c.needsHelper job.target job.source = true)
      (hknown : p.helper? job = some helper) :
      Emits c (.record pos job type tested base inField) p
        (callCode (guardsAbove p pos job.path inField) job.path helper.name tested) p
  | define {pos : Position} {job : RecordJob} {type : FieldType} {tested base : Place}
      {inField : Bool} {p q : Progress} {b : Code} {targetGo sourceGo : GoType}
      (hneeds : c.needsHelper job.target job.source = true)
      (hnew : p.helper? job = none)
      (htarget : (FieldType.record job.target).goType c.resolve = .ok targetGo)
      (hsource : (FieldType.record job.source).goType c.resolve = .ok sourceGo)
      (hfields : Emits c (.fields (pos.inHelper c job) (c.schema.fields job.target))
        (p.define job) b q) :
      Emits c (.record pos job type tested base inField) p
        (helperCode ⟨.helper (pascal job.target.name) (p.counter + 1), sourceGo, targetGo⟩ b ++
          callCode (guardsAbove q pos job.path inField) job.path
            (.helper (pascal job.target.name) (p.counter + 1)) tested)
        { q with helpers := (p.define job).helpers }
  -- Containers
  | loop {pos : Position} {type : FieldType} {job : ContainerJob} {p q : Progress} {b : Code}
      {loop : Loop} {chosen : Selection} (hloop : loop.Converts c job type)
      (hchosen : chosen = loop.selection c job p.counter)
      (helement : Emits c (.element pos job.field loop.element
          (loop.slot job chosen.flag chosen.counter)) { p with counter := chosen.counter + 2 } b q) :
      Emits c (.container pos type job) p
        (loop.code (p.deferred.guards pos.scope job.path) job chosen b)
        { q with helpers := p.helpers }
  | keys {pos : Position} {element primary : FieldType} {form primaryForm : SetForm}
      {job : ContainerJob} {standIn : Option (FieldType × SetForm)} {p : Progress} {type : GoType}
      {chosen : Selection} (hprimary : job.primary.setElements? = some (primary, primaryForm))
      (hstandIn : standInPart Operand.setElements? job.standIn = some standIn)
      (hkeyed : (isKeyed element form || isKeyed primary primaryForm) = true)
      (hhashable : element.isHashable = true) (htype : element.goType c.resolve = .ok type)
      (hchosen : chosen =
        .of p.counter job.primary.place (job.standIn.map (·.place)) false) :
      Emits c (.container pos (.set element form) job) p
        (keysCode (p.deferred.guards pos.scope job.path) job.path type (isKeyed element form)
          (isKeyed primary primaryForm) chosen)
        { p with counter := chosen.counter + 1 }
  -- Elements
  | leafElement {pos : Position} {field : String} {type : FieldType} {slot : Slot} {p : Progress}
      {go : GoType} (hleaf : type.root.isLeaf = true) (htype : type.goType c.resolve = .ok go) :
      Emits c (.element pos field type slot) p
        (.step (.assign ⟨.output, slot.path⟩ (.convert (.plain go) (.ofVar slot.value))) .done) p
  | recordElement {pos : Position} {field : String} {type : FieldType} {slot : Slot}
      {p q : Progress} {b : Code} {target origin : RecordRef}
      (hroot : type.root = .record target) (hone : slot.selector = none ∨ slot.standIn = none)
      (horigin : slot.primary.type.record? = some origin)
      (hrecord : Emits c (.record pos ⟨target, origin, slot.path⟩ type (.ofVar slot.value)
        slot.primary.place false) p b q) :
      Emits c (.element pos field type slot) p b q
  | eitherElement {pos : Position} {field : String} {type : FieldType} {slot : Slot}
      {p q r : Progress} {b₁ b₂ : Code} {target origin origin' : RecordRef} {flag : Var}
      {standIn : Operand} (hroot : type.root = .record target)
      (hflag : slot.selector = some flag) (hstandIn : slot.standIn = some standIn)
      (horigin : slot.primary.type.record? = some origin)
      (horigin' : standIn.type.record? = some origin')
      (hprimary : Emits c (.record pos ⟨target, origin, slot.path⟩ type (.ofVar slot.value)
        slot.primary.place false) p b₁ q)
      (hother : Emits c (.record pos ⟨target, origin', slot.path⟩ type (.ofVar slot.value)
        standIn.place false) q b₂ r) :
      Emits c (.element pos field type slot) p (.fork (.ifFlag flag) b₁ b₂ .done) r
  | containerElement {pos : Position} {field : String} {type : FieldType} {slot : Slot}
      {p q : Progress} {b : Code} (hroot : type.root.isContainer = true)
      (hcontainer : Emits c (.container pos type.root (slot.job field)) p b q) :
      Emits c (.element pos field type slot) p b q

end RecordBridge

import RecordBridge.Proofs.Conversion.Stores
import RecordBridge.Proofs.Conversion.TargetSafety

/-!
# One chunk for each field

The statements that fill a record are one chunk after the other, for its fields in their order
(`Emits.chunks`). A chunk stores at the path of its own field and beneath it only, but for deferred records
on the way, and it does store at the path of a required field that may not stay unset (`IsChunk`).

This holds wherever a record is filled: at the start, in place, without a source of its own, and in the
body of a local function. `Part` leads from what is written to the parts that it is made of, so
`run_chunks` speaks of every record that a conversion fills.
-/

namespace RecordBridge

/-! ## Fields that are assigned -/

/-- Local functions aside, a path of the target is assigned. -/
def Code.Assigns (path : Path) (b : Code) : Prop :=
  ∃ value, .assign ⟨.output, path⟩ value ∈ b.withoutFunctions.steps

namespace Code.Assigns

variable {path : Path} {a b guards body rest : Code} {type : GoType}

theorem left (h : Assigns path a) (b : Code) : Assigns path (a ++ b) := by
  obtain ⟨value, hmem⟩ := h
  refine ⟨value, ?_⟩
  rw [withoutFunctions_append, Block.steps_append]
  exact List.mem_append_left _ hmem

theorem right (a : Code) (h : Assigns path b) : Assigns path (a ++ b) := by
  obtain ⟨value, hmem⟩ := h
  refine ⟨value, ?_⟩
  rw [withoutFunctions_append, Block.steps_append]
  exact List.mem_append_right _ hmem

theorem here (value : Expr) (rest : Code) :
    Assigns path (.step (.assign ⟨.output, path⟩ value) rest) :=
  ⟨value, List.mem_cons_self⟩

theorem ifSet {places : List Place} (h : Assigns path body) :
    Assigns path (.nest (.ifSet places) body rest) := by
  obtain ⟨value, hmem⟩ := h
  refine ⟨value, ?_⟩
  rw [withoutFunctions, Block.steps_nest]
  · exact List.mem_append_left _ hmem
  · intro helper hhead
    cases hhead

theorem yes {head : Head} {no : Code} (h : Assigns path a) :
    Assigns path (.fork head a no rest) := by
  obtain ⟨value, hmem⟩ := h
  refine ⟨value, ?_⟩
  rw [withoutFunctions, Block.steps_fork]
  exact List.mem_append_left _ hmem

theorem assignment (guards : Code) (x : Assignment) : Assigns x.target (x.code guards) := by
  rw [Assignment.code]
  split
  · exact ifSet (right _ (here _ _))
  · exact right _ (here _ _)

theorem leafCode (guards : Code) {pos : Position} {f : Field} {primary : Source}
    {standIn : Option Source} :
    Assigns (pos.path f) (leafCode guards pos f type primary standIn) := by
  cases standIn with
  | none => exact assignment guards (leafAssignment pos f type primary false)
  | some x => exact .left (assignment guards (leafAssignment pos f type x false)) _

theorem inlineCode (guards : Code) {tested : Place} :
    Assigns path (inlineCode guards path type tested body) := by
  have hfilled : Assigns path (guards ++ .step (.assign ⟨.output, path⟩ (.newRecord type)) body) :=
    right _ (here _ _)
  rw [RecordBridge.inlineCode]
  split
  · exact yes hfilled
  · exact ifSet hfilled

theorem callCode (guards : Code) {helper : Var} {argument : Place} :
    Assigns path (callCode guards path helper argument) :=
  right _ (here _ _)

end Code.Assigns

section Derivation

variable {c : Settings} {pos : Position} {p q : Progress} {b : Code}

/-- A record is assigned where it is converted. -/
theorem Emits.assigns_record {job : RecordJob} {type : FieldType} {tested base : Place}
    {inField : Bool} (h : Emits c (.record pos job type tested base inField) p b q) :
    b.Assigns job.path := by
  cases h with
  | inline => exact .inlineCode _
  | call => exact .callCode _
  | define => exact .right _ (.callCode _)

/-- A container is made before its elements. -/
theorem Emits.assigns_container {type : FieldType} {job : ContainerJob}
    (h : Emits c (.container pos type job) p b q) : b.Assigns job.path := by
  cases h with
  | loop => exact .right _ (.right _ (.here _ _))
  | keys => exact .right _ (.right _ (.here _ _))

/-- A required field is assigned unless it may stay unset. -/
theorem Emits.assigns_field {f : Field} (h : Emits c (.field pos f) p b q)
    (hrequired : f.required = true) (hset : c.allowsUnset (pos.key f) = false) :
    b.Assigns (pos.path f) := by
  cases h with
  | leaf => exact .leafCode _
  | recordField _ _ _ hrecord => exact hrecord.assigns_record
  | containerField _ _ hcontainer => exact hcontainer.assigns_container
  | allocated => exact .right _ (.here _ _)
  | deferred _ _ _ _ hoptional =>
    rw [hrequired] at hoptional
    cases hoptional
  | unset _ _ hmay =>
    rcases hmay with hoptional | hallowed
    · rw [hrequired] at hoptional
      cases hoptional
    · rw [hset] at hallowed
      cases hallowed

end Derivation

/-! ## Chunks -/

/-- Statements that are written for one field of the record at a position. `d` holds the records that are
deferred in the end. -/
structure IsChunk (c : Settings) (pos : Position) (d : Deferred) (f : Field) (chunk : Code) : Prop where
  /-- Stores are at the path of the field or beneath it, but for deferred records on the way. -/
  stores : chunk.FillsOnly d pos.scope (pos.path f)
  /-- A required field that may not stay unset is assigned. -/
  assigned : f.required = true → c.allowsUnset (pos.key f) = false → chunk.Assigns (pos.path f)

/-- Statements in sequence. -/
def Code.sequence (chunks : List Code) : Code :=
  chunks.foldr (· ++ ·) .done

/-- The lines of statements in sequence, with local functions left out of each. -/
theorem Code.lines_sequence (chunks : List Code) :
    (sequence chunks).withoutFunctions.lines = chunks.flatMap (·.withoutFunctions.lines) := by
  induction chunks with
  | nil => rfl
  | cons chunk chunks ih =>
    rw [List.flatMap_cons, ← ih, ← Block.lines_append, ← withoutFunctions_append]
    rfl

/-- What is written for some fields is a chunk for each, in their order. -/
theorem Emits.chunks {c : Settings} {pos : Position} {fields : List Field} {p q : Progress} {b : Code}
    (h : Emits c (.fields pos fields) p b q) (hspelled : p.deferred.Within fun _ => True) :
    ∃ chunks, b = Code.sequence chunks ∧
      List.Forall₂ (IsChunk c pos q.deferred) fields chunks := by
  induction fields generalizing p b with
  | nil =>
    cases h
    exact ⟨[], rfl, .nil⟩
  | cons f fields ih =>
    cases h with
    | @moreFields _ _ _ _ q' _ b₁ b₂ hfirst hrest =>
      obtain ⟨chunks, rfl, hchunks⟩ := ih hrest (hfirst.grows.spelled hspelled)
      refine ⟨b₁ :: chunks, rfl, .cons ⟨?_, hfirst.assigns_field⟩ hchunks⟩
      exact .mono hrest.grows.keys (hfirst.fillsOnly hspelled)

/-! ## Parts -/

/-- Statements that are written for a task, from one progress to another. -/
structure Passage where
  task : Task
  before : Progress
  code : Code
  after : Progress

/-- One passage is written as a part of another one: for a field of a record, for what the field holds,
for the fields of a record, or for the elements of a container. When a rule applies is not asked here. -/
inductive Part (c : Settings) : (whole part : Passage) → Prop where
  | firstField {pos : Position} {f : Field} {fs : List Field} {p q r : Progress} {b₁ b₂ : Code}
      (h : Emits c (.field pos f) p b₁ q) :
      Part c ⟨.fields pos (f :: fs), p, b₁ ++ b₂, r⟩ ⟨.field pos f, p, b₁, q⟩
  | otherFields {pos : Position} {f : Field} {fs : List Field} {p q r : Progress} {b₁ b₂ : Code}
      (hfirst : Emits c (.field pos f) p b₁ q) (h : Emits c (.fields pos fs) q b₂ r) :
      Part c ⟨.fields pos (f :: fs), p, b₁ ++ b₂, r⟩ ⟨.fields pos fs, q, b₂, r⟩
  -- What a field holds
  | record {pos : Position} {f : Field} {p q : Progress} {b : Code} {source : Place}
      {target origin : RecordRef}
      (h : Emits c (.record pos ⟨target, origin, pos.path f⟩ f.type source source true) p b q) :
      Part c ⟨.field pos f, p, b, q⟩
        ⟨.record pos ⟨target, origin, pos.path f⟩ f.type source source true, p, b, q⟩
  | container {pos : Position} {f : Field} {p q : Progress} {b : Code} {primary : Operand}
      {standIn : Option Operand}
      (h : Emits c (.container pos f.type.root ⟨f.name, pos.path f, primary, standIn⟩) p b q) :
      Part c ⟨.field pos f, p, b, q⟩
        ⟨.container pos f.type.root ⟨f.name, pos.path f, primary, standIn⟩, p, b, q⟩
  -- The fields of a record
  | allocated {pos : Position} {f : Field} {p q : Progress} {guards b : Code} {record : RecordRef}
      {type : GoType}
      (h : Emits c (.fields (pos.unsourced (pos.path f)) (c.schema.fields record)) p b q) :
      Part c ⟨.field pos f, p, guards ++ .step (.assign ⟨.output, pos.path f⟩ (.newRecord type)) b, q⟩
        ⟨.fields (pos.unsourced (pos.path f)) (c.schema.fields record), p, b, q⟩
  | deferred {pos : Position} {f : Field} {p q : Progress} {b : Code} {record : RecordRef}
      {type : GoType}
      (h : Emits c (.fields (pos.unsourced (pos.path f)) (c.schema.fields record))
        { p with deferred := p.deferred.defer (pos.scope ++ pos.path f) type } b q) :
      Part c ⟨.field pos f, p, b, q⟩
        ⟨.fields (pos.unsourced (pos.path f)) (c.schema.fields record),
          { p with deferred := p.deferred.defer (pos.scope ++ pos.path f) type }, b, q⟩
  | inline {pos : Position} {job : RecordJob} {type : FieldType} {tested base : Place}
      {inField : Bool} {p q : Progress} {guards b : Code} {go : GoType}
      (h : Emits c (.fields (pos.inline c job base) (c.schema.fields job.target)) p b q) :
      Part c
        ⟨.record pos job type tested base inField, p, inlineCode guards job.path go tested b,
          { q with helpers := p.helpers }⟩
        ⟨.fields (pos.inline c job base) (c.schema.fields job.target), p, b, q⟩
  | define {pos : Position} {job : RecordJob} {type : FieldType} {tested base : Place}
      {inField : Bool} {p q : Progress} {b call : Code} {helper : HelperSignature}
      (h : Emits c (.fields (pos.inHelper c job) (c.schema.fields job.target)) (p.define job) b q) :
      Part c
        ⟨.record pos job type tested base inField, p, helperCode helper b ++ call,
          { q with helpers := (p.define job).helpers }⟩
        ⟨.fields (pos.inHelper c job) (c.schema.fields job.target), p.define job, b, q⟩
  -- The elements of a container
  | element {pos : Position} {type : FieldType} {job : ContainerJob} {p q : Progress}
      {guards b : Code} {loop : Loop} {chosen : Selection}
      (h : Emits c (.element pos job.field loop.element
        (loop.slot job chosen.flag chosen.counter)) { p with counter := chosen.counter + 2 } b q) :
      Part c
        ⟨.container pos type job, p, loop.code guards job chosen b, { q with helpers := p.helpers }⟩
        ⟨.element pos job.field loop.element (loop.slot job chosen.flag chosen.counter),
          { p with counter := chosen.counter + 2 }, b, q⟩
  | recordElement {pos : Position} {field : String} {type : FieldType} {slot : Slot}
      {p q : Progress} {b : Code} {target origin : RecordRef}
      (h : Emits c (.record pos ⟨target, origin, slot.path⟩ type (.ofVar slot.value)
        slot.primary.place false) p b q) :
      Part c ⟨.element pos field type slot, p, b, q⟩
        ⟨.record pos ⟨target, origin, slot.path⟩ type (.ofVar slot.value) slot.primary.place false,
          p, b, q⟩
  | primaryElement {pos : Position} {field : String} {type : FieldType} {slot : Slot}
      {p q r : Progress} {b₁ b₂ : Code} {target origin : RecordRef} {flag : Var}
      (h : Emits c (.record pos ⟨target, origin, slot.path⟩ type (.ofVar slot.value)
        slot.primary.place false) p b₁ q) :
      Part c ⟨.element pos field type slot, p, .fork (.ifFlag flag) b₁ b₂ .done, r⟩
        ⟨.record pos ⟨target, origin, slot.path⟩ type (.ofVar slot.value) slot.primary.place false,
          p, b₁, q⟩
  | otherElement {pos : Position} {field : String} {type : FieldType} {slot : Slot}
      {p q r : Progress} {b₁ b₂ : Code} {target origin origin' : RecordRef} {flag : Var}
      {standIn : Operand}
      (hprimary : Emits c (.record pos ⟨target, origin, slot.path⟩ type (.ofVar slot.value)
        slot.primary.place false) p b₁ q)
      (h : Emits c (.record pos ⟨target, origin', slot.path⟩ type (.ofVar slot.value)
        standIn.place false) q b₂ r) :
      Part c ⟨.element pos field type slot, p, .fork (.ifFlag flag) b₁ b₂ .done, r⟩
        ⟨.record pos ⟨target, origin', slot.path⟩ type (.ofVar slot.value) standIn.place false,
          q, b₂, r⟩
  | containerElement {pos : Position} {field : String} {type : FieldType} {slot : Slot}
      {p q : Progress} {b : Code}
      (h : Emits c (.container pos type.root (slot.job field)) p b q) :
      Part c ⟨.element pos field type slot, p, b, q⟩
        ⟨.container pos type.root (slot.job field), p, b, q⟩

/-- A passage is emitted, from a progress in which deferred records are keyed by their spelling. -/
structure Passage.Emitted (c : Settings) (x : Passage) : Prop where
  emits : Emits c x.task x.before x.code x.after
  spelled : x.before.deferred.Within fun _ => True

/-- A part of what is emitted is emitted. -/
theorem Part.emitted {c : Settings} {whole part : Passage} (h : Part c whole part)
    (hwhole : whole.Emitted c) : part.Emitted c := by
  have hspelled := hwhole.spelled
  cases h with
  | otherFields hfirst h => exact ⟨h, hfirst.grows.spelled hspelled⟩
  | otherElement hprimary h => exact ⟨h, hprimary.grows.spelled hspelled⟩
  | deferred h => exact ⟨h, hspelled.defer trivial⟩
  | firstField h | record h | container h | allocated h | inline h | define h | element h
  | recordElement h | primaryElement h | containerElement h => exact ⟨h, hspelled⟩

/-- So are the parts of its parts. -/
theorem Passage.Emitted.part {c : Settings} {whole part : Passage} (hwhole : whole.Emitted c)
    (h : Relation.ReflTransGen (Part c) whole part) : part.Emitted c := by
  induction h with
  | refl => exact hwhole
  | tail _ hpart ih => exact hpart.emitted ih

namespace ConversionRequest

variable {r : ConversionRequest}

/-- **One chunk for each field.** The lines of a conversion, after those that keep the whole records in
reach, are those of statements that are emitted for the target. Wherever fields of a record are filled
among these, the statements are one chunk after the other, for the fields in their order; so are the lines
if local functions are left out. Each chunk stores at the path of its own field and beneath it only, but
for deferred records on the way, which it may allocate; and the chunk of a required field that may not stay
unset assigns it. -/
theorem run_chunks {text : List String} (hrun : r.run = .lines text) :
    ∃ mapped body last, r.schema.followMappings r.source r.mappings.entries = .ok mapped ∧
      text = (preamble (r.settings mapped) ++ body).lines.map Line.indented ∧
      Emits (r.settings mapped) (.fields r.start r.target) {} body last ∧
      ∀ pos fields p b q,
        Relation.ReflTransGen (Part (r.settings mapped)) ⟨.fields r.start r.target, {}, body, last⟩
          ⟨.fields pos fields, p, b, q⟩ →
        ∃ chunks, b = Code.sequence chunks ∧
          b.withoutFunctions.lines = chunks.flatMap (·.withoutFunctions.lines) ∧
          List.Forall₂ (IsChunk (r.settings mapped) pos q.deferred) fields chunks := by
  obtain ⟨b, last, hdraft, rfl⟩ := draft_of_run hrun
  obtain ⟨mapped, body, hmapped, rfl, hemits⟩ := emits_of_draft hdraft
  refine ⟨mapped, body, last, hmapped, rfl, hemits, ?_⟩
  intro pos fields p b q hpart
  have hemitted := Passage.Emitted.part ⟨hemits, .empty⟩ hpart
  obtain ⟨chunks, rfl, hchunks⟩ := hemitted.emits.chunks hemitted.spelled
  exact ⟨chunks, rfl, Code.lines_sequence chunks, hchunks⟩

/-- The box of a parcel has no source, so its chunk fills the tag within it and allocates both; the chunk
of the items comes after it. -/
theorem parcel_run_chunks : ∃ text, parcel.run = .lines text ∧
    ∃ mapped body last,
      parcel.schema.followMappings parcel.source parcel.mappings.entries = .ok mapped ∧
      text = (preamble (parcel.settings mapped) ++ body).lines.map Line.indented ∧
      Emits (parcel.settings mapped) (.fields parcel.start parcel.target) {} body last ∧
      ∀ pos fields p b q,
        Relation.ReflTransGen (Part (parcel.settings mapped))
          ⟨.fields parcel.start parcel.target, {}, body, last⟩ ⟨.fields pos fields, p, b, q⟩ →
        ∃ chunks, b = Code.sequence chunks ∧
          b.withoutFunctions.lines = chunks.flatMap (·.withoutFunctions.lines) ∧
          List.Forall₂ (IsChunk (parcel.settings mapped) pos q.deferred) fields chunks := by
  obtain ⟨text, hrun⟩ := parcel_run
  exact ⟨text, hrun, run_chunks hrun⟩

end ConversionRequest

end RecordBridge

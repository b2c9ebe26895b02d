import RecordBridge.Proofs.Conversion.Clean
import RecordBridge.Proofs.Conversion.Convertible
import RecordBridge.Proofs.Unfailing

/-!
# What is convertible is converted

Without mappings a conversion takes each field from its direct source. It never fails if all fields can
be filled from these (`Field.FilledFrom`), at every depth: their types are convertible
(`FieldType.Convertible`), and a field without a source need not be filled. Which records are met with
is told by a relation that is closed: the fields of a record can be filled from those of the other one.

Where in the statements a record is converted does not matter, nor what local functions are in scope,
so that no invariant of the progress is needed. There is one lemma for each function of the conversion.
-/

namespace RecordBridge

open Draft

/-! ## Fields that can be filled -/

/-- A field can be filled from some source fields: from the first one of its name, or it has none and is
not required. -/
structure Field.FilledFrom (resolve : Resolver) (known : RecordRef → Prop)
    (R : (target source : RecordRef) → Prop) (sources : List Field) (f : Field) : Prop where
  type : f.type.Resolved resolve known
  source : match sources.find? fun g => Text.sameIgnoringCase g.name f.name with
    | some g => f.type.Convertible R g.type
    | none => f.required = false

/-- Records that can be converted: they have Go types, and the fields of the target can be filled from
those of the source. -/
structure Settings.Converts (c : Settings) (known : RecordRef → Prop)
    (R : (target source : RecordRef) → Prop) : Prop where
  names : ∀ {target origin}, R target origin →
    NameSupported c.resolve target.name target.file ∧
      NameSupported c.resolve origin.name origin.file
  fields : ∀ {target origin}, R target origin → ∀ f ∈ c.schema.fields target,
    f.FilledFrom c.resolve known R (c.schema.fields origin)

/-- A draft of a conversion that never fails. -/
abbrev IsUnfailing {α : Type} (d : Writing α) : Prop :=
  Draft.Unfailing (fun _ => True) d

/-! ## Drafts that fill no records -/

section Plain

variable {pos : Position}

/-- A statement may be a broken line, but that is no fault of the inputs. -/
theorem unfailing_statement (s : Statement) : IsUnfailing (Writing.statement s) :=
  .write

/-- An assignment looks up guards and writes; nothing of that fails. -/
theorem unfailing_assign (path : Path) (e : Expr) : IsUnfailing (Writing.assign path e) :=
  unfailing_statement _

theorem unfailing_guards (path : Path) : IsUnfailing (Writing.guards pos path) :=
  .bind .state fun _ _ => .pure trivial

theorem unfailing_fresh : IsUnfailing Writing.fresh :=
  .bind .update fun _ _ => .bind .state fun _ _ => .pure trivial

/-- What is enclosed fails only as it would alone. -/
theorem unfailing_enclosed {α : Type} {d : Writing α} (hd : IsUnfailing d) :
    IsUnfailing (Writing.enclosed d) :=
  .bind .state fun _ _ => .bind hd fun _ _ => .bind .update fun _ _ => .pure trivial

/-- A source of the asked shape passes. -/
theorem unfailing_shaped {α : Type} {field : String} {shape : Shape} {part? : Operand → Option α}
    {x : Operand} {part : α} (h : part? x = some part) :
    Draft.Unfailing (· = part) (shaped field shape part? x) := by
  rw [shaped, h]
  exact .value rfl

/-- Where nothing stands in there is no shape to ask for. -/
theorem unfailing_shapedStandIn {α : Type} {field : String} {shape : Shape}
    {part? : Operand → Option α} : IsUnfailing (shapedStandIn field shape part? none) :=
  .pure trivial

/-- Choosing between two sources takes fresh names and statements alone. -/
theorem unfailing_selectSource (primary : Place) (standIn : Option Place) (flagged : Bool) :
    IsUnfailing (selectSource primary standIn flagged) := by
  unfold selectSource
  split
  · exact .pure trivial
  · refine .bind unfailing_fresh fun _ _ => ?_
    split
    · exact .bind unfailing_fresh fun _ _ => .bind (unfailing_statement _) fun _ _ =>
        .bind (unfailing_statement _) fun _ _ =>
          .bind (.nest (.bind (unfailing_statement _) fun _ _ => unfailing_statement _)) fun _ _ =>
            .pure trivial
    · exact .bind (unfailing_statement _) fun _ _ =>
        .bind (.nest (unfailing_statement _)) fun _ _ => .pure trivial

theorem unfailing_makeContainer (job : ContainerJob) (e : Expr) :
    IsUnfailing (makeContainer pos job e) :=
  .bind (unfailing_guards _) fun _ _ => .bind .write fun _ _ => unfailing_assign _ _

theorem unfailing_assignField (target : Field) (path : Path) (cast : Bool → Cast) (source : Source)
    (onlyIfSet : Bool) : IsUnfailing (assignField pos target path cast source onlyIfSet) :=
  .bind (unfailing_guards _) fun _ _ => .write

theorem unfailing_assignSources (target : Field) (path : Path) (cast : Bool → Cast)
    (primary : Source) : IsUnfailing (assignSources pos target path cast primary none) :=
  unfailing_assignField _ _ _ _ _

/-- A resolved type has a Go type. -/
theorem unfailing_goType {resolve : Resolver} {known : RecordRef → Prop} {t : FieldType}
    (h : t.Resolved resolve known) : IsUnfailing (Draft.ofExcept (t.goType resolve)) := by
  obtain ⟨go, hgo, -⟩ := h.goType
  exact .ofExcept ⟨go, hgo, trivial⟩

/-- A resolved type has a Go type in fields and elements. -/
theorem unfailing_heldType {resolve : Resolver} {known : RecordRef → Prop} {t : FieldType}
    (h : t.Resolved resolve known) : IsUnfailing (Draft.ofExcept (t.heldType resolve)) := by
  obtain ⟨go, hgo, -⟩ := h.heldType
  exact .ofExcept ⟨go, hgo, trivial⟩

/-- A record with a known package has a Go type. -/
theorem unfailing_recordType {resolve : Resolver} {ref : RecordRef}
    (h : NameSupported resolve ref.name ref.file) :
    IsUnfailing (Draft.ofExcept (FieldType.goType resolve (.record ref))) := by
  obtain ⟨go, hgo, -⟩ := h.namedType
  exact .ofExcept ⟨go, hgo, trivial⟩

end Plain

/-! ## Drafts that fill records -/

section Filling

variable {c : Settings} {fill : Fill} {pos : Position} {known : RecordRef → Prop}
  {R : (target source : RecordRef) → Prop}

/-- A way to fill records never fails where all fields can be filled from the source. -/
def Fill.Unfailing (c : Settings) (known : RecordRef → Prop)
    (R : (target source : RecordRef) → Prop) (fill : Fill) : Prop :=
  ∀ pos base sources fields, pos.source = some (base, sources) →
    (∀ f ∈ fields, f.FilledFrom c.resolve known R sources) → IsUnfailing (fill pos fields)

/-! ### Records -/

section Records

variable (hc : c.Converts known R) (hfill : fill.Unfailing c known R) {job : RecordJob}
  (hjob : R job.target job.source)

include hc hfill hjob

/-- A record that is filled in place: only the filling could fail. -/
theorem unfailing_convertInline (type : GoType) (tested base : Place) :
    IsUnfailing (convertInline c fill pos job type tested base) := by
  unfold convertInline
  refine .bind (unfailing_guards _) fun guards _ => ?_
  have hfields : IsUnfailing (fill
      { pos with target := job.path, source := some (base, c.schema.fields job.source) }
      (c.schema.fields job.target)) :=
    hfill _ base _ _ rfl (hc.fields hjob)
  have hbody := unfailing_enclosed (.bind (.write (b := guards)) fun _ _ =>
    .bind (unfailing_assign job.path (.newRecord type)) fun _ _ => hfields)
  dsimp only
  split
  · exact .fork hbody (unfailing_assign _ _)
  · exact .nest hbody

/-- A local function fails only if its record cannot be filled. -/
theorem unfailing_helperBody (helper : HelperSignature) :
    IsUnfailing (helperBody c fill pos job helper) := by
  unfold helperBody
  refine .bind (unfailing_statement _) fun _ _ => .nest <|
    .bind (.fork (unfailing_enclosed ?_) (unfailing_statement _)) fun _ _ => unfailing_statement _
  exact .bind (unfailing_statement _) fun _ _ => hfill _ (.ofVar .input) _ _ rfl (hc.fields hjob)

/-- A local function that is there is called; another one is written first. -/
theorem unfailing_helperFor : IsUnfailing (helperFor c fill pos job) := by
  obtain ⟨htarget, hsource⟩ := hc.names hjob
  unfold helperFor
  refine .bind .state fun p _ => ?_
  dsimp only
  split
  · exact .pure trivial
  · exact .bind (unfailing_recordType htarget) fun _ _ =>
      .bind (unfailing_recordType hsource) fun _ _ => .bind unfailing_fresh fun _ _ =>
        .bind .update fun _ _ => .bind (unfailing_helperBody hc hfill hjob _) fun _ _ =>
          .pure trivial

end Records

/-! ### Containers -/

section Containers

variable {element : FieldType} {convert : Slot → Writing Unit} {job : ContainerJob}
  (hjob : job.standIn = none)

include hjob

/-- A slice has a Go type, and elements that can be converted. -/
theorem unfailing_convertSlice {primary : FieldType} (helement : element.Resolved c.resolve known)
    (hconvert : ∀ slot : Slot, slot.primary.type = primary → slot.standIn = none →
      IsUnfailing (convert slot)) (standIn : Option FieldType) :
    IsUnfailing (convertSlice c pos element convert job primary standIn) := by
  unfold convertSlice
  refine .bind (unfailing_heldType helement) fun _ _ =>
    .bind (unfailing_selectSource _ _ _) fun _ _ => .bind (unfailing_makeContainer _ _) fun _ _ =>
      .bind unfailing_fresh fun _ _ => .bind unfailing_fresh fun _ _ =>
        .nest (unfailing_enclosed (hconvert _ rfl ?_))
  dsimp only
  rw [hjob]

/-- A list asks for a source that is one. -/
theorem unfailing_convertList {primary : FieldType} (helement : element.Resolved c.resolve known)
    (hprimary : job.primary.type.root = .list primary)
    (hconvert : ∀ slot : Slot, slot.primary.type = primary → slot.standIn = none →
      IsUnfailing (convert slot)) :
    IsUnfailing (convertList c pos element convert job) := by
  have hpart : job.primary.listElements? = some primary := by
    rw [Operand.listElements?, hprimary]
  unfold convertList
  rw [hjob]
  refine .bind (unfailing_shaped hpart) fun _ heq => .bind unfailing_shapedStandIn fun standIn _ => ?_
  subst heq
  exact unfailing_convertSlice hjob helement hconvert standIn

/-- A set asks for a source that is one, and for elements that can be keys if one of the two is kept as a
map. -/
theorem unfailing_convertSet {primary : FieldType} {form primaryForm : SetForm}
    (helement : element.Resolved c.resolve known)
    (hprimary : job.primary.type.root = .set primary primaryForm)
    (hhashable : (isKeyed element form || isKeyed primary primaryForm) = true →
      element.isHashable = true)
    (hconvert : (isKeyed element form || isKeyed primary primaryForm) = false → ∀ slot : Slot,
      slot.primary.type = primary → slot.standIn = none → IsUnfailing (convert slot)) :
    IsUnfailing (convertSet c pos element form convert job) := by
  have hpart : job.primary.setElements? = some (primary, primaryForm) := by
    rw [Operand.setElements?, hprimary]
  unfold convertSet
  rw [hjob]
  refine .bind (unfailing_shaped hpart) fun _ heq => .bind unfailing_shapedStandIn fun standIn _ => ?_
  subst heq
  dsimp only
  split
  · -- Both are kept as slices, so this is the conversion of a list.
    rename_i hslices
    refine unfailing_convertSlice hjob helement (hconvert ?_) _
    simpa using hslices
  · -- One of the two is kept as a map, so the elements are keys.
    rename_i hslices
    have hkeyed : (isKeyed element form || isKeyed primary primaryForm) = true :=
      (by decide : ∀ a b : Bool, ¬(!a && !b) = true → (a || b) = true) _ _ hslices
    rw [if_neg (by simpa using hhashable hkeyed)]
    refine .bind (unfailing_goType helement) fun _ _ =>
      .bind (unfailing_selectSource _ _ _) fun _ _ =>
        .bind (unfailing_makeContainer _ _) fun _ _ => .bind unfailing_fresh fun _ _ => .nest ?_
    split
    · exact unfailing_assign _ _
    · exact unfailing_assign _ _

/-- A map asks for keys that are text in the target, and for a source that is a map. The keys of the
source are not asked for anything. -/
theorem unfailing_convertMap {key value sourceKey primary : FieldType}
    (htext : key.isText = true) (hkey : key.Resolved c.resolve known)
    (hvalue : value.Resolved c.resolve known)
    (hprimary : job.primary.type.root = .map sourceKey primary)
    (hconvert : ∀ slot : Slot, slot.primary.type = primary → slot.standIn = none →
      IsUnfailing (convert slot)) :
    IsUnfailing (convertMap c pos key value convert job) := by
  have hpart : job.primary.mapValues? = some primary := by
    rw [Operand.mapValues?, hprimary]
  have hkeyType : IsUnfailing (keyType c job.field key) := by
    rw [keyType, if_pos htext]
    exact unfailing_goType hkey
  unfold convertMap
  refine .bind hkeyType fun _ _ => .bind (unfailing_shaped hpart) fun _ heq => ?_
  subst heq
  rw [hjob]
  refine .bind unfailing_shapedStandIn fun _ _ => .bind (unfailing_heldType hvalue) fun _ _ =>
    .bind (unfailing_selectSource _ _ _) fun _ _ => .bind (unfailing_makeContainer _ _) fun _ _ =>
      .bind unfailing_fresh fun _ _ => .bind unfailing_fresh fun _ _ =>
        .nest (unfailing_enclosed (hconvert _ rfl rfl))

end Containers

/-! ### Elements -/

section Elements

variable (hc : c.Converts known R) (hfill : fill.Unfailing c known R) (field : String)

include hc hfill

/-- A record among the elements of a container. -/
theorem unfailing_convertRecordElement {type : FieldType} (htype : type.Resolved c.resolve known)
    {target origin : RecordRef} (hjob : R target origin) {slot : Slot} {source : Operand}
    (horigin : source.type.root = .record origin) :
    IsUnfailing (convertRecordElement c fill pos field slot type target source) := by
  have hrecord : source.type.record? = some origin := by
    rw [FieldType.record?, horigin]
  unfold convertRecordElement
  rw [hrecord]
  dsimp only
  split
  · exact .bind (unfailing_helperFor hc hfill hjob) fun _ _ => unfailing_assign _ _
  · exact .bind (unfailing_goType htype) fun _ _ => unfailing_convertInline hc hfill hjob _ _ _

/-- By induction on the type of the target: a source that it is convertible from has the shape that each
conversion asks for, and its elements are convertible again. -/
theorem unfailing_convertElement {type : FieldType} (htype : type.Resolved c.resolve known) :
    ∀ {whole : FieldType}, whole.Resolved c.resolve known → ∀ slot : Slot, slot.standIn = none →
      type.Convertible R slot.primary.type →
        IsUnfailing (convertElement c fill pos field whole type slot) := by
  induction type with
  | «alias» name file target ih =>
    intro whole hwhole slot hslot hsource
    exact ih htype.2 hwhole slot hslot hsource
  | record target =>
    intro whole hwhole slot hslot hsource
    obtain ⟨origin, horigin, hjob⟩ := hsource
    simp only [convertElement, hslot]
    split
    · rename_i hstandIn
      cases hstandIn
    · exact unfailing_convertRecordElement hc hfill field hwhole hjob horigin
  | list element ih =>
    intro whole hwhole slot hslot hsource
    obtain ⟨primary, hprimary, hsource⟩ := hsource
    have helement : element.Resolved c.resolve known := htype
    refine unfailing_convertList rfl helement hprimary fun inner hinner hstandIn => ?_
    exact ih helement helement inner hstandIn (hinner ▸ hsource)
  | set element form ih =>
    -- Elements are converted one by one only if both sets are slices.
    intro whole hwhole slot hslot hsource
    obtain ⟨primary, primaryForm, hprimary, hsource⟩ := hsource
    have helement : element.Resolved c.resolve known := htype
    refine unfailing_convertSet rfl helement hprimary (fun hkeyed => ?_)
      fun hslices inner hinner hstandIn => ?_
    · rwa [if_pos hkeyed] at hsource
    · rw [if_neg (by simp [hslices])] at hsource
      exact ih helement helement inner hstandIn (hinner ▸ hsource)
  | map key value _ ih =>
    intro whole hwhole slot hslot hsource
    obtain ⟨htext, sourceKey, primary, hprimary, hsource⟩ := hsource
    refine unfailing_convertMap rfl htext htype.1 htype.2 hprimary fun inner hinner hstandIn => ?_
    exact ih htype.2 htype.2 inner hstandIn (hinner ▸ hsource)
  | bool | int8 | int16 | int32 | int64 | double | text | binary | enum =>
    intro whole hwhole slot _ _
    exact .bind (unfailing_goType hwhole) fun _ _ => unfailing_assign _ _

end Elements

/-! ### Fields -/

section Fields

variable (hc : c.Converts known R) (hfill : fill.Unfailing c known R) {target : Field} {path : Path}

include hc hfill

/-- A field that is a record, from a source that is one. -/
theorem unfailing_fillRecord (htarget : target.type.Resolved c.resolve known)
    {record origin : RecordRef} (hjob : R record origin) {source : Source}
    (horigin : source.field.type.root = .record origin) :
    IsUnfailing (fillRecord c fill pos target record path source) := by
  have hrecord : source.field.type.record? = some origin := by
    rw [FieldType.record?, horigin]
  unfold fillRecord
  rw [hrecord]
  dsimp only
  split
  · exact .bind (unfailing_helperFor hc hfill hjob) fun _ _ => .bind (unfailing_guards _) fun _ _ =>
      .bind .write fun _ _ => unfailing_assign _ _
  · exact .bind (unfailing_goType htarget) fun _ _ => unfailing_convertInline hc hfill hjob _ _ _

/-- A field with a source from which its type is convertible. -/
theorem unfailing_fillSourced (htarget : target.type.Resolved c.resolve known) {source : Source}
    (hsource : target.type.Convertible R source.field.type) :
    IsUnfailing (fillSourced c fill pos target path source none) := by
  have hroot := htarget.root
  have hsource := hsource.root
  have helement : ∀ {element primary : FieldType}, element.Resolved c.resolve known →
      element.Convertible R primary → ∀ slot : Slot, slot.primary.type = primary →
        slot.standIn = none → IsUnfailing (convertElement c fill pos target.name element element slot) :=
    fun htype hprimary slot hslot hstandIn =>
      unfailing_convertElement hc hfill _ htype htype slot hstandIn (hslot ▸ hprimary)
  -- What has to be converted is told by the type behind the aliases, on both sides.
  unfold fillSourced
  dsimp only
  split
  · rename_i record heq
    rw [heq] at hsource
    obtain ⟨origin, horigin, hjob⟩ := hsource
    exact unfailing_fillRecord hc hfill htarget hjob horigin
  · rename_i element heq
    rw [heq] at hroot hsource
    obtain ⟨primary, hprimary, hsource⟩ := hsource
    exact unfailing_convertList rfl hroot hprimary (helement hroot hsource)
  · rename_i element form heq
    rw [heq] at hroot hsource
    obtain ⟨primary, primaryForm, hprimary, hsource⟩ := hsource
    refine unfailing_convertSet rfl hroot hprimary (fun hkeyed => ?_) fun hslices => ?_
    · rwa [if_pos hkeyed] at hsource
    · rw [if_neg (by simp [hslices])] at hsource
      exact helement hroot hsource
  · rename_i key value heq
    rw [heq] at hroot hsource
    obtain ⟨htext, sourceKey, primary, hprimary, hsource⟩ := hsource
    exact unfailing_convertMap rfl htext hroot.1 hroot.2 hprimary (helement hroot.2 hsource)
  · exact .bind (unfailing_goType htarget) fun _ _ => unfailing_assignSources _ _ _ _
  · exact .bind (unfailing_goType htarget) fun _ _ => unfailing_assignSources _ _ _ _

omit hc hfill in
/-- A field without a source is left alone if nothing is mapped. -/
theorem unfailing_fillUnsourced (hmapped : c.mapped = []) (htarget : target.required = false) :
    IsUnfailing (fillUnsourced c fill pos target path) := by
  unfold fillUnsourced
  dsimp only
  split
  · rename_i hmaps
    rw [Settings.mapsBelow_of_unmapped hmapped] at hmaps
    cases hmaps
  · rw [htarget]
    exact .pure trivial

/-- Without mappings the source of a field is the one of its name. -/
theorem unfailing_fillField (hmapped : c.mapped = []) {base : Place} {sources : List Field}
    (hpos : pos.source = some (base, sources))
    (htarget : target.FilledFrom c.resolve known R sources) :
    IsUnfailing (fillField c fill pos target) := by
  have hsource := htarget.source
  unfold fillField
  dsimp only
  rw [sourcesOf_of_unmapped hmapped, directSource, hpos]
  dsimp only
  cases hfind : sources.find? fun g => Text.sameIgnoringCase g.name target.name with
  | none =>
    rw [hfind] at hsource
    exact unfailing_fillUnsourced hmapped hsource
  | some g =>
    rw [hfind] at hsource
    exact unfailing_fillSourced hc hfill htarget.type hsource

end Fields

/-- Filling fields that can be filled never fails, whatever the bound on the levels. -/
theorem unfailing_fillFields (hc : c.Converts known R) (hmapped : c.mapped = []) (depth : Nat) :
    Fill.Unfailing c known R (fillFields c depth) := by
  induction depth with
  -- Without levels the draft stops at its bound, which is no fault of the inputs.
  | zero => exact fun _ _ _ _ _ _ => .stop trivial
  | succ depth ih =>
    exact fun pos base sources fields hpos hfields => .forM fun f hf =>
      unfailing_fillField hc ih hmapped hpos (hfields f hf)

end Filling

/-! ## Whole conversions -/

namespace ConversionRequest

variable {r : ConversionRequest} {known : RecordRef → Prop}
  {R : (target source : RecordRef) → Prop}

/-- **What is convertible is converted.** Without mappings a conversion gives lines if the fields of the
target can be filled from those of the source, at every depth. -/
theorem exists_lines_of_filledFrom (hresolved : r.Resolved known) (hmappings : r.mappings = .empty)
    (hrecords : (r.settings []).Converts known R)
    (htarget : ∀ f ∈ r.target, f.FilledFrom r.resolve known R r.source) :
    ∃ text, r.run = .lines text := by
  have hfollow : r.schema.followMappings r.source r.mappings.entries = .ok [] := by
    rw [hmappings]
    rfl
  have hdraft : IsUnfailing r.draft := by
    unfold draft
    rw [hfollow]
    refine .bind (Unfailing.value rfl : Draft.Unfailing (· = []) _) fun _ heq => ?_
    subst heq
    exact .bind .write fun _ _ => unfailing_fillFields hrecords rfl _ _ _ _ _ rfl htarget
  -- A run that is clean gives lines or fails, and this one does not fail.
  rcases run_clean hresolved with ⟨text, htext, -⟩ | ⟨cause, hcause, -⟩
  · exact ⟨text, htext⟩
  · exact absurd hcause (hdraft.outcome_ne_failed {} cause)

end ConversionRequest

end RecordBridge

import RecordBridge.Conversion.Request
import RecordBridge.Proofs.Refusal

/-!
# Allowing more to stay unset

The paths that may stay unset decide one thing only: whether a required field without a source is an
error. A conversion that allows more (`Settings.allowing`) does what it did before unless it failed for
such a field. The decision is made in the middle of a run, with a number, local functions and deferred
records to go on with, so the lemmas compare two drafts from every progress: `FollowsUnlessMissing` goes
through each function of the conversion, and `follows_fillUnsourced` is where the decision is.
-/

namespace RecordBridge

open Draft

/-! ## What is allowed -/

/-- The settings with other paths that may stay unset. -/
def Settings.allowing (c : Settings) (optional : List String) : Settings :=
  { c with optional }

@[simp] theorem Settings.mapsBelow_allowing (c : Settings) (optional : List String) (path : String) :
    (c.allowing optional).mapsBelow path = c.mapsBelow path :=
  rfl

/-- Which sources a field has does not depend on what may stay unset. -/
@[simp] theorem sourcesOf_allowing (c : Settings) (optional : List String) (pos : Position)
    (target : Field) (path : String) :
    sourcesOf (c.allowing optional) pos target path = sourcesOf c pos target path :=
  rfl

/-- What may stay unset still may if more is allowed. -/
theorem Settings.allowsUnset_mono {c : Settings} {optional : List String}
    (hallowed : c.optional ⊆ optional) {path : String} (h : c.allowsUnset path = true) :
    (c.allowing optional).allowsUnset path = true := by
  rw [allowsUnset, List.any_eq_true] at h ⊢
  obtain ⟨listed, hlisted, hcovers⟩ := h
  exact ⟨listed, hallowed hlisted, hcovers⟩

/-- A required field that has no source and may not stay unset. -/
def GenerationError.IsMissing (cause : GenerationError) : Prop :=
  ∃ field, cause = .missingRequired field

/-- A draft does what another one does, unless that fails for a required field without a source. -/
abbrev FollowsUnlessMissing {α : Type} (d d' : Writing α) : Prop :=
  Draft.FollowsUnless GenerationError.IsMissing d d'

/-- One way of filling records follows another one at every position. -/
def Fill.FollowsUnlessMissing (fill fill' : Fill) : Prop :=
  ∀ pos fields, RecordBridge.FollowsUnlessMissing (fill pos fields) (fill' pos fields)

/-- Drafts that are enclosed follow each other as they do alone. -/
theorem follows_enclosed {α : Type} {d d' : Writing α} (h : FollowsUnlessMissing d d') :
    FollowsUnlessMissing (Writing.enclosed d) (Writing.enclosed d') :=
  .bind (.refl _) fun _ => .bind h fun _ => .refl _

section

variable {c : Settings} {optional : List String} {fill fill' : Fill} {pos : Position}

/-! ## Records -/

section Records

variable (hfill : fill.FollowsUnlessMissing fill') (job : RecordJob)

include hfill

/-- Records are filled alike, with other fields to stay unset. -/
theorem follows_convertInline (type : GoType) (tested base : Place) :
    FollowsUnlessMissing (convertInline c fill pos job type tested base)
      (convertInline (c.allowing optional) fill' pos job type tested base) := by
  unfold convertInline
  refine .bind (.refl _) fun guards => ?_
  have hbody := follows_enclosed <|
    .bind (.refl (Draft.write guards)) fun _ =>
      .bind (.refl (Writing.assign job.path (.newRecord type))) fun _ =>
        hfill
          { pos with target := job.path, source := some (base, c.schema.fields job.source) }
          (c.schema.fields job.target)
  dsimp only
  split
  · exact .fork hbody (.refl _)
  · exact .nest hbody

/-- So are those of local functions. -/
theorem follows_helperBody (helper : HelperSignature) :
    FollowsUnlessMissing (helperBody c fill pos job helper)
      (helperBody (c.allowing optional) fill' pos job helper) := by
  unfold helperBody
  refine .bind (.refl _) fun _ => .nest <| .bind (.fork (follows_enclosed ?_) (.refl _)) fun _ => .refl _
  exact .bind (.refl _) fun _ => hfill _ _

/-- A local function is looked up, or written, in the same way. -/
theorem follows_helperFor :
    FollowsUnlessMissing (helperFor c fill pos job)
      (helperFor (c.allowing optional) fill' pos job) := by
  unfold helperFor
  refine .bind (.refl _) fun p => ?_
  dsimp only
  split
  -- A local function that is defined already is called as it is.
  · exact .refl _
  · exact .bind (.refl _) fun _ => .bind (.refl _) fun _ => .bind (.refl _) fun _ =>
      .bind (.refl _) fun _ => .bind (follows_helperBody hfill job _) fun _ => .refl _

end Records

/-! ## Containers -/

section Containers

variable {convert convert' : Slot → Writing Unit} (job : ContainerJob)
  (hconvert : ∀ slot, FollowsUnlessMissing (convert slot) (convert' slot))

include hconvert

/-- Containers follow each other if the conversions of their elements do. -/
theorem follows_convertSlice (element primary : FieldType) (standIn : Option FieldType) :
    FollowsUnlessMissing (convertSlice c pos element convert job primary standIn)
      (convertSlice (c.allowing optional) pos element convert' job primary standIn) := by
  unfold convertSlice
  exact .bind (.refl _) fun _ => .bind (.refl _) fun _ => .bind (.refl _) fun _ =>
    .bind (.refl _) fun _ => .bind (.refl _) fun _ => .nest (follows_enclosed (hconvert _))

theorem follows_convertList (element : FieldType) :
    FollowsUnlessMissing (convertList c pos element convert job)
      (convertList (c.allowing optional) pos element convert' job) := by
  unfold convertList
  exact .bind (.refl _) fun _ => .bind (.refl _) fun _ => follows_convertSlice job hconvert _ _ _

theorem follows_convertSet (element : FieldType) (form : SetForm) :
    FollowsUnlessMissing (convertSet c pos element form convert job)
      (convertSet (c.allowing optional) pos element form convert' job) := by
  unfold convertSet
  refine .bind (.refl _) fun _ => .bind (.refl _) fun _ => ?_
  dsimp only
  split
  · exact follows_convertSlice job hconvert _ _ _
  · exact .refl _

/-- A map that is refused is refused on both sides. -/
theorem follows_convertMap (key value : FieldType) :
    FollowsUnlessMissing (convertMap c pos key value convert job)
      (convertMap (c.allowing optional) pos key value convert' job) := by
  unfold convertMap
  exact .bind (.refl _) fun _ => .bind (.refl _) fun _ => .bind (.refl _) fun _ =>
    .bind (.refl _) fun _ => .bind (.refl _) fun _ => .bind (.refl _) fun _ =>
      .bind (.refl _) fun _ => .bind (.refl _) fun _ => .nest (follows_enclosed (hconvert _))

end Containers

section Elements

variable (hfill : fill.FollowsUnlessMissing fill') (field : String)

include hfill

theorem follows_convertRecordElement (slot : Slot) (type : FieldType) (target : RecordRef)
    (source : Operand) :
    FollowsUnlessMissing (convertRecordElement c fill pos field slot type target source)
      (convertRecordElement (c.allowing optional) fill' pos field slot type target source) := by
  unfold convertRecordElement
  split
  · exact .refl _
  · exact .ite (.bind (follows_helperFor hfill _) fun _ => .refl _)
      (.bind (.refl _) fun _ => follows_convertInline hfill _ _ _ _)

/-- By induction on the type of the target. -/
theorem follows_convertElement (type : FieldType) : ∀ (whole : FieldType) (slot : Slot),
    FollowsUnlessMissing (convertElement c fill pos field whole type slot)
      (convertElement (c.allowing optional) fill' pos field whole type slot) := by
  induction type with
  | «alias» name file target ih =>
    intro whole slot
    exact ih whole slot
  | record target =>
    intro whole slot
    rw [convertElement, convertElement]
    split
    · exact .fork (follows_convertRecordElement hfill field _ _ _ _)
        (follows_convertRecordElement hfill field _ _ _ _)
    · exact follows_convertRecordElement hfill field _ _ _ _
  -- An inner container is converted by the same function, and its elements are what the induction is on.
  | list element ih =>
    intro whole slot
    exact follows_convertList _ (ih element) _
  | set element form ih =>
    intro whole slot
    exact follows_convertSet _ (ih element) _ _
  | map key value _ ih =>
    intro whole slot
    exact follows_convertMap _ (ih value) _ _
  | bool | int8 | int16 | int32 | int64 | double | text | binary | enum =>
    intro whole slot
    exact .refl _

end Elements

/-! ## Fields -/

section Fields

variable (hfill : fill.FollowsUnlessMissing fill') (target : Field) (path : Path)

include hfill

/-- Records that are filled from mappings. -/
theorem follows_fillMapped (record : RecordRef) :
    FollowsUnlessMissing (fillMapped c fill pos target record path)
      (fillMapped (c.allowing optional) fill' pos target record path) := by
  unfold fillMapped
  refine .bind (.refl _) fun type => ?_
  split
  · exact .bind (.refl _) fun _ => .bind (.refl _) fun _ => .bind (.refl _) fun _ => hfill _ _
  · exact .bind (.refl _) fun _ => hfill _ _

/-- A field without a source: what was skipped is still skipped, and what was refused may be. -/
theorem follows_fillUnsourced (hallowed : c.optional ⊆ optional) :
    FollowsUnlessMissing (fillUnsourced c fill pos target path)
      (fillUnsourced (c.allowing optional) fill' pos target path) := by
  have hskip : FollowsUnlessMissing
      (if target.required && !c.allowsUnset (Path.bare (pos.scope ++ path)) then
        Draft.fail (.missingRequired target.name) else return)
      (if target.required && !(c.allowing optional).allowsUnset (Path.bare (pos.scope ++ path)) then
        Draft.fail (.missingRequired target.name) else return) := by
    -- The longer list covers what the shorter one does, so a refusal may vanish but none is added.
    by_cases hrefused : target.required = true ∧
        c.allowsUnset (Path.bare (pos.scope ++ path)) = false
    · rw [if_pos (by simp [hrefused])]
      exact .fail ⟨_, rfl⟩ _
    · have hskipped : target.required = true →
          c.allowsUnset (Path.bare (pos.scope ++ path)) = true := by
        simpa using hrefused
      rw [if_neg (by simpa using hskipped), if_neg]
      · exact .refl _
      · simpa using fun hrequired => Settings.allowsUnset_mono hallowed (hskipped hrequired)
  simp only [fillUnsourced, Settings.mapsBelow_allowing]
  cases target.type.record? with
  | none => exact hskip
  | some record =>
    cases c.mapsBelow (Path.bare (pos.scope ++ path)) with
    | true => exact follows_fillMapped hfill target path record
    | false => exact hskip

theorem follows_fillRecord (record : RecordRef) (source : Source) :
    FollowsUnlessMissing (fillRecord c fill pos target record path source)
      (fillRecord (c.allowing optional) fill' pos target record path source) := by
  unfold fillRecord
  split
  · exact .refl _
  · exact .ite (.bind (follows_helperFor hfill _) fun _ => .refl _)
      (.bind (.refl _) fun _ => follows_convertInline hfill _ _ _ _)

/-- A field with a source. -/
theorem follows_fillSourced (primary : Source) (standIn : Option Source) :
    FollowsUnlessMissing (fillSourced c fill pos target path primary standIn)
      (fillSourced (c.allowing optional) fill' pos target path primary standIn) := by
  unfold fillSourced
  dsimp only
  split
  · exact follows_fillRecord hfill target path _ _
  · exact follows_convertList _ (follows_convertElement hfill _ _ _) _
  · exact follows_convertSet _ (follows_convertElement hfill _ _ _) _ _
  · exact follows_convertMap _ (follows_convertElement hfill _ _ _) _ _
  · exact .refl _
  · exact .refl _

/-- A field without a source is where the two may differ: what was to be set may now stay unset. -/
theorem follows_fillField (hallowed : c.optional ⊆ optional) :
    FollowsUnlessMissing (fillField c fill pos target)
      (fillField (c.allowing optional) fill' pos target) := by
  simp only [fillField, sourcesOf_allowing]
  rcases sourcesOf c pos target (Path.bare (pos.scope ++ pos.target.select (pascal target.name)))
    with ⟨_ | primary, standIn⟩
  · exact follows_fillUnsourced hfill target _ hallowed
  · exact follows_fillSourced hfill target _ _ _

end Fields

/-- Filling fields, at every depth. -/
theorem follows_fillFields (hallowed : c.optional ⊆ optional) (depth : Nat) :
    (fillFields c depth).FollowsUnlessMissing (fillFields (c.allowing optional) depth) := by
  induction depth with
  | zero => exact fun _ _ => .refl _
  | succ depth ih => exact fun pos fields => .forM (follows_fillField ih · hallowed) fields

end

namespace ConversionRequest

variable {r : ConversionRequest} {optional : List String}

/-! ## Whole conversions -/

/-- The statements of a conversion that allows more. -/
theorem follows_draft (hallowed : r.optional ⊆ optional) :
    FollowsUnlessMissing r.draft { r with optional }.draft := by
  unfold draft
  refine .bind (.refl _) fun mapped => ?_
  unfold body
  exact .bind (.refl _) fun _ => follows_fillFields hallowed _ _ _

/-- **Allowing more changes nothing else.** A conversion that allows more target paths to stay unset
gives the same lines, or fails or breaks in the same way, unless it failed for a required field without a
source. -/
theorem run_allowing (hallowed : r.optional ⊆ optional) :
    { r with optional }.run = r.run ∨ ∃ field, r.run = .failed (.missingRequired field) := by
  rcases (follows_draft hallowed).outcome {} with hsame | ⟨cause, hfailed, field, rfl⟩
  · exact .inl hsame
  · exact .inr ⟨field, hfailed⟩

/-- A request for two required fields, of which only the first one has a source. -/
def noted (optional : List String) : ConversionRequest :=
  let id : Field := ⟨0, "id", true, .int64, []⟩
  { schema := {}
    resolve := fun file => .ok file
    source := [id]
    target := [id, ⟨1, "note", true, .text, []⟩]
    mappings := .empty
    optional }

/-- Allowed to stay unset, the note is left out, and the rest is converted. -/
theorem noted_run : (noted ["Note"]).run = .lines ["out.ID = int64(in.ID)"] := by
  decide +kernel

/-- Once the second field may stay unset, allowing a third path does not matter. -/
theorem noted_run_allowing : (noted ["Note"]).optional ⊆ ["Trace", "Note"] ∧
    (noted ["Trace", "Note"]).run = .lines ["out.ID = int64(in.ID)"] := by
  have hallowed : (noted ["Note"]).optional ⊆ ["Trace", "Note"] := by decide
  refine ⟨hallowed, ?_⟩
  rcases run_allowing hallowed with hsame | ⟨field, hmissing⟩
  · exact hsame.trans noted_run
  · rw [noted_run] at hmissing
    cases hmissing

example : (noted ["Trace"]).run = .failed (.missingRequired "note") := by
  decide +kernel

end ConversionRequest

end RecordBridge

import RecordBridge.Conversion.Request
import RecordBridge.Proofs.Clean
import RecordBridge.Proofs.Conversion.Sources
import RecordBridge.Proofs.Conversion.Termination
import RecordBridge.Proofs.Schema.Supported

/-!
# Conversions between resolved records are clean

Between records of resolved fields a conversion writes single lines, and it does not fail for a
package that is not known. What it spells are Go names of fields and types, numbered names, and paths
made of these; deferred records and local functions carry such spellings from one statement to later
ones (`Progress.IsSingle`). There is one lemma for each function of the conversion.
-/

namespace RecordBridge

open Draft

variable {known : RecordRef → Prop}

/-! ## What is spelled -/

/-- Mapped sources are resolved, and so are the fields of known records. -/
structure Settings.Resolved (known : RecordRef → Prop) (c : Settings) : Prop where
  schema : c.schema.Resolved c.resolve known
  mapped : ∀ e ∈ c.mapped, e.2.path.IsSingle ∧ e.2.field.Resolved c.resolve known

/-- Nothing that is kept for later statements holds a line feed. -/
structure Progress.IsSingle (p : Progress) : Prop where
  helpers : ∀ h ∈ p.helpers, RecordBridge.IsSingle h.name.text
  deferred : ∀ e ∈ p.deferred.entries, e.2.1.IsSingle ∧ RecordBridge.IsSingle e.2.2.text

/-- The paths of a position hold no line feed, and the fields of its source are resolved. -/
structure Position.Resolved (resolve : Resolver) (known : RecordRef → Prop) (pos : Position) :
    Prop where
  target : pos.target.IsSingle
  scope : pos.scope.IsSingle
  source : ∀ base gs, pos.source = some (base, gs) →
    base.IsSingle ∧ ∀ g ∈ gs, g.Resolved resolve known

/-- A source field is resolved, and its place holds no line feed. -/
structure Source.Resolved (resolve : Resolver) (known : RecordRef → Prop) (s : Source) :
    Prop where
  field : s.field.Resolved resolve known
  place : s.place.IsSingle

/-- The type of an operand is resolved, and its place holds no line feed. -/
structure Operand.Resolved (resolve : Resolver) (known : RecordRef → Prop) (x : Operand) :
    Prop where
  type : x.type.Resolved resolve known
  place : x.place.IsSingle

theorem Source.Resolved.operand {resolve : Resolver} {s : Source} (h : s.Resolved resolve known) :
    (Operand.ofSource s).Resolved resolve known :=
  ⟨h.field.type, h.place⟩

/-- A draft of a conversion that writes single lines. -/
abbrev CleanWriting {α : Type} (Q : α → Prop) (d : Writing α) : Prop :=
  Draft.Clean True Progress.IsSingle Q d

/-- A clean draft whose value does not matter. -/
abbrev IsCleanWriting {α : Type} (d : Writing α) : Prop :=
  CleanWriting (fun _ => True) d

section Pieces

variable {c : Settings} {pos : Position} {path : Path}

/-- A place in the target is spelled the same way within a local function, or from the whole target. -/
theorem seenFrom_isSingle {scope : Path} (hpath : path.IsSingle) : (seenFrom scope path).IsSingle := by
  rw [seenFrom]
  split
  · exact ⟨Var.isSingle_text nofun, hpath⟩
  · split
    · rename_i hbeneath
      exact ⟨Var.isSingle_text nofun, hpath.beneath hbeneath⟩
    · exact ⟨Var.isSingle_text nofun, hpath⟩

/-- Guards spell the places of records that wait, and their types. -/
theorem guards_isSingle {p : Progress} (hp : p.IsSingle) (scope target : Path) :
    (p.deferred.guards scope target).IsSingle := by
  have hparents : ∀ parent ∈ p.deferred.waiting ['.', '['] (scope ++ target),
      parent.1.IsSingle ∧ IsSingle parent.2.text := by
    intro parent hparent
    obtain ⟨e, he, rfl⟩ := List.mem_map.mp hparent
    exact hp.deferred e (List.mem_filter.mp he).1
  rw [Deferred.guards]
  generalize p.deferred.waiting ['.', '['] (scope ++ target) = parents at hparents ⊢
  induction parents with
  | nil => exact .done
  | cons parent rest ih =>
    obtain ⟨⟨hpath, htype⟩, hrest⟩ := List.forall_mem_cons.mp hparents
    have hplace : IsSingle (seenFrom scope parent.1).text := (seenFrom_isSingle hpath).text
    refine .append (.nest ?_ (.step ?_ .done) .done) (ih hrest)
    · simpa [Spelled.text] using hplace
    · simpa [Spelled.text] using And.intro hplace htype

theorem output_isSingle (hpath : path.IsSingle) : IsSingle (Place.mk .output path).text :=
  Place.IsSingle.text ⟨Var.isSingle_text nofun, hpath⟩

end Pieces

/-! ## Drafts that fill no records -/

section Plain

variable {pos : Position} {path : Path}

theorem clean_statement {s : Statement} (h : IsSingle s.text) : IsCleanWriting (Writing.statement s) :=
  .write (.step h .done)

theorem clean_assign {e : Expr} (hpath : path.IsSingle) (he : IsSingle e.text) :
    IsCleanWriting (Writing.assign path e) :=
  clean_statement (Statement.isSingle_assign.mpr ⟨output_isSingle hpath, he⟩)

theorem clean_guards : CleanWriting Block.IsSingle (Writing.guards pos path) :=
  .bind .state fun _ hp => .pure (guards_isSingle hp _ _)

theorem clean_fresh : IsCleanWriting Writing.fresh :=
  .bind (.update fun _ hp => ⟨hp.helpers, hp.deferred⟩) fun _ _ => .bind .state fun _ _ =>
    .pure trivial

theorem clean_enclosed {α : Type} {Q : α → Prop} {d : Writing α} (hd : CleanWriting Q d) :
    CleanWriting Q (Writing.enclosed d) :=
  .bind .state fun _ hbefore => .bind hd fun _ ha =>
    .bind (.update fun _ hp => ⟨hbefore.helpers, hp.deferred⟩) fun _ _ => .pure ha

/-- What is taken from a source of the asked shape is as what it is taken from. -/
theorem clean_shaped {α : Type} {Q : α → Prop} {field : String} {shape : Shape}
    {part? : Operand → Option α} {x : Operand} (h : ∀ part, part? x = some part → Q part) :
    CleanWriting Q (shaped field shape part? x) := by
  unfold shaped
  split
  · rename_i part hpart
    exact .value (h part hpart)
  · exact .fail trivial

/-- So is what is taken from one that stands in, if there is one. -/
theorem clean_shapedStandIn {α : Type} {Q : α → Prop} {field : String} {shape : Shape}
    {part? : Operand → Option α} {x : Option Operand}
    (h : ∀ y ∈ x, ∀ part, part? y = some part → Q part) :
    CleanWriting (fun part : Option α => ∀ y ∈ part, Q y) (shapedStandIn field shape part? x) := by
  cases x with
  | none => exact .pure nofun
  | some y =>
    refine .bind (clean_shaped (h y rfl)) fun part hpart => .pure ?_
    rintro _ ⟨⟩
    exact hpart

/-- The place over which a loop runs holds no line feed if the sources do not. -/
theorem clean_selectSource {primary : Place} {standIn : Option Place} {flagged : Bool}
    (hprimary : primary.IsSingle) (hstandIn : ∀ p ∈ standIn, p.IsSingle) :
    CleanWriting (fun chosen : Place × Option Var =>
        chosen.1.IsSingle ∧ ∀ v ∈ chosen.2, IsSingle v.text)
      (selectSource primary standIn flagged) := by
  have htested : IsSingle (Head.ifSet [primary]).text :=
    Head.isSingle_ifSet (List.forall_mem_singleton.mpr hprimary)
  unfold selectSource
  split
  · exact .pure ⟨hprimary, nofun⟩
  · rename_i standIn
    -- The source that is chosen is a variable with a number, which holds no line feed.
    refine .bind clean_fresh fun n _ => ?_
    have hchosen : (Place.ofVar (.sourceList n)).IsSingle := .ofVar (Var.isSingle_text nofun)
    have hdefine : IsCleanWriting
        (Writing.statement (.define (.sourceList n) (.read standIn))) :=
      clean_statement (Statement.isSingle_define.mpr ⟨hchosen.root, (hstandIn _ rfl).text⟩)
    have htake : IsCleanWriting
        (Writing.statement (.assign (.ofVar (.sourceList n)) (.read primary))) :=
      clean_statement (Statement.isSingle_assign.mpr ⟨hchosen.text, hprimary.text⟩)
    split
    · refine .bind clean_fresh fun m _ => ?_
      have hflag : (Place.ofVar (.overridden m)).IsSingle := .ofVar (Var.isSingle_text nofun)
      refine .bind hdefine fun _ _ => .bind (clean_statement ?_) fun _ _ =>
        .bind (.nest htested (.bind htake fun _ _ => clean_statement ?_)) fun _ _ =>
          .pure ⟨hchosen, ?_⟩
      · exact Statement.isSingle_define.mpr ⟨hflag.root, Expr.isSingle_flag _⟩
      · exact Statement.isSingle_assign.mpr ⟨hflag.text, Expr.isSingle_flag _⟩
      · rintro _ ⟨⟩
        exact hflag.root
    · exact .bind hdefine fun _ _ => .bind (.nest htested htake) fun _ _ => .pure ⟨hchosen, nofun⟩

/-- A container is made by one assignment. -/
theorem clean_makeContainer {job : ContainerJob} {e : Expr} (hpath : job.path.IsSingle)
    (he : IsSingle e.text) : IsCleanWriting (makeContainer pos job e) :=
  .bind clean_guards fun _ hguards => .bind (.write hguards) fun _ _ => clean_assign hpath he

/-- An assignment spells its source, its target, its cast and the guards before it. -/
theorem assignment_isSingle {a : Assignment} {guards : Code} (hguards : guards.IsSingle)
    (hsource : a.source.IsSingle) (htarget : a.target.IsSingle) (hcast : a.cast.IsSingle) :
    (a.code guards).IsSingle := by
  have hwrite : Block.IsSingle (guards ++
      (.step (.assign ⟨.output, a.target⟩ (.convert a.cast a.source)) .done : Code)) :=
    hguards.append (.step (Statement.isSingle_assign.mpr
      ⟨output_isSingle htarget, Expr.isSingle_convert hcast hsource.text⟩) .done)
  have htested : ∀ p ∈ a.tested, p.IsSingle := by
    -- What is tested lies on the way to the source.
    intro p hp
    rw [Assignment.tested] at hp
    split at hp
    · split at hp
      · exact List.mem_singleton.mp hp ▸ hsource
      · exact absurd hp List.not_mem_nil
    · split at hp
      · exact hsource.selections p hp
      · exact hsource.selections p (List.dropLast_subset _ hp)
  rw [Assignment.code]
  split
  · exact .nest (Head.isSingle_ifSet htested) hwrite .done
  · exact hwrite

end Plain

/-! ## Drafts that fill records -/

/-- A way to fill records that is clean from resolved positions. -/
def Fill.Clean (known : RecordRef → Prop) (c : Settings) (fill : Fill) : Prop :=
  ∀ pos fields, pos.Resolved c.resolve known → (∀ f ∈ fields, f.Resolved c.resolve known) →
    IsCleanWriting (fill pos fields)

/-- The records of a job are known and have Go types, and its path holds no line feed. -/
structure RecordJob.Resolved (resolve : Resolver) (known : RecordRef → Prop) (job : RecordJob) :
    Prop where
  target : NameSupported resolve job.target.name job.target.file ∧ known job.target
  source : NameSupported resolve job.source.name job.source.file ∧ known job.source
  path : job.path.IsSingle

section Records

variable {c : Settings} {fill : Fill} {pos : Position} (hc : c.Resolved known)
  (hfill : fill.Clean known c) (hpos : pos.Resolved c.resolve known) {job : RecordJob} (hjob : job.Resolved c.resolve known)

include hc hfill hpos hjob

/-- A record that is filled in place. -/
theorem clean_convertInline {type : GoType} {tested base : Place} (htype : IsSingle type.text)
    (htested : tested.IsSingle) (hbase : base.IsSingle) :
    IsCleanWriting (convertInline c fill pos job type tested base) := by
  unfold convertInline
  refine .bind clean_guards fun guards hguards => ?_
  have hnew : IsSingle (Expr.newRecord type).text := Expr.isSingle_newRecord.mpr htype
  have hinner : Position.Resolved c.resolve known
      { pos with target := job.path, source := some (base, c.schema.fields job.source) } := by
    refine ⟨hjob.path, hpos.scope, ?_⟩
    rintro _ _ ⟨⟩
    exact ⟨hbase, hc.schema _ hjob.source.2⟩
  have hbody := clean_enclosed (.bind (.write hguards) fun _ _ =>
    .bind (clean_assign hjob.path hnew) fun _ _ => hfill _ _ hinner (hc.schema _ hjob.target.2))
  have hset : IsSingle (Head.ifSet [tested]).text :=
    Head.isSingle_ifSet (List.forall_mem_singleton.mpr htested)
  dsimp only
  split
  · exact .fork hset hbody (clean_assign hjob.path Expr.isSingle_absent)
  · exact .nest hset hbody

/-- A local function spells its name and types, and a record that is filled from its own variables. -/
theorem clean_helperBody {helper : HelperSignature} (hhelper : helper.IsSingle) :
    IsCleanWriting (helperBody c fill pos job helper) := by
  have hout : (Place.ofVar .output).IsSingle := .ofVar (Var.isSingle_text nofun)
  have hin : (Place.ofVar .input).IsSingle := .ofVar (Var.isSingle_text nofun)
  have hset : IsSingle (Head.ifSet [.ofVar .input]).text :=
    Head.isSingle_ifSet (List.forall_mem_singleton.mpr hin)
  have hinner : Position.Resolved c.resolve known
      { target := []
        source := some (.ofVar .input, c.schema.fields job.source)
        scope := pos.scope ++ job.path } := by
    refine ⟨.nil, hpos.scope.append hjob.path, ?_⟩
    rintro _ _ ⟨⟩
    exact ⟨hin, hc.schema _ hjob.source.2⟩
  have hnew : IsCleanWriting
      (Writing.statement (.assign (.ofVar .output) (.newRecord helper.target))) :=
    clean_statement (Statement.isSingle_assign.mpr
      ⟨hout.text, Expr.isSingle_newRecord.mpr hhelper.target⟩)
  have habsent : IsCleanWriting (Writing.statement (.assign (.ofVar .output) .absent)) :=
    clean_statement (Statement.isSingle_assign.mpr ⟨hout.text, Expr.isSingle_absent⟩)
  -- The record is filled in the first of two blocks; the other one gives back nothing.
  unfold helperBody
  refine .bind (clean_statement hhelper.declare) fun _ _ => .nest hhelper.body ?_
  refine .bind (.fork hset (clean_enclosed ?_) habsent) fun _ _ => clean_statement (by decide)
  exact .bind hnew fun _ _ => hfill _ _ hinner (hc.schema _ hjob.target.2)

/-- The names of local functions hold the name of the target record, in Pascal case, and a number. -/
theorem clean_helperFor :
    CleanWriting (fun v => IsSingle v.text) (helperFor c fill pos job) := by
  unfold helperFor
  refine .bind .state fun p hp => ?_
  dsimp only
  split
  · rename_i helper hfound
    exact .pure (hp.helpers helper (List.mem_of_find?_eq_some hfound))
  · -- A new function joins those in scope before its body is written, since the body may call it.
    refine .bind (.ofExcept hjob.target.1.namedType) fun target htarget =>
      .bind (.ofExcept hjob.source.1.namedType) fun source hsource =>
        .bind clean_fresh fun n _ => ?_
    have hname : IsSingle (Var.helper (pascal job.target.name) n).text := by
      refine Var.isSingle_text fun _ _ heq => ?_
      cases heq
      exact hjob.target.1.1.pascal
    have hbody : IsCleanWriting
        (helperBody c fill pos job ⟨.helper (pascal job.target.name) n, source, target⟩) :=
      clean_helperBody hc hfill hpos hjob ⟨hname, hsource, htarget⟩
    exact .bind (.update fun p hp =>
      ⟨List.forall_mem_cons.mpr ⟨hname, hp.helpers⟩, hp.deferred⟩) fun _ _ =>
        .bind hbody fun _ _ => .pure hname

end Records

/-! ## Containers -/

/-- The sources of a slot are resolved, and nothing that it is spelled with holds a line feed. -/
structure Slot.Resolved (resolve : Resolver) (known : RecordRef → Prop) (slot : Slot) : Prop where
  path : slot.path.IsSingle
  value : IsSingle slot.value.text
  primary : slot.primary.Resolved resolve known
  standIn : ∀ x ∈ slot.standIn, x.Resolved resolve known
  selector : ∀ v ∈ slot.selector, IsSingle v.text

/-- The sources of a container are resolved, and its path holds no line feed. -/
structure ContainerJob.Resolved (resolve : Resolver) (known : RecordRef → Prop)
    (job : ContainerJob) : Prop where
  path : job.path.IsSingle
  primary : job.primary.Resolved resolve known
  standIn : ∀ x ∈ job.standIn, x.Resolved resolve known

theorem Slot.Resolved.job {resolve : Resolver} {slot : Slot} (h : slot.Resolved resolve known)
    (field : String) : (slot.job field).Resolved resolve known :=
  ⟨h.path, ⟨h.primary.type, .ofVar h.value⟩, nofun⟩

namespace Operand.Resolved

variable {resolve : Resolver} {x : Operand}

/-- The elements of a source have the packages of the source. -/
theorem listElements (h : x.Resolved resolve known) {element : FieldType}
    (helement : x.listElements? = some element) : element.Resolved resolve known := by
  have hroot := h.type.root
  rw [Operand.listElements?] at helement
  split at helement
  · rename_i heq
    cases helement
    rwa [heq] at hroot
  · cases helement

/-- The elements of a set have the packages of the source, too. -/
theorem setElements (h : x.Resolved resolve known) {part : FieldType × SetForm}
    (hpart : x.setElements? = some part) : part.1.Resolved resolve known := by
  have hroot := h.type.root
  rw [Operand.setElements?] at hpart
  split at hpart
  · rename_i heq
    cases hpart
    rwa [heq] at hroot
  · cases hpart

/-- The values of a map have the packages of the source, too. -/
theorem mapValues (h : x.Resolved resolve known) {value : FieldType}
    (hvalue : x.mapValues? = some value) : value.Resolved resolve known := by
  have hroot := h.type.root
  rw [Operand.mapValues?] at hvalue
  split at hvalue
  · rename_i heq
    cases hvalue
    rw [heq] at hroot
    exact hroot.2
  · cases hvalue

end Operand.Resolved

section Containers

variable {c : Settings} {pos : Position} {element : FieldType} {convert : Slot → Writing Unit}
  {job : ContainerJob}

/-- The places of what stands in hold no line feed. -/
theorem ContainerJob.Resolved.places {resolve : Resolver} (h : job.Resolved resolve known) :
    ∀ p ∈ job.standIn.map (·.place), p.IsSingle := by
  intro p hp
  obtain ⟨x, hx, rfl⟩ := Option.map_eq_some_iff.mp hp
  exact (h.standIn x hx).place

/-- The slot of an element is resolved if its path is. -/
theorem ContainerJob.Resolved.slot (hjob : job.Resolved c.resolve known) {path : Path}
    (hpath : path.IsSingle) {value position : Var} (hvalue : IsSingle value.text)
    (hposition : IsSingle position.text) {primary : FieldType}
    (hprimary : primary.Resolved c.resolve known) {standIn : Option FieldType} {selector : Option Var}
    (hselector : ∀ v ∈ selector, IsSingle v.text) :
    (∀ t ∈ standIn, t.Resolved c.resolve known) → Slot.Resolved c.resolve known
      { path, value
        primary := ⟨primary, job.primary.place.element position⟩
        standIn := match job.standIn, standIn with
          | some x, some type => some ⟨type, x.place.element position⟩
          | _, _ => none
        selector } := by
  intro hstandIn
  refine ⟨hpath, hvalue, ⟨hprimary, hjob.primary.place.element hposition⟩, fun x hx => ?_, hselector⟩
  dsimp only at hx
  split at hx
  · rename_i y t hy
    cases hx
    exact ⟨hstandIn t rfl, (hjob.standIn y hy).place.element hposition⟩
  · cases hx

/-- Elements of a slice are converted into a variable of their own. -/
theorem clean_convertSlice (helement : element.Resolved c.resolve known)
    (hconvert : ∀ slot : Slot, slot.Resolved c.resolve known → IsCleanWriting (convert slot))
    (hjob : job.Resolved c.resolve known) {primary : FieldType}
    (hprimary : primary.Resolved c.resolve known) {standIn : Option FieldType} (hstandIn : ∀ t ∈ standIn, t.Resolved c.resolve known) :
    IsCleanWriting (convertSlice c pos element convert job primary standIn) := by
  unfold convertSlice
  refine .bind (.ofExcept helement.heldType) fun type htype =>
    .bind (clean_selectSource hjob.primary.place hjob.places) fun chosen hchosen => ?_
  obtain ⟨source, selector⟩ := chosen
  obtain ⟨hsource, hselector⟩ := hchosen
  have hmake : IsSingle (Expr.make (.slice type) source).text :=
    Expr.isSingle_make.mpr ⟨GoType.isSingle_slice.mpr htype, hsource.text⟩
  refine .bind (clean_makeContainer hjob.path hmake) fun _ _ => .bind clean_fresh fun n _ =>
    .bind clean_fresh fun m _ => ?_
  have hindex : IsSingle (Var.index n).text := Var.isSingle_text nofun
  have hvalue : IsSingle (Var.value m).text := Var.isSingle_text nofun
  refine .nest (Head.isSingle_each.mpr ⟨hindex, hvalue, hsource.text⟩) (clean_enclosed ?_)
  refine hconvert _ (hjob.slot (hjob.path.snoc ?_) hvalue hindex hprimary hselector hstandIn)
  simpa +decide [Step.text] using hindex

theorem clean_convertList (helement : element.Resolved c.resolve known)
    (hconvert : ∀ slot : Slot, slot.Resolved c.resolve known → IsCleanWriting (convert slot))
    (hjob : job.Resolved c.resolve known) :
    IsCleanWriting (convertList c pos element convert job) := by
  refine .bind (clean_shaped fun _ => hjob.primary.listElements) fun primary hprimary =>
    .bind (clean_shapedStandIn fun x hx _ => (hjob.standIn x hx).listElements) fun standIn hstandIn => ?_
  exact clean_convertSlice helement hconvert hjob hprimary hstandIn

/-- A set that is kept as a map or a slice, from one that is kept in either way. -/
theorem clean_convertSet {form : SetForm} (helement : element.Resolved c.resolve known)
    (hconvert : ∀ slot : Slot, slot.Resolved c.resolve known → IsCleanWriting (convert slot))
    (hjob : job.Resolved c.resolve known) :
    IsCleanWriting (convertSet c pos element form convert job) := by
  refine .bind (clean_shaped fun _ => hjob.primary.setElements) fun primary hprimary =>
    .bind (clean_shapedStandIn fun x hx _ => (hjob.standIn x hx).setElements)
      fun standIn hstandIn => ?_
  obtain ⟨primary, primaryForm⟩ := primary
  dsimp only
  split
  · refine clean_convertSlice helement hconvert hjob hprimary fun t ht => ?_
    obtain ⟨part, hpart, rfl⟩ := Option.map_eq_some_iff.mp ht
    exact hstandIn part hpart
  · split
    · exact .fail trivial
    · -- The loop ranges over keys or values, and stores a key or appends: four spellings, of the same
      -- three parts.
      refine .bind (.ofExcept helement.goType) fun type htype =>
        .bind (clean_selectSource hjob.primary.place hjob.places) fun chosen hchosen => ?_
      obtain ⟨source, flag⟩ := chosen
      obtain ⟨hsource, -⟩ := hchosen
      refine .bind (clean_makeContainer hjob.path ?_) fun _ _ => .bind clean_fresh fun n _ => ?_
      · split
        · exact Expr.isSingle_make.mpr ⟨GoType.isSingle_keySet.mpr htype, hsource.text⟩
        · exact Expr.isSingle_makeRoom.mpr ⟨GoType.isSingle_slice.mpr htype, hsource.text⟩
      · have hvalue : IsSingle (Var.value n).text := Var.isSingle_text nofun
        refine .nest ?_ ?_
        · split
          · exact Head.isSingle_eachKey.mpr ⟨hvalue, hsource.text⟩
          · exact Head.isSingle_eachValue.mpr ⟨hvalue, hsource.text⟩
        · split
          · refine clean_assign (hjob.path.snoc ?_) Expr.isSingle_present
            simpa +decide [Step.text] using And.intro htype hvalue
          · exact clean_assign hjob.path
              (Expr.isSingle_append.mpr ⟨output_isSingle hjob.path, htype, hvalue⟩)

/-- A map with keys that are text, cast where that is asked for. -/
theorem clean_convertMap {key value : FieldType} (hkey : key.Resolved c.resolve known)
    (hvalue : value.Resolved c.resolve known)
    (hconvert : ∀ slot : Slot, slot.Resolved c.resolve known → IsCleanWriting (convert slot))
    (hjob : job.Resolved c.resolve known) :
    IsCleanWriting (convertMap c pos key value convert job) := by
  have hkeyType : CleanWriting (fun go => IsSingle go.text) (keyType c job.field key) := by
    unfold keyType
    split
    · exact .ofExcept hkey.goType
    · exact .fail trivial
  refine .bind hkeyType fun keyGo hkeyGo =>
    .bind (clean_shaped fun _ => hjob.primary.mapValues) fun primary hprimary =>
      .bind (clean_shapedStandIn fun x hx _ => (hjob.standIn x hx).mapValues)
        fun standIn hstandIn => ?_
  refine .bind (.ofExcept hvalue.heldType) fun valueGo hvalueGo =>
    .bind (clean_selectSource hjob.primary.place hjob.places) fun chosen hchosen => ?_
  obtain ⟨source, selector⟩ := chosen
  obtain ⟨hsource, hselector⟩ := hchosen
  have hmake : IsSingle (Expr.make (.map keyGo valueGo) source).text :=
    Expr.isSingle_make.mpr ⟨GoType.isSingle_map.mpr ⟨hkeyGo, hvalueGo⟩, hsource.text⟩
  refine .bind (clean_makeContainer hjob.path hmake) fun _ _ => .bind clean_fresh fun n _ =>
    .bind clean_fresh fun m _ => ?_
  have hposition : IsSingle (Var.key n).text := Var.isSingle_text nofun
  have helement : IsSingle (Var.value m).text := Var.isSingle_text nofun
  refine .nest (Head.isSingle_each.mpr ⟨hposition, helement, hsource.text⟩) (clean_enclosed ?_)
  -- The key within the target is the key of the source, or a cast of it.
  refine hconvert _ (hjob.slot (hjob.path.snoc ?_) helement hposition hprimary hselector hstandIn)
  split
  · simpa +decide [Step.text] using hposition
  · simpa +decide [Step.text] using And.intro hkeyGo hposition

end Containers

section Elements

variable {c : Settings} {fill : Fill} {pos : Position} (hc : c.Resolved known)
  (hfill : fill.Clean known c) (hpos : pos.Resolved c.resolve known) {field : String}

include hc hfill hpos

/-- A record among the elements of a container. -/
theorem clean_convertRecordElement {slot : Slot} (hslot : slot.Resolved c.resolve known)
    {type : FieldType} (htype : type.Resolved c.resolve known) {target : RecordRef}
    (htarget : NameSupported c.resolve target.name target.file ∧ known target) {source : Operand}
    (hsource : source.Resolved c.resolve known) :
    IsCleanWriting (convertRecordElement c fill pos field slot type target source) := by
  have hvalue : (Place.ofVar slot.value).IsSingle := .ofVar hslot.value
  unfold convertRecordElement
  split
  · exact .fail trivial
  · rename_i origin horigin
    have hjob : RecordJob.Resolved c.resolve known ⟨target, origin, slot.path⟩ :=
      ⟨htarget, hsource.type.record? horigin, hslot.path⟩
    dsimp only
    split
    · exact .bind (clean_helperFor hc hfill hpos hjob) fun helper hhelper =>
        clean_assign hslot.path (Expr.isSingle_call.mpr ⟨hhelper, hvalue.text⟩)
    · exact .bind (.ofExcept htype.goType) fun go hgo =>
        clean_convertInline hc hfill hpos hjob hgo hvalue hsource.place

/-- By induction on the type of the target. -/
theorem clean_convertElement {type : FieldType} (htype : type.Resolved c.resolve known) :
    ∀ {whole : FieldType}, whole.Resolved c.resolve known → ∀ slot : Slot,
      slot.Resolved c.resolve known →
        IsCleanWriting (convertElement c fill pos field whole type slot) := by
  induction type with
  -- The whole type stays that of the element while aliases are looked through.
  | «alias» name file target ih =>
    intro whole hwhole slot hslot
    exact ih htype.2 hwhole slot hslot
  | record target =>
    intro whole hwhole slot hslot
    simp only [convertElement]
    split
    · rename_i selector standIn hselector hstandIn
      exact .fork (Head.isSingle_ifFlag.mpr (hslot.selector selector hselector))
        (clean_convertRecordElement hc hfill hpos hslot hwhole htype hslot.primary)
        (clean_convertRecordElement hc hfill hpos hslot hwhole htype (hslot.standIn _ hstandIn))
    · exact clean_convertRecordElement hc hfill hpos hslot hwhole htype hslot.primary
  | list element ih =>
    intro whole hwhole slot hslot
    exact clean_convertList htype (ih htype htype) (hslot.job field)
  | set element form ih =>
    intro whole hwhole slot hslot
    exact clean_convertSet htype (ih htype htype) (hslot.job field)
  | map key value _ ih =>
    intro whole hwhole slot hslot
    exact clean_convertMap htype.1 htype.2 (ih htype.2 htype.2) (hslot.job field)
  | bool | int8 | int16 | int32 | int64 | double | text | binary | enum =>
    intro whole hwhole slot hslot
    have hvalue : (Place.ofVar slot.value).IsSingle := .ofVar hslot.value
    exact .bind (.ofExcept hwhole.goType) fun go hgo => clean_assign hslot.path
      (Expr.isSingle_convert (Cast.isSingle_plain hgo) hvalue.text)

end Elements

/-! ## Fields -/

section Fields

variable {c : Settings} {fill : Fill} {pos : Position} {target : Field} {path : Path}

theorem clean_assignField {cast : Bool → Cast} (hpath : path.IsSingle)
    (hcast : ∀ required, (cast required).IsSingle) {source : Source}
    (hsource : source.Resolved c.resolve known) (onlyIfSet : Bool) :
    IsCleanWriting (assignField pos target path cast source onlyIfSet) :=
  .bind clean_guards fun _ hguards =>
    .write (assignment_isSingle hguards hsource.place hpath (hcast _))

/-- What stands in is assigned first, and then the primary source. -/
theorem clean_assignSources {cast : Bool → Cast} (hpath : path.IsSingle)
    (hcast : ∀ required, (cast required).IsSingle) {primary : Source}
    (hprimary : primary.Resolved c.resolve known) {standIn : Option Source}
    (hstandIn : ∀ s ∈ standIn, s.Resolved c.resolve known) :
    IsCleanWriting (assignSources pos target path cast primary standIn) := by
  cases standIn with
  | none => exact clean_assignField hpath hcast hprimary _
  | some s =>
    exact .bind (clean_assignField hpath hcast (hstandIn s rfl) _) fun _ _ =>
      clean_assignField hpath hcast hprimary _

/-- The sources of a field are resolved. -/
theorem Position.Resolved.sourcesOf (hpos : pos.Resolved c.resolve known) (hc : c.Resolved known)
    (target : Field) (key : String) :
    (∀ s, (sourcesOf c pos target key).1 = some s → s.Resolved c.resolve known) ∧
      ∀ s, (sourcesOf c pos target key).2 = some s → s.Resolved c.resolve known := by
  refine sourcesOf_forall (fun s hs => ?_) fun m hm => ?_
  · obtain ⟨base, gs, hsource⟩ := exists_source_of_directSource hs
    obtain ⟨hmem, -, hplace⟩ := directSource_some hsource hs
    obtain ⟨hbase, hfields⟩ := hpos.source base gs hsource
    have hfield := hfields _ hmem
    exact ⟨hfield, hplace ▸ hbase.select hfield.name.pascal⟩
  · obtain ⟨hsingle, hfield⟩ := hc.mapped _ (Settings.mem_of_mapping? hm)
    have hroot : IsSingle c.mappedRoot.text := by
      rw [Settings.mappedRoot]
      split <;> decide
    exact ⟨hfield, hroot, hsingle⟩

variable (hc : c.Resolved known) (hfill : fill.Clean known c) (hpos : pos.Resolved c.resolve known)
  (htarget : target.Resolved c.resolve known) (hpath : path.IsSingle)

include hc hfill hpos htarget hpath

/-- A record that has no source is filled from mappings beneath it, if there are any. -/
theorem clean_fillMapped {record : RecordRef} (hrecord : known record) :
    IsCleanWriting (fillMapped c fill pos target record path) := by
  have hinner : Position.Resolved c.resolve known { pos with target := path, source := none } :=
    ⟨hpath, hpos.scope, nofun⟩
  have hfields := hfill _ _ hinner (hc.schema _ hrecord)
  refine .bind (.ofExcept htarget.type.goType) fun type htype => ?_
  split
  · exact .bind clean_guards fun _ hguards => .bind (.write hguards) fun _ _ =>
      .bind (clean_assign hpath (Expr.isSingle_newRecord.mpr htype)) fun _ _ => hfields
  · refine .bind (.update fun p hp => ⟨hp.helpers, fun e he => ?_⟩) fun _ _ => hfields
    rcases Table.fst_of_mem_place he with rfl | he
    · exact ⟨hpos.scope.append hpath, htype⟩
    · exact hp.deferred e he

/-- A field without a source fails, stays unset, or is filled from mappings. -/
theorem clean_fillUnsourced : IsCleanWriting (fillUnsourced c fill pos target path) := by
  unfold fillUnsourced
  dsimp only
  split
  · rename_i record hrecord _
    exact clean_fillMapped hc hfill hpos htarget hpath (htarget.type.record? hrecord).2
  · split
    · exact .fail trivial
    · exact .pure trivial

/-- A field that is a record, in place or by a local function. -/
theorem clean_fillRecord {record : RecordRef}
    (hrecord : NameSupported c.resolve record.name record.file ∧ known record) {source : Source}
    (hsource : source.Resolved c.resolve known) :
    IsCleanWriting (fillRecord c fill pos target record path source) := by
  unfold fillRecord
  split
  · exact .fail trivial
  · rename_i origin horigin
    have hjob : RecordJob.Resolved c.resolve known ⟨record, origin, path⟩ :=
      ⟨hrecord, hsource.field.type.record? horigin, hpath⟩
    dsimp only
    split
    · exact .bind (clean_helperFor hc hfill hpos hjob) fun helper hhelper =>
        .bind clean_guards fun _ hguards => .bind (.write hguards) fun _ _ =>
          clean_assign hpath (Expr.isSingle_call.mpr ⟨hhelper, hsource.place.text⟩)
    · exact .bind (.ofExcept htarget.type.goType) fun type htype =>
        clean_convertInline hc hfill hpos hjob htype hsource.place hsource.place

/-- A field with a source, by the type behind its aliases. -/
theorem clean_fillSourced {primary : Source} (hprimary : primary.Resolved c.resolve known)
    {standIn : Option Source} (hstandIn : ∀ s ∈ standIn, s.Resolved c.resolve known) :
    IsCleanWriting (fillSourced c fill pos target path primary standIn) := by
  have hjob : ContainerJob.Resolved c.resolve known
      { field := target.name, path, primary := .ofSource primary
        standIn := standIn.map .ofSource } := by
    refine ⟨hpath, hprimary.operand, fun x hx => ?_⟩
    obtain ⟨s, hs, rfl⟩ := Option.map_eq_some_iff.mp hx
    exact (hstandIn s hs).operand
  have hroot := htarget.type.root
  have helement : ∀ {element : FieldType}, element.Resolved c.resolve known → ∀ slot : Slot,
      slot.Resolved c.resolve known →
        IsCleanWriting (convertElement c fill pos target.name element element slot) :=
    fun h => clean_convertElement hc hfill hpos h h
  -- The cases are those of the type behind the aliases; the rest are leaves.
  unfold fillSourced
  dsimp only
  split
  · rename_i record heq
    rw [heq] at hroot
    exact clean_fillRecord hc hfill hpos htarget hpath hroot hprimary
  · rename_i element heq
    rw [heq] at hroot
    exact clean_convertList hroot (helement hroot) hjob
  · rename_i element form heq
    rw [heq] at hroot
    exact clean_convertSet hroot (helement hroot) hjob
  · rename_i key value heq
    rw [heq] at hroot
    exact clean_convertMap hroot.1 hroot.2 (helement hroot.2) hjob
  · exact .bind (.ofExcept htarget.type.goType) fun type htype =>
      clean_assignSources hpath (fun _ => Cast.isSingle_bytes htype) hprimary hstandIn
  · exact .bind (.ofExcept htarget.type.goType) fun type htype =>
      clean_assignSources hpath (fun _ => Cast.isSingle_forPresence htype _ _) hprimary hstandIn

omit hpath in
/-- A field, whatever sources it has. -/
theorem clean_fillField : IsCleanWriting (fillField c fill pos target) := by
  have hpath : (pos.target.select (pascal target.name)).IsSingle :=
    hpos.target.select htarget.name.pascal
  have hsources := hpos.sourcesOf hc target
    (Path.bare (pos.scope ++ pos.target.select (pascal target.name)))
  unfold fillField
  dsimp only
  split
  · rename_i primary standIn heq
    rw [heq] at hsources
    exact clean_fillSourced hc hfill hpos htarget hpath (hsources.1 _ rfl) fun s hs =>
      hsources.2 s hs
  · exact clean_fillUnsourced hc hfill hpos htarget hpath

end Fields

/-- Filling resolved fields is clean, whatever the bound on the levels. -/
theorem clean_fillFields {c : Settings} (hc : c.Resolved known) (depth : Nat) :
    Fill.Clean known c (fillFields c depth) := by
  induction depth with
  | zero => exact fun _ _ _ _ => .stop trivial
  | succ depth ih =>
    exact fun pos fields hpos hfields => .forM fun f hf => clean_fillField hc ih hpos (hfields f hf)

/-! ## Whole conversions -/

/-- What a path of names leads to is resolved if what it starts from and the schema are. -/
theorem followSource_resolved {resolve : Resolver} {s : Schema} (hs : s.Resolved resolve known)
    {names : List String} {before : Path} {fields : List Field} {found : Path × Field}
    (hbefore : before.IsSingle) (hfields : ∀ f ∈ fields, f.Resolved resolve known)
    (h : followSource s before fields names = some found) :
    found.1.IsSingle ∧ found.2.Resolved resolve known := by
  refine followSource_forall
    (P := fun before fields => before.IsSingle ∧ ∀ f ∈ fields, f.Resolved resolve known)
    (Q := fun path f => path.IsSingle ∧ f.Resolved resolve known) ?_ ?_ ⟨hbefore, hfields⟩ h
  · rintro before fields f ⟨hbefore, hfields⟩ hf
    exact ⟨hbefore.select (hfields f hf).name.pascal, hfields f hf⟩
  · rintro before fields f ref ⟨hbefore, hfields⟩ hf href
    have hrecord := (hfields f hf).type.record? href
    exact ⟨hbefore.select (hfields f hf).name.pascal, hs _ hrecord.2⟩

namespace ConversionRequest

/-- The fields that a conversion is about are resolved, and those of all known records. -/
structure Resolved (known : RecordRef → Prop) (r : ConversionRequest) : Prop where
  schema : r.schema.Resolved r.resolve known
  source : ∀ f ∈ r.source, f.Resolved r.resolve known
  target : ∀ f ∈ r.target, f.Resolved r.resolve known

variable {r : ConversionRequest}

theorem Resolved.settings (h : r.Resolved known) {mapped : List (String × MappedField)}
    (hmapped : r.schema.followMappings r.source r.mappings.entries = .ok mapped) :
    (r.settings mapped).Resolved known where
  schema := h.schema
  mapped e he := by
    obtain ⟨m, -, hfound⟩ := mem_followMappings hmapped e he
    exact followSource_resolved h.schema .nil h.source hfound

/-- The lines before all others are fixed. -/
theorem preamble_isSingle (c : Settings) : (preamble c).IsSingle := by
  rw [preamble]
  split
  · refine .ofList fun s hs => ?_
    rcases List.mem_cons.mp hs with rfl | hs
    · decide
    · rw [List.mem_singleton.mp hs]
      decide
  · exact .done

/-- Only a source path that leads to no field cannot be followed. -/
theorem followMappings_error {s : Schema} {fields : List Field} {cause : GenerationError} :
    ∀ {mappings : List (String × Mapping)}, s.followMappings fields mappings = .error cause →
      ∃ path, cause = .unknownSource path
  | [], h => by cases h
  | (target, mapping) :: rest, h => by
    rw [Schema.followMappings] at h
    split at h
    · cases h
      exact ⟨_, rfl⟩
    · cases hrest : s.followMappings fields rest with
      | error inner =>
        rw [hrest] at h
        cases h
        exact followMappings_error hrest
      | ok mapped =>
        rw [hrest] at h
        cases h

/-- Mappings are followed first; what they lead to are fields of the source, which are known. -/
theorem clean_draft (h : r.Resolved known) : IsCleanWriting r.draft := by
  have hstart : Position.Resolved r.resolve known { source := some (.ofVar .input, r.source) } := by
    refine ⟨.nil, .nil, ?_⟩
    rintro _ _ ⟨⟩
    exact ⟨.ofVar (Var.isSingle_text nofun), h.source⟩
  unfold draft
  cases hmapped : r.schema.followMappings r.source r.mappings.entries with
  | error cause =>
    -- The draft has stopped, so nothing is asked of what follows.
    obtain ⟨path, rfl⟩ := followMappings_error hmapped
    refine .bind (Q := fun _ => False) (.stop ?_) fun _ h => h.elim
    exact trivial
  | ok mapped =>
    have hsettings := h.settings hmapped
    exact .bind (.ofExcept ⟨mapped, rfl, rfl⟩ : CleanWriting (· = mapped) _) fun _ heq => by
      subst heq
      exact .bind (.write (preamble_isSingle _)) fun _ _ =>
        clean_fillFields hsettings _ _ _ hstart h.target

/-- No run comes to its bound. -/
theorem run_ne_unfinished (r : ConversionRequest) : r.run ≠ .unfinished := by
  have hfinal := (r.agree_draftWithin (Nat.le_refl _) {}).final
  rw [run, Draft.outcome]
  cases hdraft : r.draft {} with
  | ok result => simp
  | error halt =>
    have hstop := hfinal halt hdraft
    dsimp only
    rw [Halt.outcome]
    cases heq : halt.stop with
    | unfinished =>
      rw [heq] at hstop
      exact absurd hstop id
    | failed cause => simp
    | broke fault => simp

/-- A conversion between resolved records gives single lines, or an error that is no unknown
package. -/
theorem run_clean (h : r.Resolved known) :
    (∃ lines, r.run = .lines lines ∧ ∀ line ∈ lines, IsSingle line) ∨
      ∃ cause, r.run = .failed cause ∧ ∀ name reason, cause ≠ .unresolvedPackage name reason := by
  have hstart : Progress.IsSingle {} :=
    ⟨fun _ hh => absurd hh List.not_mem_nil, fun _ he => absurd he List.not_mem_nil⟩
  rcases (clean_draft h).outcome hstart with hlines | hfailed | hunfinished
  · exact .inl hlines
  · exact .inr hfailed
  · exact absurd hunfinished.2 r.run_ne_unfinished

end ConversionRequest

end RecordBridge

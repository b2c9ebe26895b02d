import Mathlib.Data.Set.Insert
import RecordBridge.Proofs.Conversion.Emission

/-!
# What is converted is convertible

A conversion that finishes has converted containers from containers of their shape and records from
records, at every depth, into maps with keys of text (`run_convertible`). Which fields it has converted
is told by a set of fields that is closed: with a record it holds the fields of the record. Records may
occur within themselves, so there is such a set and no rank. Below a derivation the set is closed up to
the records that the local functions in scope convert (`Emits.converts`), and at the top there are none.

Nothing is asked of the source of a leaf, nor of the keys of a source map: a list is assigned to a text,
and keys that are numbers are used as keys of a map from text (`numberedNames_run`).
-/

namespace RecordBridge

/-! ## Types -/

namespace FieldType

/-- Whether two types have one shape, if the first one is a container or a record. -/
def SameShape (target source : FieldType) : Prop :=
  match target.root with
  | .record _ => ∃ origin, source.root = .record origin
  | .list _ => ∃ element, source.root = .list element
  | .set _ _ => ∃ element form, source.root = .set element form
  | .map _ _ => ∃ key value, source.root = .map key value
  | _ => True

/-- Aliases do not matter for the shape. -/
@[simp] theorem sameShape_root (t u : FieldType) : t.root.SameShape u ↔ t.SameShape u := by
  induction t with
  | «alias» _ _ _ ih => exact ih
  | _ => exact Iff.rfl

/-- Whether values of a source type can be converted to a target type. A container is converted from
one of its shape, element by element, into a map only if its keys are text, into or out of the keys of a
map only if its elements can be such keys. `R` tells the records that can be converted. Nothing is asked
of a source for a leaf. -/
def Convertible (R : (target source : RecordRef) → Prop) : (target source : FieldType) → Prop
  | .alias _ _ target, source => Convertible R target source
  | .record target, source => ∃ origin, source.root = .record origin ∧ R target origin
  | .list element, source => ∃ e, source.root = .list e ∧ Convertible R element e
  | .set element form, source => ∃ e form', source.root = .set e form' ∧
      if isKeyed element form || isKeyed e form' then element.isHashable = true
      else Convertible R element e
  | .map key value, source =>
    key.isText = true ∧ ∃ k v, source.root = .map k v ∧ Convertible R value v
  | _, _ => True

namespace Convertible

variable {R R' : RecordRef → RecordRef → Prop}

theorem of_root {t u : FieldType} (h : Convertible R t.root u) : Convertible R t u := by
  induction t with
  | «alias» _ _ _ ih => exact ih h
  | _ => exact h

theorem root {t u : FieldType} (h : Convertible R t u) : Convertible R t.root u := by
  induction t with
  | «alias» _ _ _ ih => exact ih h
  | _ => exact h

theorem of_isLeaf {t : FieldType} (h : t.root.isLeaf = true) (u : FieldType) :
    Convertible R t u := by
  apply of_root
  cases hroot : t.root <;> simp_all [isLeaf, Convertible]

/-- With more records that can be converted, more types can be. -/
theorem mono (hR : ∀ target origin, R target origin → R' target origin) {t : FieldType} :
    ∀ {u : FieldType}, Convertible R t u → Convertible R' t u := by
  induction t with
  | «alias» _ _ _ ih => exact ih
  | record target =>
    rintro u ⟨origin, hroot, h⟩
    exact ⟨origin, hroot, hR _ _ h⟩
  | list element ih =>
    rintro u ⟨e, hroot, h⟩
    exact ⟨e, hroot, ih h⟩
  | set element form ih =>
    rintro u ⟨e, form', hroot, h⟩
    refine ⟨e, form', hroot, ?_⟩
    split at h
    · rwa [if_pos ‹_›]
    · rw [if_neg ‹_›]
      exact ih h
  | map key value _ ih =>
    rintro u ⟨hkey, k, v, hroot, h⟩
    exact ⟨hkey, k, v, hroot, ih h⟩
  | _ => exact fun h => h

end Convertible

end FieldType

/-! ## Sets of converted fields -/

section Closed

variable {c : Settings} {V W : Set (Position × Field)} {R R' : RecordRef → RecordRef → Prop}
  {pos : Position} {f : Field}

/-- The fields of a record are converted from those of another one, at some position. -/
def Joins (c : Settings) (V : Set (Position × Field)) (target origin : RecordRef) : Prop :=
  ∃ pos base, pos.source = some (base, c.schema.fields origin) ∧
    ∀ g ∈ c.schema.fields target, (pos, g) ∈ V

/-- What the conversion of a field at a position comes to, where `R` tells the records that are
converted and `V` the fields. Its type agrees with that of its primary source; what stands in has its
shape if it is a container; and beneath a record without a source all fields are converted if something
there is mapped. -/
structure FieldConverts (c : Settings) (R : RecordRef → RecordRef → Prop)
    (V : Set (Position × Field)) (pos : Position) (f : Field) : Prop where
  primary : ∀ {x other}, sourcesOf c pos f (pos.key f) = (some x, other) →
    f.type.Convertible R x.field.type
  standIn : ∀ {x y}, sourcesOf c pos f (pos.key f) = (some x, some y) →
    f.type.root.isContainer = true → f.type.SameShape y.field.type
  beneath : ∀ {other record}, sourcesOf c pos f (pos.key f) = (none, other) →
    f.type.record? = some record → c.mapsBelow (pos.key f) = true →
    ∀ g ∈ c.schema.fields record, (pos.unsourced (pos.path f), g) ∈ V

/-- Records that are converted, either elsewhere or within a set of fields. -/
def Joined (c : Settings) (elsewhere : RecordRef → RecordRef → Prop) (V : Set (Position × Field))
    (target origin : RecordRef) : Prop :=
  elsewhere target origin ∨ Joins c V target origin

/-- A set of fields at positions that is closed under conversion, up to the records that are converted
elsewhere. -/
def Closed (c : Settings) (elsewhere : RecordRef → RecordRef → Prop)
    (V : Set (Position × Field)) : Prop :=
  ∀ pos f, (pos, f) ∈ V → FieldConverts c (Joined c elsewhere V) V pos f

theorem Joins.mono (h : V ⊆ W) {target origin : RecordRef} :
    Joins c V target origin → Joins c W target origin
  | ⟨pos, base, hsource, hfields⟩ => ⟨pos, base, hsource, fun g hg => h (hfields g hg)⟩

theorem Joined.mono (h : V ⊆ W) {target origin : RecordRef} :
    Joined c R V target origin → Joined c R W target origin :=
  Or.imp_right (Joins.mono h)

/-- What is converted within a second set, where the first one is elsewhere, is converted within
both. -/
theorem Joined.union {target origin : RecordRef} :
    Joined c (Joined c R V) W target origin → Joined c R (V ∪ W) target origin
  | .inl h => h.mono Set.subset_union_left
  | .inr h => .inr (h.mono Set.subset_union_right)

namespace FieldConverts

/-- A field with a source is converted if its type agrees with those of its sources. -/
theorem sourced {primary : Source} {standIn : Option Source}
    (hsources : sourcesOf c pos f (pos.key f) = (some primary, standIn))
    (hprimary : f.type.Convertible R primary.field.type)
    (hstandIn : ∀ y ∈ standIn, f.type.root.isContainer = true → f.type.SameShape y.field.type) :
    FieldConverts c R V pos f where
  primary hsome := by
    rw [hsources] at hsome
    cases hsome
    exact hprimary
  standIn hsome := by
    rw [hsources] at hsome
    cases hsome
    exact hstandIn _ rfl
  beneath hnone := by
    rw [hsources] at hnone
    cases hnone

/-- A field without a source is converted if the fields beneath it are, should it be needed. -/
theorem unsourced {other : Option Source}
    (hsources : sourcesOf c pos f (pos.key f) = (none, other))
    (hfields : ∀ record, f.type.record? = some record → c.mapsBelow (pos.key f) = true →
      ∀ g ∈ c.schema.fields record, (pos.unsourced (pos.path f), g) ∈ V) :
    FieldConverts c R V pos f where
  primary hsome := by
    rw [hsources] at hsome
    cases hsome
  standIn hsome := by
    rw [hsources] at hsome
    cases hsome
  beneath _ := hfields _

theorem mono (h : FieldConverts c R V pos f)
    (hR : ∀ target origin, R target origin → R' target origin) (hV : V ⊆ W) :
    FieldConverts c R' W pos f where
  primary hsources := (h.primary hsources).mono hR
  standIn := h.standIn
  beneath hsources hrecord hmaps g hg := hV (h.beneath hsources hrecord hmaps g hg)

end FieldConverts

namespace Closed

theorem empty : Closed c R ∅ :=
  fun _ _ h => absurd h (Set.notMem_empty _)

/-- A set stays closed with a field that is converted by means of what is in it. -/
theorem insert (h : Closed c R V) (hf : FieldConverts c (Joined c R V) V pos f) :
    Closed c R (insert (pos, f) V) := by
  have hsub : V ⊆ Insert.insert (pos, f) V := Set.subset_insert _ _
  intro pos' f' hmem
  rcases Set.mem_insert_iff.mp hmem with heq | hmem
  · cases heq
    exact hf.mono (fun _ _ => Joined.mono hsub) hsub
  · exact (h pos' f' hmem).mono (fun _ _ => Joined.mono hsub) hsub

/-- The second of two sets may rest on the records that the first one converts. -/
theorem union (hV : Closed c R V) (hW : Closed c (Joined c R V) W) : Closed c R (V ∪ W) := by
  have hleft : V ⊆ V ∪ W := Set.subset_union_left
  have hright : W ⊆ V ∪ W := Set.subset_union_right
  intro pos f hmem
  rcases hmem with hmem | hmem
  · exact (hV pos f hmem).mono (fun _ _ => Joined.mono hleft) hleft
  · exact (hW pos f hmem).mono (fun _ _ => Joined.union) hright

/-- What a set converts itself need not be converted elsewhere. -/
theorem discharge (hV : Closed c R' V)
    (hR : ∀ target origin, R' target origin → Joined c R V target origin) : Closed c R V :=
  fun pos f hmem => (hV pos f hmem).mono
    (fun _ _ h => h.elim (hR _ _) .inr) subset_rfl

end Closed

end Closed

/-! ## The derivation -/

section Derivation

variable {c : Settings} {R : RecordRef → RecordRef → Prop} {V W : Set (Position × Field)}
  {p q : Progress}

/-- The local functions in scope are for records in `R`. -/
def Progress.Joins (R : RecordRef → RecordRef → Prop) (p : Progress) : Prop :=
  ∀ x ∈ p.helpers, ∀ target origin : RecordRef,
    target.id = x.target → origin.id = x.source → R target origin

theorem Progress.Joins.mono (h : p.Joins R) {R' : RecordRef → RecordRef → Prop}
    (hR : ∀ target origin, R target origin → R' target origin) : p.Joins R' :=
  fun x hx target origin htarget horigin => hR _ _ (h x hx target origin htarget horigin)

/-- What is converted for a task, if `V` is the set of converted fields and `R` tells the converted
records. -/
def Task.Converts (R : RecordRef → RecordRef → Prop) (V : Set (Position × Field)) : Task → Prop
  | .fields pos fs => ∀ f ∈ fs, (pos, f) ∈ V
  | .field pos f => (pos, f) ∈ V
  | .record _ job _ _ _ _ => R job.target job.source
  | .container _ type job => type.Convertible R job.primary.type ∧
      ∀ y ∈ job.standIn, type.SameShape y.type
  | .element _ _ type slot => type.Convertible R slot.primary.type

/-- A loop converts a container if it converts the elements. -/
theorem Loop.Converts.convertible {job : ContainerJob} {type : FieldType} {loop : Loop}
    (h : loop.Converts c job type) (helement : loop.element.Convertible R loop.primary) :
    type.Convertible R job.primary.type ∧ ∀ y ∈ job.standIn, type.SameShape y.type := by
  cases h with
  | list hprimary hstandIn _ =>
    refine ⟨⟨_, Operand.root_of_listElements hprimary, helement⟩, fun y hy => ?_⟩
    obtain ⟨part, hpart⟩ := exists_of_standInPart hstandIn y hy
    exact ⟨part, Operand.root_of_listElements hpart⟩
  | set hprimary hstandIn hkeyed hprimaryKeyed _ =>
    refine ⟨⟨_, _, Operand.root_of_setElements hprimary, ?_⟩, fun y hy => ?_⟩
    · rw [hkeyed, hprimaryKeyed]
      exact helement
    · obtain ⟨part, hpart⟩ := exists_of_standInPart hstandIn y hy
      exact ⟨part.1, part.2, Operand.root_of_setElements hpart⟩
  | map htext _ hprimary hstandIn _ =>
    obtain ⟨k, hroot⟩ := Operand.exists_root_of_mapValues hprimary
    refine ⟨⟨htext, k, _, hroot, helement⟩, fun y hy => ?_⟩
    obtain ⟨part, hpart⟩ := exists_of_standInPart hstandIn y hy
    obtain ⟨k', hroot'⟩ := Operand.exists_root_of_mapValues hpart
    exact ⟨k', part, hroot'⟩

/-- The fields in `V` are those that are converted for a task, up to the records in `R`. What is in
scope after it is converted as well. -/
structure Covers (c : Settings) (R : RecordRef → RecordRef → Prop) (task : Task) (q : Progress)
    (V : Set (Position × Field)) : Prop where
  closed : Closed c R V
  converts : task.Converts (Joined c R V) V
  inScope : q.Joins (Joined c R V)

namespace Covers

variable {task : Task} {pos : Position} {job : RecordJob} {type : FieldType}
  {tested base : Place} {inField : Bool}

theorem noFields (pos : Position) (hp : p.Joins R) : Covers c R (.fields pos []) p ∅ where
  closed := .empty
  converts _ hf := absurd hf List.not_mem_nil
  inScope := hp.mono fun _ _ => .inl

/-- A field is converted if what it calls for is. -/
theorem field {f : Field} (h : Covers c R task q V) (hf : FieldConverts c (Joined c R V) V pos f) :
    ∃ W, Covers c R (.field pos f) q W :=
  ⟨_, h.closed.insert hf, Set.mem_insert _ _,
    h.inScope.mono fun _ _ => Joined.mono (Set.subset_insert _ _)⟩

/-- One task after another. -/
theorem andThen {task' : Task} {r : Progress} (h : Covers c R task q V)
    (h' : Covers c (Joined c R V) task' r W) {whole : Task}
    (hwhole : task.Converts (Joined c R V) V → task'.Converts (Joined c (Joined c R V) W) W →
      whole.Converts (Joined c R (V ∪ W)) (V ∪ W)) : Covers c R whole r (V ∪ W) where
  closed := h.closed.union h'.closed
  converts := hwhole h.converts h'.converts
  inScope := h'.inScope.mono fun _ _ => Joined.union

/-- A local function converts its records, also where it calls itself. -/
theorem define (hp : p.Joins R)
    (hbody : ∃ V, Covers c
      (fun target origin => R target origin ∨
        target.id = job.target.id ∧ origin.id = job.source.id)
      (.fields (pos.inHelper c job) (c.schema.fields job.target)) q V) :
    ∃ V, Covers c R (.record pos job type tested base inField)
      { q with helpers := (p.define job).helpers } V := by
  obtain ⟨V, hV⟩ := hbody
  -- Its fields are converted below the position in the helper, and `R` was widened by the pair alone.
  have hjoins : ∀ target origin : RecordRef, target.id = job.target.id → origin.id = job.source.id →
      Joins c V target origin := by
    intro target origin htarget horigin
    refine ⟨pos.inHelper c job, .ofVar .input, ?_, ?_⟩
    · rw [Schema.fields, horigin]
      rfl
    · rw [Schema.fields, htarget]
      exact hV.converts
  refine ⟨V, ⟨hV.closed.discharge ?_, .inr (hjoins _ _ rfl rfl), ?_⟩⟩
  · -- ⟨htarget, horigin⟩) | So the pair need no longer be assumed of what is converted.
    rintro target origin (h | ⟨htarget, horigin⟩)
    · exact .inl h
    · exact .inr (hjoins _ _ htarget horigin)
  · intro x hx target origin htarget horigin
    rcases List.mem_cons.mp hx with rfl | hx
    · exact .inr (hjoins _ _ htarget horigin)
    · exact .inl (hp x hx target origin htarget horigin)

end Covers

/-- Below a derivation the fields that are converted form a closed set, up to the records of the local
functions in scope. -/
theorem Emits.converts {task : Task} {b : Code} (h : Emits c task p b q) :
    ∀ {R : RecordRef → RecordRef → Prop}, p.Joins R → ∃ V, Covers c R task q V := by
  -- `R` grows along the induction: by what comes before, and within a local function by its records.
  induction h with
  | noFields => exact fun hp => ⟨∅, .noFields _ hp⟩
  | moreFields _ _ ihfirst ihrest =>
    intro R hp
    obtain ⟨V, hV⟩ := ihfirst hp
    obtain ⟨W, hW⟩ := ihrest hV.inScope
    refine ⟨V ∪ W, hV.andThen hW fun hfirst hrest f hf => ?_⟩
    rcases List.mem_cons.mp hf with rfl | hf
    · exact .inl hfirst
    · exact .inr (hrest f hf)
  | @leaf pos _ _ _ _ _ hsources hleaf _ =>
    intro R hp
    refine (Covers.noFields pos hp).field (.sourced hsources (.of_isLeaf hleaf _) ?_)
    intro _ _ hcontainer
    rw [FieldType.isLeaf_of_isContainer hcontainer] at hleaf
    cases hleaf
  | @recordField _ _ _ _ _ _ _ _ origin hsources hroot horigin _ ih =>
    intro R hp
    obtain ⟨V, hV⟩ := ih hp
    refine hV.field (.sourced hsources (.of_root ?_) ?_)
    · rw [hroot]
      exact ⟨origin, FieldType.root_of_record horigin, hV.converts⟩
    · intro _ _ hcontainer
      rw [hroot] at hcontainer
      cases hcontainer
  | containerField hsources _ _ ih =>
    intro R hp
    obtain ⟨V, hV⟩ := ih hp
    obtain ⟨hprimary, hstandIn⟩ := hV.converts
    refine hV.field (.sourced hsources (.of_root hprimary) ?_)
    rintro y rfl _
    exact (FieldType.sameShape_root _ _).mp (hstandIn (.ofSource y) rfl)
  | allocated hsources hrecord _ _ _ _ ih =>
    intro R hp
    obtain ⟨V, hV⟩ := ih hp
    refine hV.field (.unsourced hsources fun record hrecord' _ => ?_)
    rw [hrecord] at hrecord'
    cases hrecord'
    exact hV.converts
  | deferred hsources hrecord _ _ _ _ ih =>
    intro R hp
    obtain ⟨V, hV⟩ := ih hp
    refine hV.field (.unsourced hsources fun record hrecord' _ => ?_)
    rw [hrecord] at hrecord'
    cases hrecord'
    exact hV.converts
  | @unset pos _ _ _ hsources hmaps _ =>
    intro R hp
    refine (Covers.noFields pos hp).field (.unsourced hsources ?_)
    intro _ hrecord hmapped
    rcases hmaps with hnone | hunmapped
    · rw [hnone] at hrecord
      cases hrecord
    · rw [hunmapped] at hmapped
      cases hmapped
  | inline _ _ _ ih =>
    intro R hp
    obtain ⟨V, hV⟩ := ih hp
    exact ⟨V, hV.closed, .inr ⟨_, _, rfl, hV.converts⟩, hp.mono fun _ _ => .inl⟩
  | @call _ job _ _ _ _ p helper _ hknown =>
    intro R hp
    obtain ⟨hmem, htarget, hsource⟩ := Progress.of_helper?_eq_some hknown
    exact ⟨∅, .empty, .inl (hp helper hmem _ _ htarget.symm hsource.symm), hp.mono fun _ _ => .inl⟩
  | @define _ job _ _ _ _ p q _ _ _ _ _ _ _ _ ih =>
    intro R hp
    -- The function may call itself, so its own records are elsewhere for its body.
    refine Covers.define hp (ih fun x hx target origin htarget horigin => ?_)
    rcases List.mem_cons.mp hx with rfl | hx
    · exact .inr ⟨htarget, horigin⟩
    · exact .inl (hp x hx target origin htarget horigin)
  | loop hloop _ _ ih =>
    intro R hp
    obtain ⟨V, hV⟩ := ih hp
    exact ⟨V, hV.closed, hloop.convertible hV.converts, hp.mono fun _ _ => .inl⟩
  | keys hprimary hstandIn hkeyed hhashable _ _ =>
    intro R hp
    -- Keys are copied one by one, so no fields are converted beneath them.
    refine ⟨∅, .empty, ⟨⟨_, _, Operand.root_of_setElements hprimary, ?_⟩, fun y hy => ?_⟩,
      hp.mono fun _ _ => .inl⟩
    · rwa [if_pos hkeyed]
    · obtain ⟨part, hpart⟩ := exists_of_standInPart hstandIn y hy
      exact ⟨part.1, part.2, Operand.root_of_setElements hpart⟩
  | leafElement hleaf _ =>
    intro R hp
    exact ⟨∅, .empty, .of_isLeaf hleaf _, hp.mono fun _ _ => .inl⟩
  | @recordElement _ _ _ _ _ _ _ _ origin hroot _ horigin _ ih =>
    intro R hp
    obtain ⟨V, hV⟩ := ih hp
    refine ⟨V, hV.closed, .of_root ?_, hV.inScope⟩
    rw [hroot]
    exact ⟨origin, FieldType.root_of_record horigin, hV.converts⟩
  | @eitherElement _ _ _ _ _ _ _ _ _ _ origin _ _ _ hroot _ _ horigin _ _ _ ihprimary ihother =>
    intro R hp
    obtain ⟨V, hV⟩ := ihprimary hp
    obtain ⟨W, hW⟩ := ihother hV.inScope
    refine ⟨V ∪ W, hV.andThen hW fun hprimary _ => .of_root ?_⟩
    rw [hroot]
    exact ⟨origin, FieldType.root_of_record horigin, Joined.mono Set.subset_union_left hprimary⟩
  | containerElement hroot _ ih =>
    intro R hp
    obtain ⟨V, hV⟩ := ih hp
    exact ⟨V, hV.closed, .of_root hV.converts.1, hV.inScope⟩

end Derivation

/-! ## Sources of another shape -/

section Mismatch

variable {c : Settings} {fill : Fill} {pos : Position} {f : Field} {path : Path} {primary : Source}
  {standIn : Option Source}

/-- A draft that starts with a part of an operand fails if the operand has none. -/
theorem shaped_bind_of_none {α β : Type} {field : String} {shape : Shape} {part? : Operand → Option α}
    {x : Operand} (h : part? x = none) (k : α → Writing β) :
    (shaped field shape part? x >>= k) = Draft.fail (.incompatible field shape) := by
  rw [shaped, h]
  rfl

/-- Keys of text have a Go type unless the package of an alias is not known. -/
theorem goType_error_of_isText {resolve : Resolver} {key : FieldType} {cause : GenerationError}
    (htext : key.isText = true) (h : key.goType resolve = .error cause) :
    ∃ name reason, cause = .unresolvedPackage name reason := by
  cases key with
  | «alias» name file _ =>
    rw [FieldType.goType, namedType] at h
    split at h
    · cases h
    · cases h
      exact ⟨name, _, rfl⟩
  | text => cases h
  | _ => simp [FieldType.isText, FieldType.root] at htext

/-- Why a source may be refused for a field: it has another shape, or the keys of the target are not
text, or no package is known for their type. -/
inductive Refuses (field : String) : GenerationError → Prop where
  | incompatible (shape : Shape) : Refuses field (.incompatible field shape)
  | keyNotText : Refuses field (.keyNotText field)
  | unresolvedPackage (name reason : String) : Refuses field (.unresolvedPackage name reason)

/-- A source of another shape than a container or record is refused at once. -/
theorem fillSourced_of_not_sameShape (h : ¬ f.type.SameShape primary.field.type) :
    ∃ cause, fillSourced c fill pos f path primary standIn = Draft.fail cause ∧
      Refuses f.name cause := by
  rw [FieldType.SameShape] at h
  cases hroot : f.type.root with
  | record record =>
    rw [hroot] at h
    simp only [fillSourced, hroot, fillRecord]
    cases horigin : primary.field.type.record? with
    | none => exact ⟨_, rfl, .incompatible .record⟩
    | some origin => exact absurd ⟨origin, FieldType.root_of_record horigin⟩ h
  | list element =>
    rw [hroot] at h
    simp only [fillSourced, hroot, convertList]
    cases hpart : (Operand.ofSource primary).listElements? with
    | none => exact ⟨_, shaped_bind_of_none hpart _, .incompatible .list⟩
    | some part => exact absurd ⟨part, Operand.root_of_listElements hpart⟩ h
  | set element form =>
    rw [hroot] at h
    simp only [fillSourced, hroot, convertSet]
    cases hpart : (Operand.ofSource primary).setElements? with
    | none => exact ⟨_, shaped_bind_of_none hpart _, .incompatible .set⟩
    | some part => exact absurd ⟨part.1, part.2, Operand.root_of_setElements hpart⟩ h
  | map key value =>
    rw [hroot] at h
    simp only [fillSourced, hroot, convertMap, keyType]
    -- The key of the target is looked at before the source.
    split
    · rename_i htext
      cases hkey : key.goType c.resolve with
      | error cause =>
        obtain ⟨name, reason, rfl⟩ := goType_error_of_isText htext hkey
        exact ⟨_, rfl, .unresolvedPackage name reason⟩
      | ok keyGo =>
        cases hpart : (Operand.ofSource primary).mapValues? with
        | none =>
          refine ⟨_, ?_, .incompatible .map⟩
          show (pure keyGo >>= _) = _
          rw [pure_bind, shaped_bind_of_none hpart]
        | some part =>
          obtain ⟨k, hroot⟩ := Operand.exists_root_of_mapValues hpart
          exact absurd ⟨k, part, hroot⟩ h
    · exact ⟨_, rfl, .keyNotText⟩
  | _ =>
    rw [hroot] at h
    exact absurd trivial h

end Mismatch

/-! ## Whole conversions -/

namespace ConversionRequest

/-- **Only what is convertible is converted.** A conversion that finishes has converted a set of fields
that holds those of the target and is closed: each agrees with its source in the shapes of containers
and records, at every depth, and where it holds records their fields are in the set as well. -/
theorem run_convertible {r : ConversionRequest} {text : List String} (hrun : r.run = .lines text) :
    ∃ mapped V, r.schema.followMappings r.source r.mappings.entries = .ok mapped ∧
      (∀ f ∈ r.target, (r.start, f) ∈ V) ∧
      ∀ pos f, (pos, f) ∈ V →
        FieldConverts (r.settings mapped) (Joins (r.settings mapped) V) V pos f := by
  obtain ⟨b, q, hdraft, rfl⟩ := draft_of_run hrun
  obtain ⟨mapped, body, hmapped, rfl, hemits⟩ := emits_of_draft hdraft
  obtain ⟨V, hV⟩ := hemits.converts (R := fun _ _ => False) (fun x hx => absurd hx List.not_mem_nil)
  refine ⟨mapped, V, hmapped, hV.converts, fun pos f hmem => ?_⟩
  -- At the top no record is converted elsewhere.
  exact (hV.closed pos f hmem).mono (fun _ _ h => h.resolve_left id) subset_rfl

/-! ### Keys that are numbers -/

/-- A conversion of a map with numbers for keys to one with texts for keys. -/
def numberedNames : ConversionRequest :=
  { schema := {}
    resolve := fun _ => .ok "structs"
    source := [⟨0, "one", false, .map .int32 .text, []⟩]
    target := [⟨0, "one", false, .map .text .text, []⟩]
    mappings := .empty
    optional := [] }

/-- The keys of a source map are not looked at: they are used as they are for keys of text. -/
theorem numberedNames_run :
    numberedNames.source.map (·.type) = [.map .int32 .text] ∧
      numberedNames.run = .lines
        ["out.One = make(map[string]string, len(in.One))",
          "for key1, value2 := range in.One \x7b",
          "\tout.One[key1] = string(value2)",
          "\x7d"] := by
  decide +kernel

end ConversionRequest

end RecordBridge

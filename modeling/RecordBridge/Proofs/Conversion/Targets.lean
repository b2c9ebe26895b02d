import Mathlib.Data.List.Pairwise
import RecordBridge.Proofs.Conversion.Emission
import RecordBridge.Proofs.Conversion.Sources
import RecordBridge.Proofs.Execution.Grounded
import RecordBridge.Proofs.Schema.Within
import RecordBridge.Proofs.Spelling

/-!
# Targets of a conversion

Which paths below the target a conversion writes to. Each one leads by Go names and indices from the
target fields to a value of a type, and no other value is found at the same path, as long as the
names are plain and those of sibling fields differ. `Visits` says what a conversion takes on, by the
rules of `Emits` without the statements.
-/

namespace RecordBridge

/-! ## Paths by type -/

/-- A step opens a value of a type and leads to one of another type. -/
inductive Opens (c : Settings) : FieldType → Step → FieldType → Prop where
  | field {t : FieldType} {ref : RecordRef} {f : Field} (ht : t.root = .record ref)
      (hf : f ∈ c.schema.fields ref) : Opens c t (.field (pascal f.name)) f.type
  | list {t element : FieldType} {n : Nat} (ht : t.root = .list element) :
      Opens c t (.index (.index n)) element
  | set {t element : FieldType} {form : SetForm} {n : Nat} (ht : t.root = .set element form) :
      Opens c t (.index (.index n)) element
  | key {t value : FieldType} {n : Nat} (ht : t.root = .map .text value) :
      Opens c t (.index (.key n)) value
  | keyAs {t key value : FieldType} {n : Nat} {go : GoType} (ht : t.root = .map key value)
      (hkey : key ≠ .text) (hgo : key.goType c.resolve = .ok go) :
      Opens c t (.keyAs go (.key n)) value

/-- A path leads from some fields to a value of a type. -/
inductive Leads (c : Settings) (fs : List Field) : Path → FieldType → Prop where
  | top {f : Field} (hf : f ∈ fs) : Leads c fs [.field (pascal f.name)] f.type
  | step {path : Path} {t u : FieldType} {s : Step} (h : Leads c fs path t) (hs : Opens c t s u) :
      Leads c fs (path ++ [s]) u

/-- A path to the target record, or to something beneath it. -/
def Led (c : Settings) (fs : List Field) (path : Path) : Prop :=
  path = [] ∨ ∃ t, Leads c fs path t

/-- A field of the target record, or of a record that a path leads to. -/
def Held (c : Settings) (fs : List Field) (path : Path) (f : Field) : Prop :=
  path = [] ∧ f ∈ fs ∨
    ∃ t ref, Leads c fs path t ∧ t.root = .record ref ∧ f ∈ c.schema.fields ref

/-- Fields with plain Go names that differ from each other. -/
structure Named (fields : List Field) : Prop where
  plain : ∀ f ∈ fields, IsPlainName (pascal f.name)
  distinct : fields.Pairwise fun f g => pascal f.name ≠ pascal g.name

theorem named_iff {fields : List Field} : Named fields ↔
    (∀ f ∈ fields, IsPlainName (pascal f.name)) ∧
      fields.Pairwise fun f g => pascal f.name ≠ pascal g.name :=
  ⟨fun h => ⟨h.plain, h.distinct⟩, fun h => ⟨h.1, h.2⟩⟩

instance (fields : List Field) : Decidable (Named fields) :=
  decidable_of_iff' _ named_iff

/-- The target fields of a conversion, and those of the records that they lead to, are named. -/
structure Settings.Names (c : Settings) (fs : List Field) : Prop where
  top : Named fs
  record : ∀ {path t ref}, Leads c fs path t → t.root = .record ref → Named (c.schema.fields ref)

section Paths

variable {c : Settings} {fs : List Field} {path : Path} {t u v : FieldType} {s s' : Step}

/-- Fields of one Go name are the same field. -/
theorem Named.eq_of_name {fields : List Field} (h : Named fields) {f g : Field} (hf : f ∈ fields)
    (hg : g ∈ fields) (hname : pascal f.name = pascal g.name) : f = g := by
  have : Std.Symm fun f g : Field => pascal f.name ≠ pascal g.name := ⟨fun _ _ => Ne.symm⟩
  by_contra hne
  exact h.distinct.forall hf hg hne hname

theorem Leads.ne_nil (h : Leads c fs path t) : path ≠ [] := by
  cases h with
  | top => exact List.cons_ne_nil _ _
  | step => exact List.append_ne_nil_of_right_ne_nil _ (List.cons_ne_nil _ _)

/-- The last step leads from the fields, or from a value that the path before it leads to. -/
theorem Leads.last (h : Leads c fs (path ++ [s]) t) :
    (path = [] ∧ ∃ f ∈ fs, s = .field (pascal f.name) ∧ t = f.type) ∨
      ∃ u, Leads c fs path u ∧ Opens c u s t := by
  generalize hwhole : path ++ [s] = whole at h
  cases h with
  | @top f hf =>
    cases path with
    | nil =>
      cases hwhole
      exact .inl ⟨rfl, f, hf, rfl, rfl⟩
    | cons s' path => simp at hwhole
  | step h hs =>
    obtain ⟨rfl, hstep⟩ := List.append_inj' hwhole rfl
    cases hstep
    exact .inr ⟨_, h, hs⟩

/-- A step leads to one type only. -/
theorem Opens.type_eq (hnamed : ∀ ref, t.root = .record ref → Named (c.schema.fields ref))
    (h : Opens c t s u) (h' : Opens c t s v) : u = v := by
  generalize hstep : s = s' at h'
  cases h with
  | @field ref f ht hf =>
    cases h' with
    | field ht' hf' =>
      rw [ht] at ht'
      cases ht'
      rw [(hnamed ref ht).eq_of_name hf hf' (Step.field.inj hstep)]
    | list | set | key | keyAs => cases hstep
  | list ht | set ht | key ht | keyAs ht =>
    cases h' with
    | field => cases hstep
    | list ht' | set ht' | key ht' | keyAs ht' =>
      rw [ht] at ht'
      cases ht' <;> rfl

/-- The steps that open a value are akin. -/
theorem Opens.akin (hnamed : ∀ ref, t.root = .record ref → Named (c.schema.fields ref))
    (h : Opens c t s u) (h' : Opens c t s' v) : s.Akin s' := by
  cases h with
  | @field ref f ht hf =>
    cases h' with
    | field ht' hf' =>
      rw [ht] at ht'
      cases ht'
      exact .field ((hnamed ref ht).plain _ hf) ((hnamed ref ht).plain _ hf')
    | list ht' | set ht' | key ht' | keyAs ht' => rw [ht] at ht'; cases ht'
  | list ht =>
    cases h' with
    | list ht' => exact .index
    | field ht' | set ht' | key ht' | keyAs ht' => rw [ht] at ht'; cases ht'
  | set ht =>
    cases h' with
    | set ht' => exact .index
    | field ht' | list ht' | key ht' | keyAs ht' => rw [ht] at ht'; cases ht'
  | key ht =>
    cases h' with
    -- Whether a key is cast depends on the type of the key alone.
    | key ht' => exact .key
    | field ht' | list ht' | set ht' => rw [ht] at ht'; cases ht'
    | keyAs ht' hkey =>
      rw [ht] at ht'
      cases ht'
      exact absurd rfl hkey
  | keyAs ht hkey hgo =>
    cases h' with
    | field ht' | list ht' | set ht' => rw [ht] at ht'; cases ht'
    | key ht' =>
      rw [ht] at ht'
      cases ht'
      exact absurd rfl hkey
    | keyAs ht' _ hgo' =>
      rw [ht] at ht'
      cases ht'
      rw [hgo] at hgo'
      cases hgo'
      exact .keyAs

theorem Held.leads {f : Field} (h : Held c fs path f) :
    Leads c fs (path ++ [.field (pascal f.name)]) f.type := by
  rcases h with ⟨rfl, hf⟩ | ⟨t, ref, hleads, hroot, hf⟩
  · exact .top hf
  · exact .step hleads (.field hroot hf)

variable (hnames : c.Names fs)
include hnames

/-- A path leads to one type only. -/
theorem Leads.type_eq (h : Leads c fs path t) (h' : Leads c fs path u) : t = u := by
  induction path using List.reverseRecOn generalizing t u with
  | nil => exact absurd rfl h.ne_nil
  | append_singleton path s ih =>
    rcases h.last with ⟨rfl, f, hf, rfl, rfl⟩ | ⟨v, hv, hs⟩
    · rcases h'.last with ⟨-, g, hg, hname, rfl⟩ | ⟨v, hv, -⟩
      · rw [hnames.top.eq_of_name hf hg (Step.field.inj hname)]
      · exact absurd rfl hv.ne_nil
    · rcases h'.last with ⟨rfl, -⟩ | ⟨v', hv', hs'⟩
      · exact absurd rfl hv.ne_nil
      · cases ih hv hv'
        exact hs.type_eq (fun ref => hnames.record hv) hs'

theorem Held.plain {f : Field} (h : Held c fs path f) : IsPlainName (pascal f.name) := by
  rcases h with ⟨-, hf⟩ | ⟨t, ref, hleads, hroot, hf⟩
  · exact hnames.top.plain f hf
  · exact (hnames.record hleads hroot).plain f hf

/-- Only one field of a Go name is held at a path. -/
theorem Held.eq_of_name {f g : Field} (hf : Held c fs path f) (hg : Held c fs path g)
    (hname : pascal f.name = pascal g.name) : f = g := by
  rcases hf with ⟨rfl, hf⟩ | ⟨t, ref, hleads, hroot, hf⟩
  · rcases hg with ⟨-, hg⟩ | ⟨t', ref', hleads', -⟩
    · exact hnames.top.eq_of_name hf hg hname
    · exact absurd rfl hleads'.ne_nil
  · rcases hg with ⟨rfl, -⟩ | ⟨t', ref', hleads', hroot', hg⟩
    · exact absurd rfl hleads.ne_nil
    · cases Leads.type_eq hnames hleads hleads'
      cases hroot.symm.trans hroot'
      exact (hnames.record hleads hroot).eq_of_name hf hg hname

/-- The paths below the target branch only where the next steps are akin. -/
theorem Led.family : Path.Family (Led c fs) where
  shorter := by
    rintro path s (h | ⟨t, h⟩)
    · simp at h
    · rcases h.last with ⟨rfl, -⟩ | ⟨u, hu, -⟩
      · exact .inl rfl
      · exact .inr ⟨u, hu⟩
  akin := by
    rintro path s s' (h | ⟨t, h⟩) (h' | ⟨t', h'⟩)
    · simp at h
    · simp at h
    · simp at h'
    · rcases h.last with ⟨rfl, f, hf, rfl, rfl⟩ | ⟨v, hv, hs⟩
      · rcases h'.last with ⟨-, g, hg, rfl, rfl⟩ | ⟨v, hv, -⟩
        · exact .field (hnames.top.plain f hf) (hnames.top.plain g hg)
        · exact absurd rfl hv.ne_nil
      · rcases h'.last with ⟨rfl, -⟩ | ⟨v', hv', hs'⟩
        · exact absurd rfl hv.ne_nil
        · cases Leads.type_eq hnames hv hv'
          exact hs.akin (fun ref => hnames.record hv) hs'

end Paths

/-! ## What a conversion takes on -/

/-- The tasks that a conversion takes on, from some fields at a position. -/
inductive Visits (c : Settings) (start : Position) (fs : List Field) : Task → Prop where
  | start : Visits c start fs (.fields start fs)
  | field {pos : Position} {gs : List Field} {f : Field}
      (h : Visits c start fs (.fields pos (f :: gs))) : Visits c start fs (.field pos f)
  | rest {pos : Position} {gs : List Field} {f : Field}
      (h : Visits c start fs (.fields pos (f :: gs))) : Visits c start fs (.fields pos gs)
  | recordField {pos : Position} {f : Field} {primary : Source} {standIn : Option Source}
      {target origin : RecordRef} (h : Visits c start fs (.field pos f))
      (hsources : sourcesOf c pos f (pos.key f) = (some primary, standIn))
      (hroot : f.type.root = .record target) (horigin : primary.field.type.record? = some origin) :
      Visits c start fs
        (.record pos ⟨target, origin, pos.path f⟩ f.type primary.place primary.place true)
  | containerField {pos : Position} {f : Field} {primary : Source} {standIn : Option Source}
      (h : Visits c start fs (.field pos f))
      (hsources : sourcesOf c pos f (pos.key f) = (some primary, standIn)) :
      Visits c start fs (.container pos f.type.root
        ⟨f.name, pos.path f, .ofSource primary, standIn.map .ofSource⟩)
  | unsourced {pos : Position} {f : Field} {other : Option Source} {record : RecordRef}
      (h : Visits c start fs (.field pos f))
      (hsources : sourcesOf c pos f (pos.key f) = (none, other))
      (hrecord : f.type.record? = some record) :
      Visits c start fs (.fields (pos.unsourced (pos.path f)) (c.schema.fields record))
  | inline {pos : Position} {job : RecordJob} {type : FieldType} {tested base : Place}
      {inField : Bool} (h : Visits c start fs (.record pos job type tested base inField)) :
      Visits c start fs (.fields (pos.inline c job base) (c.schema.fields job.target))
  | element {pos : Position} {type : FieldType} {job : ContainerJob} {loop : Loop}
      (h : Visits c start fs (.container pos type job)) (hloop : loop.Converts c job type)
      (flag : Option Var) (n : Nat) :
      Visits c start fs (.element pos job.field loop.element (loop.slot job flag n))
  | recordElement {pos : Position} {field : String} {type : FieldType} {slot : Slot}
      {source : Operand} {target origin : RecordRef}
      (h : Visits c start fs (.element pos field type slot)) (hroot : type.root = .record target)
      (hsource : source = slot.primary ∨ slot.standIn = some source)
      (horigin : source.type.record? = some origin) :
      Visits c start fs
        (.record pos ⟨target, origin, slot.path⟩ type (.ofVar slot.value) source.place false)
  | containerElement {pos : Position} {field : String} {type : FieldType} {slot : Slot}
      (h : Visits c start fs (.element pos field type slot)) :
      Visits c start fs (.container pos type.root (slot.job field))

/-- A path at which a record may be allocated by itself: that of a field that is required or has a
source, or of an element. -/
def Owned (c : Settings) (start : Position) (fs : List Field) (path : Path) : Prop :=
  (∃ pos f, Visits c start fs (.field pos f) ∧ path = pos.path f ∧
    (f.required = true ∨ (sourcesOf c pos f (pos.key f)).1.isSome = true)) ∨
  ∃ pos field type slot, Visits c start fs (.element pos field type slot) ∧ path = slot.path

/-- The place of an operand starts at a local variable. -/
def Operand.IsLocal (x : Operand) : Prop :=
  x.place.root.isLocal = true

/-- The source of a position, if it has one, starts at a local variable. -/
def Position.IsLocal (pos : Position) : Prop :=
  ∀ base gs, pos.source = some (base, gs) → base.root.isLocal = true

/-- A conversion into fields with plain names, from the top and without local functions. -/
structure Direct (c : Settings) (start : Position) (fs : List Field) : Prop where
  names : c.Names fs
  acyclic : c.cyclic = []
  scope : start.scope = []
  target : start.target = []
  isLocal : start.IsLocal

theorem Direct.family {c : Settings} {start : Position} {fs : List Field}
    (h : Direct c start fs) : Path.Family (Led c fs) :=
  Led.family h.names

theorem Direct.needsHelper_eq {c : Settings} {start : Position} {fs : List Field}
    (h : Direct c start fs) (target source : RecordRef) : c.needsHelper target source = false := by
  rw [Settings.needsHelper, h.acyclic]
  rfl

/-- A task at paths that lead to values of its types, with sources in local variables, outside of all
local functions. -/
def Task.Placed (c : Settings) (fs : List Field) : Task → Prop
  | .fields pos gs => pos.scope = [] ∧ pos.IsLocal ∧ ∀ f ∈ gs, Held c fs pos.target f
  | .field pos f => pos.scope = [] ∧ pos.IsLocal ∧ Held c fs pos.target f
  | .record pos job type tested base _ => pos.scope = [] ∧ Leads c fs job.path type ∧
    type.root = .record job.target ∧ tested.root.isLocal = true ∧ base.root.isLocal = true
  | .container pos type job => pos.scope = [] ∧ (∃ t, Leads c fs job.path t ∧ t.root = type) ∧
    job.primary.IsLocal ∧ ∀ x, job.standIn = some x → x.IsLocal
  | .element pos _ type slot => pos.scope = [] ∧ Leads c fs slot.path type ∧
    slot.value.isLocal = true ∧ slot.primary.IsLocal ∧ ∀ x, slot.standIn = some x → x.IsLocal

/-- The path from the whole target to the `out` below which a task writes. -/
def Task.scope : Task → Path
  | .fields pos _ | .field pos _ | .record pos _ _ _ _ _ | .container pos _ _
  | .element pos _ _ _ => pos.scope

/-- A task at paths that lead, from the whole target on, to values of its types, with sources in local
variables. -/
def Task.PlacedIn (c : Settings) (fs : List Field) : Task → Prop
  | .fields pos gs => pos.IsLocal ∧ ∀ f ∈ gs, Held c fs (pos.scope ++ pos.target) f
  | .field pos f => pos.IsLocal ∧ Held c fs (pos.scope ++ pos.target) f
  | .record pos job type tested base _ => Leads c fs (pos.scope ++ job.path) type ∧
    type.root = .record job.target ∧ tested.root.isLocal = true ∧ base.root.isLocal = true
  | .container pos type job => (∃ t, Leads c fs (pos.scope ++ job.path) t ∧ t.root = type) ∧
    job.primary.IsLocal ∧ ∀ x, job.standIn = some x → x.IsLocal
  | .element pos _ type slot => Leads c fs (pos.scope ++ slot.path) type ∧
    slot.value.isLocal = true ∧ slot.primary.IsLocal ∧ ∀ x, slot.standIn = some x → x.IsLocal

section Placing

variable {c : Settings} {start : Position} {fs : List Field} {pos : Position} {f : Field}

/-- The path of a field with a plain name. -/
theorem Position.path_of_isPlainName (h : IsPlainName (pascal f.name)) :
    pos.path f = pos.target ++ [.field (pascal f.name)] :=
  Path.select_of_not_mem h.1 _

/-- Both sources of a field start at local variables. -/
theorem isLocal_sourcesOf (h : pos.IsLocal) {path : String} :
    (∀ x, (sourcesOf c pos f path).1 = some x → x.place.root.isLocal = true) ∧
      ∀ x, (sourcesOf c pos f path).2 = some x → x.place.root.isLocal = true := by
  refine sourcesOf_forall (fun x hx => ?_) fun mapped _ => ?_
  · obtain ⟨base, gs, hpos⟩ := exists_source_of_directSource hx
    rw [(directSource_some hpos hx).2.2]
    exact h base gs hpos
  · exact c.mappedRoot_spec.1

/-- A slot of a container that is converted by a loop is an element of it. -/
theorem Loop.Converts.opens {job : ContainerJob} {type t : FieldType} {loop : Loop}
    (h : loop.Converts c job type) (ht : t.root = type) (n : Nat) :
    Opens c t (loop.step (loop.position n)) loop.element := by
  cases h with
  | list => exact .list ht
  | set => exact .set ht
  | @map key value primary standIn keyGo go htext hkey =>
    show Opens c t (if key = .text then Step.index (.key n) else .keyAs keyGo (.key n)) value
    by_cases hkeyText : key = .text
    · rw [if_pos hkeyText]
      exact .key (hkeyText ▸ ht)
    · rw [if_neg hkeyText]
      exact .keyAs ht hkeyText hkey

/-! ### Tasks within tasks -/

namespace Task.PlacedIn

variable {gs : List Field}

theorem field (h : (Task.fields pos (f :: gs)).PlacedIn c fs) : (Task.field pos f).PlacedIn c fs :=
  ⟨h.1, h.2 f List.mem_cons_self⟩

theorem rest (h : (Task.fields pos (f :: gs)).PlacedIn c fs) : (Task.fields pos gs).PlacedIn c fs :=
  ⟨h.1, fun g hg => h.2 g (List.mem_cons_of_mem _ hg)⟩

/-- The path of a field leads to its type. -/
theorem path_field (hnames : c.Names fs) (h : (Task.field pos f).PlacedIn c fs) :
    pos.path f = pos.target ++ [.field (pascal f.name)] ∧
      Leads c fs (pos.scope ++ pos.path f) f.type := by
  have hpath : pos.path f = pos.target ++ [.field (pascal f.name)] :=
    Position.path_of_isPlainName (h.2.plain hnames)
  refine ⟨hpath, ?_⟩
  rw [hpath, ← List.append_assoc]
  exact h.2.leads

section Fields

variable {primary : Source} {standIn : Option Source} {target origin ref : RecordRef}

theorem recordField (hnames : c.Names fs) (h : (Task.field pos f).PlacedIn c fs)
    (hsources : sourcesOf c pos f (pos.key f) = (some primary, standIn))
    (hroot : f.type.root = .record target) :
    (Task.record pos ⟨target, origin, pos.path f⟩ f.type primary.place primary.place true).PlacedIn
      c fs := by
  have hprimary := (isLocal_sourcesOf h.1).1 primary (congrArg Prod.fst hsources)
  exact ⟨(h.path_field hnames).2, hroot, hprimary, hprimary⟩

theorem containerField (hnames : c.Names fs) (h : (Task.field pos f).PlacedIn c fs)
    (hsources : sourcesOf c pos f (pos.key f) = (some primary, standIn)) :
    (Task.container pos f.type.root
      ⟨f.name, pos.path f, .ofSource primary, standIn.map .ofSource⟩).PlacedIn c fs := by
  refine ⟨⟨_, (h.path_field hnames).2, rfl⟩,
    (isLocal_sourcesOf h.1).1 primary (congrArg Prod.fst hsources), ?_⟩
  intro x hx
  obtain ⟨source, hsource, rfl⟩ := Option.map_eq_some_iff.mp hx
  exact (isLocal_sourcesOf h.1).2 source ((congrArg Prod.snd hsources).trans hsource)

theorem unsourced (hnames : c.Names fs) (h : (Task.field pos f).PlacedIn c fs)
    (hrecord : f.type.record? = some ref) :
    (Task.fields (pos.unsourced (pos.path f)) (c.schema.fields ref)).PlacedIn c fs := by
  refine ⟨?_, fun g hg =>
    .inr ⟨_, _, (h.path_field hnames).2, FieldType.root_of_record hrecord, hg⟩⟩
  intro base gs hpos
  cases hpos

end Fields

section Records

variable {job : RecordJob} {type : FieldType} {tested base : Place} {inField : Bool}

theorem inline (h : (Task.record pos job type tested base inField).PlacedIn c fs) :
    (Task.fields (pos.inline c job base) (c.schema.fields job.target)).PlacedIn c fs := by
  obtain ⟨hleads, hroot, -, hbase⟩ := h
  refine ⟨?_, fun g hg => .inr ⟨_, _, hleads, hroot, hg⟩⟩
  intro base gs hpos
  cases hpos
  exact hbase

/-- The fields that a local function fills are found from the whole target on. -/
theorem inHelper (h : (Task.record pos job type tested base inField).PlacedIn c fs) :
    (Task.fields (pos.inHelper c job) (c.schema.fields job.target)).PlacedIn c fs := by
  obtain ⟨hleads, hroot, -, -⟩ := h
  refine ⟨?_, fun g hg => .inr ⟨_, _, ?_, hroot, hg⟩⟩
  · intro base gs hpos
    cases hpos
    rfl
  · show Leads c fs (pos.scope ++ job.path ++ []) type
    rwa [List.append_nil]

end Records

section Containers

variable {type : FieldType} {job : ContainerJob} {loop : Loop} {field : String} {slot : Slot}

theorem element (h : (Task.container pos type job).PlacedIn c fs) (hloop : loop.Converts c job type)
    (flag : Option Var) (n : Nat) :
    (Task.element pos job.field loop.element (loop.slot job flag n)).PlacedIn c fs := by
  obtain ⟨⟨t, hleads, ht⟩, hprimary, hstandIn⟩ := h
  refine ⟨?_, rfl, hprimary, fun x hx => ?_⟩
  · rw [Loop.slot, ← List.append_assoc]
    exact .step hleads (hloop.opens ht (n + 1))
  · show x.place.root.isLocal = true
    obtain ⟨y, type', hjob, -, rfl⟩ := Loop.exists_of_standIn_slot hx
    exact hstandIn y hjob

theorem recordElement {source : Operand} {target origin : RecordRef}
    (h : (Task.element pos field type slot).PlacedIn c fs) (hroot : type.root = .record target)
    (hsource : source = slot.primary ∨ slot.standIn = some source) :
    (Task.record pos ⟨target, origin, slot.path⟩ type (.ofVar slot.value) source.place
      false).PlacedIn c fs := by
  obtain ⟨hleads, hvalue, hprimary, hstandIn⟩ := h
  refine ⟨hleads, hroot, hvalue, ?_⟩
  rcases hsource with rfl | hsource
  · exact hprimary
  · exact hstandIn _ hsource

theorem containerElement (h : (Task.element pos field type slot).PlacedIn c fs) :
    (Task.container pos type.root (slot.job field)).PlacedIn c fs := by
  obtain ⟨hleads, hvalue, -, -⟩ := h
  exact ⟨⟨_, hleads, rfl⟩, hvalue, nofun⟩

end Containers

end Task.PlacedIn

/-- Outside of all local functions, the paths below `out` are those from the whole target on. -/
theorem Task.placed_iff {task : Task} :
    task.Placed c fs ↔ task.scope = [] ∧ task.PlacedIn c fs := by
  cases task with
  | fields pos _ | field pos _ | record pos _ _ _ _ _ | container pos _ _ | element pos _ _ _ =>
    refine and_congr_right fun hscope => ?_
    rw [PlacedIn, show pos.scope = [] from hscope, List.nil_append]

/-- What a conversion takes on is placed where it belongs. -/
theorem Visits.placed (hd : Direct c start fs) {task : Task} (h : Visits c start fs task) :
    task.Placed c fs := by
  refine Task.placed_iff.mpr ?_
  induction h with
  | start =>
    refine ⟨hd.scope, hd.isLocal, fun f hf => .inl ⟨?_, hf⟩⟩
    rw [hd.scope, hd.target]
    rfl
  | field _ ih => exact ⟨ih.1, ih.2.field⟩
  | rest _ ih => exact ⟨ih.1, ih.2.rest⟩
  | recordField _ hsources hroot horigin ih => exact ⟨ih.1, ih.2.recordField hd.names hsources hroot⟩
  | containerField _ hsources ih => exact ⟨ih.1, ih.2.containerField hd.names hsources⟩
  | unsourced _ _ hrecord ih => exact ⟨ih.1, ih.2.unsourced hd.names hrecord⟩
  | inline _ ih => exact ⟨ih.1, ih.2.inline⟩
  | element _ hloop flag n ih => exact ⟨ih.1, ih.2.element hloop flag n⟩
  | recordElement _ hroot hsource _ ih => exact ⟨ih.1, ih.2.recordElement hroot hsource⟩
  | containerElement _ ih => exact ⟨ih.1, ih.2.containerElement⟩

/-- A field that is taken on, with the path that it is found at. -/
theorem Visits.placed_field (hd : Direct c start fs) (h : Visits c start fs (.field pos f)) :
    pos.scope = [] ∧ pos.IsLocal ∧ pos.path f = pos.target ++ [.field (pascal f.name)] ∧
      Leads c fs (pos.path f) f.type := by
  obtain ⟨hscope, hlocal, hheld⟩ := h.placed hd
  have hpath : pos.path f = pos.target ++ [.field (pascal f.name)] :=
    Position.path_of_isPlainName (hheld.plain hd.names)
  exact ⟨hscope, hlocal, hpath, hpath ▸ hheld.leads⟩

/-- What lies above the path of a field are the record at the position and what lies above it. -/
theorem Visits.above_iff (hd : Direct c start fs) (h : Visits c start fs (.field pos f))
    (k : Path) : k.Above (pos.path f) ↔ k <+: pos.target := by
  rw [(h.placed_field hd).2.2.1, Path.Above.concat_iff]

/-- A record that is filled from a source, or an element, may be allocated by itself. -/
theorem Visits.owned {job : RecordJob} {type : FieldType} {tested base : Place} {inField : Bool}
    (h : Visits c start fs (.record pos job type tested base inField)) :
    Owned c start fs job.path := by
  cases h with
  | recordField h hsources hroot horigin =>
    exact .inl ⟨_, _, h, rfl, .inr (by rw [hsources]; rfl)⟩
  | recordElement h hroot hsource horigin => exact .inr ⟨_, _, _, _, h, rfl⟩

end Placing

end RecordBridge

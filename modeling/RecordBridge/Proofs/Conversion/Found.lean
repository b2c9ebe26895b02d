import Mathlib.Data.List.Induction
import RecordBridge.Proofs.Conversion.Following
import RecordBridge.Proofs.Conversion.LocalFunctions
import RecordBridge.Proofs.Conversion.Sources
import RecordBridge.Proofs.Conversion.Targets
import RecordBridge.Proofs.Execution.Reads

/-!
# Sources that are found

A place is found if nothing on the way to it is nil. `Task.Found` says what is known of the source
where a task starts: a record is filled from a place that was found set, and the elements of a loop
are those of the container that was chosen. With that, each piece of what is emitted finds its sources.
-/

namespace RecordBridge

open Code

/-! ## What is assumed of the sources -/

/-- A mapped source is a field of the whole source, or it is a leaf of a record in it and is mapped
to another path than its own. The assignment of such a leaf tests the records above it. -/
structure MappedField.Sheltered (m : MappedField) (key : String) : Prop where
  fields : ∃ (names : List String) (name : String), (∀ n ∈ names, IsIdentifier n) ∧
    IsIdentifier name ∧ m.path = names.map .field ++ [.field name]
  tested : m.path.length = 1 ∨ m.field.type.root.isLeaf = true ∧ m.path.bare ≠ key

/-- The names of fields are identifiers, and each mapped source can be reached or is tested for. -/
structure Settings.Sheltered (c : Settings) : Prop where
  fields : ∀ ref, Identified (c.schema.fields ref)
  mapped : ∀ entry ∈ c.mapped, entry.2.Sheltered entry.1

/-! ## What is known of the source -/

/-- A place can be reached, and is spelled with variables that have numbers up to `n`. -/
structure Place.Found (n : Nat) (σ : State) (p : Place) : Prop where
  reaches : σ.Reaches p
  isSource : p.IsSource n

/-- The whole source is there wherever mapped sources start from it. -/
def Settings.Whole (c : Settings) (σ : State) : Prop :=
  c.mapped ≠ [] → (σ.locals c.mappedRoot).isSet = true

/-- A record with a source is filled from one that is not nil. -/
def Position.Found (n : Nat) (σ : State) (pos : Position) : Prop :=
  ∀ base gs, pos.source = some (base, gs) → σ.IsSet base ∧ base.IsSource n ∧ Identified gs

/-- An element is the one at its index or key in the container that was chosen. Where it is not
known which one was chosen, elements are converted without looking at their containers. -/
def Slot.Chosen (c : Settings) (σ : State) (type : FieldType) (slot : Slot) : Prop :=
  match slot.selector with
  | none => choosesPerElement c type slot.primary.type = true →
    σ.read slot.primary.place = .ok (σ.locals slot.value)
  | some flag =>
    if (σ.locals flag).datum = .flag true then
      σ.read slot.primary.place = .ok (σ.locals slot.value)
    else ∀ x, slot.standIn = some x → σ.read x.place = .ok (σ.locals slot.value)

/-- What is known of the source at the start of a task. -/
def Task.Found (c : Settings) (n : Nat) (σ : State) : Task → Prop
  | .fields pos _ | .field pos _ => pos.Found n σ
  | .record _ job _ tested base _ => tested.Found n σ ∧ base.IsSource n ∧
    (c.needsHelper job.target job.source = false → σ.IsSet tested → σ.IsSet base)
  | .container _ _ job =>
    job.primary.place.Found n σ ∧ ∀ x, job.standIn = some x → x.place.Found n σ
  | .element _ _ type slot => (Place.ofVar slot.value).IsSource n ∧
    slot.primary.place.IsSource n ∧ (∀ x, slot.standIn = some x → x.place.IsSource n) ∧
      slot.Chosen c σ type

section Places

variable {c : Settings} {n m : Nat} {σ τ : State} {pos : Position} {p : Place} {f : Field}

theorem Place.Found.agree (h : p.Found n σ) (hagree : σ.Agree n τ) : p.Found n τ :=
  ⟨h.reaches.agree hagree h.isSource, h.isSource⟩

theorem Settings.Whole.agree (h : c.Whole σ) (hagree : σ.Agree n τ) : c.Whole τ := by
  intro hmapped
  rw [hagree _ (c.mappedRoot_spec.2 ▸ Nat.zero_le n)]
  exact h hmapped

theorem Position.Found.agree (h : pos.Found n σ) (hagree : σ.Agree n τ) : pos.Found n τ := by
  intro base gs hpos
  obtain ⟨hset, hsource, hnames⟩ := h base gs hpos
  exact ⟨hset.agree hagree hsource, hsource, hnames⟩

theorem Position.Found.mono (h : pos.Found n σ) (hle : n ≤ m) : pos.Found m σ := by
  intro base gs hpos
  obtain ⟨hset, hsource, hnames⟩ := h base gs hpos
  exact ⟨hset, hsource.mono hle, hnames⟩

theorem State.isSet_ofVar {v : Var} (hlocal : v.isLocal = true)
    (hset : (σ.locals v).isSet = true) : σ.IsSet (.ofVar v) :=
  ⟨σ.locals v, congrArg Except.ok (σ.value_of_isLocal hlocal), hset⟩

/-- A source is a field of a record that is set. -/
structure Source.Found (n : Nat) (σ : State) (x : Source) : Prop where
  place : x.place.Found n σ
  field : ∃ (base : Place) (name : String), IsIdentifier name ∧ x.place = base.select name

/-- A source is a leaf of a record in a variable that is set, and an assignment to a path is no copy
of it. -/
structure Source.Sheltered (n : Nat) (σ : State) (target : Path) (x : Source) : Prop where
  leaf : x.field.type.root.isLeaf = true
  root : σ.IsSet (.ofVar x.place.root)
  isSource : (Place.ofVar x.place.root).IsSource n
  fields : ∃ (names : List String) (name : String), (∀ m ∈ names, IsIdentifier m) ∧
    IsIdentifier name ∧ x.place = Place.select ⟨x.place.root, names.map .field⟩ name
  notCopy : x.place.root = .input → x.place.path.text ≠ target.text

/-- A source that is no leaf is found. -/
theorem Source.found_of_not_isLeaf {target : Path} {x : Source}
    (h : x.Found n σ ∨ x.Sheltered n σ target) (hleaf : x.field.type.root.isLeaf = false) :
    x.Found n σ := by
  refine h.resolve_right fun hsheltered => ?_
  rw [hsheltered.leaf] at hleaf
  cases hleaf

/-- What a container is converted from is no leaf. -/
theorem Emits.isLeaf_of_container {type : FieldType} {job : ContainerJob} {p q : Progress}
    {b : Code} (h : Emits c (.container pos type job) p b q) :
    job.primary.type.root.isLeaf = false ∧
      ∀ x, job.standIn = some x → x.type.root.isLeaf = false := by
  have hlist : ∀ {x : Operand} {t : FieldType}, x.listElements? = some t →
      x.type.root.isLeaf = false :=
    fun h => by rw [Operand.root_of_listElements h]; rfl
  have hset : ∀ {x : Operand} {t : FieldType × SetForm}, x.setElements? = some t →
      x.type.root.isLeaf = false :=
    fun h => by rw [Operand.root_of_setElements h]; rfl
  have hmap : ∀ {x : Operand} {t : FieldType}, x.mapValues? = some t →
      x.type.root.isLeaf = false := by
    intro x t h
    obtain ⟨key, hroot⟩ := Operand.exists_root_of_mapValues h
    rw [hroot]
    rfl
  -- What stands in is asked for the same shape as the primary source.
  cases h with
  | loop hloop =>
    cases hloop with
    | list hprimary hstandIn =>
      refine ⟨hlist hprimary, fun x hx => ?_⟩
      obtain ⟨_, hpart⟩ := exists_of_standInPart hstandIn x hx
      exact hlist hpart
    | set hprimary hstandIn =>
      refine ⟨hset hprimary, fun x hx => ?_⟩
      obtain ⟨_, hpart⟩ := exists_of_standInPart hstandIn x hx
      exact hset hpart
    | map _ _ hprimary hstandIn =>
      refine ⟨hmap hprimary, fun x hx => ?_⟩
      obtain ⟨_, hpart⟩ := exists_of_standInPart hstandIn x hx
      exact hmap hpart
  | keys hprimary hstandIn =>
    refine ⟨hset hprimary, fun x hx => ?_⟩
    obtain ⟨_, hpart⟩ := exists_of_standInPart hstandIn x hx
    exact hset hpart

/-- Both sources of a field are found, or are leaves that an assignment to the field tests for. -/
theorem Position.Found.sourcesOf (hc : c.Sheltered) (hwhole : c.Whole σ) (hpos : pos.Found n σ)
    (hscope : pos.scope ≠ [] → c.mappedRoot = .wholeInput) (f : Field) :
    (∀ x, (sourcesOf c pos f (pos.key f)).1 = some x →
      x.Found n σ ∨ x.Sheltered n σ (pos.path f)) ∧
    ∀ x, (RecordBridge.sourcesOf c pos f (pos.key f)).2 = some x →
      x.Found n σ ∨ x.Sheltered n σ (pos.path f) := by
  have hselect : ∀ {base : Place} {name : String} {x : Source}, σ.IsSet base → base.IsSource n →
      IsIdentifier name → x.place = base.select name → x.Found n σ := by
    intro base name x hset hsource hname hplace
    refine ⟨?_, base, name, hname, hplace⟩
    rw [hplace]
    exact ⟨hset.select hname, hsource.select hname⟩
  refine sourcesOf_forall (fun x hx => .inl ?_) fun m hm => ?_
  · obtain ⟨base, gs, hsource⟩ := exists_source_of_directSource hx
    obtain ⟨hset, hbase, hnames⟩ := hpos base gs hsource
    obtain ⟨hmem, -, hplace⟩ := directSource_some hsource hx
    exact hselect hset hbase (hnames _ hmem).pascal hplace
  · have hmem := Settings.mem_of_mapping? hm
    have hroot : c.mappedRoot.isLocal = true ∧ c.mappedRoot.number ≤ n :=
      ⟨c.mappedRoot_spec.1, c.mappedRoot_spec.2 ▸ Nat.zero_le n⟩
    have hset : σ.IsSet (.ofVar c.mappedRoot) :=
      State.isSet_ofVar hroot.1 (hwhole (List.ne_nil_of_mem hmem))
    obtain ⟨⟨names, name, hnames, hname, hpath⟩, htested⟩ := hc.mapped _ hmem
    have hplace : (⟨c.mappedRoot, m.path⟩ : Place) =
        Place.select ⟨c.mappedRoot, names.map .field⟩ name := by
      rw [Place.select, hname.select, hpath]
    rcases htested with hone | ⟨hleaf, hkey⟩
    · -- It is a field of the whole source.
      have hnil : names = [] := by
        rw [hpath, List.length_append, List.length_map] at hone
        exact List.length_eq_zero_iff.mp (Nat.succ.inj hone)
      subst hnil
      exact .inl (hselect hset (.ofVar hroot.1 hroot.2) hname hplace)
    · refine .inr ⟨hleaf, hset, .ofVar hroot.1 hroot.2, ⟨names, name, hnames, hname, hplace⟩, ?_⟩
      intro hinput htext
      have hnil : pos.scope = [] := by
        by_contra hne
        have hwhole' := hscope hne
        rw [show c.mappedRoot = .input from hinput] at hwhole'
        cases hwhole'
      refine hkey ?_
      rw [Position.key, hnil, List.nil_append, Path.bare, Path.bare, htext]

end Places

/-! ## Leaves -/

section Leaves

variable {c : Settings} {n : Nat} {σ : State} {order : Order}
  {call : Code → State → Except Fault State} {P : List LocalFunction → Prop} {a : Assignment}
  {base : Place} {name : String}

/-- The selections of a place end with the place itself, and lead there. -/
theorem Place.selections_select {p : Place} (hname : IsIdentifier name)
    (hplace : p = base.select name) :
    ∃ l, p.selections = l ++ [p] ∧ ∀ q ∈ l, q.root = p.root ∧ q.path <+: p.path := by
  obtain ⟨l, hl, hprefix⟩ := Path.selections_select hname.takesElement [] base.path
  have hpath : p.path = [] ++ base.path ++ [.field name] := by
    rw [hplace]
    exact hname.select _
  refine ⟨l.map fun path => ⟨p.root, path⟩, ?_, fun q hq => ?_⟩
  · rw [selections, hpath]
    show (Path.selections [] (base.path ++ [.field name])).map _ = _
    rw [hl, List.map_append, List.map_singleton, ← hpath]
  · obtain ⟨path, hmem, rfl⟩ := List.mem_map.mp hq
    obtain ⟨s, rest, hrest⟩ := hprefix path hmem
    refine ⟨rfl, s :: rest, ?_⟩
    rw [hpath, hrest]

/-- What an assignment tests lies on the way to its source. -/
theorem Assignment.above_of_tested (hname : IsIdentifier name)
    (hplace : a.source = base.select name) {p : Place} (hp : p ∈ a.tested) :
    p.root = a.source.root ∧ p.path <+: a.source.path := by
  obtain ⟨l, hl, habove⟩ := Place.selections_select hname hplace
  have hself : ∀ q ∈ a.source.selections, q.root = a.source.root ∧ q.path <+: a.source.path := by
    intro q hq
    rw [hl] at hq
    rcases List.mem_append.mp hq with hq | hq
    · exact habove q hq
    · rw [List.mem_singleton.mp hq]
      exact ⟨rfl, List.prefix_rfl⟩
  rw [tested] at hp
  split at hp
  · split at hp
    · rw [List.mem_singleton.mp hp]
      exact ⟨rfl, List.prefix_rfl⟩
    · cases hp
  · split at hp
    · exact hself p hp
    · exact hself p (List.dropLast_subset _ hp)

/-- An assignment that needs its source tests it. -/
theorem Assignment.source_mem_tested (hname : IsIdentifier name)
    (hplace : a.source = base.select name) (hneeds : a.needsSource = true) :
    a.source ∈ a.tested := by
  obtain ⟨l, hl, -⟩ := Place.selections_select hname hplace
  rw [tested, hneeds, Bool.or_true, if_pos rfl, if_pos rfl]
  split
  · exact List.mem_singleton_self _
  · rw [hl]
    exact List.mem_append_right _ (List.mem_singleton_self _)

theorem leafCast_eq (f : Field) (type : GoType) (sourceRequired : Bool) :
    leafCast f type sourceRequired = .bytes type ∨
      leafCast f type sourceRequired = .forPresence type sourceRequired f.required := by
  unfold leafCast
  cases f.type.root <;> simp

/-- Only an assignment that needs its source reads through a pointer. -/
theorem needsSource_of_load {pos : Position} {f : Field} {type : GoType} {source : Source}
    {onlyIfSet : Bool} (h : (leafAssignment pos f type source onlyIfSet).cast = .load) :
    (leafAssignment pos f type source onlyIfSet).needsSource = true := by
  change leafCast f type source.field.required = .load at h
  show (!source.field.required && f.required &&
    !(leafCast f type source.field.required).acceptsAbsent) = true
  rcases leafCast_eq f type source.field.required with hcast | hcast
  · rw [hcast] at h
    cases h
  · rw [h]
    rw [hcast] at h
    cases hsource : source.field.required <;> cases htarget : f.required <;>
      simp_all [Cast.forPresence, Cast.acceptsAbsent]

/-- An assignment that reaches its source where what it tests is set. -/
theorem Clean.assignment {d : Deferred} {scope : Path} (hP : P σ.functions)
    (hsource : a.source.IsSource n) (htest : FindsSources (σ.allSet a.tested))
    (hreach : σ.allSet a.tested = .ok true → σ.Reaches a.source)
    (hload : a.cast = .load → a.source ∈ a.tested) :
    Clean n P σ (exec order call (a.code (d.guards scope a.target)) σ) := by
  have hwrite : σ.allSet a.tested = .ok true → Clean n P σ (exec order call
      (d.guards scope a.target ++
        .step (.assign ⟨.output, a.target⟩ (.convert a.cast a.source)) .done) σ) := by
    intro hset
    refine (Clean.guards d scope a.target hP).append fun υ _ hυ hPυ => ?_
    refine Clean.write ⟨(hreach hset).agree hυ hsource, fun hcast => ?_⟩ hPυ fun ρ _ hPρ =>
      Clean.ok .refl hPρ
    exact (State.isSet_of_allSet hset _ (hload hcast)).agree hυ hsource
  rw [Assignment.code]
  split
  · exact Clean.test rfl htest hP hwrite fun τ _ hPτ => Clean.ok .refl hPτ
  · rename_i htested
    refine hwrite ?_
    cases hnil : a.tested with
    | nil => rfl
    | cons p l => simp [Assignment.isTested, hnil] at htested

/-! ### Fields on the way -/

section Selections

variable {root : Var} {names : List String}

/-- If all fields on the way are set, what they lead to is set. -/
theorem State.isSet_of_selections (hnames : ∀ m ∈ names, IsIdentifier m)
    (hroot : σ.IsSet (.ofVar root))
    (h : σ.allSet (Place.selections ⟨root, names.map .field⟩) = .ok true) :
    σ.IsSet ⟨root, names.map .field⟩ := by
  rcases List.eq_nil_or_concat names with rfl | ⟨before, name, rfl⟩
  · exact hroot
  · rw [List.concat_eq_append] at h hnames ⊢
    have hname := hnames name (List.mem_append_right _ (List.mem_singleton_self _))
    have hlast := Place.selections_concat root
      (fun m hm => hnames m (List.mem_append_left _ hm)) hname
    rw [Place.select, hname.select] at hlast
    rw [List.map_append, List.map_singleton] at h ⊢
    rw [hlast] at h
    exact isSet_of_allSet h _ (List.mem_append_right _ (List.mem_singleton_self _))

/-- Fields are tested one by one, each if those before it are set. -/
theorem State.findsSources_selections (hnames : ∀ m ∈ names, IsIdentifier m)
    (hroot : σ.IsSet (.ofVar root)) :
    FindsSources (σ.allSet (Place.selections ⟨root, names.map .field⟩)) := by
  induction names using List.reverseRecOn with
  | nil => exact .ok true
  | append_singleton names name ih =>
    have hbefore : ∀ m ∈ names, IsIdentifier m := fun m hm => hnames m (List.mem_append_left _ hm)
    have hname := hnames name (List.mem_append_right _ (List.mem_singleton_self _))
    have hlast := Place.selections_concat root hbefore hname
    have hpath : Place.select ⟨root, names.map .field⟩ name =
        ⟨root, (names ++ [name]).map .field⟩ := by
      rw [Place.select, hname.select, List.map_append, List.map_singleton]
    rw [hpath] at hlast
    rw [hlast, ← hpath]
    exact findsSources_allSet_concat (ih hbefore) fun h =>
      (isSet_of_selections hbefore hroot h).select hname

end Selections

/-! ### Sources of leaves -/

section Assignments

variable {pos : Position} {f : Field} {type : GoType} {x : Source} {onlyIfSet : Bool}

/-- An assignment of a source that is found. -/
theorem Source.Found.reaches (h : x.Found n σ) :
    FindsSources (σ.allSet (leafAssignment pos f type x onlyIfSet).tested) := by
  obtain ⟨base, name, hname, hplace⟩ := h.field
  refine State.findsSources_allSet fun p hp => ?_
  obtain ⟨hroot, hpath⟩ := Assignment.above_of_tested (a := leafAssignment pos f type x onlyIfSet)
    hname hplace hp
  exact h.place.reaches.above hroot hpath

/-- An assignment of a source in a record tests the records above it, and then reaches it. -/
theorem Source.Sheltered.reaches (h : x.Sheltered n σ (pos.path f)) (type : GoType)
    (onlyIfSet : Bool) :
    FindsSources (σ.allSet (leafAssignment pos f type x onlyIfSet).tested) ∧
      (σ.allSet (leafAssignment pos f type x onlyIfSet).tested = .ok true → σ.Reaches x.place) := by
  obtain ⟨names, name, hnames, hname, hplace⟩ := h.fields
  have hcopy : (leafAssignment pos f type x onlyIfSet).isCopy = false := by
    rw [Assignment.isCopy, Bool.and_eq_false_iff]
    by_cases hinput : x.place.root = .input
    · exact .inr (decide_eq_false (h.notCopy hinput))
    · exact .inl (decide_eq_false hinput)
  have habove := State.findsSources_selections hnames h.root
  have hreach : σ.allSet (Place.selections ⟨x.place.root, names.map .field⟩) = .ok true →
      σ.Reaches x.place := by
    intro hset
    rw [hplace]
    exact (State.isSet_of_selections hnames h.root hset).select hname
  -- All records above the leaf are tested, and the leaf itself where a load needs it.
  have hselections : x.place.selections =
      Place.selections ⟨x.place.root, names.map .field⟩ ++ [x.place] := by
    have hlast := Place.selections_concat x.place.root hnames hname
    rwa [← hplace] at hlast
  rw [Assignment.tested, hcopy, if_neg Bool.false_ne_true]
  show FindsSources (σ.allSet (if _ then x.place.selections else x.place.selections.dropLast)) ∧
    (σ.allSet (if _ then x.place.selections else x.place.selections.dropLast) = _ → _)
  rw [hselections, List.dropLast_concat]
  split
  · refine ⟨State.findsSources_allSet_concat habove hreach, fun hset => ?_⟩
    exact (State.isSet_of_allSet hset _
      (List.mem_append_right _ (List.mem_singleton_self _))).reaches
  · exact ⟨habove, hreach⟩

/-- A leaf whose sources are found, or are tested for. -/
theorem Clean.leafCode {d : Deferred} {primary : Source} {standIn : Option Source}
    (hP : P σ.functions) (hprimary : primary.Found n σ ∨ primary.Sheltered n σ (pos.path f))
    (hstandIn : ∀ x, standIn = some x → x.Found n σ ∨ x.Sheltered n σ (pos.path f)) :
    Clean n P σ (exec order call
      (leafCode (d.guards pos.scope (pos.path f)) pos f type primary standIn) σ) := by
  -- One assignment, at any state that agrees on what the sources are read from.
  have hassignment : ∀ {x : Source} {onlyIfSet : Bool} {τ : State}, P τ.functions → σ.Agree n τ →
      x.Found n σ ∨ x.Sheltered n σ (pos.path f) → Clean n P τ (exec order call
        ((leafAssignment pos f type x onlyIfSet).code (d.guards pos.scope (pos.path f))) τ) := by
    intro x onlyIfSet τ hPτ hτ hx
    rcases hx with hx | hx
    · obtain ⟨base, name, hname, hplace⟩ := hx.field
      have hx' : x.Found n τ := ⟨hx.place.agree hτ, hx.field⟩
      exact Clean.assignment (a := leafAssignment pos f type x onlyIfSet) hPτ hx'.place.isSource
        hx'.reaches (fun _ => hx'.place.reaches)
        fun hload => Assignment.source_mem_tested hname hplace (needsSource_of_load hload)
    · -- A sheltered source may be beneath a nil record, but its own tests come first.
      obtain ⟨names, name, hnames, hname, hplace⟩ := hx.fields
      have hx' : x.Sheltered n τ (pos.path f) :=
        ⟨hx.leaf, hx.root.agree hτ hx.isSource, hx.isSource, hx.fields, hx.notCopy⟩
      have hsource : x.place.IsSource n := by
        rw [hplace]
        exact Place.IsSource.select ⟨hx.isSource.isLocal, hx.isSource.root, .fields names⟩ hname
      obtain ⟨htest, hreach⟩ := hx'.reaches type onlyIfSet
      exact Clean.assignment (a := leafAssignment pos f type x onlyIfSet) hPτ hsource htest hreach
        fun hload => Assignment.source_mem_tested hname hplace (needsSource_of_load hload)
  cases standIn with
  | none => exact hassignment hP .refl hprimary
  | some x =>
    refine (hassignment hP .refl (hstandIn x rfl)).append fun τ _ hτ hPτ => ?_
    exact hassignment hPτ hτ hprimary

end Assignments

end Leaves

/-! ## Local functions -/

/-- Local functions whose bodies are emitted for records, defined where the whole source is in
reach. -/
inductive Emitted (c : Settings) : List LocalFunction → Prop where
  | nil : Emitted c []
  | cons {f : LocalFunction} {visible : List LocalFunction} {pos : Position} {job : RecordJob}
      {p q : Progress} {b : Code} {go : GoType}
      (hneeds : c.needsHelper job.target job.source = true)
      (hemits : Emits c (.fields (pos.inHelper c job) (c.schema.fields job.target)) p b q)
      (hbody : f.body = helperBlock go b)
      (hwhole : c.mapped ≠ [] → (f.locals c.mappedRoot).isSet = true)
      (hvisible : Emitted c visible) : Emitted c (f :: visible)

/-- Calls of such functions find their sources. -/
def CallsFind (c : Settings) (call : Code → State → Except Fault State) : Prop :=
  ∀ (f : LocalFunction) (visible : List LocalFunction), Emitted c (f :: visible) →
    ∀ τ : State, τ.functions = f :: visible →
      (∃ x, τ.locals = Function.update f.locals .input x) → FindsSources (call f.body τ)

theorem Emitted.suffix {c : Settings} {fs gs : List LocalFunction} (h : Emitted c fs)
    (hsuffix : gs <:+ fs) : Emitted c gs := by
  induction h with
  | nil =>
    rw [List.suffix_nil.mp hsuffix]
    exact .nil
  | cons hneeds hemits hbody hwhole hvisible ih =>
    rcases List.suffix_cons_iff.mp hsuffix with rfl | hsuffix
    · exact .cons hneeds hemits hbody hwhole hvisible
    · exact ih hsuffix

/-! ## The rules -/

section Rules

variable {c : Settings} {order : Order} {call : Code → State → Except Fault State} {n : Nat}
  {σ : State} {d : Deferred} {scope path : Path} {tested : Place} {body rest : Code}

/-- A call of a local function, after guards. -/
theorem Clean.callCode (hcall : CallsFind c call) (hfunctions : Emitted c σ.functions)
    (htested : tested.Found n σ) {p : Progress} {pos : Position} {inField : Bool} {helper : Var} :
    Clean n (Emitted c) σ
      (exec order call (callCode (guardsAbove p pos path inField) path helper tested) σ) := by
  have hguards : Clean n (Emitted c) σ (exec order call (guardsAbove p pos path inField) σ) := by
    cases inField with
    | false => exact .ok .refl hfunctions
    | true => exact .guards _ _ _ hfunctions
  refine hguards.append fun τ _ hτ hemitted => ?_
  refine Clean.write ?_ hemitted fun ρ _ hρ => .ok .refl hρ
  refine ⟨(htested.agree hτ).reaches, fun argument f visible hscope => ?_⟩
  have hsuffix : f :: visible <:+ τ.functions := by
    rw [← hscope]
    exact List.dropWhile_suffix _
  exact hcall f visible (hemitted.suffix hsuffix) _ rfl ⟨argument, rfl⟩

/-- A record that is converted in place is filled where its source is set. -/
theorem Clean.inlineCode {P : List LocalFunction → Prop} (hP : P σ.functions)
    (htested : tested.Found n σ) {go : GoType}
    (hbody : ∀ τ, σ.Agree n τ → σ.IsSet tested → P τ.functions →
      Clean n P τ (exec order call body τ)) :
    Clean n P σ (exec order call (inlineCode (d.guards scope path) path go tested body) σ) := by
  have htest : FindsSources ((Head.ifSet [tested]).test σ) :=
    State.findsSources_allSet fun p hp => by
      rw [List.mem_singleton.mp hp]
      exact htested.reaches
  have hfilled : (Head.ifSet [tested]).test σ = .ok true → Clean n P σ (exec order call
      (d.guards scope path ++ .step (.assign ⟨.output, path⟩ (.newRecord go)) body) σ) := by
    intro hholds
    have hset := State.isSet_of_allSet hholds tested (List.mem_singleton_self _)
    refine (Clean.guards d scope path hP).append fun τ _ hτ hPτ => ?_
    exact Clean.write trivial hPτ fun υ hυ hPυ =>
      hbody υ (hτ.trans hυ (Nat.le_refl n)) hset hPυ
  rw [RecordBridge.inlineCode]
  split
  · refine Clean.fork htest hP hfilled (fun _ => ?_) fun τ _ hPτ => .ok .refl hPτ
    exact Clean.write trivial hP fun τ _ hPτ => .ok .refl hPτ
  · exact Clean.test rfl htest hP hfilled fun τ _ hPτ => .ok .refl hPτ

end Rules

/-! ## Choosing a container -/

namespace Selection

variable {n : Nat} {primary : Place} {standIn : Option Place} {flagged : Bool} {σ τ : State}
  {order : Order} {call : Code → State → Except Fault State} {P : List LocalFunction → Prop}

/-- The choice reads nothing but the sources to choose from. -/
theorem clean_code (hP : P σ.functions) (hprimary : primary.Found n σ)
    (hstandIn : ∀ x, standIn = some x → x.Found n σ) :
    Clean n P σ (exec order call (Selection.of n primary standIn flagged).code σ) := by
  have htest : ∀ {τ : State}, σ.Agree n τ → FindsSources ((Head.ifSet [primary]).test τ) :=
    fun hτ => State.findsSources_allSet fun p hp => by
      rw [List.mem_singleton.mp hp]
      exact (hprimary.agree hτ).reaches
  -- Both places were found before, and the variables set in between are newer.
  have htake : ∀ {τ : State}, σ.Agree n τ → P τ.functions → Clean n P τ
      ((Statement.assign (.ofVar (.sourceList (n + 1))) (.read primary)).exec call τ) :=
    fun hτ hPτ => .setVar rfl (Nat.lt_succ_self n) (hprimary.agree hτ).reaches hPτ
  cases standIn with
  | none => exact .ok .refl hP
  | some x =>
    have hdefine : Clean n P σ
        ((Statement.define (.sourceList (n + 1)) (.read x)).exec call σ) :=
      .setVar rfl (Nat.lt_succ_self n) (hstandIn x rfl).reaches hP
    cases flagged with
    | false =>
      refine hdefine.step fun τ hτ hPτ => ?_
      refine Clean.test rfl (htest hτ) hPτ (fun _ => ?_) fun υ _ hPυ => .ok .refl hPυ
      exact (htake hτ hPτ).step fun υ _ hPυ => .ok .refl hPυ
    | true =>
      have hflag : ∀ {on : Bool} {τ : State}, P τ.functions → Clean n P τ
          ((Expr.flag on).eval call τ >>= fun r => .ok (r.2.set (.overridden (n + 2)) r.1)) :=
        fun hPτ => .setVar rfl (Nat.lt_add_of_pos_right Nat.two_pos) trivial hPτ
      refine hdefine.step fun τ hτ hPτ => ?_
      refine Clean.step (hflag hPτ) fun υ hυ hPυ => ?_
      have hagree := hτ.trans hυ (Nat.le_refl n)
      refine Clean.test rfl (htest hagree) hPυ (fun _ => ?_) fun ρ _ hPρ => .ok .refl hPρ
      refine (htake hagree hPυ).step fun ρ _ hPρ => ?_
      exact Clean.step (hflag hPρ) fun ξ _ hPξ => .ok .refl hPξ

/-- What is known of the container `v` that was chosen. Without a flag, it is the primary one if
there is no other. -/
def Chose (σ : State) (primary : Place) (standIn : Option Place) (v : GoValue) : Option Var → Prop
  | none => standIn = none → σ.read primary = .ok v
  | some flag =>
    if (σ.locals flag).datum = .flag true then σ.read primary = .ok v
    else ∀ x, standIn = some x → σ.read x = .ok v

/-- The variables after a choice with a flag. -/
theorem locals_of_exec {x : Place} (hprimary : primary.IsSource n)
    (h : exec order call (Selection.of n primary (some x) true).code σ = .ok τ) :
    σ.Agree n τ ∧ ∃ on, τ.locals (.overridden (n + 2)) = .plain (.flag on) ∧
      σ.read (if on then primary else x) = .ok (τ.locals (.sourceList (n + 1))) := by
  obtain ⟨σ₁, hdefine, h⟩ := bind_eq_ok h
  obtain ⟨⟨u, ρ⟩, heval, hσ₁⟩ := bind_eq_ok hdefine
  obtain ⟨u', hread, hu⟩ := bind_eq_ok heval
  cases hu
  cases hσ₁
  obtain ⟨σ₂, hflag, h⟩ := bind_eq_ok h
  cases hflag
  -- The statements set two variables, in the order list and flag; each is read back after both.
  have hlist : ∀ (w : GoValue) (on : Bool) (ρ : State),
      ((ρ.set (.sourceList (n + 1)) w).set (.overridden (n + 2)) (.plain (.flag on))).locals
        (.sourceList (n + 1)) = w := by
    intro w on ρ
    have hne : Var.sourceList (n + 1) ≠ .overridden (n + 2) := nofun
    rw [State.locals_set_of_ne hne, State.locals_set_self rfl]
  have hflag : ∀ (w : GoValue) (on : Bool) (ρ : State),
      ((ρ.set (.sourceList (n + 1)) w).set (.overridden (n + 2)) (.plain (.flag on))).locals
        (.overridden (n + 2)) = .plain (.flag on) :=
    fun w on ρ => State.locals_set_self rfl _
  have hagree : ∀ (w : GoValue) (on : Bool) (ρ : State), ρ.Agree n
      ((ρ.set (.sourceList (n + 1)) w).set (.overridden (n + 2)) (.plain (.flag on))) :=
    fun w on ρ => (State.agree_set (Nat.lt_succ_self n) w).trans
      (State.agree_set (Nat.lt_add_of_pos_right Nat.two_pos) _) (Nat.le_refl n)
  rw [exec_test rfl] at h
  obtain ⟨holds, -, h⟩ := bind_eq_ok h
  obtain ⟨σ₃, hblock, h⟩ := bind_eq_ok h
  cases h
  -- The list is that of the stand-in, unless the test took the primary source and raised the flag.
  cases holds with
  | false =>
    cases hblock
    refine ⟨hagree u false σ, false, hflag u false σ, hread.trans ?_⟩
    exact congrArg Except.ok (hlist u false σ).symm
  | true =>
    obtain ⟨σ₄, htake, hblock⟩ := bind_eq_ok hblock
    obtain ⟨⟨w, ρ⟩, heval, hσ₄⟩ := bind_eq_ok htake
    obtain ⟨w', hread', hw⟩ := bind_eq_ok heval
    cases hw
    cases hσ₄
    cases hblock
    rw [(hagree u false σ).read hprimary] at hread'
    refine ⟨(hagree u false σ).trans (hagree w true _) (Nat.le_refl n), true, hflag w true _,
      hread'.trans ?_⟩
    exact congrArg Except.ok (hlist w true _).symm

/-- The flag tells which container was chosen. -/
theorem chose_of_exec (hprimary : primary.IsSource n)
    (hstandIn : ∀ x, standIn = some x → x.IsSource n)
    (h : exec order call (Selection.of n primary standIn flagged).code σ = .ok τ) {v : GoValue}
    (hv : τ.read (Selection.of n primary standIn flagged).source = .ok v) :
    Chose τ primary standIn v (Selection.of n primary standIn flagged).flag := by
  cases standIn with
  | none => exact fun _ => hv
  | some x =>
    -- Only a flag tells at run time which of the two was chosen.
    cases flagged with
    | false => exact nofun
    | true =>
      obtain ⟨hagree, on, hflag, hread⟩ := locals_of_exec hprimary h
      have hlist : τ.locals (.sourceList (n + 1)) = v := Except.ok.inj hv
      show if (τ.locals (.overridden (n + 2))).datum = .flag true then _ else _
      rw [hflag]
      rw [hlist] at hread
      cases on with
      | true => exact (hagree.read hprimary).trans hread
      | false =>
        intro y hy
        cases hy
        exact (hagree.read (hstandIn x rfl)).trans hread

/-- The container that is chosen can be reached after the choice. -/
theorem found_source (standIn : Option Place) (flagged : Bool) (hprimary : primary.Found n τ) :
    (Selection.of n primary standIn flagged).source.Found
      (Selection.of n primary standIn flagged).counter τ := by
  cases standIn with
  | none => exact hprimary
  | some x =>
    cases flagged with
    | false => exact ⟨.of_read rfl, .ofVar rfl (Nat.le_refl _)⟩
    | true => exact ⟨.of_read rfl, .ofVar rfl (Nat.le_succ _)⟩

/-- Where there is a flag, its number was given out with the choice. -/
theorem number_flag_le {flag : Var}
    (h : (Selection.of n primary standIn flagged).flag = some flag) :
    flag.number ≤ (Selection.of n primary standIn flagged).counter := by
  cases standIn with
  | none => cases h
  | some x =>
    cases flagged with
    | false => cases h
    | true =>
      cases h
      exact Nat.le_refl _

theorem Chose.agree {m : Nat} {v : GoValue} {flag : Option Var} (h : Chose σ primary standIn v flag)
    (hagree : σ.Agree m τ) (hprimary : primary.IsSource m)
    (hstandIn : ∀ x, standIn = some x → x.IsSource m)
    (hflag : ∀ w, flag = some w → w.number ≤ m) : Chose τ primary standIn v flag := by
  cases flag with
  | none => exact fun hnone => (hagree.read hprimary).trans (h hnone)
  | some w =>
    change if (σ.locals w).datum = .flag true then _ else _ at h
    show if (τ.locals w).datum = .flag true then _ else _
    rw [hagree w (hflag w rfl)]
    split
    · rename_i hon
      rw [if_pos hon] at h
      exact (hagree.read hprimary).trans h
    · rename_i hoff
      rw [if_neg hoff] at h
      exact fun x hx => (hagree.read (hstandIn x hx)).trans (h x hx)

end Selection

/-! ## Loops -/

/-- A loop walks through the elements at the indices or keys of its container. -/
theorem GoValue.read_of_mem_entries {order : Order} (horder : ∀ n keys, (order n keys).Perm keys)
    {v : GoValue} {n : Nat} {entries : List (Datum × GoValue)} (h : v.entries order n = .ok entries)
    (root : Var) : ∀ e ∈ entries, (Access.element e.1).read root v = .ok e.2 := by
  cases v with
  | absent =>
    cases h
    exact nofun
  | list length item =>
    cases h
    intro e he
    obtain ⟨i, hi, rfl⟩ := List.mem_map.mp he
    rw [Access.read_item, if_pos (List.mem_range.mp hi)]
  | table keys entry =>
    cases h
    intro e he
    obtain ⟨k, hk, rfl⟩ := List.mem_map.mp he
    rw [Access.read_entry, if_pos ((horder n keys).mem_iff.mp hk)]
  | _ => cases h

section Loops

variable {c : Settings} {order : Order} {call : Code → State → Except Fault State} {n : Nat}
  {σ τ : State} {d : Deferred} {scope : Path} {body : Code} {job : ContainerJob} {type : FieldType}
  {loop : Loop} {chosen : Selection}

/-- The variables of a loop are bound without a change to those before them. -/
theorem State.agree_bind {m : Nat} {position value : Var} {e : Datum × GoValue} {source : Place}
    (hlt : m < position.number) (hlt' : m < value.number) :
    σ.Agree m ((Head.each position value source).bind σ e) :=
  (agree_set hlt _).trans (agree_set hlt' _) (Nat.le_refl m)

/-- An element of a container, once the index or key and the value are bound. -/
theorem State.read_element {m : Nat} {p : Place} {v : GoValue} {position value : Var}
    {e : Datum × GoValue} {source : Place} (hp : p.IsSource m) (hread : σ.read p = .ok v)
    (hposition : position.isLocal = true) (hlt : m < position.number) (hlt' : m < value.number)
    (hne : position ≠ value) :
    ((Head.each position value source).bind σ e).read (p.element position) =
      (Access.element e.1).read p.root v := by
  have hagree : σ.Agree m ((Head.each position value source).bind σ e) := agree_bind hlt hlt'
  have hkey : ((Head.each position value source).bind σ e).locals position = .plain e.1 := by
    show ((σ.set position (.plain e.1)).set value e.2).locals position = _
    rw [locals_set_of_ne hne, locals_set_self hposition]
  have hread' := (hagree.read hp).trans hread
  show (((Head.each position value source).bind σ e).value p.root).get p.root
    ((p.path ++ [Step.index position]).map _) = _
  rw [List.map_append, GoValue.get_append hread', List.map_singleton]
  show v.get p.root
    [.element (((Head.each position value source).bind σ e).locals position).datum] = _
  rw [hkey]
  show ((Access.element e.1).read p.root v >>= fun x => Except.ok x) = _
  cases (Access.element e.1).read p.root v <;> rfl

/-- An element is the one in the container that was chosen. -/
theorem Loop.Converts.slot_chosen (hloop : loop.Converts c job type) {m : Nat} {v : GoValue}
    {source : Place} {e : Datum × GoValue} (hprimary : job.primary.place.IsSource m)
    (hstandIn : ∀ x, job.standIn = some x → x.place.IsSource m)
    (hflag : ∀ w, (loop.selection c job n).flag = some w → w.number ≤ m)
    (hchose : Selection.Chose σ job.primary.place (job.standIn.map (·.place)) v
      (loop.selection c job n).flag)
    (hread : ∀ root, (Access.element e.1).read root v = .ok e.2) :
    (loop.slot job (loop.selection c job n).flag m).Chosen c
      ((Head.each (loop.position (m + 1)) (.value (m + 2)) source).bind σ e) loop.element := by
  obtain ⟨hlocal, hnumber, hne⟩ := hloop.position_spec (m + 1) (m + 2)
  have hlt : m < (loop.position (m + 1)).number := by rw [hnumber]; exact Nat.lt_succ_self m
  have hlt' : m < (Var.value (m + 2)).number := Nat.lt_add_of_pos_right Nat.two_pos
  have hvalue : ((Head.each (loop.position (m + 1)) (.value (m + 2)) source).bind σ e).locals
      (.value (m + 2)) = e.2 :=
    State.locals_set_self (σ := σ.set (loop.position (m + 1)) (.plain e.1))
      (v := .value (m + 2)) rfl e.2
  -- The element of the container that the loop runs over is what its value holds.
  have helement : ∀ {p : Place}, p.IsSource m → σ.read p = .ok v →
      ((Head.each (loop.position (m + 1)) (.value (m + 2)) source).bind σ e).read
        (p.element (loop.position (m + 1))) = .ok
          (((Head.each (loop.position (m + 1)) (.value (m + 2)) source).bind σ e).locals
            (.value (m + 2))) := by
    intro p hp hpv
    rw [hvalue, State.read_element hp hpv hlocal hlt hlt' hne]
    exact hread p.root
  have hagree : σ.Agree m ((Head.each (loop.position (m + 1)) (.value (m + 2)) source).bind σ e) :=
    State.agree_bind hlt hlt'
  cases hsome : (loop.selection c job n).flag with
  | none =>
    intro hchooses
    -- Records choose per element; without a flag there was nothing to choose from.
    have hone : job.standIn.map (·.place) = none := by
      cases hjob : job.standIn with
      | none => rfl
      | some y =>
        change choosesPerElement c loop.element loop.primary = true at hchooses
        rw [Loop.selection, hjob, hchooses] at hsome
        cases hsome
    rw [hsome] at hchose
    exact helement hprimary (hchose hone)
  | some w =>
    rw [hsome] at hchose
    show if
      (((Head.each (loop.position (m + 1)) (.value (m + 2)) source).bind σ e).locals w).datum =
      .flag true then _ else _
    rw [hagree w (hflag w hsome)]
    change if (σ.locals w).datum = .flag true then _ else _ at hchose
    split
    · rename_i hon
      rw [if_pos hon] at hchose
      exact helement hprimary hchose
    · rename_i hoff
      rw [if_neg hoff] at hchose
      intro x hx
      obtain ⟨y, t, hjob, -, rfl⟩ := Loop.exists_of_standIn_slot hx
      exact helement (hstandIn y hjob) (hchose _ (by rw [hjob]; rfl))

/-- A container that is made for the one that is chosen, and filled by a loop over that one. -/
theorem Clean.container {P : List LocalFunction → Prop} {e : Expr} {head : Head} {path : Path}
    {flagged : Bool} {primary : Place} {standIn : Option Place} (hP : P σ.functions)
    (hprimary : primary.Found n σ) (hstandIn : ∀ x, standIn = some x → x.Found n σ)
    (hchosen : chosen = .of n primary standIn flagged)
    (he : ∀ τ, τ.Reaches chosen.source → e.Reads call τ) (hhead : head.source? = some chosen.source)
    (hbody : ∀ τ v k entries, Selection.Chose τ primary standIn v chosen.flag →
      v.entries order k = .ok entries → σ.Agree n τ → P τ.functions → ∀ e ∈ entries,
        Clean chosen.counter P τ (exec order call body (head.bind τ e))) :
    Clean n P σ (exec order call (chosen.code ++ (d.guards scope path ++
      .step (.assign ⟨.output, path⟩ e) (.nest head body .done))) σ) := by
  subst hchosen
  have hle := Selection.le_counter n primary standIn flagged
  refine (Selection.clean_code hP hprimary hstandIn).append fun τ hexec hτ hPτ => .mono ?_ hle
  have hsource := Selection.found_source standIn flagged (hprimary.agree hτ)
  refine (Clean.guards d scope path hPτ).append fun τ₁ _ hτ₁ hP₁ => ?_
  refine Clean.write (he τ₁ (hsource.agree hτ₁).reaches) hP₁ fun τ₂ hτ₂ hP₂ => ?_
  have hτ₁₂ := hτ₁.trans hτ₂ (Nat.le_refl _)
  refine Clean.loop hhead (hsource.agree hτ₁₂).reaches hP₂
    (fun v entries hv hentries ρ hρ hPρ => ?_) fun τ₃ _ hP₃ => .ok .refl hP₃
  -- The container that was chosen is still the one that the loop runs over.
  have hfinal := hτ₁₂.trans hρ (Nat.le_refl _)
  have hv' : τ.read (Selection.of n primary standIn flagged).source = .ok v :=
    (hτ₁₂.read hsource.isSource).symm.trans hv
  have hchose := Selection.chose_of_exec hprimary.isSource (fun x hx => (hstandIn x hx).isSource)
    hexec hv'
  refine hbody ρ v _ entries ?_ hentries (hτ.trans hfinal hle) hPρ
  exact hchose.agree hfinal (hprimary.isSource.mono hle)
    (fun x hx => (hstandIn x hx).isSource.mono hle) fun w hw => Selection.number_flag_le hw

/-- A loop over a container that is found converts elements that are found. -/
theorem Clean.loopCode {P : List LocalFunction → Prop} {pos : Position}
    (horder : ∀ n keys, (order n keys).Perm keys) (hloop : loop.Converts c job type)
    (hP : P σ.functions) (hfound : (Task.container pos type job).Found c n σ)
    (hchosen : chosen = loop.selection c job n)
    (hbody : ∀ τ, σ.Agree n τ → P τ.functions →
      (Task.element pos job.field loop.element (loop.slot job chosen.flag chosen.counter)).Found c
        (chosen.counter + 2) τ → Clean (chosen.counter + 2) P τ (exec order call body τ)) :
    Clean n P σ (exec order call (loop.code (d.guards scope job.path) job chosen body) σ) := by
  obtain ⟨hprimary, hstandIn⟩ := hfound
  have hstandIn' : ∀ x, job.standIn.map (·.place) = some x → x.Found n σ := by
    intro x hx
    obtain ⟨y, hy, rfl⟩ := Option.map_eq_some_iff.mp hx
    exact hstandIn y hy
  refine Clean.container hP hprimary hstandIn' hchosen (fun _ h => h) rfl ?_
  intro τ v k entries hchose hentries hτ hPτ e he
  subst hchosen
  -- The loop numbers its variables after those of the selection.
  generalize hm : (loop.selection c job n).counter = m at *
  have hle : n ≤ m := hm ▸ Selection.le_counter _ _ _ _
  obtain ⟨hlocal, hnumber, hne⟩ := hloop.position_spec (m + 1) (m + 2)
  have hlt : m < (loop.position (m + 1)).number := by rw [hnumber]; exact Nat.lt_succ_self m
  have hlt' : m < (Var.value (m + 2)).number := Nat.lt_add_of_pos_right Nat.two_pos
  have hagree : τ.Agree m ((Head.each (loop.position (m + 1)) (.value (m + 2))
      (loop.selection c job n).source).bind τ e) :=
    State.agree_bind hlt hlt'
  have helement : ∀ {p : Place}, p.IsSource n →
      (p.element (loop.position (m + 1))).IsSource (m + 2) :=
    fun hp => (hp.mono (Nat.le_trans hle (Nat.le_add_right m 2))).element
      (by rw [hnumber]; exact Nat.le_succ _)
  have hslot : (loop.slot job (loop.selection c job n).flag m).Chosen c
      ((Head.each (loop.position (m + 1)) (.value (m + 2))
        (loop.selection c job n).source).bind τ e) loop.element := by
    refine hloop.slot_chosen (hprimary.isSource.mono hle)
      (fun x hx => (hstandIn x hx).isSource.mono hle) (fun w hw => hm ▸ Selection.number_flag_le hw)
      hchose fun root => GoValue.read_of_mem_entries horder hentries root e he
  have hP' : P ((Head.each (loop.position (m + 1)) (.value (m + 2))
      (loop.selection c job n).source).bind τ e).functions := by
    rw [Head.functions_bind]
    exact hPτ
  -- What the body is run with: the element, found, and both of its operands below their containers.
  refine ((hbody _ (hτ.trans (hagree.mono hle) (Nat.le_refl n)) hP' ⟨.ofVar rfl (Nat.le_refl _),
    helement hprimary.isSource, fun x hx => ?_, hslot⟩).mono (Nat.le_add_right m 2)).of_agree hagree
  obtain ⟨y, t, hjob, -, rfl⟩ := Loop.exists_of_standIn_slot hx
  exact helement (hstandIn y hjob).isSource

/-- The keys of a container are added one by one. -/
theorem Clean.keysCode {P : List LocalFunction → Prop} {pos : Position} {go : GoType}
    {intoKeys fromKeys : Bool} (hP : P σ.functions)
    (hfound : (Task.container pos type job).Found c n σ)
    (hchosen : chosen = .of n job.primary.place (job.standIn.map (·.place)) false) :
    Clean n P σ (exec order call
      (keysCode (d.guards scope job.path) job.path go intoKeys fromKeys chosen) σ) := by
  obtain ⟨hprimary, hstandIn⟩ := hfound
  have hstandIn' : ∀ x, job.standIn.map (·.place) = some x → x.Found n σ := by
    intro x hx
    obtain ⟨y, hy, rfl⟩ := Option.map_eq_some_iff.mp hx
    exact hstandIn y hy
  -- Nothing is read in a round but the variable of the loop.
  have hround : ∀ {head : Head} {τ : State} (e : Datum × GoValue), P τ.functions →
      τ.Agree chosen.counter (head.bind τ e) → Clean chosen.counter P τ (exec order call
        (.step (if intoKeys then
            .assign ⟨.output, job.path ++ [.keyAs go (.value (chosen.counter + 1))]⟩ .present
          else .assign ⟨.output, job.path⟩
            (.append ⟨.output, job.path⟩ go (.value (chosen.counter + 1)))) .done)
        (head.bind τ e)) := by
    intro head τ e hPτ hagree
    rw [← Head.functions_bind head τ e] at hPτ
    refine Clean.of_agree ?_ hagree
    cases intoKeys with
    | true => exact Clean.write trivial hPτ fun υ _ hPυ => .ok .refl hPυ
    | false => exact Clean.write rfl hPτ fun υ _ hPυ => .ok .refl hPυ
  have hvalue : ∀ (τ : State) (x : GoValue), τ.Agree chosen.counter
      (τ.set (.value (chosen.counter + 1)) x) :=
    fun τ x => State.agree_set (v := .value (chosen.counter + 1)) (Nat.lt_succ_self _) x
  have hmake : ∀ τ : State, τ.Reaches chosen.source → (if intoKeys then
      Expr.make (.keySet go) chosen.source else .makeRoom (.slice go) chosen.source).Reads call
      τ := by
    cases intoKeys <;> exact fun _ h => h
  cases fromKeys with
  | true =>
    exact Clean.container hP hprimary hstandIn' hchosen hmake rfl
      fun τ _ _ _ _ _ _ hPτ e _ => hround e hPτ (hvalue τ _)
  | false =>
    exact Clean.container hP hprimary hstandIn' hchosen hmake rfl
      fun τ _ _ _ _ _ _ hPτ e _ => hround e hPτ (hvalue τ _)

end Loops

end RecordBridge

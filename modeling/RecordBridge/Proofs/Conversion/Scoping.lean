import RecordBridge.Proofs.Conversion.Declarations
import RecordBridge.Proofs.Conversion.LocalFunctions
import RecordBridge.Proofs.Conversion.Sources
import RecordBridge.Proofs.Schema.Within

/-!
# Every variable is in scope

Along a derivation, what is emitted mentions only variables that are in scope, and reads each variable
that it declares (`Emits.confined`). The invariant has three parts: the places that a task is about
are in scope (`Task.Visible`), the local functions that the generator knows are in scope, and the
paths of deferred records mention no more than is said of paths (`Progress.Tidy`). There is one lemma for
each rule that writes statements of its own.

Guards are chosen by the spelling of paths, and so a guard may name a record that lies elsewhere. It does
not if the names in the target hold no brackets (`Settings.Plain`). Without that, guards still mention
only variables that some path mentions, which are in scope everywhere if they were from the start. Both
are one induction, over the variables `Δ` that paths may mention: either the names are plain, or all of
`Δ` is in scope.
-/

namespace RecordBridge

open Code

/-! ## What is assumed of the schema -/

/-- The types of the keys of the maps in a type. -/
def FieldType.keys : FieldType → List FieldType
  | .alias _ _ target => target.keys
  | .list element | .set element _ => element.keys
  | .map key value => key :: value.keys
  | _ => []

/-- The Go types of textual keys hold no bracket that closes. -/
def FieldType.PlainKeys (resolve : Resolver) (t : FieldType) : Prop :=
  ∀ key ∈ t.keys, key.isText = true → ∀ go, key.goType resolve = .ok go → ']' ∉ go.text.toList

instance (resolve : Resolver) (t : FieldType) : Decidable (t.PlainKeys resolve) :=
  decidable_of_iff (∀ key ∈ t.keys, key.isText = true →
      (match key.goType resolve with
        | .ok go => decide (']' ∉ go.text.toList)
        | .error _ => true) = true) <| by
    refine forall₂_congr fun key _ => imp_congr_right fun _ => ?_
    cases key.goType resolve with
    | ok go => simp
    | error _ => simp

/-- A field whose Go name holds no bracket that opens, and the Go types of whose keys none that
closes. In Go, neither a name nor a qualified name holds a bracket. -/
structure Field.Plain (resolve : Resolver) (f : Field) : Prop where
  name : '[' ∉ (pascal f.name).toList
  keys : f.type.PlainKeys resolve

instance (resolve : Resolver) (f : Field) : Decidable (f.Plain resolve) :=
  decidable_of_iff ('[' ∉ (pascal f.name).toList ∧ f.type.PlainKeys resolve)
    ⟨fun h => ⟨h.1, h.2⟩, fun h => ⟨h.name, h.keys⟩⟩

/-- The fields that occur beneath some fields of a target, and these, are plain. -/
def Settings.Plain (c : Settings) (fs : List Field) : Prop :=
  ∀ group, c.schema.Occurs fs group → ∀ f ∈ group, f.Plain c.resolve

/-- Mapped sources are reached through fields only. -/
def Settings.Unindexed (c : Settings) : Prop :=
  ∀ entry ∈ c.mapped, entry.2.path.vars = []

/-- The keys of a type are those of the type behind its aliases. -/
theorem FieldType.keys_root (t : FieldType) : t.root.keys = t.keys := by
  induction t with
  | «alias» _ _ _ ih => exact ih
  | _ => rfl

/-- A type is met in a field that occurs beneath some fields: its keys are keys of the field's type, and
its records are mentioned there. -/
def Schema.TypeBelow (s : Schema) (fs : List Field) (t : FieldType) : Prop :=
  ∃ group, s.Occurs fs group ∧ ∃ f ∈ group, t.keys ⊆ f.type.keys ∧ t.mentions ⊆ f.type.mentions

namespace Schema.TypeBelow

variable {s : Schema} {fs : List Field} {t u : FieldType}

/-- A part of a type that is met. -/
theorem mono (h : s.TypeBelow fs t) (hkeys : u.keys ⊆ t.keys) (hmentions : u.mentions ⊆ t.mentions) :
    s.TypeBelow fs u := by
  obtain ⟨group, hgroup, f, hf, hkeys', hmentions'⟩ := h
  exact ⟨group, hgroup, f, hf, List.Subset.trans hkeys hkeys', List.Subset.trans hmentions hmentions'⟩

/-- The type behind the aliases of one that is met. -/
theorem root (h : s.TypeBelow fs t) : s.TypeBelow fs t.root :=
  h.mono (by rw [FieldType.keys_root]; exact List.Subset.refl _)
    (by rw [FieldType.mentions_root]; exact List.Subset.refl _)

/-- The fields of a record behind a type that is met occur, too. -/
theorem occurs (h : s.TypeBelow fs t) {ref : RecordRef} (href : t.root = .record ref) :
    s.Occurs fs (s.fields ref) := by
  obtain ⟨group, hgroup, f, hf, -, hmentions⟩ := h.root
  rw [href] at hmentions
  exact .beneath hgroup hf (hmentions (List.mem_singleton_self ref))

end Schema.TypeBelow

/-! ## What is in scope -/

/-- What is said of every path in the target: it mentions variables of `Δ` only, and if the names are plain
(`plain`), the variables can be told by its spelling. -/
structure Path.Told (plain : Prop) (Δ : List Var) (path : Path) : Prop where
  spelled : plain → path.Plain
  known : path.vars ⊆ Δ

/-- A path in the target with variables in scope. -/
structure Path.Visible (plain : Prop) (Δ Γ : List Var) (path : Path) : Prop
    extends path.Told plain Δ where
  vars : path.vars ⊆ Γ

/-- The variables that are in scope everywhere, and those that keep the whole records if there are
mappings and local functions. -/
structure Rooted (c : Settings) (Γ : List Var) : Prop where
  input : .input ∈ Γ
  output : .output ∈ Γ
  whole : c.isRecursive = true → c.mapped ≠ [] → .wholeInput ∈ Γ ∧ .wholeOutput ∈ Γ

/-- A position in scope. Only within local functions does it have a scope of its own. -/
structure Position.Visible (c : Settings) (fs : List Field) (Δ Γ : List Var) (pos : Position) :
    Prop where
  target : pos.target.Visible (c.Plain fs) Δ Γ
  scope : pos.scope.Visible (c.Plain fs) Δ Γ
  source : ∀ base gs, pos.source = some (base, gs) → base.vars ⊆ Γ
  recursive : pos.scope ≠ [] → c.isRecursive = true

/-- The places that a task is about are in scope, and its fields and types are met beneath `fs`. -/
def Task.Visible (c : Settings) (fs : List Field) (Δ Γ : List Var) : Task → Prop
  | .fields pos gs => pos.Visible c fs Δ Γ ∧ ∃ group, c.schema.Occurs fs group ∧ gs ⊆ group
  | .field pos f => pos.Visible c fs Δ Γ ∧ ∃ group, c.schema.Occurs fs group ∧ f ∈ group
  | .record pos job _ tested base _ =>
    pos.Visible c fs Δ Γ ∧ job.path.Visible (c.Plain fs) Δ Γ ∧
      c.schema.Occurs fs (c.schema.fields job.target) ∧ tested.vars ⊆ Γ ∧ base.vars ⊆ Γ
  | .container pos type job =>
    pos.Visible c fs Δ Γ ∧ job.path.Visible (c.Plain fs) Δ Γ ∧ c.schema.TypeBelow fs type ∧
      job.primary.place.vars ⊆ Γ ∧ ∀ x, job.standIn = some x → x.place.vars ⊆ Γ
  | .element pos _ type slot =>
    pos.Visible c fs Δ Γ ∧ slot.path.Visible (c.Plain fs) Δ Γ ∧ c.schema.TypeBelow fs type ∧
      slot.value ∈ Γ ∧ slot.primary.place.vars ⊆ Γ ∧
        (∀ x, slot.standIn = some x → x.place.vars ⊆ Γ) ∧ ∀ flag, slot.selector = some flag → flag ∈ Γ

/-- The variables that a task must read: those of its target and of its source. -/
def Task.subjects : Task → List Var
  | .fields _ _ | .field _ _ => []
  | .record _ job _ tested _ _ => tested.vars ++ job.path.vars
  | .container _ _ job => job.primary.place.vars ++ job.path.vars
  | .element _ _ _ slot => slot.value :: (slot.path.vars ++ slot.selector.toList)

/-- What is deferred waits by its spelling, and only if something is mapped. -/
structure Progress.Tidy (c : Settings) (fs : List Field) (Δ : List Var) (p : Progress) : Prop where
  within : p.deferred.Within (Path.Told (c.Plain fs) Δ)
  mapped : p.deferred.entries ≠ [] → c.mapped ≠ []

/-- What is emitted for a task mentions what is in scope, and reads what it declares and what the task
is about. The local functions that come into scope stay in scope to the end of the block. -/
structure Confined (c : Settings) (fs : List Field) (Δ Γ : List Var) (task : Task) (b : Code)
    (q : Progress) : Prop where
  inScope : Scoped Γ b
  used : Used b
  subjects : task.subjects ⊆ reads b
  helpers : task.isElement = false → ∀ h ∈ q.helpers, h.name ∈ after Γ b
  tidy : q.Tidy c fs Δ

/-- Only the deferred records matter. -/
theorem Progress.Tidy.of_eq {c : Settings} {fs : List Field} {Δ : List Var} {p q : Progress}
    (h : p.Tidy c fs Δ) (heq : q.deferred = p.deferred) : q.Tidy c fs Δ :=
  ⟨heq ▸ h.within, heq ▸ h.mapped⟩

section Paths

variable {plain : Prop} {Δ Γ Γ' : List Var} {p q : Path}

/-- What is said of two paths holds of one after the other. -/
theorem Path.Told.append (hp : p.Told plain Δ) (hq : q.Told plain Δ) : Path.Told plain Δ (p ++ q) :=
  ⟨fun h => (hp.spelled h).append (hq.spelled h), by
    rw [Path.vars_append]
    exact List.append_subset_of_subset_of_subset hp.known hq.known⟩

/-- What is in scope stays so where more is. -/
theorem Path.Visible.mono (h : p.Visible plain Δ Γ) (hsub : Γ ⊆ Γ') : p.Visible plain Δ Γ' :=
  ⟨h.toTold, List.Subset.trans h.vars hsub⟩

theorem Path.Visible.append (hp : p.Visible plain Δ Γ) (hq : q.Visible plain Δ Γ) :
    Path.Visible plain Δ Γ (p ++ q) :=
  ⟨hp.toTold.append hq.toTold, by
    rw [Path.vars_append]
    exact List.append_subset_of_subset_of_subset hp.vars hq.vars⟩

/-- The path to the whole record mentions nothing. -/
theorem Path.Visible.nil : Path.Visible plain Δ Γ [] :=
  ⟨⟨fun _ => nofun, List.nil_subset _⟩, List.nil_subset _⟩

end Paths

section Monotonicity

variable {c : Settings} {fs : List Field} {Δ Γ Γ' : List Var}

theorem Rooted.mono (h : Rooted c Γ) (hsub : Γ ⊆ Γ') : Rooted c Γ' :=
  ⟨hsub h.input, hsub h.output, fun hrec hmapped => (h.whole hrec hmapped).imp (hsub ·) (hsub ·)⟩

theorem Position.Visible.mono {pos : Position} (h : pos.Visible c fs Δ Γ) (hsub : Γ ⊆ Γ') :
    pos.Visible c fs Δ Γ' :=
  ⟨h.target.mono hsub, h.scope.mono hsub,
    fun base gs hpos => List.Subset.trans (h.source base gs hpos) hsub,
    h.recursive⟩

/-- A task that is in scope stays so where more variables are. -/
theorem Task.Visible.mono {task : Task} (h : task.Visible c fs Δ Γ) (hsub : Γ ⊆ Γ') :
    task.Visible c fs Δ Γ' := by
  cases task with
  | fields pos gs => exact ⟨h.1.mono hsub, h.2⟩
  | field pos f => exact ⟨h.1.mono hsub, h.2⟩
  | record pos job type tested base inField =>
    obtain ⟨hpos, hpath, hoccurs, htested, hbase⟩ := h
    exact ⟨hpos.mono hsub, hpath.mono hsub, hoccurs, List.Subset.trans htested hsub,
      List.Subset.trans hbase hsub⟩
  | container pos type job =>
    obtain ⟨hpos, hpath, htype, hprimary, hstandIn⟩ := h
    exact ⟨hpos.mono hsub, hpath.mono hsub, htype, List.Subset.trans hprimary hsub,
      fun x hx => List.Subset.trans (hstandIn x hx) hsub⟩
  | element pos field type slot =>
    obtain ⟨hpos, hpath, htype, hvalue, hprimary, hstandIn, hflag⟩ := h
    exact ⟨hpos.mono hsub, hpath.mono hsub, htype, hsub hvalue, List.Subset.trans hprimary hsub,
      fun x hx => List.Subset.trans (hstandIn x hx) hsub, fun flag h => hsub (hflag flag h)⟩

end Monotonicity

/-! ## Sources and paths in scope -/

section Places

variable {c : Settings} {fs : List Field} {Δ Γ : List Var} {pos : Position} {f : Field}

theorem Place.vars_select (p : Place) (name : String) : (p.select name).vars = p.vars := by
  rw [Place.vars, Place.vars, Place.select, Path.vars_select]

/-- Both sources of a field are in scope. -/
theorem Position.Visible.sourcesOf (hc : c.Unindexed) (hroot : Rooted c Γ)
    (hpos : pos.Visible c fs Δ Γ) (f : Field) (key : String) : (∀ x, (sourcesOf c pos f key).1 = some x → x.place.vars ⊆ Γ) ∧
      ∀ x, (RecordBridge.sourcesOf c pos f key).2 = some x → x.place.vars ⊆ Γ := by
  refine sourcesOf_forall (fun x hx => ?_) fun mapped hmapped => ?_
  · obtain ⟨base, gs, hsource⟩ := exists_source_of_directSource hx
    rw [(directSource_some hsource hx).2.2, Place.vars_select]
    exact hpos.source base gs hsource
  · have hmem := Settings.mem_of_mapping? hmapped
    rw [Place.vars, hc _ hmem]
    refine List.cons_subset.mpr ⟨?_, List.nil_subset _⟩
    rw [Settings.mappedRoot]
    split
    · rename_i hrecursive
      exact (hroot.whole hrecursive (List.ne_nil_of_mem hmem)).1
    · exact hroot.input

/-- The path of a field is in scope. -/
theorem Position.Visible.visible_path (hpos : pos.Visible c fs Δ Γ) {group : List Field}
    (hgroup : c.schema.Occurs fs group) (hf : f ∈ group) :
    (pos.path f).Visible (c.Plain fs) Δ Γ := by
  have hvars : (pos.path f).vars = pos.target.vars := Path.vars_select _
  refine ⟨⟨fun hplain => ?_, hvars ▸ hpos.target.known⟩, hvars ▸ hpos.target.vars⟩
  exact (hpos.target.spelled hplain).select (hplain group hgroup f hf).name

/-- The selections on a path use no variable that the path does not. -/
theorem Path.vars_of_selections {rest before path : Path} (h : path ∈ selections before rest) :
    path.vars ⊆ before.vars ++ rest.vars := by
  induction rest generalizing before with
  | nil => cases h
  | cons step rest ih =>
    have hwhole : vars (before ++ [step]) ++ vars rest = vars before ++ vars (step :: rest) := by
      rw [vars_append, List.append_assoc, ← vars_append]
      rfl
    rw [← hwhole]
    rw [selections] at h
    split at h
    · rcases List.mem_cons.mp h with rfl | h
      · exact List.subset_append_left _ _
      · exact ih h
    · exact ih h

/-- The places that an assignment tests mention the variables of its source. -/
theorem Assignment.vars_of_tested {a : Assignment} {p : Place} (hp : p ∈ a.tested) :
    p.vars ⊆ a.source.vars := by
  -- What is tested are selections of the source, if not the source itself.
  have hselections : ∀ {p : Place}, p ∈ a.source.selections → p.vars ⊆ a.source.vars := by
    intro p hp
    obtain ⟨path, hpath, rfl⟩ := List.mem_map.mp hp
    exact List.cons_subset_cons _ (Path.vars_of_selections hpath)
  rw [tested] at hp
  split at hp
  · split at hp
    · rw [List.mem_singleton.mp hp]
      exact List.Subset.refl _
    · cases hp
  · split at hp
    · exact hselections hp
    · exact hselections (List.dropLast_subset _ hp)

end Places

/-! ## Statements under guards -/

section Statements

variable {c : Settings} {fs : List Field} {Δ Γ : List Var} {pos : Position} {p q : Progress}
  {path : Path} {guards rest : Code} {e : Expr}

/-- The guards for a path in scope mention what is in scope: the variables of the path if names are plain,
and else such that are in scope everywhere. -/
theorem Progress.Tidy.scoped_guards (hp : p.Tidy c fs Δ) (hmode : c.Plain fs ∨ Δ ⊆ Γ)
    (hroot : Rooted c Γ) (hpos : pos.Visible c fs Δ Γ) (hpath : path.Visible (c.Plain fs) Δ Γ) :
    Scoped Γ (p.deferred.guards pos.scope path) := by
  have hwhole := hpos.scope.append hpath
  refine Deferred.scoped_guards hroot.output
    (fun hscope hdeferred => (hroot.whole (hpos.recursive hscope) (hp.mapped hdeferred)).2)
    fun e he => ?_
  rcases hmode with hplain | hsub
  · have hspelled : p.deferred.Within Path.Plain :=
      ⟨hp.within.key, fun e he => (hp.within.family e he).spelled hplain⟩
    exact List.Subset.trans
      (Deferred.vars_waiting_subset hspelled (hwhole.spelled hplain) he) hwhole.vars
  · have hknown : p.deferred.Within (·.vars ⊆ Γ) :=
      ⟨hp.within.key, fun e he => List.Subset.trans (hp.within.family e he).known hsub⟩
    exact Deferred.vars_waiting_of_family hknown he

/-- A write below `out`, after guards that declare nothing. -/
theorem scoped_write (hguards : Scoped Γ guards) (hnone : declared guards = [])
    (hout : .output ∈ Γ) (hpath : path.vars ⊆ Γ) (he : e.vars ⊆ Γ) (hrest : Scoped Γ rest) :
    Scoped Γ (guards ++ .step (.assign ⟨.output, path⟩ e) rest) := by
  refine scoped_append.mpr ⟨hguards, ?_⟩
  rw [after_of_declared_eq_nil hnone]
  exact ⟨List.append_subset_of_subset_of_subset (List.cons_subset.mpr ⟨hout, hpath⟩) he, hrest⟩

theorem used_write (hnone : declared guards = []) (hrest : Used rest) :
    Used (guards ++ .step (.assign ⟨.output, path⟩ e) rest) :=
  (used_of_declared_eq_nil hnone).append ⟨List.nil_subset _, hrest⟩

/-- A write reads the variables in the path that it leads to, and those of its value. -/
theorem subset_reads_write (guards : Code) (path : Path) (e : Expr) (rest : Code) :
    path.vars ++ e.vars ++ reads rest ⊆
      reads (guards ++ .step (.assign ⟨.output, path⟩ e) rest) := by
  have hpath : path.vars ++ e.vars ⊆ (Statement.assign ⟨.output, path⟩ e).reads := by
    show _ ⊆ if path = [] then e.vars else Var.output :: path.vars ++ e.vars
    split
    · rename_i hnil
      rw [hnil]
      exact List.Subset.refl _
    · exact List.subset_cons_self _ _
  rw [reads_append]
  refine List.Subset.trans ?_ (List.subset_append_right _ _)
  exact List.append_subset_of_subset_of_subset
    (List.Subset.trans hpath (List.subset_append_left _ _))
    (List.subset_append_right _ _)

theorem after_write (hnone : declared guards = []) :
    after Γ (guards ++ .step (.assign ⟨.output, path⟩ e) rest) = after Γ rest := by
  rw [after_append, after_of_declared_eq_nil hnone]
  rfl

/-- An assignment to a leaf mentions its source, its target and the guards. -/
theorem Assignment.scoped_code {a : Assignment} (hguards : Scoped Γ guards)
    (hnone : declared guards = []) (hout : .output ∈ Γ) (htarget : a.target.vars ⊆ Γ)
    (hsource : a.source.vars ⊆ Γ) : Scoped Γ (a.code guards) := by
  have hwrite : Scoped Γ (guards ++
      .step (.assign ⟨.output, a.target⟩ (.convert a.cast a.source)) .done) :=
    scoped_write hguards hnone hout htarget hsource trivial
  rw [code]
  split
  · refine ⟨fun v hv => ?_, hwrite, trivial⟩
    obtain ⟨p, hp, hv⟩ := List.mem_flatMap.mp hv
    exact hsource (vars_of_tested hp hv)
  · exact hwrite

end Statements

/-! ## Choosing a container -/

namespace Selection

variable {Γ : List Var} {n : Nat} {primary : Place} {standIn : Option Place} {flagged : Bool}

/-- The variables of a choice hold the container that is chosen and the flag. -/
theorem mem_locals (primary : Place) {v : Var} (hv : v ∈ locals n standIn flagged) :
    v ∈ (Selection.of n primary standIn flagged).source.vars ∨
      (Selection.of n primary standIn flagged).flag = some v := by
  cases standIn with
  | none => cases hv
  | some x =>
    cases flagged with
    | false =>
      rw [locals, List.mem_singleton] at hv
      exact .inl (by rw [hv]; exact List.mem_cons_self)
    | true =>
      rcases List.mem_cons.mp hv with rfl | hv
      · exact .inl List.mem_cons_self
      · exact .inr (by rw [List.mem_singleton.mp hv]; rfl)

/-- What is chosen is in scope after the choice. -/
theorem vars_source_subset (hprimary : primary.vars ⊆ Γ) :
    (Selection.of n primary standIn flagged).source.vars ⊆
      after Γ (Selection.of n primary standIn flagged).code := by
  cases standIn with
  | none => exact hprimary
  | some x =>
    cases flagged with
    | false => exact List.cons_subset.mpr ⟨List.mem_cons_self, List.nil_subset _⟩
    | true =>
      exact List.cons_subset.mpr ⟨List.mem_cons_of_mem _ List.mem_cons_self, List.nil_subset _⟩

theorem scoped_code (hprimary : primary.vars ⊆ Γ) (hstandIn : ∀ x, standIn = some x → x.vars ⊆ Γ) :
    Scoped Γ (Selection.of n primary standIn flagged).code := by
  have htest : ∀ {Δ : List Var}, Γ ⊆ Δ → (Head.ifSet [primary]).vars ⊆ Δ := by
    intro Δ hsub
    simpa [Head.vars, Head.reads] using List.Subset.trans hprimary hsub
  -- The list is declared from the stand-in; only then is it assigned to.
  have htake : ∀ {Δ : List Var}, Γ ⊆ Δ → Var.sourceList (n + 1) ∈ Δ →
      (Statement.assign (.ofVar (.sourceList (n + 1))) (.read primary)).vars ⊆ Δ := by
    intro Δ hsub hmem
    exact List.cons_subset.mpr ⟨hmem, List.Subset.trans hprimary hsub⟩
  cases standIn with
  | none => trivial
  | some x =>
    have hx := hstandIn x rfl
    cases flagged with
    | false =>
      have hsub : Γ ⊆ Var.sourceList (n + 1) :: Γ := List.subset_cons_self _ _
      exact ⟨hx, htest hsub, ⟨htake hsub List.mem_cons_self, trivial⟩, trivial⟩
    | true =>
      have hsub : Γ ⊆ Var.overridden (n + 2) :: Var.sourceList (n + 1) :: Γ :=
        List.Subset.trans (List.subset_cons_self _ _) (List.subset_cons_self _ _)
      refine ⟨hx, List.nil_subset _, htest hsub,
        ⟨htake hsub (List.mem_cons_of_mem _ List.mem_cons_self), ?_, trivial⟩, trivial⟩
      exact List.cons_subset.mpr ⟨List.mem_cons_self, List.nil_subset _⟩

/-- The variables of a choice are used if what comes after it reads them. -/
theorem used_code {rest : Code} (hrest : Used rest)
    (hread : locals n standIn flagged ⊆ reads rest) :
    Used ((Selection.of n primary standIn flagged).code ++ rest) := by
  have hlater : ∀ {v : Var} {l : List Var} (before : List Var), v ∈ l → v ∈ before ++ l :=
    fun before hv => List.mem_append_right _ hv
  cases standIn with
  | none => exact hrest
  | some x =>
    cases flagged with
    | false =>
      -- The statements in between only assign to it, so its use is in what follows.
      have hlist := hread List.mem_cons_self
      refine ⟨List.cons_subset.mpr ⟨?_, List.nil_subset _⟩, List.nil_subset _,
        ⟨List.nil_subset _, trivial⟩, hrest⟩
      exact hlater _ (hlater _ (hlater _ hlist))
    | true =>
      have hlist := hread List.mem_cons_self
      -- The flag is used there as well, where each element asks for it.
      have hflag := hread (List.mem_cons_of_mem _ List.mem_cons_self)
      refine ⟨List.cons_subset.mpr ⟨?_, List.nil_subset _⟩,
        List.cons_subset.mpr ⟨?_, List.nil_subset _⟩, List.nil_subset _,
        ⟨List.nil_subset _, List.nil_subset _, trivial⟩, hrest⟩
      · exact hlater _ (hlater _ (hlater _ (hlater _ hlist)))
      · exact hlater _ (hlater _ (hlater _ hflag))

/-- The primary source is read, for a test or as what is chosen. -/
theorem vars_primary_subset : primary.vars ⊆
    reads (Selection.of n primary standIn flagged).code ++
      (Selection.of n primary standIn flagged).source.vars := by
  cases standIn with
  | none => exact List.subset_append_right _ _
  | some x =>
    intro v hv
    have htest : v ∈ (Head.ifSet [primary]).reads := by
      simpa [Head.reads] using hv
    refine List.mem_append_left _ ?_
    cases flagged with
    | false => exact List.mem_append_right _ (List.mem_append_left _ htest)
    | true =>
      exact List.mem_append_right _ (List.mem_append_right _ (List.mem_append_left _ htest))

end Selection

/-! ## Slots of a loop -/

namespace Loop.Converts

variable {c : Settings} {fs : List Field} {Δ Γ : List Var} {job : ContainerJob} {type : FieldType}
  {loop : Loop}

/-- The step to a slot mentions the index or key. -/
theorem var_step (h : loop.Converts c job type) (n : Nat) :
    (loop.step (loop.position n)).var? = some (loop.position n) := by
  cases h with
  | list | set => rfl
  | @map key value primary standIn keyGo go htext hkey =>
    show (if key = .text then Step.index (.key n) else .keyAs keyGo (.key n) : Step).var? = _
    split <;> rfl

/-- The variables of a slot are those of its container and the index or key. -/
theorem vars_slot (h : loop.Converts c job type) (flag : Option Var) (n : Nat) :
    (loop.slot job flag n).path.vars = job.path.vars ++ [loop.position (n + 1)] := by
  show Path.vars (job.path ++ [loop.step (loop.position (n + 1))]) = _
  rw [Path.vars_append]
  simp [Path.vars, h.var_step (n + 1)]

end Loop.Converts

/-! ## The rules -/

section Rules

variable {c : Settings} {fs : List Field} {Δ Γ : List Var} {pos : Position} {p q : Progress}
  {b : Code} (hc : c.Unindexed) (hmode : c.Plain fs ∨ Δ ⊆ Γ) (hroot : Rooted c Γ)
  (hp : p.Tidy c fs Δ) (hhelpers : ∀ h ∈ p.helpers, h.name ∈ Γ)

namespace Confined

include hmode hroot hp hhelpers

include hc in
/-- The assignments to a leaf, which come from its sources. -/
theorem leaf {f : Field} {primary : Source} {standIn : Option Source} {type : GoType} {key : String}
    (hvisible : (Task.field pos f).Visible c fs Δ Γ)
    (hsources : sourcesOf c pos f key = (some primary, standIn)) :
    Confined c fs Δ Γ (.field pos f)
      (leafCode (p.deferred.guards pos.scope (pos.path f)) pos f type primary standIn) p := by
  obtain ⟨hpos, group, hgroup, hf⟩ := hvisible
  have hpath := hpos.visible_path hgroup hf
  have hguards := hp.scoped_guards hmode hroot hpos hpath
  -- The assignments declare nothing, so the second is in the scope of the first.
  have hnone : declared (leafCode (p.deferred.guards pos.scope (pos.path f)) pos f type primary
      standIn) = [] := declared_leafCode Deferred.declared_guards
  obtain ⟨hfirst, hsecond⟩ := hpos.sourcesOf hc hroot f key
  have hprimary := hfirst primary (congrArg Prod.fst hsources)
  have hassigns : ∀ (x : Source) (onlyIfSet : Bool), x.place.vars ⊆ Γ → Scoped Γ
      ((leafAssignment pos f type x onlyIfSet).code
        (p.deferred.guards pos.scope (pos.path f))) :=
    fun x onlyIfSet hx =>
      Assignment.scoped_code hguards Deferred.declared_guards hroot.output hpath.vars hx
  refine ⟨?_, used_of_declared_eq_nil hnone, List.nil_subset _, fun _ h hh => ?_, hp⟩
  · cases standIn with
    | none => exact hassigns primary false hprimary
    | some x =>
      have hx := hassigns x false (hsecond x (congrArg Prod.snd hsources))
      refine scoped_append.mpr ⟨hx, ?_⟩
      rw [after_of_declared_eq_nil (Assignment.declared_code _ Deferred.declared_guards)]
      exact hassigns primary true hprimary
  · rw [after_of_declared_eq_nil hnone]
    exact hhelpers h hh

theorem inline {job : RecordJob} {type : FieldType} {tested base : Place} {inField : Bool}
    {go : GoType} {gs : List Field}
    (hvisible : (Task.record pos job type tested base inField).Visible c fs Δ Γ)
    (hfields : Confined c fs Δ Γ (.fields (pos.inline c job base) gs) b q) :
    Confined c fs Δ Γ (.record pos job type tested base inField)
      (inlineCode (p.deferred.guards pos.scope job.path) job.path go tested b)
      { q with helpers := p.helpers } := by
  obtain ⟨hpos, hpath, -, htested, -⟩ := hvisible
  have hguards := hp.scoped_guards hmode hroot hpos hpath
  have hnone : declared (p.deferred.guards pos.scope job.path) = [] := Deferred.declared_guards
  have hfilled := scoped_write (e := .newRecord go) hguards hnone hroot.output hpath.vars
    (List.nil_subset _) hfields.inScope
  have hused : Used (p.deferred.guards pos.scope job.path ++
      .step (.assign ⟨.output, job.path⟩ (.newRecord go)) b) := used_write hnone hfields.used
  have hreads : job.path.vars ⊆ reads (p.deferred.guards pos.scope job.path ++
      .step (.assign ⟨.output, job.path⟩ (.newRecord go)) b) :=
    List.Subset.trans (List.subset_append_left _ _)
      (List.Subset.trans (List.subset_append_left _ _) (subset_reads_write _ _ _ _))
  have htest : (Head.ifSet [tested]).vars ⊆ Γ := by
    simpa [Head.vars, Head.reads] using htested
  have habsent : Scoped Γ (.step (.assign ⟨.output, job.path⟩ .absent) .done) := by
    refine ⟨?_, trivial⟩
    simpa [Statement.vars, Expr.vars, Place.vars, hroot.output] using hpath.vars
  -- The source is used by the test, and the path by what is written in the branch.
  have hsubjects : ∀ more, tested.vars ++ job.path.vars ⊆
      (Head.ifSet [tested]).reads ++ (reads (p.deferred.guards pos.scope job.path ++
        .step (.assign ⟨.output, job.path⟩ (.newRecord go)) b) ++ more) := by
    intro more
    refine List.append_subset_of_subset_of_subset ?_ ?_
    · refine List.Subset.trans ?_ (List.subset_append_left _ _)
      simp [Head.reads]
    · exact List.Subset.trans hreads
        (List.Subset.trans (List.subset_append_left _ _) (List.subset_append_right _ _))
  rw [inlineCode]
  split
  · exact ⟨⟨htest, hfilled, habsent, trivial⟩, ⟨hused, ⟨List.nil_subset _, trivial⟩, trivial⟩,
      hsubjects _, fun _ => hhelpers, hfields.tidy.of_eq rfl⟩
  · exact ⟨⟨htest, hfilled, trivial⟩, ⟨List.nil_subset _, hused, trivial⟩, hsubjects _,
      fun _ => hhelpers, hfields.tidy.of_eq rfl⟩

omit hhelpers in
/-- A container that is made for the elements of the one that is chosen, and filled by a loop. -/
theorem container {type : FieldType} {job : ContainerJob} {chosen : Selection} {flagged : Bool}
    {e : Expr} {head : Head} {body : Code}
    (hvisible : (Task.container pos type job).Visible c fs Δ Γ)
    (hchosen : chosen = .of p.counter job.primary.place (job.standIn.map (·.place)) flagged)
    (he : e.vars = chosen.source.vars) (hhead : head.vars = chosen.source.vars)
    (hscoped : Scoped (head.bound ++ after Γ chosen.code) body) (hused : Used body)
    (hbound : head.bound ⊆ reads body)
    (hflag : ∀ flag, chosen.flag = some flag → flag ∈ reads body)
    (hhelpers : ∀ h ∈ q.helpers, h.name ∈ Γ) (hq : q.Tidy c fs Δ) :
    Confined c fs Δ Γ (.container pos type job)
      (chosen.code ++ (p.deferred.guards pos.scope job.path ++
        .step (.assign ⟨.output, job.path⟩ e) (.nest head body .done))) q := by
  obtain ⟨hpos, hpath, -, hprimary, hstandIn⟩ := hvisible
  have hsub : Γ ⊆ after Γ chosen.code := subset_after
  have hguards := hp.scoped_guards (hmode.imp_right fun h => List.Subset.trans h hsub)
    (hroot.mono hsub) (hpos.mono hsub) (hpath.mono hsub)
  have hnone : declared (p.deferred.guards pos.scope job.path) = [] := Deferred.declared_guards
  have hsource : chosen.source.vars ⊆ after Γ chosen.code := by
    rw [hchosen]
    exact Selection.vars_source_subset hprimary
  have hloop : Scoped (after Γ chosen.code) (.nest head body .done) :=
    ⟨hhead ▸ hsource, hscoped, trivial⟩
  have hwrite := subset_reads_write (p.deferred.guards pos.scope job.path) job.path e
    (.nest head body .done)
  -- What the rounds read, the loop reads.
  have hread : ∀ v ∈ reads body, v ∈ reads (.nest head body .done) :=
    fun v hv => List.mem_append_right _ (List.mem_append_left _ hv)
  refine ⟨scoped_append.mpr ⟨?_, ?_⟩, ?_, ?_, fun _ h hh => ?_, hq⟩
  · rw [hchosen]
    refine Selection.scoped_code hprimary fun x hx => ?_
    obtain ⟨y, hy, rfl⟩ := Option.map_eq_some_iff.mp hx
    exact hstandIn y hy
  · exact scoped_write hguards hnone (hsub hroot.output) (List.Subset.trans hpath.vars hsub)
      (he ▸ hsource) hloop
  · rw [hchosen]
    refine Selection.used_code (used_write hnone ⟨hbound, hused, trivial⟩) fun v hv => ?_
    -- The list is read where the container is made, the flag in the rounds.
    rcases Selection.mem_locals job.primary.place hv with hv | hv
    · rw [← hchosen, ← he] at hv
      exact hwrite (List.mem_append_left _ (List.mem_append_right _ hv))
    · rw [← hchosen] at hv
      exact hwrite (List.mem_append_right _ (hread v (hflag v hv)))
  · rw [reads_append]
    refine List.append_subset_of_subset_of_subset (fun v hv => ?_) fun v hv => ?_
    · rw [hchosen] at he ⊢
      rcases List.mem_append.mp (Selection.vars_primary_subset hv) with hv | hv
      · exact List.mem_append_left _ hv
      · exact List.mem_append_right _
          (hwrite (List.mem_append_left _ (List.mem_append_right _ (he ▸ hv))))
    · exact List.mem_append_right _ (hwrite (List.mem_append_left _ (List.mem_append_left _ hv)))
  · rw [after_append, after_write hnone]
    exact hsub (hhelpers h hh)

theorem keys {element : FieldType} {form : SetForm} {job : ContainerJob} {chosen : Selection}
    {type : GoType} {intoKeys fromKeys : Bool}
    (hvisible : (Task.container pos (.set element form) job).Visible c fs Δ Γ)
    (hchosen : chosen = .of p.counter job.primary.place (job.standIn.map (·.place)) false) :
    Confined c fs Δ Γ (.container pos (.set element form) job)
      (keysCode (p.deferred.guards pos.scope job.path) job.path type intoKeys fromKeys chosen)
      { p with counter := chosen.counter + 1 } := by
  have hpath := hvisible.2.1.vars
  have hsub : Γ ⊆ after Γ chosen.code := subset_after
  have hvalue : ∀ l : List Var, Var.value (chosen.counter + 1) ∈
      Var.value (chosen.counter + 1) :: l := fun l => List.mem_cons_self
  have hplace : (Place.vars ⟨.output, job.path⟩) ⊆ after Γ chosen.code :=
    List.cons_subset.mpr ⟨hsub hroot.output, List.Subset.trans hpath hsub⟩
  have hwider : after Γ chosen.code ⊆ Var.value (chosen.counter + 1) :: after Γ chosen.code :=
    List.subset_cons_self _ _
  -- A set of keys never asks for a flag.
  have hflag : ∀ flag, chosen.flag = some flag → False := by
    intro flag h
    rw [hchosen] at h
    cases hstandIn : job.standIn with
    | none => rw [hstandIn] at h; cases h
    | some x => rw [hstandIn] at h; cases h
  -- A set is filled through the key of a slot, a slice by an append: both use the value.
  cases intoKeys with
  | true =>
    have hslot : Place.vars ⟨.output, job.path ++ [.keyAs type (.value (chosen.counter + 1))]⟩ =
        Place.vars ⟨.output, job.path⟩ ++ [.value (chosen.counter + 1)] := by
      rw [Place.vars, Path.vars_append]
      rfl
    have hscoped : Scoped (.value (chosen.counter + 1) :: after Γ chosen.code) (.step (.assign
        ⟨.output, job.path ++ [.keyAs type (.value (chosen.counter + 1))]⟩ .present) .done) := by
      refine ⟨?_, trivial⟩
      show Place.vars _ ++ [] ⊆ _
      rw [hslot, List.append_nil]
      exact List.append_subset_of_subset_of_subset (List.Subset.trans hplace hwider)
        (List.cons_subset.mpr ⟨hvalue _, List.nil_subset _⟩)
    have hread : [Var.value (chosen.counter + 1)] ⊆ reads (.step (.assign
        ⟨.output, job.path ++ [.keyAs type (.value (chosen.counter + 1))]⟩ .present) .done) := by
      refine List.Subset.trans ?_ (subset_reads_write .done _ _ _)
      rw [Path.vars_append]
      exact fun v hv => by simpa [Path.vars, Step.var?] using .inr (.inl (List.mem_singleton.mp hv))
    cases fromKeys <;>
      exact container hmode hroot hp hvisible hchosen rfl rfl hscoped ⟨List.nil_subset _, trivial⟩ hread
        (fun flag h => (hflag flag h).elim) hhelpers (hp.of_eq rfl)
  | false =>
    have hscoped : Scoped (.value (chosen.counter + 1) :: after Γ chosen.code) (.step (.assign
        ⟨.output, job.path⟩ (.append ⟨.output, job.path⟩ type (.value (chosen.counter + 1))))
        .done) := by
      refine ⟨?_, trivial⟩
      refine List.append_subset_of_subset_of_subset (List.Subset.trans hplace hwider) ?_
      exact List.cons_subset.mpr ⟨hvalue _, List.Subset.trans hplace hwider⟩
    have hread : [Var.value (chosen.counter + 1)] ⊆ reads (.step (.assign ⟨.output, job.path⟩
        (.append ⟨.output, job.path⟩ type (.value (chosen.counter + 1)))) .done) := by
      refine List.Subset.trans ?_ (subset_reads_write .done _ _ _)
      exact fun v hv => by simpa [Expr.vars] using .inr (.inl (List.mem_singleton.mp hv))
    cases fromKeys <;>
      exact container hmode hroot hp hvisible hchosen rfl rfl hscoped ⟨List.nil_subset _, trivial⟩ hread
        (fun flag h => (hflag flag h).elim) hhelpers (hp.of_eq rfl)

theorem loop {loop : Loop} {type : FieldType} {job : ContainerJob} {chosen : Selection}
    (hvisible : (Task.container pos type job).Visible c fs Δ Γ) (hloop : loop.Converts c job type)
    (hchosen : chosen = loop.selection c job p.counter)
    (helement : Confined c fs Δ (loop.position (chosen.counter + 1) :: .value (chosen.counter + 2) ::
        after Γ chosen.code)
      (.element pos job.field loop.element (loop.slot job chosen.flag chosen.counter)) b q) :
    Confined c fs Δ Γ (.container pos type job)
      (loop.code (p.deferred.guards pos.scope job.path) job chosen b)
      { q with helpers := p.helpers } := by
  have hread := helement.subjects
  refine container hmode hroot hp hvisible hchosen rfl rfl helement.inScope helement.used ?_
    (fun flag hflag => hread ?_) hhelpers (helement.tidy.of_eq rfl)
  · refine List.cons_subset.mpr ⟨hread ?_, List.cons_subset.mpr ⟨hread ?_, List.nil_subset _⟩⟩
    · refine List.mem_cons_of_mem _ (List.mem_append_left _ ?_)
      rw [hloop.vars_slot]
      exact List.mem_append_right _ (List.mem_singleton_self _)
    · exact List.mem_cons_self
  · refine List.mem_cons_of_mem _ (List.mem_append_right _ ?_)
    show flag ∈ chosen.flag.toList
    rw [hflag]
    exact List.mem_singleton_self _

/-- A call of a local function in scope. -/
theorem call {job : RecordJob} {type : FieldType} {tested base : Place} {inField : Bool}
    {helper : Var} (hvisible : (Task.record pos job type tested base inField).Visible c fs Δ Γ)
    (hhelper : helper ∈ Γ) :
    Confined c fs Δ Γ (.record pos job type tested base inField)
      (callCode (guardsAbove p pos job.path inField) job.path helper tested) p := by
  obtain ⟨hpos, hpath, -, htested, -⟩ := hvisible
  have hnone : declared (guardsAbove p pos job.path inField) = [] := by
    cases inField with
    | false => rfl
    | true => exact Deferred.declared_guards
  have hguards : Scoped Γ (guardsAbove p pos job.path inField) := by
    cases inField with
    | false => trivial
    | true => exact hp.scoped_guards hmode hroot hpos hpath
  refine ⟨?_, used_write hnone trivial, ?_, fun _ h hh => ?_, hp⟩
  · exact scoped_write hguards hnone hroot.output hpath.vars
      (List.cons_subset.mpr ⟨hhelper, htested⟩) trivial
  · refine List.Subset.trans ?_ (subset_reads_write _ _ _ _)
    refine List.append_subset_of_subset_of_subset (fun v hv => ?_) fun v hv => ?_
    · exact List.mem_append_left _ (List.mem_append_right _ (List.mem_cons_of_mem _ hv))
    · exact List.mem_append_left _ (List.mem_append_left _ hv)
  · rw [callCode, after_write hnone]
    exact hhelpers h hh

omit hmode hp hhelpers in
/-- A local function and a call of it. -/
theorem define {job : RecordJob} {type : FieldType} {tested base : Place} {inField : Bool}
    {helper : HelperSignature} {gs : List Field}
    (hfields : Confined c fs Δ (helper.name :: Γ) (.fields (pos.inHelper c job) gs) b q)
    (hcall : Confined c fs Δ (helper.name :: Γ) (.record pos job type tested base inField)
      (callCode (guardsAbove q pos job.path inField) job.path helper.name tested) p) :
    Confined c fs Δ Γ (.record pos job type tested base inField)
      (helperCode helper b ++
        callCode (guardsAbove q pos job.path inField) job.path helper.name tested) p := by
  have hinput : (Head.ifSet [.ofVar .input]).vars ⊆ helper.name :: Γ :=
    List.cons_subset.mpr ⟨List.mem_cons_of_mem _ hroot.input, List.nil_subset _⟩
  have houtput : ∀ e : Expr, e.vars = [] →
      (Statement.assign (.ofVar .output) e).vars ⊆ helper.name :: Γ := by
    intro e he
    rw [Statement.vars, he, List.append_nil]
    exact List.cons_subset.mpr ⟨List.mem_cons_of_mem _ hroot.output, List.nil_subset _⟩
  -- The body of the helper sees its own name, as it may call itself.
  have hblock : Scoped (helper.name :: Γ) (helperBlock helper.target b) :=
    ⟨hinput, ⟨houtput _ rfl, hfields.inScope⟩, ⟨houtput _ rfl, trivial⟩, List.nil_subset _, trivial⟩
  have hname : helper.name ∈
      reads (callCode (guardsAbove q pos job.path inField) job.path helper.name tested) :=
    subset_reads_write _ _ _ _ (List.mem_append_left _ (List.mem_append_right _ List.mem_cons_self))
  refine ⟨?_, ?_, ?_, ?_, hcall.tidy⟩
  · refine scoped_append.mpr ⟨?_, hcall.inScope⟩
    refine ⟨List.nil_subset _, List.cons_subset.mpr ⟨List.mem_cons_self, List.nil_subset _⟩, hblock,
      trivial⟩
  · -- The name is used by the call that follows at the latest.
    refine ⟨List.cons_subset.mpr ⟨?_, List.nil_subset _⟩, List.nil_subset _, ?_, hcall.used⟩
    · exact List.mem_append_right _ (List.mem_append_right _ (List.mem_append_right _ hname))
    · exact ⟨⟨List.nil_subset _, hfields.used⟩, ⟨List.nil_subset _, trivial⟩, List.nil_subset _,
        trivial⟩
  · rw [reads_append]
    exact List.Subset.trans hcall.subjects (List.subset_append_right _ _)
  · intro helement h hh
    rw [after_append]
    exact hcall.helpers helement h hh

omit hmode hroot hp hhelpers in
/-- Fields after one another. -/
theorem fields {f : Field} {gs : List Field} {b' : Code} {r : Progress}
    (hfirst : Confined c fs Δ Γ (.field pos f) b q)
    (hrest : Confined c fs Δ (after Γ b) (.fields pos gs) b' r) :
    Confined c fs Δ Γ (.fields pos (f :: gs)) (b ++ b') r where
  inScope := scoped_append.mpr ⟨hfirst.inScope, hrest.inScope⟩
  used := hfirst.used.append hrest.used
  subjects := List.nil_subset _
  helpers helement h hh := by
    rw [after_append]
    exact hrest.helpers helement h hh
  tidy := hrest.tidy

omit hhelpers in
/-- A record without a source, which is allocated before its fields. -/
theorem allocated {f : Field} {gs : List Field} {type : GoType}
    (hvisible : (Task.field pos f).Visible c fs Δ Γ)
    (hfields : Confined c fs Δ Γ (.fields (pos.unsourced (pos.path f)) gs) b q) :
    Confined c fs Δ Γ (.field pos f) (p.deferred.guards pos.scope (pos.path f) ++
      .step (.assign ⟨.output, pos.path f⟩ (.newRecord type)) b) q := by
  obtain ⟨hpos, group, hgroup, hf⟩ := hvisible
  have hpath := hpos.visible_path hgroup hf
  have hnone : declared (p.deferred.guards pos.scope (pos.path f)) = [] := Deferred.declared_guards
  refine ⟨?_, used_write hnone hfields.used, List.nil_subset _, fun _ h hh => ?_, hfields.tidy⟩
  · exact scoped_write (hp.scoped_guards hmode hroot hpos hpath) hnone hroot.output hpath.vars
      (List.nil_subset _) hfields.inScope
  · rw [after_write hnone]
    exact hfields.helpers rfl h hh

omit hmode hp hhelpers in
/-- An element that is converted by a cast. -/
theorem leafElement {field : String} {type : FieldType} {slot : Slot} {go : GoType}
    (hvisible : (Task.element pos field type slot).Visible c fs Δ Γ) (hflag : slot.selector = none)
    (hp : p.Tidy c fs Δ) :
    Confined c fs Δ Γ (.element pos field type slot)
      (.step (.assign ⟨.output, slot.path⟩ (.convert (.plain go) (.ofVar slot.value))) .done)
      p := by
  obtain ⟨-, hpath, -, hvalue, -⟩ := hvisible
  have hread : [slot.value] ⊆ Γ := List.cons_subset.mpr ⟨hvalue, List.nil_subset _⟩
  refine ⟨⟨List.append_subset_of_subset_of_subset ?_ hread, trivial⟩,
    ⟨List.nil_subset _, trivial⟩, ?_,
    nofun, hp⟩
  · exact List.cons_subset.mpr ⟨hroot.output, hpath.vars⟩
  · have hwrite :=
      subset_reads_write .done slot.path (.convert (.plain go) (.ofVar slot.value)) .done
    rw [Task.subjects, hflag]
    refine List.cons_subset.mpr ⟨hwrite ?_, fun v hv => hwrite ?_⟩
    · exact List.mem_append_left _ (List.mem_append_right _ List.mem_cons_self)
    · rw [Option.toList_none, List.append_nil] at hv
      exact List.mem_append_left _ (List.mem_append_left _ hv)

omit hmode hroot hp hhelpers in
/-- An element that is converted between two branches. Only local functions that were in scope before
are in scope after it. -/
theorem either {field : String} {type : FieldType} {slot : Slot} {target origin origin' : RecordRef}
    {other : Place} {flag : Var} {b' : Code} {r : Progress}
    (hvisible : (Task.element pos field type slot).Visible c fs Δ Γ) (hflag : slot.selector = some flag)
    (hprimary : Confined c fs Δ Γ (.record pos ⟨target, origin, slot.path⟩ type (.ofVar slot.value)
      slot.primary.place false) b q)
    (hother : Confined c fs Δ Γ (.record pos ⟨target, origin', slot.path⟩ type (.ofVar slot.value)
      other false) b' r) :
    Confined c fs Δ Γ (.element pos field type slot) (.fork (.ifFlag flag) b b' .done) r := by
  obtain ⟨-, -, -, -, -, -, hin⟩ := hvisible
  refine ⟨⟨?_, hprimary.inScope, hother.inScope, trivial⟩,
    ⟨hprimary.used, hother.used, trivial⟩, ?_,
    nofun, hother.tidy⟩
  · exact List.cons_subset.mpr ⟨hin flag hflag, List.nil_subset _⟩
  · have hread : ∀ v ∈ reads b, v ∈ reads (.fork (.ifFlag flag) b b' .done) :=
      fun v hv => List.mem_append_right _ (List.mem_append_left _ hv)
    refine List.cons_subset.mpr ⟨hread _ (hprimary.subjects List.mem_cons_self), ?_⟩
    refine List.append_subset_of_subset_of_subset (fun v hv => hread v (hprimary.subjects ?_)) ?_
    · exact List.mem_append_right _ hv
    · rw [hflag]
      exact List.cons_subset.mpr ⟨List.mem_cons_self, List.nil_subset _⟩

end Confined

end Rules

/-! ## Whole derivations -/

section Positions

variable {c : Settings} {fs : List Field} {Δ Γ : List Var} {pos : Position} {job : RecordJob}

/-- The fields of a record that is converted in place are filled where the record stands. -/
theorem Position.Visible.inline {base : Place} (hpos : pos.Visible c fs Δ Γ)
    (hpath : job.path.Visible (c.Plain fs) Δ Γ) (hbase : base.vars ⊆ Γ) :
    (pos.inline c job base).Visible c fs Δ Γ where
  target := hpath
  scope := hpos.scope
  source base' gs h := by
    cases h
    exact hbase
  recursive := hpos.recursive

/-- The fields of a record that is converted by a local function are filled from its own `in`. -/
theorem Position.Visible.inHelper (hpos : pos.Visible c fs Δ Γ)
    (hpath : job.path.Visible (c.Plain fs) Δ Γ) (hinput : .input ∈ Γ)
    (hneeds : c.needsHelper job.target job.source = true) :
    (pos.inHelper c job).Visible c fs Δ Γ where
  target := .nil
  scope := hpos.scope.append hpath
  source base gs h := by
    cases h
    exact List.cons_subset.mpr ⟨hinput, List.nil_subset _⟩
  recursive _ := by
    rw [Settings.isRecursive]
    rw [Settings.needsHelper] at hneeds
    cases hcyclic : c.cyclic with
    | nil => simp [hcyclic] at hneeds
    | cons id ids => rfl

/-- The fields of a record without a source have none, either. -/
theorem Position.Visible.unsourced {path : Path} (hpos : pos.Visible c fs Δ Γ)
    (hpath : path.Visible (c.Plain fs) Δ Γ) : (pos.unsourced path).Visible c fs Δ Γ where
  target := hpath
  scope := hpos.scope
  source := nofun
  recursive := hpos.recursive

end Positions

end RecordBridge

import RecordBridge.Header.Reading
import RecordBridge.Proofs.Conversion.Targets
import RecordBridge.Proofs.Deferred
import RecordBridge.Proofs.Draft
import RecordBridge.Proofs.Header.Execution
import RecordBridge.Proofs.Schema.GoPaths

/-!
# Allocation where headers are read

Required records are allocated when the walk enters them, optional ones before a header beneath them
is written. This is sound where no required record is beneath an optional one: the statements then run
without a fault on every request (`run_reads`). Otherwise it is not: a required record within an
optional one is tested while the optional one is still nil (`sessionWith_nilBelow`).

The walk is followed visit by visit. At each visit every record above it is there or waits in the
table of optional records (`Ready`); a write brings in those that wait, the outermost first
(`exec_guards`). Later visits never take a record away (`Progresses`).
-/

namespace RecordBridge

/-! ## Records that are entered -/

namespace Entered

variable {s : Schema} {fields path path' group group' : List Field} {f : Field} {v : GoValue}

/-- Fields of the same Go names are the same where the names of each group differ. -/
theorem eq_of_names (hnamed : ∀ path group, Entered s fields path group → Named group)
    (h : Entered s fields path group) (h' : Entered s fields path' group')
    (hnames : goNamesOf path = goNamesOf path') : path = path' ∧ group = group' := by
  induction h generalizing path' group' with
  | start =>
    obtain rfl := List.map_eq_nil_iff.mp hnames.symm
    generalize hnil : ([] : List Field) = p at h'
    cases h' with
    | start => exact ⟨rfl, rfl⟩
    | into => exact absurd hnil (List.append_ne_nil_of_right_ne_nil _ (List.cons_ne_nil _ _)).symm
  | @into path group f ref h hf href ih =>
    cases h' with
    | start => exact absurd (List.map_eq_nil_iff.mp hnames) (by simp)
    | @into path' group' f' ref' h' hf' href' =>
      rw [goNamesOf, goNamesOf, List.map_append, List.map_append] at hnames
      obtain ⟨hpath, hlast⟩ := List.append_inj' hnames rfl
      obtain ⟨rfl, rfl⟩ := ih h' hpath
      obtain rfl := (hnamed _ _ h).eq_of_name hf hf' (List.cons.inj hlast).1
      rw [href] at href'
      cases href'
      exact ⟨rfl, rfl⟩

/-- A request has room for each record that can be entered. -/
theorem holds (h : Entered s fields path group) (hv : IsRequest s fields v) :
    (v.follow (goNamesOf path)).isRoom = true ∧ ∀ f ∈ group,
      HoldsRecords s f.type ((v.follow (goNamesOf path)).select (pascal f.name)) := by
  induction h with
  | start => exact ⟨GoValue.isRoom_of_isRecord hv.isRecord, hv.holds⟩
  | @into path group f ref _ hf href ih =>
    have hfield := ih.2 f hf
    rw [goNamesOf, List.map_append, GoValue.follow_append]
    exact ⟨hfield.isRoom href, fun g hg => hfield.select href hg⟩

/-- The fields on the way have plain Go names. -/
theorem plain (hnamed : ∀ path group, Entered s fields path group → Named group)
    (h : Entered s fields path group) : ∀ name ∈ goNamesOf path, IsPlainName name := by
  induction h with
  | start => exact fun name hname => absurd hname List.not_mem_nil
  | @into path group f ref h hf _ ih =>
    rw [goNamesOf, List.map_append, List.forall_mem_append, List.map_singleton,
      List.forall_mem_singleton]
    exact ⟨ih, (hnamed _ _ h).plain f hf⟩

end Entered

/-! ## Paths of fields -/

/-- Selectors of plain names. -/
def PlainPath (path : Path) : Prop :=
  ∃ names : List String, path = names.map .field ∧ ∀ name ∈ names, IsPlainName name

theorem plainPath_family : Path.Family PlainPath where
  shorter := by
    rintro p s ⟨names, hnames, hplain⟩
    obtain ⟨init, last, rfl, rfl, -⟩ := List.map_eq_append_iff.mp hnames.symm
    exact ⟨init, rfl, (List.forall_mem_append.mp hplain).1⟩
  akin := by
    have hlast : ∀ {p s}, PlainPath (p ++ [s]) → ∃ name, s = .field name ∧ IsPlainName name := by
      rintro p s ⟨names, hnames, hplain⟩
      obtain ⟨init, last, rfl, -, hlast⟩ := List.map_eq_append_iff.mp hnames.symm
      obtain ⟨name, rfl, rfl⟩ := List.map_eq_singleton_iff.mp hlast
      exact ⟨name, rfl, hplain name (List.mem_append_right _ (List.mem_singleton_self _))⟩
    intro p s t hs ht
    obtain ⟨a, rfl, ha⟩ := hlast hs
    obtain ⟨b, rfl, hb⟩ := hlast ht
    exact .field ha hb

theorem map_field_injective : Function.Injective (List.map Step.field) :=
  List.map_injective_iff.mpr fun _ _ => Step.field.inj

/-- A path above one of fields selects the first ones of these. -/
theorem exists_names_of_above {k : Path} {names : List String}
    (h : k.Above (names.map .field)) : ∃ m, k = m.map .field ∧ m <+: names ∧ m ≠ names := by
  obtain ⟨s, rest, heq⟩ := h
  obtain ⟨m, more', rfl, rfl, hmore⟩ := List.map_eq_append_iff.mp heq
  refine ⟨m, rfl, List.prefix_append _ _, fun hm => ?_⟩
  obtain rfl : more' = [] := List.append_cancel_left (hm.symm.trans (List.append_nil m).symm)
  cases hmore

theorem above_of_prefix {m names : List String} (h : m <+: names) (hne : m ≠ names) :
    Path.Above (m.map .field) (names.map .field) := by
  obtain ⟨rest, rfl⟩ := h
  cases rest with
  | nil => exact absurd (List.append_nil m).symm hne
  | cons name rest => exact ⟨.field name, rest.map .field, List.map_append⟩

namespace Deferred

variable {d : Deferred} {path : Path} {m names : List String}

/-- What waits where a selector goes on waits where a selector or an index does. -/
theorem waiting_sublist : (d.waiting ['.'] path).Sublist (d.waiting ['.', '['] path) := by
  refine (List.monotone_filter_right _ fun e he => ?_).map _
  rw [Text.goesOnWith] at he ⊢
  split at he
  · rename_i c rest heq
    rw [List.contains_iff_mem, List.mem_singleton] at he
    subst he
    rfl
  · cases he

/-- A record that a path leads through waits for it. -/
theorem mem_waiting_of_prefix (h : d.Holds (m.map .field)) (hm : m <+: names) (hne : m ≠ names) :
    ∃ type, (m.map .field, type) ∈ d.waiting ['.'] (names.map .field) := by
  obtain ⟨type, hmem⟩ := h
  refine ⟨type, List.mem_map.mpr ⟨_, List.mem_filter.mpr ⟨hmem, ?_⟩, rfl⟩⟩
  obtain ⟨rest, rfl⟩ := hm
  cases rest with
  | nil => exact absurd (List.append_nil m).symm hne
  | cons name rest =>
    have htext : (Path.text ((m ++ name :: rest).map .field)).toList =
        (Path.text (m.map .field)).toList ++
          '.' :: (name.toList ++ (Path.text (rest.map .field)).toList) := by
      rw [List.map_append, Path.text_append, List.map_cons,
        show Step.field name :: rest.map .field = [.field name] ++ rest.map .field from rfl,
        Path.text_append, Path.text_singleton, Step.text]
      simp only [String.toList_append, List.append_assoc]
      rfl
    rw [Text.goesOnWith, Text.afterStart?_eq_some.mpr htext]
    rfl

end Deferred

namespace ReadingRequest

variable {r : ReadingRequest} {σ : HeaderState} {p q : Progress} (src : HeaderSource)

/-! ## One write -/

/-- The guards before a write run if each record above it is there or is guarded, and bring all of
them in. -/
theorem exec_guards {above : List (Path × GoType)} (names : List String) {place : Place}
    {code : HeaderCode} (hplace : place.root = .requestBody)
    (hdone : (above.forM fun parent =>
      Draft.write (allocate { place with path := parent.1 } parent.2) : Reading PUnit) p =
        .ok (⟨⟩, code, q))
    (habove : ∀ e ∈ above, ∃ m, e.1 = m.map .field ∧ m <+: names ∧ m ≠ names)
    (hsorted : above.Pairwise fun a b => ¬b.1.Above a.1)
    (hroom : ∀ m, m <+: names → m ≠ names → ((σ.vars .requestBody).follow m).isRoom = true)
    (hall : ∀ m, m <+: names → m ≠ names → ((σ.vars .requestBody).follow m).isRecord = true ∨
      ∃ e ∈ above, e.1 = m.map .field) :
    q = p ∧ ∃ w, HeaderCode.exec src code σ = .ok (σ.set .requestBody w) ∧ w.Solid names ∧
      ∀ Q, GoValue.Extends Q (σ.vars .requestBody) w := by
  induction above generalizing p code σ with
  | nil =>
    cases hdone
    refine ⟨rfl, _, ?_, GoValue.solid_of_records fun m hm hne => ?_, fun Q => .refl⟩
    · rw [HeaderState.set_self, HeaderCode.exec_done]
    · exact (hall m hm hne).resolve_right fun ⟨e, he, _⟩ => absurd he List.not_mem_nil
  | cons e above ih =>
    obtain ⟨hfirst, hlater⟩ := List.pairwise_cons.mp hsorted
    obtain ⟨_, _, _, more, hwrite, hmore, rfl⟩ := Draft.bind_ok.mp hdone
    obtain ⟨rfl, rfl⟩ := Draft.write_ok hwrite
    obtain ⟨path, type⟩ := e
    obtain ⟨m, hm, hinitial, hne⟩ := habove _ List.mem_cons_self
    dsimp only at hm
    subst hm
    -- What is above the first record is there: it would wait before it.
    have hsolid : (σ.vars .requestBody).Solid m := by
      refine GoValue.solid_of_records fun l hl hlne => ?_
      have hlnames : l ≠ names := by
        rintro rfl
        exact hne (hinitial.eq_of_length_le hl.length_le)
      refine (hall l (hl.trans hinitial) hlnames).resolve_right ?_
      rintro ⟨e', he', heq⟩
      rcases List.mem_cons.mp he' with rfl | he'
      · exact hlne (map_field_injective heq).symm
      · exact hfirst e' he' (heq ▸ above_of_prefix hl hlne)
    have hrecord : (((σ.vars .requestBody).allocated m).follow m).isRecord = true :=
      GoValue.isRecord_follow_allocated (hroom m hinitial hne)
    have hextends : ∀ Q, GoValue.Extends Q (σ.vars .requestBody)
        ((σ.vars .requestBody).allocated m) := fun Q => .allocated
    obtain ⟨rfl, w, hexec, hw, hmoreExtends⟩ := ih
      (σ := σ.set .requestBody ((σ.vars .requestBody).allocated m)) hmore
      (fun e he => habove e (List.mem_cons_of_mem _ he)) hlater
      (fun l hl hlne => by
        rw [HeaderState.vars_set]
        exact (hextends fun _ => True).room l trivial (hroom l hl hlne))
      (fun l hl hlne => by
        rw [HeaderState.vars_set]
        rcases hall l hl hlne with h | ⟨e', he', heq⟩
        · exact .inl ((hextends fun _ => True).record l trivial h)
        · rcases List.mem_cons.mp he' with rfl | he'
          · rw [← map_field_injective heq]
            exact .inl hrecord
          · exact .inr ⟨e', he', heq⟩)
    rw [HeaderState.set_set] at hexec
    rw [HeaderState.vars_set] at hmoreExtends
    refine ⟨rfl, w, ?_, hw, fun Q => (hextends Q).trans (hmoreExtends Q)⟩
    show HeaderCode.exec src (.guard { place with path := m.map .field } type more) σ = _
    rw [hplace, HeaderCode.exec_guard hsolid, hexec]

/-! ## What visits rely on -/

/-- The Go names of the fields of the request, and of the records in it, are plain and differ from
each other. -/
def Distinct (r : ReadingRequest) : Prop :=
  ∀ path group, Entered r.schema r.fields path group → Named group

/-- It is enough to look at the records that the schema lists. -/
theorem Distinct.of_records (htop : Named r.fields)
    (hrecords : ∀ entry ∈ r.schema.records, Named entry.2) : r.Distinct := by
  intro path group h
  cases h with
  | start => exact htop
  | into => exact Schema.fields_of_records ⟨nofun, .nil⟩ hrecords _

/-- The names that lead to records. -/
def RecordNames (r : ReadingRequest) (names : List String) : Prop :=
  ∃ path group, Entered r.schema r.fields path group ∧ names = goNamesOf path

/-- The table holds paths of fields, and the request has room for its records. -/
structure Sound (r : ReadingRequest) (p : Progress) (v : GoValue) : Prop where
  within : p.optional.Within PlainPath
  room : ∀ names, r.RecordNames names → (v.follow names).isRoom = true
  isRecord : v.isRecord = true

/-- Each record on a path is there if it is required, and waits in the table if it is not. -/
def Ready (p : Progress) (v : GoValue) (path : List Field) : Prop :=
  ∀ before f, before ++ [f] <+: path →
    if f.required then (v.follow (goNamesOf (before ++ [f]))).isRecord = true
    else p.optional.Holds ((goNamesOf (before ++ [f])).map .field)

/-- Records stay, and what waits goes on waiting. -/
structure Progresses (r : ReadingRequest) (p : Progress) (v : GoValue) (q : Progress)
    (w : GoValue) : Prop where
  extend : GoValue.Extends r.RecordNames v w
  keeps : ∀ k, PlainPath k → p.optional.Holds k → q.optional.Holds k

variable {v w : GoValue} {path group : List Field}

theorem Progresses.refl : r.Progresses p v p v :=
  ⟨.refl, fun _ _ h => h⟩

theorem Progresses.trans {p' : Progress} {u : GoValue} (h : r.Progresses p v p' u)
    (h' : r.Progresses p' u q w) : r.Progresses p v q w :=
  ⟨h.extend.trans h'.extend, fun k hk hp => h'.keeps k hk (h.keeps k hk hp)⟩

theorem Ready.mono (hr : r.Distinct) (hpath : Entered r.schema r.fields path group)
    (h : Ready p v path) (hprogress : r.Progresses p v q w) : Ready q w path := by
  intro before f hinitial
  have hf := h before f hinitial
  obtain ⟨more, rfl⟩ := hinitial
  obtain ⟨_, hentered⟩ := hpath.left
  split at hf
  · rename_i hrequired
    rw [if_pos hrequired]
    exact hprogress.extend.record _ ⟨_, _, hentered, rfl⟩ hf
  · rename_i hoptional
    rw [if_neg hoptional]
    exact hprogress.keeps _ ⟨_, rfl, hentered.plain hr⟩ hf

/-- The names that lead to a record on a path are the first ones of its names. -/
theorem exists_of_prefix {names : List String} {f : Field} (h : names <+: goNamesOf (path ++ [f]))
    (hne : names ≠ goNamesOf (path ++ [f])) :
    ∃ before, before <+: path ∧ names = goNamesOf before := by
  obtain ⟨more, hmore⟩ := h
  obtain ⟨before, after, hsplit, rfl, rfl⟩ := List.map_eq_append_iff.mp hmore.symm
  rcases List.eq_nil_or_concat after with rfl | ⟨init, last, rfl⟩
  · rw [List.append_nil] at hsplit
    rw [hsplit] at hne
    exact absurd rfl hne
  · rw [List.concat_eq_append, ← List.append_assoc] at hsplit
    obtain ⟨rfl, -⟩ := List.append_inj' hsplit rfl
    exact ⟨before, List.prefix_append _ _, rfl⟩

/-- No record is at or below a field that is none. -/
theorem not_prefix_of_leaf (hr : r.Distinct) (hpath : Entered r.schema r.fields path group) {f : Field}
    (hf : f ∈ group) (hleaf : f.type.record? = none) {names : List String}
    (hnames : r.RecordNames names) : ¬goNamesOf (path ++ [f]) <+: names := by
  rintro ⟨more, hmore⟩
  obtain ⟨whole, _, hentered, rfl⟩ := hnames
  -- Records are told apart by their Go names, so the field at these names would be the one that is none.
  obtain ⟨before, after, rfl, hbefore, -⟩ := List.map_eq_append_iff.mp hmore.symm
  obtain ⟨_, hleft⟩ := hentered.left
  rcases List.eq_nil_or_concat before with rfl | ⟨init, last, rfl⟩
  · exact absurd hbefore.symm (by simp [goNamesOf])
  · rw [List.concat_eq_append] at hbefore hleft
    obtain ⟨group', ref, hinit, hlast, href, -⟩ := hleft.last
    rw [goNamesOf, List.map_append, List.map_append] at hbefore
    obtain ⟨hpathNames, hlastName⟩ := List.append_inj' hbefore rfl
    obtain ⟨rfl, rfl⟩ := hinit.eq_of_names hr hpath hpathNames
    rw [(hr _ _ hpath).eq_of_name hlast hf (List.cons.inj hlastName).1, hleaf] at href
    cases href

theorem placeOf_eq (hr : r.Distinct) (hpath : Entered r.schema r.fields path group) {f : Field}
    (hf : f ∈ group) :
    placeOf ⟨path, f⟩ = ⟨.requestBody, (goNamesOf (path ++ [f])).map .field⟩ := by
  have hplain : ∀ name ∈ goNamesOf (path ++ [f]), IsPlainName name := by
    rw [goNamesOf, List.map_append, List.forall_mem_append, List.map_singleton,
      List.forall_mem_singleton]
    exact ⟨hpath.plain hr, (hr _ _ hpath).plain f hf⟩
  show Place.mk .requestBody ((goNamesOf (path ++ [f])).flatMap (Path.select [])) = _
  generalize goNamesOf (path ++ [f]) = names at hplain
  congr 1
  induction names with
  | nil => rfl
  | cons name names ih =>
    obtain ⟨hname, hplain⟩ := List.forall_mem_cons.mp hplain
    rw [List.flatMap_cons, Path.select_of_not_mem hname.1, ih hplain]
    rfl

/-! ## Visits -/

/-- Writing a header to a field that is no record keeps all records. -/
theorem extends_stored {form : HeaderForm} {names : List String} {t : String} {required : Bool}
    (h : ∀ q, r.RecordNames q → ¬names <+: q) :
    GoValue.Extends r.RecordNames v (form.stored src names t required v) := by
  rw [HeaderForm.stored]
  split
  · exact .fill h
  · exact .refl

/-- A header is written to a field in a record that is ready. -/
theorem exec_write (hr : r.Distinct) (hpath : Entered r.schema r.fields path group) {f : Field}
    (hf : f ∈ group) (hleaf : f.type.record? = none) (hsound : r.Sound p (σ.vars .requestBody))
    (hready : Ready p (σ.vars .requestBody) path) {header : HeaderVar} {form : HeaderForm}
    {t : String} {code : HeaderCode} (hvalue : σ.values header = some (.leaf .text t))
    (hdone : store ⟨path, f⟩ header form p = .ok ((), code, q)) :
    q = p ∧ ∃ τ w, HeaderCode.exec src code σ = .ok τ ∧
      τ.vars = (σ.set .requestBody w).vars ∧
      GoValue.Extends r.RecordNames (σ.vars .requestBody) w := by
  have hplace := placeOf_eq hr hpath hf
  rw [store, hplace] at hdone
  obtain ⟨_, _, _, _, hstate, hrest, rfl⟩ := Draft.bind_ok.mp hdone
  obtain ⟨rfl, rfl, rfl⟩ := Draft.state_ok.mp hstate
  obtain ⟨_, guards, _, _, hguards, hwrite, rfl⟩ := Draft.bind_ok.mp hrest
  obtain ⟨rfl, rfl⟩ := Draft.write_ok hwrite
  have hplain : PlainPath ((goNamesOf (path ++ [f])).map .field) := by
    refine ⟨_, rfl, ?_⟩
    rw [goNamesOf, List.map_append, List.forall_mem_append, List.map_singleton,
      List.forall_mem_singleton]
    exact ⟨hpath.plain hr, (hr _ _ hpath).plain f hf⟩
  -- What is above the field is required, and then it is there, or waits, and then it has a guard.
  obtain ⟨rfl, w, hexec, hsolid, hextends⟩ := exec_guards src (σ := σ)
    (goNamesOf (path ++ [f])) rfl hguards
    (fun e he => exists_names_of_above
      (Deferred.above_of_mem_waiting plainPath_family hsound.within hplain
        (Deferred.waiting_sublist.subset he)))
    ((Deferred.pairwise_waiting hsound.within).sublist Deferred.waiting_sublist)
    (fun m hm hne => by
      obtain ⟨before, ⟨more, rfl⟩, rfl⟩ := exists_of_prefix hm hne
      obtain ⟨_, hentered⟩ := hpath.left
      exact hsound.room _ ⟨_, _, hentered, rfl⟩)
    (fun m hm hne => by
      obtain ⟨before, hbefore, rfl⟩ := exists_of_prefix hm hne
      rcases List.eq_nil_or_concat before with rfl | ⟨init, g, rfl⟩
      · exact .inl hsound.isRecord
      · rw [List.concat_eq_append] at hbefore hm hne ⊢
        have hg := hready init g hbefore
        split at hg
        · exact .inl hg
        · obtain ⟨type, hwaits⟩ := Deferred.mem_waiting_of_prefix hg hm hne
          exact .inr ⟨_, hwaits, rfl⟩)
  have hvalue' : (σ.set .requestBody w).values header = some (.leaf .text t) := by
    rw [HeaderState.values_set, hvalue]
  have hsolid' : ((σ.set .requestBody w).vars .requestBody).Solid (goNamesOf (path ++ [f])) := by
    rwa [HeaderState.vars_set]
  obtain ⟨τ, hstore, hvars⟩ := form.exec_store src f.required hvalue' hsolid'
  rw [HeaderState.set_set, HeaderState.vars_set] at hvars
  refine ⟨rfl, τ, _, ?_, hvars, (hextends _).trans (extends_stored src ?_)⟩
  · rw [Block.done_append, HeaderCode.exec_append_of hexec, hstore]
  · exact fun q hq => not_prefix_of_leaf hr hpath hf hleaf hq

/-- A table that stays as it was is sound and goes on holding what waits. -/
theorem Sound.of_extends (h : r.Sound p v) (htable : q.optional = p.optional)
    (hextends : GoValue.Extends r.RecordNames v w) :
    r.Sound q w ∧ r.Progresses p v q w := by
  refine ⟨⟨htable ▸ h.within, fun names hn => hextends.room _ hn (h.room _ hn), ?_⟩, hextends,
    fun k _ hk => htable ▸ hk⟩
  exact hextends.record [] ⟨[], r.fields, .start, rfl⟩ h.isRecord

theorem nextVariable_ok {name : String} {var : HeaderVar} {code : HeaderCode}
    (h : nextVariable name p = .ok (var, code, q)) : code = .done ∧ q.optional = p.optional := by
  obtain ⟨_, _, _, _, hstate, hrest, rfl⟩ := Draft.bind_ok.mp h
  obtain ⟨rfl, rfl, rfl⟩ := Draft.state_ok.mp hstate
  obtain ⟨_, _, _, _, hupdate, hrest, rfl⟩ := Draft.bind_ok.mp hrest
  obtain ⟨rfl, rfl⟩ := Draft.update_ok.mp hupdate
  split at hrest
  · obtain ⟨-, rfl, rfl⟩ := Draft.pure_ok.mp hrest
    exact ⟨rfl, rfl⟩
  · obtain ⟨-, rfl, rfl⟩ := Draft.pure_ok.mp hrest
    exact ⟨rfl, rfl⟩

/-- The statements for a bound field look its header up and write it. -/
theorem exec_readHeader (hr : r.Distinct) (hpath : Entered r.schema r.fields path group) {f : Field}
    (hf : f ∈ group) (hsound : r.Sound p (σ.vars .requestBody))
    (hready : Ready p (σ.vars .requestBody) path) {header : String} {code : HeaderCode}
    (hdone : readHeader r ⟨path, f⟩ header p = .ok ((), code, q)) :
    q.optional = p.optional ∧ ∃ τ, HeaderCode.exec src code σ = .ok τ ∧
      GoValue.Extends r.RecordNames (σ.vars .requestBody) (τ.vars .requestBody) := by
  obtain ⟨form, _, _, _, hform, hlookUp, rfl⟩ := Draft.bind_ok.mp hdone
  obtain ⟨rfl, rfl, hleaf, -⟩ := formFor_ok hform
  obtain ⟨var, _, p₁, _, hvar, hcases, rfl⟩ := Draft.bind_ok.mp hlookUp
  obtain ⟨rfl, htable⟩ := nextVariable_ok hvar
  have hsound₁ := (hsound.of_extends htable .refl).1
  have hready₁ := hready.mono hr hpath (hsound.of_extends htable .refl).2
  -- The text of the header, or none where it is missing, is in scope when it is written.
  have hbind : ∀ text, (σ.bind var (.leaf .text text)).values var = some (.leaf .text text) :=
    fun _ => HeaderState.values_bind
  dsimp only at hcases
  split at hcases
  · obtain ⟨_, _, _, _, hfetch, hrest, rfl⟩ := Draft.bind_ok.mp hcases
    obtain ⟨rfl, rfl⟩ := Draft.write_ok hfetch
    obtain ⟨_, _, _, _, hstore, hupdate, rfl⟩ := Draft.bind_ok.mp hrest
    obtain ⟨rfl, rfl⟩ := Draft.update_ok.mp hupdate
    obtain ⟨rfl, τ, w, hexec, hvars, hextends⟩ := exec_write src
      (σ := σ.bind var (.leaf .text ((src.text header).getD ""))) hr hpath hf hleaf hsound₁ hready₁
      (hbind _) hstore
    refine ⟨htable, τ, ?_, ?_⟩
    · rw [Block.append_done]
      exact hexec
    · rw [hvars, HeaderState.vars_set]
      exact hextends
  · obtain ⟨_, _, _, _, hfetch, hrest, rfl⟩ := Draft.bind_ok.mp hcases
    obtain ⟨rfl, rfl⟩ := Draft.write_ok hfetch
    obtain ⟨_, _, _, _, hnest, hupdate, rfl⟩ := Draft.bind_ok.mp hrest
    obtain ⟨rfl, rfl⟩ := Draft.update_ok.mp hupdate
    obtain ⟨body, hstore, rfl⟩ := Draft.nest_ok hnest
    obtain ⟨rfl, τ, w, hexec, hvars, hextends⟩ := exec_write src
      (σ := (σ.bind var (.leaf .text ((src.text header).getD ""))).keep var
        (src.text header).isSome) hr hpath hf hleaf hsound₁ hready₁ (hbind _) hstore
    refine ⟨htable, ?_⟩
    show ∃ τ, HeaderCode.exec src (.nest (.ifExists var) body .done) (HeaderState.keep _ _ _) = _ ∧ _
    have henter : (HeaderHead.ifExists var).enter src ((σ.bind var
        (.leaf .text ((src.text header).getD ""))).keep var (src.text header).isSome) = _ :=
      HeaderState.enter_ifExists
    split at henter
    · rw [HeaderCode.exec_nest_some henter, hexec]
      refine ⟨_, rfl, ?_⟩
      show GoValue.Extends _ _ (τ.vars .requestBody)
      rw [hvars, HeaderState.vars_set]
      exact hextends
    · rw [HeaderCode.exec_nest_none henter]
      exact ⟨_, rfl, .refl⟩

/-- A record beneath one that is ready is ready itself if it is there or waits. -/
theorem Ready.snoc {f : Field} (h : Ready p v path)
    (hf : if f.required then (v.follow (goNamesOf (path ++ [f]))).isRecord = true
      else p.optional.Holds ((goNamesOf (path ++ [f])).map .field)) : Ready p v (path ++ [f]) := by
  intro before g hinitial
  rcases List.prefix_concat_iff.mp hinitial with heq | hinitial
  · obtain ⟨rfl, hg⟩ := List.append_inj' heq rfl
    cases hg
    exact hf
  · exact h before g hinitial

/-- Beneath required records that are ready there is a place to write to. -/
theorem Ready.solid (h : Ready p v path) (hv : v.isRecord = true)
    (hrequired : ∀ g ∈ path, g.required = true) (f : Field) :
    v.Solid (goNamesOf (path ++ [f])) := by
  refine GoValue.solid_of_records fun m hm hne => ?_
  obtain ⟨before, hbefore, rfl⟩ := exists_of_prefix hm hne
  rcases List.eq_nil_or_concat before with rfl | ⟨init, g, rfl⟩
  · exact hv
  · rw [List.concat_eq_append] at hbefore ⊢
    have hg := h init g hbefore
    have hmem : g ∈ path := hbefore.subset (List.mem_append_right _ (List.mem_singleton_self g))
    rwa [if_pos (hrequired g hmem)] at hg

/-- The statements for a visit of a field in a record that is ready run, and the field is ready then
if it is a record. A required record must not be beneath an optional one. -/
theorem exec_visit (hr : r.Distinct) (hpath : Entered r.schema r.fields path group) {f : Field}
    (hf : f ∈ group) (hsound : r.Sound p (σ.vars .requestBody))
    (hready : Ready p (σ.vars .requestBody) path)
    (hlayered : f.type.record?.isSome = true → f.required = true → ∀ g ∈ path, g.required = true)
    {code : HeaderCode} (hdone : visit r ⟨path, f⟩ p = .ok ((), code, q)) :
    ∃ τ, HeaderCode.exec src code σ = .ok τ ∧ r.Sound q (τ.vars .requestBody) ∧
      r.Progresses p (σ.vars .requestBody) q (τ.vars .requestBody) ∧
      (f.type.record?.isSome = true → Ready q (τ.vars .requestBody) (path ++ [f])) := by
  rw [visit] at hdone
  cases href : f.type.record? with
  | none =>
    rw [href] at hdone
    cases hbound : r.boundHeader? f with
    | none =>
      rw [hbound] at hdone
      cases hdone
      exact ⟨σ, rfl, hsound, .refl, nofun⟩
    | some header =>
      rw [hbound] at hdone
      obtain ⟨htable, τ, hexec, hextends⟩ := exec_readHeader src hr hpath hf hsound hready hdone
      obtain ⟨hsound', hprogress⟩ := hsound.of_extends htable hextends
      exact ⟨τ, hexec, hsound', hprogress, nofun⟩
  | some ref =>
    rw [href] at hdone
    have hentered : Entered r.schema r.fields (path ++ [f]) (r.schema.fields ref) :=
      hpath.into hf href
    obtain ⟨type, _, now, _, htype, hcases, rfl⟩ := Draft.bind_ok.mp hdone
    obtain ⟨-, rfl, rfl⟩ := Draft.ofExcept_ok.mp htype
    rw [placeOf_eq hr hpath hf] at hcases
    dsimp only at hcases
    split at hcases
    · rename_i hrequired
      obtain ⟨rfl, rfl⟩ := Draft.write_ok hcases
      -- A required record lies below required ones only, which are made by now.
      have hsolid : (σ.vars .requestBody).Solid (goNamesOf (path ++ [f])) :=
        hready.solid hsound.isRecord (hlayered (by rw [href]; rfl) hrequired) f
      obtain ⟨hsound', hprogress⟩ := hsound.of_extends (q := q) rfl
        (GoValue.Extends.allocated (p := goNamesOf (path ++ [f])))
      have hexec : HeaderCode.exec src (.guard ⟨.requestBody, _⟩ type .done) σ = _ :=
        HeaderCode.exec_guard hsolid
      refine ⟨_, hexec, ?_, ?_, fun _ => .snoc ?_ ?_⟩
      · rwa [HeaderState.vars_set]
      · rwa [HeaderState.vars_set]
      · rw [HeaderState.vars_set]
        exact hready.mono hr hpath hprogress
      · rw [if_pos hrequired, HeaderState.vars_set]
        exact GoValue.isRecord_follow_allocated (hsound.room _ ⟨_, _, hentered, rfl⟩)
    · rename_i hoptional
      obtain ⟨rfl, rfl⟩ := Draft.update_ok.mp hcases
      have hplain : PlainPath ((goNamesOf (path ++ [f])).map .field) :=
        ⟨_, rfl, hentered.plain hr⟩
      -- An optional record waits; the body stays as it is.
      have hprogress : r.Progresses now (σ.vars .requestBody)
          { now with optional := now.optional.defer ((goNamesOf (path ++ [f])).map .field) type }
          (σ.vars .requestBody) :=
        ⟨.refl, fun k hk h => h.defer plainPath_family hk hplain⟩
      refine ⟨σ, rfl, ⟨hsound.within.defer hplain, hsound.room, hsound.isRecord⟩, hprogress,
        fun _ => (hready.mono hr hpath hprogress).snoc ?_⟩
      rw [if_neg hoptional]
      exact ⟨type, Table.mem_place_self _ _ _⟩

/-! ## The walk -/

/-- A visit of a required record finds no optional record above. -/
def Layered (v : Visit) : Prop :=
  v.field.type.record?.isSome = true → v.field.required = true → ∀ g ∈ v.path, g.required = true

instance (v : Visit) : Decidable (Layered v) :=
  inferInstanceAs (Decidable (_ → _ → _))

/-- The statements for the visits of some fields of a record that is ready run one after the other. -/
theorem exec_visitsBelow (hr : r.Distinct) {depth : Nat} {fields : List Field} {code : HeaderCode}
    (hpath : Entered r.schema r.fields path group) (hfields : ∀ f ∈ fields, f ∈ group)
    (hsound : r.Sound p (σ.vars .requestBody)) (hready : Ready p (σ.vars .requestBody) path)
    (hlayered : ∀ v ∈ r.schema.visitsBelow depth path fields, Layered v)
    (hdone : r.schema.forVisitsBelow r.visit depth path fields p = .ok ((), code, q)) :
    ∃ τ, HeaderCode.exec src code σ = .ok τ ∧ r.Sound q (τ.vars .requestBody) ∧
      r.Progresses p (σ.vars .requestBody) q (τ.vars .requestBody) := by
  -- The outer induction goes into records, the inner one along the fields of one record.
  induction depth generalizing path group fields p q code σ with
  | zero =>
    cases hdone
    exact ⟨σ, rfl, hsound, .refl⟩
  | succ depth ih =>
    rw [Schema.forVisitsBelow] at hdone
    rw [Schema.visitsBelow] at hlayered
    induction fields generalizing p q code σ with
    | nil =>
      cases hdone
      exact ⟨σ, rfl, hsound, .refl⟩
    | cons f fields ihFields =>
      obtain ⟨hf, hfields⟩ := List.forall_mem_cons.mp hfields
      rw [List.flatMap_cons] at hlayered
      obtain ⟨hlayered, hlayeredRest⟩ := List.forall_mem_append.mp hlayered
      obtain ⟨_, b₁, p₁, b₂, hfirst, hrest, rfl⟩ := Draft.bind_ok.mp hdone
      have hvisited : ∃ τ, HeaderCode.exec src b₁ σ = .ok τ ∧ r.Sound p₁ (τ.vars .requestBody) ∧
          r.Progresses p (σ.vars .requestBody) p₁ (τ.vars .requestBody) := by
        dsimp only at hfirst
        split at hfirst
        · cases hfirst
          exact ⟨σ, rfl, hsound, .refl⟩
        · rename_i hnew
          rw [if_neg hnew] at hlayered
          obtain ⟨hlayered, hlayeredInner⟩ := List.forall_mem_cons.mp hlayered
          obtain ⟨_, c₁, p', c₂, hvisit, hinner, rfl⟩ := Draft.bind_ok.mp hfirst
          obtain ⟨τ, hexec, hsound', hprogress, hready'⟩ :=
            exec_visit src hr hpath hf hsound hready hlayered hvisit
          cases href : f.type.record? with
          | none =>
            rw [href] at hinner
            cases hinner
            exact ⟨τ, by rw [Block.append_done, hexec], hsound', hprogress⟩
          | some ref =>
            rw [href] at hinner hlayeredInner
            obtain ⟨υ, hexec', hsound'', hprogress'⟩ := ih (hpath.into hf href) (fun _ h => h)
              hsound' (hready' (by rw [href]; rfl)) hlayeredInner hinner
            refine ⟨υ, ?_, hsound'', hprogress.trans hprogress'⟩
            rw [HeaderCode.exec_append_of hexec, hexec']
      obtain ⟨τ, hexec, hsound', hprogress⟩ := hvisited
      obtain ⟨υ, hexec', hsound'', hprogress'⟩ := ihFields hfields hsound'
        (hready.mono hr hpath hprogress) hlayeredRest hrest
      refine ⟨υ, ?_, hsound'', hprogress.trans hprogress'⟩
      rw [HeaderCode.exec_append_of hexec, hexec']

/-- The lines that read headers are those of statements that run without a fault on every request, if
no required record is beneath an optional one. -/
theorem run_reads (hr : r.Distinct) (hlayered : ∀ v ∈ r.schema.visits r.fields, Layered v)
    {text : List String} (hrun : r.run = .lines text) :
    ∃ code : HeaderCode, text = code.lines.map Line.indented ∧
      ∀ (src : HeaderSource) (σ : HeaderState),
        IsRequest r.schema r.fields (σ.vars .requestBody) →
          ∃ τ, HeaderCode.exec src code σ = .ok τ := by
  rw [run] at hrun
  split at hrun
  · rename_i anyHeader code _ hdraft
    cases hrun
    cases anyHeader with
    | false => exact ⟨.done, rfl, fun src σ _ => ⟨σ, rfl⟩⟩
    | true =>
      refine ⟨code, rfl, fun src σ hrequest => ?_⟩
      obtain ⟨_, walked, _, _, hwalk, hend, rfl⟩ := Draft.bind_ok.mp hdraft
      obtain ⟨_, _, _, _, hstate, hpure, rfl⟩ := Draft.bind_ok.mp hend
      obtain ⟨-, rfl, -⟩ := Draft.state_ok.mp hstate
      obtain ⟨-, rfl, -⟩ := Draft.pure_ok.mp hpure
      have hsound : r.Sound {} (σ.vars .requestBody) :=
        ⟨.empty, fun names ⟨_, _, hentered, hnames⟩ => hnames ▸ (hentered.holds hrequest).1,
          hrequest.isRecord⟩
      -- At the root nothing has been entered yet.
      have hready : Ready {} (σ.vars .requestBody) [] := fun before f hinitial =>
        absurd (List.prefix_nil.mp hinitial)
          (List.append_ne_nil_of_right_ne_nil _ (List.cons_ne_nil _ _))
      obtain ⟨τ, hexec, -, -⟩ := exec_visitsBelow src hr .start (fun _ h => h) hsound hready
        hlayered hwalk
      exact ⟨τ, by rw [Block.append_done, Block.append_done, hexec]⟩
  · exact absurd hrun (Halt.outcome_ne_lines _)

/-! ### Required records within optional ones -/

/-- An optional session with a user whose name is bound to a header. -/
def sessionWith (requiresUser : Bool) : ReadingRequest :=
  { schema := ⟨[(0, [⟨1, "user", requiresUser, .record ⟨1, "User", "session.proto"⟩, []⟩]),
      (1, [⟨2, "name", true, .text, [("gateway.http.ref", "headers.x-name")]⟩])]⟩
    resolve := fun _ => .ok "structs"
    fields := [⟨0, "session", false, .record ⟨0, "Session", "session.proto"⟩, []⟩]
    annotationSpace := defaultSpace }

/-- Whether headers are read, and the statements for that begin with a test of a place. -/
def testsFirst (r : ReadingRequest) (place : Place) : Bool :=
  match r.draft {} with
  | .ok (true, .nest (.ifUnset p) _ _, _) => p = place
  | _ => false

/-- A user that is required is tested before the session that holds it is allocated. Without a
session, each run stops there. -/
theorem sessionWith_nilBelow : ∃ code q, (sessionWith true).draft {} = .ok (true, code, q) ∧
    IsRequest (sessionWith true).schema (sessionWith true).fields .fresh ∧
    ∀ src, HeaderCode.exec src code { vars := fun _ => .fresh } =
      .error (.nilBelow .requestBody) := by
  have hfirst : (sessionWith true).testsFirst
      ⟨.requestBody, [.field "Session", .field "User"]⟩ = true := by
    decide +kernel
  rw [testsFirst] at hfirst
  split at hfirst
  · rename_i p body rest q hdraft
    obtain rfl := of_decide_eq_true hfirst
    exact ⟨_, q, hdraft, ⟨rfl, fun _ _ => .nothing⟩, fun src => rfl⟩
  · cases hfirst

/-- An optional user waits together with the session. -/
theorem sessionWith_run_reads : ∃ text, (sessionWith false).run = .lines text ∧
    ∃ code : HeaderCode, text = code.lines.map Line.indented ∧
      ∀ src : HeaderSource, ∃ τ, HeaderCode.exec src code { vars := fun _ => .fresh } = .ok τ := by
  have hrun : (sessionWith false).run = .lines
      ["xNameValue, _ := req.Header.Get(\"x-name\")",
        "if requestBody.Session == nil \x7b",
        "\trequestBody.Session = &structs.Session\x7b\x7d",
        "\x7d",
        "if requestBody.Session.User == nil \x7b",
        "\trequestBody.Session.User = &structs.User\x7b\x7d",
        "\x7d",
        "requestBody.Session.User.Name = xNameValue"] := by
    decide +kernel
  have hdistinct : (sessionWith false).Distinct :=
    .of_records (by decide +kernel) (by decide +kernel)
  have hlayered : ∀ v ∈ (sessionWith false).schema.visits (sessionWith false).fields, Layered v := by
    decide +kernel
  obtain ⟨code, htext, hreads⟩ := run_reads hdistinct hlayered hrun
  exact ⟨_, hrun, code, htext, fun src => hreads src _ ⟨rfl, fun _ _ => .nothing⟩⟩

end ReadingRequest

end RecordBridge

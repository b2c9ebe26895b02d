import RecordBridge.Proofs.Conversion.Correctness
import RecordBridge.Proofs.Conversion.Following

/-!
# Which source a leaf takes

A leaf with two sources takes the primary one if it is given, that is, if neither it nor anything
on the way to it is nil. If not, it takes what stands in, and if that is not given either, it is
left without a value. The code assigns what stands in first, and then the primary source under a test.

The conversion of a flat target does that for each of its fields, whatever is mapped to them
(`run_arbitrates`). A record takes nothing but its primary source (`eitherRecord_absent`).
-/

namespace RecordBridge

/-! ## The reference -/

/-- What a leaf takes from a source, if that is given. -/
def Source.gives? (f : Field) (input : GoValue) (x : Source) : Option GoValue :=
  (input.given? x.place.path).map (convertedLeaf f x.field)

/-- What a leaf takes from the primary source, or what stands in for it, or nothing. -/
def arbitrated (f : Field) (input : GoValue) : Option Source × Option Source → GoValue
  | (some primary, standIn) =>
    ((primary.gives? f input).or (standIn.bind (·.gives? f input))).getD .absent
  | (none, _) => .absent

/-! ## One source -/

/-- A source feeds a leaf: it is of the same type, and a field of a value that a variable holds, or
of a record in that. An assignment to the leaf is no copy of one in a record. -/
structure Source.Feeds (s : Schema) (σ : State) (input : GoValue) (pos : Position) (f : Field)
    (x : Source) : Prop where
  same : x.field.type.root = f.type.root
  isLocal : x.place.root.isLocal = true
  root : σ.locals x.place.root = input
  fields : ∃ (names : List String) (name : String), (∀ n ∈ names, IsIdentifier n) ∧
    IsIdentifier name ∧ x.place.path = names.map .field ++ [.field name] ∧
    input.Leads s x.field name names ∧ (names = [] ∨ x.place.path.text ≠ (pos.path f).text)

/-- One field more is given if the record is. -/
theorem GoValue.given?_concat (names : List String) (name : String) (v : GoValue) :
    v.given? (names.map .field ++ [.field name]) =
      (v.given? (names.map .field)).bind fun u => u.given? [.field name] := by
  induction names generalizing v with
  | nil => cases v <;> rfl
  | cons m names ih =>
    cases v with
    | record vs => exact ih (vs m)
    | _ => rfl

/-- What follows a test that fails does not matter. -/
theorem State.allSet_append_of_false {σ : State} {ps : List Place} (h : σ.allSet ps = .ok false)
    (qs : List Place) : σ.allSet (ps ++ qs) = .ok false := by
  induction ps with
  | nil => cases h
  | cons p ps ih =>
    rw [List.cons_append, State.allSet]
    rw [State.allSet] at h
    cases hread : σ.read p with
    | error fault =>
      rw [hread] at h
      cases h
    | ok v =>
      rw [hread] at h
      show (if v.isSet then _ else _) = _
      change (if v.isSet then _ else _) = _ at h
      by_cases hset : v.isSet = true
      · rw [if_pos hset] at h ⊢
        exact ih h
      · rw [if_neg hset]

/-- No value of a leaf is made from nil. -/
theorem convertedLeaf_absent {s : Schema} {f g : Field} (hleaf : f.type.root.isLeaf = true)
    (hsame : g.type.root = f.type.root) (hfits : Fits s (!g.required) g.type .absent) :
    convertedLeaf f g .absent = .absent := by
  rw [convertedLeaf]
  by_cases hbinary : f.type.root = .binary
  · rw [if_pos hbinary]
  · rw [if_neg hbinary]
    have hplain : g.type.root.isPlain = true := by
      rw [hsame]
      cases hroot : f.type.root <;> simp_all [FieldType.isLeaf, FieldType.isPlain]
    have hoptional : g.required = false := by
      generalize heq : (!g.required) = optional at hfits
      cases hfits with
      | nothing h => simpa [hplain, ← heq] using h
    rw [hoptional]
    cases f.required <;> rfl

section Assignments

variable {c : Settings} {order : Order} {σ : State} {input old : GoValue} {pos : Position}
  {f : Field} {x : Source}

theorem Source.Feeds.withOut (h : x.Feeds c.schema σ input pos f) (o : GoValue) :
    x.Feeds c.schema { σ with out := o } input pos f :=
  ⟨h.same, h.isLocal, h.root, h.fields⟩

/-- What an assignment of a source does: it writes what the source gives. If that is nothing, it
keeps what is there, or writes nil where it is not asked to keep it. -/
theorem Source.Feeds.runs (h : x.Feeds c.schema σ input pos f) (hleaf : f.type.root.isLeaf = true)
    (hset : input.isSet = true) (hget : σ.out.get .output ((pos.path f).map σ.access) = .ok old)
    (type : GoType) (onlyIfSet : Bool) :
    ∃ o, Runs order ((leafAssignment pos f type x onlyIfSet).code .done) σ { σ with out := o } ∧
      match x.gives? f input with
      | some w => Writes 0 σ (pos.path f) w { σ with out := o }
      | none => o = σ.out ∨ onlyIfSet = false ∧
        Writes 0 σ (pos.path f) .absent { σ with out := o } := by
  obtain ⟨names, name, hnames, hname, hpath, hleads, hcopy⟩ := h.fields
  have hplace : x.place = Place.select ⟨x.place.root, names.map .field⟩ name := by
    rw [Place.select, hname.select, ← hpath]
  have hread : σ.read ⟨x.place.root, []⟩ = .ok input :=
    congrArg Except.ok ((σ.value_of_isLocal h.isLocal).trans h.root)
  obtain ⟨hall, hrecord⟩ := State.allSet_selections hnames hread hset hleads
  have hgives : x.gives? f input = ((input.given? (names.map .field)).bind
      fun u => u.given? [.field name]).map (convertedLeaf f x.field) := by
    rw [Source.gives?, hpath, GoValue.given?_concat]
  cases hgiven : input.given? (names.map .field) with
  | none =>
    -- Something on the way is nil, and that is tested.
    rw [hgives, hgiven]
    refine ⟨σ.out, Assignment.runs_skipped ?_, .inl rfl⟩
    have hne : x.place.path.text ≠ (pos.path f).text := by
      refine hcopy.resolve_left ?_
      rintro rfl
      rw [show input.given? (List.map Step.field []) = some input from if_pos hset] at hgiven
      cases hgiven
    have hnot : (leafAssignment pos f type x onlyIfSet).isCopy = false :=
      Bool.and_eq_false_iff.mpr (.inr (decide_eq_false hne))
    rw [hgiven] at hall
    have hselections : x.place.selections =
        Place.selections ⟨x.place.root, names.map .field⟩ ++ [x.place] := by
      have hlast := Place.selections_concat x.place.root hnames hname
      rwa [← hplace] at hlast
    rw [Assignment.tested, hnot, if_neg Bool.false_ne_true]
    show σ.allSet (if _ then x.place.selections else x.place.selections.dropLast) = _
    rw [hselections, List.dropLast_concat]
    split
    · exact State.allSet_append_of_false hall _
    · exact hall
  | some u =>
    obtain ⟨hread', vs, rfl, hfits⟩ := hrecord u hgiven
    have hvalue : σ.read x.place = .ok (vs name) := by
      rw [State.read, hpath, List.map_append]
      exact GoValue.get_append hread'
    have htested : σ.allSet (leafAssignment pos f type x onlyIfSet).tested =
        .ok (!(onlyIfSet || (leafAssignment pos f type x onlyIfSet).needsSource) ||
          (vs name).isSet) := allSet_tested hname hplace hvalue
    rw [hgives, hgiven]
    by_cases hthere : (vs name).isSet = true
    · obtain ⟨o, hruns, hwrites⟩ := leafAssignment_writes (c := c) (n := 0) hleaf h.same hvalue
        hfits (by rw [htested, hthere, Bool.or_true]) (fun _ => hthere) hget
      refine ⟨o, hruns, ?_⟩
      rw [show ((some (GoValue.record vs)).bind fun u => u.given? [.field name]) =
        some (vs name) from if_pos hthere]
      exact hwrites
    · have habsent := GoValue.eq_absent hthere
      rw [show ((some (GoValue.record vs)).bind fun u => u.given? [.field name]) = none from
        if_neg hthere]
      rw [habsent] at hvalue hfits htested
      cases hskip : onlyIfSet || (leafAssignment pos f type x onlyIfSet).needsSource with
      | true =>
        rw [hskip] at htested
        exact ⟨σ.out, Assignment.runs_skipped htested, .inl rfl⟩
      | false =>
        obtain ⟨honly, hneeds⟩ := Bool.or_eq_false_iff.mp hskip
        rw [hskip] at htested
        obtain ⟨o, hruns, hwrites⟩ := leafAssignment_writes (c := c) (n := 0) hleaf h.same hvalue
          hfits htested (fun h => by rw [hneeds] at h; cases h) hget
        rw [convertedLeaf_absent hleaf h.same hfits] at hwrites
        exact ⟨o, hruns, .inr ⟨honly, hwrites⟩⟩

/-- The first assignment finds the leaf without a value. -/
theorem Source.Feeds.runs_first (h : x.Feeds c.schema σ input pos f)
    (hleaf : f.type.root.isLeaf = true) (hset : input.isSet = true)
    (hget : σ.out.get .output ((pos.path f).map σ.access) = .ok .absent)
    (huntouched : Writes 0 σ (pos.path f) .absent σ) (type : GoType) :
    ∃ o, Runs order ((leafAssignment pos f type x false).code .done) σ { σ with out := o } ∧
      Writes 0 σ (pos.path f) ((x.gives? f input).getD .absent) { σ with out := o } := by
  obtain ⟨o, hruns, hwrites⟩ := h.runs hleaf hset hget type false
  refine ⟨o, hruns, ?_⟩
  cases hgives : x.gives? f input with
  | some w =>
    rw [hgives] at hwrites
    exact hwrites
  | none =>
    rw [hgives] at hwrites
    rcases hwrites with rfl | ⟨-, hwrites⟩
    · exact huntouched
    · exact hwrites

/-- The assignments to a leaf write what it takes from its sources. -/
theorem leafCode_runs {primary : Source} {standIn : Option Source}
    (hprimary : primary.Feeds c.schema σ input pos f)
    (hstandIn : ∀ x, standIn = some x → x.Feeds c.schema σ input pos f)
    (hleaf : f.type.root.isLeaf = true) (hset : input.isSet = true) (hpath : (pos.path f).Known 0)
    (hget : σ.out.get .output ((pos.path f).map σ.access) = .ok .absent)
    (huntouched : Writes 0 σ (pos.path f) .absent σ) (type : GoType) :
    ∃ o, Runs order (leafCode .done pos f type primary standIn) σ { σ with out := o } ∧
      Writes 0 σ (pos.path f) (arbitrated f input (some primary, standIn)) { σ with out := o } := by
  cases standIn with
  | none =>
    obtain ⟨o, hruns, hwrites⟩ :=
      hprimary.runs_first hleaf hset hget huntouched type
    refine ⟨o, hruns, ?_⟩
    simpa [arbitrated] using hwrites
  | some x =>
    obtain ⟨o₁, hruns₁, hwrites₁⟩ :=
      (hstandIn x rfl).runs_first hleaf hset hget huntouched type
    -- The primary source goes over what stands in, if it gives something.
    obtain ⟨o₂, hruns₂, hwrites₂⟩ := (hprimary.withOut o₁).runs hleaf hset
      (hwrites₁.get hpath) type true
    refine ⟨o₂, hruns₁.append hruns₂, ?_⟩
    cases hgives : primary.gives? f input with
    | some w =>
      rw [hgives] at hwrites₂
      have hboth := hwrites₁.trans hwrites₂ hpath (Nat.le_refl 0)
      simpa [arbitrated, hgives] using hboth
    | none =>
      rw [hgives] at hwrites₂
      have hkept : o₂ = o₁ := hwrites₂.resolve_right fun h => Bool.false_ne_true h.1.symm
      subst hkept
      simpa [arbitrated, hgives] using hwrites₁

end Assignments

/-! ## Flat records -/

section Fields

variable {c : Settings} {order : Order} {σ : State} {input : GoValue} {pos : Position}

/-- The fields of a flat record take what their sources give, one after the other. -/
theorem fields_arbitrated {fs : List Field} {p q : Progress} {b : Code}
    (h : Emits c (.fields pos fs) p b q) (hdeferred : p.deferred = .empty)
    (htarget : pos.target = [])
    (hinput : input.isSet = true) (hnames : Identified fs)
    (hdistinct : fs.Pairwise fun f g => pascal f.name ≠ pascal g.name)
    (hleaves : ∀ f ∈ fs, f.type.root.isLeaf = true)
    (hfeeds : ∀ f ∈ fs, ∀ x, (sourcesOf c pos f (pos.key f)).1 = some x ∨
      (sourcesOf c pos f (pos.key f)).2 = some x → x.Feeds c.schema σ input pos f)
    {ws : String → GoValue} (hout : σ.out = .record ws)
    (habsent : ∀ f ∈ fs, ws (pascal f.name) = .absent) :
    ∃ ws', Runs order b σ { σ with out := .record ws' } ∧
      (∀ f ∈ fs, ws' (pascal f.name) = arbitrated f input (sourcesOf c pos f (pos.key f))) ∧
      ∀ name, (∀ f ∈ fs, pascal f.name ≠ name) → ws' name = ws name := by
  induction fs generalizing p b σ ws with
  | nil =>
    cases h
    refine ⟨ws, ?_, nofun, fun _ _ => rfl⟩
    rw [← hout]
    exact .done
  | cons f fs ih =>
    cases h with
    | @moreFields _ _ _ _ p' _ b₁ b₂ hfirst hrest =>
    have hleaf := hleaves f List.mem_cons_self
    have hpath : pos.path f = [.field (pascal f.name)] := by
      rw [Position.path_eq (hnames f List.mem_cons_self), htarget, List.nil_append]
    have hnone : ws (pascal f.name) = .absent := habsent f List.mem_cons_self
    -- The first field is filled, and nothing else changes.
    have hstep : p'.deferred = .empty ∧ ∃ w, Runs order b₁ σ
        { σ with out := .record (Function.update ws (pascal f.name) w) } ∧
          w = arbitrated f input (sourcesOf c pos f (pos.key f)) := by
      cases hfirst with
      | @leaf _ _ _ primary standIn type hsources =>
        refine ⟨hdeferred, _, ?_, rfl⟩
        have hget : σ.out.get .output ((pos.path f).map σ.access) = .ok .absent := by
          rw [hpath, hout, ← hnone]
          rfl
        have huntouched : Writes 0 σ (pos.path f) .absent σ := by
          rw [hpath, ← List.nil_append [Step.field _]]
          exact Writes.untouched (congrArg Except.ok hout) hnone
        have hsource := hfeeds f List.mem_cons_self
        rw [hsources] at hsource ⊢
        obtain ⟨o, hruns, hwrites⟩ := leafCode_runs (hsource primary (.inl rfl))
          (fun x hx => hsource x (.inr hx)) hleaf hinput
          (hpath ▸ .singleton (Nat.le_refl 0)) hget huntouched type
        have hput := hwrites.out
        rw [hpath, hout] at hput
        cases hput
        rw [hdeferred]
        exact hruns
      | recordField _ hroot =>
        rw [hroot] at hleaf
        cases hleaf
      | containerField _ hroot =>
        rw [FieldType.isLeaf_of_isContainer hroot] at hleaf
        cases hleaf
      | allocated _ hrecord | deferred _ hrecord =>
        rw [FieldType.root_of_record hrecord] at hleaf
        cases hleaf
      | unset hsources =>
        refine ⟨hdeferred, .absent, ?_, by rw [hsources]; rfl⟩
        rw [← hnone, Function.update_eq_self, ← hout]
        exact .done
    obtain ⟨hdeferred', w, hruns, hw⟩ := hstep
    have hne : ∀ g ∈ fs, pascal g.name ≠ pascal f.name :=
      fun g hg heq => (List.pairwise_cons.mp hdistinct).1 g hg heq.symm
    obtain ⟨ws', hruns', htaken, hothers⟩ := ih hrest hdeferred'
      (fun g hg => hnames g (List.mem_cons_of_mem _ hg)) (List.pairwise_cons.mp hdistinct).2
      (fun g hg => hleaves g (List.mem_cons_of_mem _ hg))
      (fun g hg x hx => (hfeeds g (List.mem_cons_of_mem _ hg) x hx).withOut
        (.record (Function.update ws (pascal f.name) w)))
      rfl fun g hg => by
        rw [Function.update_of_ne (hne g hg)]
        exact habsent g (List.mem_cons_of_mem _ hg)
    refine ⟨ws', hruns.append hruns', ?_, fun name hname => ?_⟩
    · intro g hg
      rcases List.mem_cons.mp hg with rfl | hg
      · rw [hothers _ hne, Function.update_self, hw]
      · exact htaken g hg
    · rw [hothers name fun g hg => hname g (List.mem_cons_of_mem _ hg),
        Function.update_of_ne (hname f List.mem_cons_self).symm]

end Fields

namespace ConversionRequest

variable {r : ConversionRequest}

/-! ## Conversions of flat records -/

/-- The target is flat, the names are identifiers, and each leaf is of the type of its sources. -/
structure Flat (r : ConversionRequest) : Prop where
  leaves : ∀ f ∈ r.target, f.type.root.isLeaf = true
  target : Identified r.target
  distinct : r.target.Pairwise fun f g => pascal f.name ≠ pascal g.name
  source : Identified r.source
  record : ∀ ref, Identified (r.schema.fields ref)
  direct : ∀ f ∈ r.target, ∀ g ∈ r.source, f.MatchedBy g → g.type.root = f.type.root
  mapped : ∀ f ∈ r.target, ∀ entry ∈ r.mappings.entries, entry.1 = pascal f.name →
    ∀ found ∈ r.schema.sourceAt? r.source entry.2.source, found.2.type.root = f.type.root

/-- The path of a field in a record is not that of one field. -/
theorem text_ne_of_fields {names : List String} {name field : String} (hne : names ≠ [])
    (hfield : IsIdentifier field) :
    Path.text (names.map .field ++ [.field name]) ≠ Path.text [.field field] := by
  obtain ⟨first, rest, rfl⟩ := List.exists_cons_of_ne_nil hne
  intro heq
  have htail : '.' ∈ field.toList := by
    have hlist := congrArg String.toList heq
    rw [List.map_cons, ← List.singleton_append, Path.text_append, Path.text_append] at hlist
    simp only [Path.text_singleton, Step.text, String.toList_append] at hlist
    have hdot : ".".toList = ['.'] := rfl
    rw [hdot] at hlist
    simp only [List.cons_append, List.cons.injEq, true_and, List.nil_append] at hlist
    rw [← hlist]
    simp
  exact absurd (hfield _ htail) (by decide)

theorem start_path {f : Field} (hname : IsIdentifier f.name) :
    r.start.path f = [.field (pascal f.name)] ∧ r.start.key f = pascal f.name := by
  have hpath : r.start.path f = [.field (pascal f.name)] := by
    rw [Position.path_eq hname]
    rfl
  refine ⟨hpath, ?_⟩
  rw [Position.key, hpath]
  show Path.bare [.field (pascal f.name)] = _
  simp [Path.bare, Path.text_singleton, Step.text, String.toList_append]

/-- The sources of the leaves of a flat target. -/
theorem Flat.feeds {mapped : List (String × MappedField)} {vs : String → GoValue} {σ : State}
    (h : r.Flat) (hmapped : r.schema.followMappings r.source r.mappings.entries = .ok mapped)
    (hvs : FieldsFit r.schema r.source vs) (hin : σ.locals .input = .record vs)
    (hroot : (r.settings mapped).mapped ≠ [] →
      σ.locals (r.settings mapped).mappedRoot = .record vs) {f : Field} (hf : f ∈ r.target)
    (x : Source)
    (hx : (sourcesOf (r.settings mapped) r.start f (r.start.key f)).1 = some x ∨
      (sourcesOf (r.settings mapped) r.start f (r.start.key f)).2 = some x) :
    x.Feeds r.schema σ (.record vs) r.start f := by
  obtain ⟨hpath, hkey⟩ := start_path (r := r) (h.target f hf)
  -- A source is the field of the same name, or one to which a mapping leads through records.
  have hall : (∀ x, (sourcesOf (r.settings mapped) r.start f (r.start.key f)).1 = some x →
        x.Feeds r.schema σ (.record vs) r.start f) ∧
      ∀ x, (sourcesOf (r.settings mapped) r.start f (r.start.key f)).2 = some x →
        x.Feeds r.schema σ (.record vs) r.start f := by
    refine sourcesOf_forall (fun x hx => ?_) fun m hm => ?_
    · obtain ⟨hmem, hname, hplace⟩ := directSource_some rfl hx
      have hident := (h.source _ hmem).pascal
      rw [Place.select, hident.select] at hplace
      refine ⟨h.direct f hf _ hmem hname, by rw [hplace]; rfl, by rw [hplace]; exact hin, [], _,
        fun _ hn => absurd hn List.not_mem_nil,
        hident, by rw [hplace]; rfl, hvs _ hmem, .inl rfl⟩
    · have hmem : (r.start.key f, m) ∈ mapped := Settings.mem_of_mapping? hm
      obtain ⟨mapping, hentry, hsource⟩ := mem_followMappings hmapped _ hmem
      obtain ⟨names, name, hnames, hname, hfound, hleads⟩ :=
        followSource_spec h.record h.source hsource
      have hlocal := (r.settings mapped).mappedRoot_spec.1
      refine ⟨h.mapped f hf _ hentry hkey _ hsource, hlocal, hroot (List.ne_nil_of_mem hmem), names,
        name, hnames, hname, hfound, hleads vs hvs, ?_⟩
      -- A mapped source of the target's own name lies in a record, so that its path is another one.
      by_cases hnil : names = []
      · exact .inl hnil
      · refine .inr ?_
        show Path.text m.path ≠ _
        rw [show m.path = _ from hfound, hpath, List.nil_append]
        exact text_ne_of_fields hnil (h.target f hf).pascal
  exact hx.elim (hall.1 x) (hall.2 x)

/-- **Leaves take their sources in order**: the conversion of any record to a flat target leaves in
each field what its primary source gives, or what stands in for that gives, or nothing. -/
theorem run_arbitrates (h : r.Flat) {text : List String} (hrun : r.run = .lines text) :
    ∃ mapped, r.schema.followMappings r.source r.mappings.entries = .ok mapped ∧
      ∃ b : Code, text = b.lines.map Line.indented ∧
        ∀ (order : Order) (vs : String → GoValue), FieldsFit r.schema r.source vs →
          ∃ σ ws, Runs order b (.start (.record vs)) σ ∧ σ.out = .record ws ∧
            ∀ f ∈ r.target, ws (pascal f.name) = arbitrated f (.record vs)
              (sourcesOf (r.settings mapped) r.start f (r.start.key f)) := by
  obtain ⟨b, q, hdraft, rfl⟩ := draft_of_run hrun
  obtain ⟨mapped, body, hmapped, rfl, hemits⟩ := emits_of_draft hdraft
  refine ⟨mapped, hmapped, _, rfl, fun order vs hvs => ?_⟩
  obtain ⟨σ, hpreamble, hout, -, hin, hroot⟩ := exec_preamble (r.settings mapped) (.record vs)
  obtain ⟨ws, hruns, htaken, -⟩ := fields_arbitrated hemits rfl rfl rfl h.target h.distinct h.leaves
    (fun f hf => h.feeds hmapped hvs hin hroot hf) hout fun _ _ => rfl
  exact ⟨_, ws, (Runs.of_exec (hpreamble order)).append hruns, rfl, htaken⟩

/-! ### A record with two sources -/

/-- A conversion of a record that another one overrides. -/
def eitherRecord : ConversionRequest :=
  let foo : FieldType := .record ⟨0, "Foo", "structs"⟩
  { schema := ⟨[(0, [⟨0, "name", true, .text, []⟩])]⟩
    resolve := fun _ => .ok "structs"
    source := [⟨0, "one", false, foo, []⟩, ⟨1, "two", false, foo, []⟩]
    target := [⟨0, "one", false, foo, []⟩]
    mappings := Table.empty.insert "One" ⟨"Two", true⟩
    optional := [] }

/-- Only the record with the direct source. -/
def onlyOne : String → GoValue :=
  Function.update (fun _ => .absent) "One" (.record fun _ => .plain (.leaf .text "x"))

theorem onlyOne_fits : FieldsFit eitherRecord.schema eitherRecord.source onlyOne := by
  intro f hf
  rcases List.mem_cons.mp hf with rfl | hf
  · refine .record rfl fun g hg => ?_
    rw [List.mem_singleton.mp hg]
    exact .plain rfl
  · rw [List.mem_singleton.mp hf]
    exact .nothing (.inl rfl)

/-- Nothing stands in for a record: it is left nil although its direct source is there. -/
theorem eitherRecord_absent : ∃ b q, eitherRecord.draft {} = .ok ((), b, q) ∧
    FieldsFit eitherRecord.schema eitherRecord.source onlyOne ∧
    ∀ order depth, ∃ σ ws, RecordBridge.run order depth b (.start (.record onlyOne)) = .ok σ ∧
      σ.out = .record ws ∧ ws "One" = .absent := by
  refine ⟨_, _, by with_unfolding_all rfl, onlyOne_fits, fun order depth => ?_⟩
  obtain ⟨call, hcall, -⟩ := exists_run_eq_exec order depth
  rw [hcall]
  exact ⟨_, _, by with_unfolding_all rfl, by with_unfolding_all rfl, by with_unfolding_all rfl⟩

end ConversionRequest

end RecordBridge

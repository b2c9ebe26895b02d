import RecordBridge.Proofs.Conversion.Scope

/-!
# Sound statements

What it means that the statements which are emitted for a task are sound: they run to the end, fill
one place of the target with what the reference conversion asks for, and keep all else. Fields and
records are shown to be sound here, from that of what they hold.

Local functions call each other with parts of the record that they are called with, so all is about
the parts of one value `v`, below which calls are taken for granted (`Callable`).
-/

namespace RecordBridge

open Relation

/-- Nothing, or a part of a value at some depth. -/
def GoValue.Inside (u v : GoValue) : Prop :=
  u = .absent ∨ TransGen GoValue.Part u v

/-- A place to read from holds a value. -/
structure Holds (n : Nat) (σ : State) (p : Place) (u : GoValue) : Prop where
  isSource : p.IsSource n
  read : σ.read p = .ok u

theorem Holds.frame {n m : Nat} {σ τ : State} {p : Place} {u : GoValue} (h : Holds n σ p u)
    (hframe : Frame n σ τ) (hle : n ≤ m) : Holds m τ p u :=
  ⟨h.isSource.mono hle, (hframe.read h.isSource).trans h.read⟩

/-- The source of a position holds a record with some values, which is found in `v`. -/
structure SourceAt (c : Settings) (v : GoValue) (n : Nat) (σ : State) (pos : Position)
    (gs : List Field) (vs : String → GoValue) (base : Place) : Prop where
  source : pos.source = some (base, gs)
  holds : Holds n σ base (.record vs)
  inside : ReflTransGen GoValue.Part (.record vs) v
  fits : FieldsFit c.schema gs vs

theorem SourceAt.frame {c : Settings} {v : GoValue} {n m : Nat} {σ τ : State} {pos : Position}
    {gs : List Field} {vs : String → GoValue} {base : Place} (h : SourceAt c v n σ pos gs vs base)
    (hframe : Frame n σ τ) (hle : n ≤ m) : SourceAt c v m τ pos gs vs base :=
  ⟨h.source, h.holds.frame hframe hle, h.inside, h.fits⟩

section Soundness

variable (c : Settings) (order : Order) (M : FieldType → FieldType → Prop) (v : GoValue)

/-- A call of a function in scope with a record converts it, and keeps the whole target. -/
def Callable (u : GoValue) : Prop :=
  ∀ {h : Helper} {hs : List Helper} {f : LocalFunction} {fs : List LocalFunction}
    {t ut : FieldType} {target source : RecordRef} {optional : Bool} (σ : State),
    InScope c (h :: hs) (f :: fs) → t.root = .record target → ut.root = .record source →
    h.target = target.id → h.source = source.id → M t ut → Fits c.schema optional ut u →
    ∃ ρ, Runs order f.body (σ.enter f (f :: fs) u) ρ ∧ ρ.whole = some (σ.whole.getD σ.out) ∧
      Converted c.schema t ut u ρ.out

/-- A block fills a place below `out` with a value that satisfies `R`, and ends where the statements
after it can run. -/
def Fills (p : Progress) (b : Code) (q : Progress) (σ : State) (path : Path)
    (R : GoValue → Prop) : Prop :=
  ∃ τ w, Runs order b σ τ ∧ Writes p.counter σ path w τ ∧ Ready c q τ ∧ R w

/-- The statements for some fields fill them from a record that is found in `v`, and leave the other
fields of the target as they are. -/
def FieldsSound (pos : Position) (fs : List Field) (p : Progress) (b : Code) (q : Progress) :
    Prop :=
  ∀ {σ : State} {gs : List Field} {vs ws : String → GoValue} {base : Place}, Ready c p σ →
    SourceAt c v p.counter σ pos gs vs base → Pairing M fs gs → pos.target.Known p.counter →
    σ.out.get .output (pos.target.map σ.access) = .ok (.record ws) →
    (∀ f ∈ fs, ws (pascal f.name) = .absent) →
    Fills c order p b q σ pos.target fun w => ∃ ws', w = .record ws' ∧
      (∀ f ∈ fs, FieldConverted c.schema gs vs f (ws' (pascal f.name))) ∧
      ∀ name, (∀ f ∈ fs, pascal f.name ≠ name) → ws' name = ws name

/-- The statements for a record convert one that is found in `v`. -/
def RecordSound (job : RecordJob) (type : FieldType) (tested base : Place) (p : Progress) (b : Code)
    (q : Progress) : Prop :=
  ∀ {σ : State} {ut : FieldType} {u old : GoValue} {optional : Bool}, Ready c p σ →
    job.path.Known p.counter → Holds p.counter σ tested u →
    (u.isSet = true → Holds p.counter σ base u) → type.root = .record job.target →
    ut.root = .record job.source → M type ut → Fits c.schema optional ut u → u.Inside v →
    σ.out.get .output (job.path.map σ.access) = .ok old →
    Fills c order p b q σ job.path fun w => Converted c.schema type ut u w

/-- The statements for a container convert one that is found in `v`. -/
def ContainerSound (type : FieldType) (job : ContainerJob) (p : Progress) (b : Code)
    (q : Progress) : Prop :=
  ∀ {σ : State} {t : FieldType} {u old : GoValue} {optional : Bool}, Ready c p σ →
    job.standIn = none → t.root = type → M t job.primary.type → job.path.Known p.counter →
    Holds p.counter σ job.primary.place u → Fits c.schema optional job.primary.type u →
    u.Inside v → σ.out.get .output (job.path.map σ.access) = .ok old →
    Fills c order p b q σ job.path fun w => Converted c.schema t job.primary.type u w

/-- The statements for an element convert one that is found in `v`. -/
def ElementSound (type : FieldType) (slot : Slot) (p : Progress) (b : Code) (q : Progress) :
    Prop :=
  ∀ {σ : State} {u old : GoValue}, Ready c p σ → slot.standIn = none →
    M type slot.primary.type → slot.path.Known p.counter →
    Holds p.counter σ (.ofVar slot.value) u → Holds p.counter σ slot.primary.place u →
    Fits c.schema false slot.primary.type u → u.Inside v →
    σ.out.get .output (slot.path.map σ.access) = .ok old →
    Fills c order p b q σ slot.path fun w => Converted c.schema type slot.primary.type u w

/-- The statements that are emitted for a task are sound: they convert values that are found in
`v`. -/
def Task.Sound : Task → Progress → Code → Progress → Prop
  | .fields pos fs => FieldsSound c order M v pos fs
  | .field pos f => FieldsSound c order M v pos [f]
  | .record _ job type tested base _ => RecordSound c order M v job type tested base
  | .container _ type job => ContainerSound c order M v type job
  | .element _ _ type slot => ElementSound c order M v type slot

end Soundness

variable {c : Settings} {order : Order} {M : FieldType → FieldType → Prop} {v : GoValue}
  {p q : Progress} {b : Code} {σ τ : State} {pos : Position} {f : Field}

/-! ## Fields -/

/-- The path of a field with an identifier for its name. -/
theorem Position.path_eq (hname : IsIdentifier f.name) :
    pos.path f = pos.target ++ [.field (pascal f.name)] :=
  hname.pascal.select _

/-- The path of a field with an identifier for its name has no indices but those of its record's path. -/
theorem Position.known_path {n : Nat} (hname : IsIdentifier f.name) (h : pos.target.Known n) :
    (pos.path f).Known n := by
  rw [Position.path_eq hname]
  exact h.append (.singleton (Nat.zero_le n))

/-- One field is filled by a value that is written to its path. -/
theorem fieldsSound_of_fills
    (h : ∀ {σ : State} {gs : List Field} {vs : String → GoValue} {base : Place}, Ready c p σ →
      SourceAt c v p.counter σ pos gs vs base → Pairing M [f] gs → pos.target.Known p.counter →
      σ.out.get .output ((pos.path f).map σ.access) = .ok .absent →
      Writes p.counter σ (pos.path f) .absent σ →
      Fills c order p b q σ (pos.path f) fun w => FieldConverted c.schema gs vs f w) :
    FieldsSound c order M v pos [f] p b q := by
  intro σ gs vs ws base hready hsource hpairing htarget hget habsent
  have hpath : pos.path f = pos.target ++ [.field (pascal f.name)] :=
    Position.path_eq (hpairing.targetNames f (List.mem_singleton_self f))
  have hfield : σ.out.get .output ((pos.path f).map σ.access) = .ok .absent := by
    rw [hpath, List.map_append, GoValue.get_append hget, ← habsent f (List.mem_singleton_self f)]
    rfl
  -- The field of a record just made is absent still.
  have huntouched : Writes p.counter σ (pos.path f) .absent σ :=
    hpath ▸ .untouched hget (habsent f (List.mem_singleton_self f))
  obtain ⟨τ, w, hruns, hwrites, hready', hw⟩ :=
    h hready hsource hpairing htarget hfield huntouched
  rw [hpath] at hwrites
  refine ⟨τ, .record (Function.update ws (pascal f.name) w), hruns,
    hwrites.below hget rfl, hready', _, rfl, ?_, ?_⟩
  · intro f' hf
    rw [List.mem_singleton.mp hf, Function.update_self]
    exact hw
  · intro name hname
    exact Function.update_of_ne (hname f (List.mem_singleton_self f)).symm _ _

/-- Fields one after the other. Those that are filled first keep their values. -/
theorem fieldsSound_cons {r : Progress} {b₁ b₂ : Code} {fs : List Field}
    (hle : p.counter ≤ q.counter) (hfirst : FieldsSound c order M v pos [f] p b₁ q)
    (hrest : FieldsSound c order M v pos fs q b₂ r) :
    FieldsSound c order M v pos (f :: fs) p (b₁ ++ b₂) r := by
  intro σ gs vs ws base hready hsource hpairing htarget hget habsent
  obtain ⟨τ, w, hruns, hwrites, hready₁, ws₁, rfl, hconverted₁, hothers₁⟩ :=
    hfirst hready hsource hpairing.head htarget hget
      fun f' hf => habsent f' (List.mem_cons.mpr (.inl (List.mem_singleton.mp hf)))
  -- The fields have different Go names, so each leaves those of the others alone.
  have hne : ∀ f' ∈ fs, ∀ f'' ∈ [f], pascal f''.name ≠ pascal f'.name := by
    intro f' hf f'' hf'
    rw [List.mem_singleton.mp hf']
    exact hpairing.ne_of_mem hf
  obtain ⟨υ, w, hruns', hwrites', hready₂, ws₂, rfl, hconverted₂, hothers₂⟩ :=
    hrest hready₁ (hsource.frame hwrites.frame hle) hpairing.tail (htarget.mono hle)
      (hwrites.get htarget)
      fun f' hf => (hothers₁ _ (hne f' hf)).trans (habsent f' (List.mem_cons_of_mem _ hf))
  refine ⟨υ, .record ws₂, hruns.append hruns', hwrites.trans hwrites' htarget hle, hready₂, ws₂,
    rfl, ?_, ?_⟩
  · intro f' hf
    rcases List.mem_cons.mp hf with rfl | hf
    · rw [hothers₂ _ fun f'' hf => (hpairing.ne_of_mem hf).symm]
      exact hconverted₁ f' (List.mem_singleton_self f')
    · exact hconverted₂ f' hf
  · intro name hname
    rw [hothers₂ name fun f' hf => hname f' (List.mem_cons_of_mem _ hf)]
    exact hothers₁ name fun f' hf => hname f' (List.mem_cons.mpr (.inl (List.mem_singleton.mp hf)))

/-! ## Leaves -/

/-- What an assignment of a source that can be read tests: that it is set where that is asked for, or
the cast needs it. -/
theorem allSet_tested {type : GoType} {source : Source} {base : Place} {name : String} {x : GoValue}
    {onlyIfSet : Bool} (hname : IsIdentifier name) (hplace : source.place = base.select name)
    (hread : σ.read source.place = .ok x) :
    σ.allSet (leafAssignment pos f type source onlyIfSet).tested =
      .ok (!(onlyIfSet || (leafAssignment pos f type source onlyIfSet).needsSource) || x.isSet) := by
  let a := leafAssignment pos f type source onlyIfSet
  show σ.allSet a.tested = .ok (!(onlyIfSet || a.needsSource) || x.isSet)
  -- The tests on the way are of places above the source, and those are set, as it could be read.
  obtain ⟨l, hl, hprefix⟩ := Path.selections_select hname.takesElement [] base.path
  have hpath : source.place.path = [] ++ base.path ++ [.field name] := by
    rw [hplace]
    exact hname.select _
  have hselections : source.place.selections =
      l.map (fun path => ⟨source.place.root, path⟩) ++ [source.place] := by
    rw [Place.selections, hpath]
    show (Path.selections [] (base.path ++ [.field name])).map _ = _
    rw [hl, List.map_append, List.map_singleton, ← hpath]
  have hbefore : σ.allSet (l.map fun path => ⟨source.place.root, path⟩) = .ok true := by
    refine State.allSet_of_read hread fun place hq => ?_
    obtain ⟨path, hpath', rfl⟩ := List.mem_map.mp hq
    exact ⟨rfl, hpath ▸ hprefix path hpath'⟩
  have hself : σ.allSet [source.place] = .ok x.isSet := by
    rw [State.allSet, hread]
    show (if x.isSet then _ else _) = _
    cases x.isSet <;> rfl
  have htested : a.tested = if a.isCopy then if onlyIfSet || a.needsSource then [source.place] else []
      else if onlyIfSet || a.needsSource then source.place.selections
      else source.place.selections.dropLast := rfl
  rw [htested]
  -- A copy leaves out the tests on the way; the source itself is tested where it is needed.
  cases a.isCopy <;> cases onlyIfSet || a.needsSource
  · simp only [Bool.false_eq_true, if_false, hselections, List.dropLast_concat, Bool.not_false,
      Bool.true_or]
    exact hbefore
  · simp only [Bool.false_eq_true, if_false, if_true, hselections, State.allSet_append hbefore]
    exact hself
  · rfl
  · exact hself

/-- A leaf needs its source if only the target is required. Bytes may be absent in both. -/
theorem needsSource_leafAssignment {type : GoType} {source : Source} {onlyIfSet : Bool} :
    (leafAssignment pos f type source onlyIfSet).needsSource =
      (!source.field.required && f.required && f.type.root ≠ .binary) := by
  show (!source.field.required && f.required &&
    !(leafCast f type source.field.required).acceptsAbsent) = _
  unfold leafCast
  cases source.field.required <;> cases f.required <;> cases f.type.root <;> rfl

/-- A cast of a source that is set if the cast needs it. -/
theorem apply_leafCast {type : GoType} {g : Field} {x : GoValue} {root : Var} {s : Schema}
    (hleaf : f.type.root.isLeaf = true) (hsame : g.type.root = f.type.root)
    (hfits : Fits s (!g.required) g.type x)
    (hset : g.required = false → f.required = true → f.type.root ≠ .binary → x.isSet = true) :
    (leafCast f type g.required).apply root x = .ok (convertedLeaf f g x) := by
  by_cases hbinary : f.type.root = .binary
  · simp [leafCast, convertedLeaf, hbinary, Cast.apply]
  · have hcast : leafCast f type g.required = .forPresence type g.required f.required := by
      unfold leafCast
      cases hroot : f.type.root <;> first
        | rfl
        | exact absurd hroot hbinary
    have hplain : g.type.root.isPlain = true := by
      rw [hsame]
      cases hroot : f.type.root <;> simp_all [FieldType.isLeaf, FieldType.isPlain]
    rw [hcast, show convertedLeaf f g x = heldLeaf g.required f.required x from if_neg hbinary]
    cases hg : g.required <;> cases hf : f.required
    · rfl
    · -- An optional source of a required field holds a pointer, which is set.
      rw [hg] at hfits
      have hset := hset hg hf hbinary
      cases hfits with
      | nothing => cases hset
      | pointer => rfl
      | bytes hroot => rw [hroot] at hplain; cases hplain
      | record hroot | list hroot | slice hroot | keys hroot | map hroot =>
        rw [hroot] at hplain
        cases hplain
    · rw [hg] at hfits
      cases hfits with
      | nothing h => rcases h with h | h <;> simp_all
      | plain => rfl
      | bytes hroot => rw [hroot] at hplain; cases hplain
      | record hroot | list hroot | slice hroot | keys hroot | map hroot =>
        rw [hroot] at hplain
        cases hplain
    · rfl

/-- An assignment whose tests fail leaves everything as it is. -/
theorem Assignment.runs_skipped {a : Assignment} {guards : Code}
    (htested : σ.allSet a.tested = .ok false) : Runs order (a.code guards) σ σ := by
  have htest : a.isTested = true := by
    cases hnil : a.tested with
    | nil =>
      rw [hnil] at htested
      cases htested
    | cons p l => simp [Assignment.isTested, hnil]
  rw [Assignment.code, if_pos htest]
  exact .nestFalse rfl htested .done

/-- An assignment whose tests hold writes what the source is converted to. -/
theorem leafAssignment_writes {type : GoType} {source : Source} {onlyIfSet : Bool} {n : Nat}
    {x old : GoValue} (hleaf : f.type.root.isLeaf = true)
    (hsame : source.field.type.root = f.type.root) (hread : σ.read source.place = .ok x)
    (hfits : Fits c.schema (!source.field.required) source.field.type x)
    (htested : σ.allSet (leafAssignment pos f type source onlyIfSet).tested = .ok true)
    (hneeds : (leafAssignment pos f type source onlyIfSet).needsSource = true → x.isSet = true)
    (hget : σ.out.get .output ((pos.path f).map σ.access) = .ok old) :
    ∃ o, Runs order ((leafAssignment pos f type source onlyIfSet).code .done) σ { σ with out := o } ∧
      Writes n σ (pos.path f) (convertedLeaf f source.field x) { σ with out := o } := by
  -- The cast loads a pointer only where the tests made sure that it is set.
  have happly := @apply_leafCast f type _ _ source.place.root _ hleaf hsame hfits
    fun hoptional hrequired hbinary => hneeds (by
      rw [needsSource_leafAssignment]
      simp [hoptional, hrequired, hbinary])
  obtain ⟨o, hexec, hwrites⟩ := exists_exec_assign (n := n)
    (e := .convert (leafCast f type source.field.required) source.place) (fun call => by
      show (σ.read source.place >>= fun x =>
        (leafCast f type source.field.required).apply source.place.root x >>= fun y =>
          Except.ok (y, σ)) = _
      rw [hread]
      show ((leafCast f type source.field.required).apply source.place.root _ >>= _) = _
      rw [happly]
      rfl) hget
  refine ⟨o, ?_, hwrites⟩
  have hassign : Runs order (.step _ .done) σ _ := .step hexec .done
  rw [Assignment.code]
  split
  · exact .nestTrue rfl htested hassign .done
  · exact hassign

/-- A field of a record that a place holds. -/
theorem Holds.select {n : Nat} {p : Place} {vs : String → GoValue} {name : String}
    (h : Holds n σ p (.record vs)) (hname : IsIdentifier name) :
    Holds n σ (p.select name) (vs name) := by
  refine ⟨h.isSource.select hname, ?_⟩
  show (σ.value p.root).get p.root ((p.path.select name).map σ.access) = _
  rw [hname.select, List.map_append, GoValue.get_append h.read]
  rfl

/-- A source of a field is one of the fields of the record, and its place holds its value. -/
theorem SourceAt.direct {n : Nat} {gs : List Field} {vs : String → GoValue} {base : Place}
    {source : Source} {optional : List Field} (h : SourceAt c v n σ pos gs vs base)
    (hpairing : Pairing M optional gs) (hsource : directSource pos f = some source) :
    source.field ∈ gs ∧ f.MatchedBy source.field ∧
      source.place = base.select (pascal source.field.name) ∧
      Holds n σ source.place (vs (pascal source.field.name)) := by
  obtain ⟨hmem, hname, hplace⟩ := directSource_some h.source hsource
  have hident := (hpairing.sourceNames _ hmem).pascal
  exact ⟨hmem, hname, hplace, hplace ▸ h.holds.select hident⟩

/-- The assignment of a leaf: from its source, if that is set or need not be. -/
theorem leaf_sound (hM : Matching c M) {primary : Source} {standIn : Option Source} {type : GoType}
    (hsources : sourcesOf c pos f (pos.key f) = (some primary, standIn))
    (hleaf : f.type.root.isLeaf = true) :
    FieldsSound c order M v pos [f] p
      (leafCode (p.deferred.guards pos.scope (pos.path f)) pos f type primary standIn) p := by
  rw [sourcesOf_of_unmapped hM.unmapped] at hsources
  obtain ⟨hdirect, rfl⟩ := Prod.mk.injEq .. ▸ hsources
  apply fieldsSound_of_fills
  intro σ gs vs base hready hsource hpairing htarget hget huntouched
  obtain ⟨hmem, hname, hplace, hholds⟩ := hsource.direct hpairing hdirect
  have hsame := hM.leaf (hpairing.related f (List.mem_singleton_self f) _ hmem hname) hleaf
  have hident := (hpairing.sourceNames _ hmem).pascal
  have htested := @allSet_tested σ pos f type _ _ _ _ false hident hplace hholds.read
  rw [hready.guards]
  show Fills c order p ((leafAssignment pos f type primary false).code .done) p σ _ _
  have hneeds := @needsSource_leafAssignment pos f type primary false
  have hconverted := FieldConverted.leaf (s := c.schema) (v := vs) hmem hname hleaf
  by_cases hskip : (leafAssignment pos f type primary false).needsSource = true ∧
      (vs (pascal primary.field.name)).isSet = false
  · -- The source is absent where the cast needs it: the target is left untouched.
    obtain ⟨hneeded, hunset⟩ := hskip
    have habsent := GoValue.eq_absent (by rw [hunset]; exact Bool.false_ne_true)
    rw [hneeded, hunset] at htested
    rw [hneeds] at hneeded
    simp only [Bool.and_eq_true, Bool.not_eq_true', decide_eq_true_eq] at hneeded
    obtain ⟨⟨hprimary, hrequired⟩, hbinary⟩ := hneeded
    rw [show convertedLeaf f primary.field (vs (pascal primary.field.name)) = .absent by
      rw [habsent, convertedLeaf, if_neg hbinary, hprimary, hrequired]; rfl] at hconverted
    exact ⟨σ, .absent, Assignment.runs_skipped htested, huntouched, hready, hconverted⟩
  · have hset : (leafAssignment pos f type primary false).needsSource = true →
        (vs (pascal primary.field.name)).isSet = true := by
      intro hneeded
      by_contra hunset
      exact hskip ⟨hneeded, Bool.eq_false_iff.mpr hunset⟩
    have hall : σ.allSet (leafAssignment pos f type primary false).tested = .ok true := by
      rw [htested]
      cases hneeded : (leafAssignment pos f type primary false).needsSource with
      | false => rfl
      | true => exact congrArg Except.ok (hset hneeded)
    obtain ⟨o, hruns, hwrites⟩ := leafAssignment_writes (c := c) (n := p.counter) hleaf hsame
      hholds.read (hsource.fits _ hmem) hall hset hget
    exact ⟨_, _, hruns, hwrites, ⟨hready.deferred, hready.scope, hready.numbers⟩, hconverted⟩

/-! ## Records -/

/-- The state after an assignment is as ready as that before. -/
theorem Ready.withOut (h : Ready c p σ) (o : GoValue) : Ready c p { σ with out := o } :=
  ⟨h.deferred, h.scope, h.numbers⟩

/-- A test of one place. -/
theorem test_ifSet {n : Nat} {place : Place} {u : GoValue} (h : Holds n σ place u) :
    (Head.ifSet [place]).test σ = .ok u.isSet := by
  show σ.allSet [place] = _
  rw [State.allSet, h.read]
  show (if u.isSet then _ else _) = _
  cases u.isSet <;> rfl

section Records

variable {job : RecordJob} {type : FieldType} {tested base : Place} {inField : Bool}

theorem inline_sound (hM : Matching c M) {go : GoType} (hlater : p.Later q)
    (hfields : FieldsSound c order M v (pos.inline c job base) (c.schema.fields job.target) p b q) :
    RecordSound c order M v job type tested base p
      (inlineCode (p.deferred.guards pos.scope job.path) job.path go tested b)
      { q with helpers := p.helpers } := by
  intro σ ut u old optional hready hpath htested hbase htype hut hrelated hfits hinside hget
  rw [hready.guards]
  show Fills c order p (.fork (.ifSet [tested]) (.step _ b) (.step _ .done) .done) _ σ _ _
  -- The branch is chosen by whether the source is set, and so is what it converts to.
  by_cases hset : u.isSet = true
  · obtain ⟨vs, rfl, hvs⟩ := hfits.exists_record hut hset
    obtain ⟨o, hexec, hwrites⟩ := exists_exec_assign (n := p.counter) (e := .newRecord go)
      (fun _ => rfl) hget
    have hsource : SourceAt c v p.counter { σ with out := o } (pos.inline c job base)
        (c.schema.fields job.source) vs base :=
      ⟨rfl, (hbase hset).frame hwrites.frame (Nat.le_refl _),
        (hinside.resolve_left nofun).to_reflTransGen, hvs⟩
    obtain ⟨τ, w, hruns, hwrites', hready', ws, rfl, hconverted, hothers⟩ :=
      hfields (hready.withOut o) hsource (hM.record hrelated htype hut) hpath (hwrites.get hpath)
        fun _ _ => rfl
    refine ⟨σ.afterBlock τ, .record ws, ?_,
      (hwrites.trans hwrites' hpath (Nat.le_refl _)).afterBlock, hready.afterBlock hlater τ,
      .record htype hut hconverted hothers⟩
    exact .forkTrue ((test_ifSet htested).trans (congrArg _ hset)) (.step hexec hruns) .done
  · obtain rfl := GoValue.eq_absent hset
    obtain ⟨o, hexec, hwrites⟩ := exists_exec_assign (n := p.counter) (e := .absent)
      (fun _ => rfl) hget
    refine ⟨{ σ with out := o }, .absent, ?_, hwrites,
      hready.afterBlock hlater { σ with out := o }, .noRecord htype⟩
    exact .forkFalse (test_ifSet htested) (.step hexec .done) .done

/-- A call of a function in scope fills the place of a record. -/
theorem call_fills {hs : List Helper} {fs : List LocalFunction} {helper : Helper}
    {f : LocalFunction} {ut : FieldType} {u old : GoValue} {optional : Bool}
    (hcalls : Callable c order M u) (hready : Ready c p σ)
    (hscope : InScope c (helper :: hs) (f :: fs))
    (hfind : σ.functions.dropWhile (·.name ≠ helper.name) = f :: fs)
    (htarget : helper.target = job.target.id) (hsource : helper.source = job.source.id)
    (htested : Holds p.counter σ tested u) (htype : type.root = .record job.target)
    (hut : ut.root = .record job.source) (hrelated : M type ut)
    (hfits : Fits c.schema optional ut u)
    (hget : σ.out.get .output (job.path.map σ.access) = .ok old) :
    Fills c order p (callCode .done job.path helper.name tested) p σ job.path
      fun w => Converted c.schema type ut u w := by
  obtain ⟨ρ, hruns, hwhole, hconverted⟩ :=
    hcalls σ hscope htype hut htarget hsource hrelated hfits
  -- The call leaves all as it was but the number of loops.
  have hleave : σ.leave ρ = { σ with loops := ρ.loops } := by
    rw [State.leave, hwhole]
    cases hσ : σ.whole with
    | none => rfl
    | some whole => rw [← hσ]; simp [hσ]
  obtain ⟨o, hassign, hwrites⟩ :=
    @exists_assign_output p.counter { σ with loops := ρ.loops } job.path ρ.out old hget
  refine ⟨{ σ with loops := ρ.loops, out := o }, ρ.out, ?_, ⟨⟨rfl, fun _ _ => rfl⟩, hwrites.out⟩,
    ⟨hready.deferred, hready.scope, hready.numbers⟩, hconverted⟩
  exact .call htested.read hfind hruns (hleave ▸ hassign) .done

theorem call_sound {helper : Helper} (hcalls : ∀ u, u.Inside v → Callable c order M u)
    (hknown : p.helper? job = some helper) :
    RecordSound c order M v job type tested base p
      (callCode (guardsAbove p pos job.path inField) job.path helper.name tested) p := by
  intro σ ut u old optional hready hpath htested hbase htype hut hrelated hfits hinside hget
  have hguards : guardsAbove p pos job.path inField = .done := by
    cases inField
    · rfl
    · exact hready.guards _ _
  obtain ⟨hs, f, fs, hscope, hfind⟩ := hready.scope.find hknown
  obtain ⟨-, htarget, hsource⟩ := Progress.of_helper?_eq_some hknown
  rw [hguards]
  exact call_fills (hcalls u hinside) hready hscope hfind htarget hsource htested htype hut hrelated
    hfits hget

theorem define_sound {targetGo sourceGo : GoType} (hunmapped : c.mapped = [])
    (hcalls : ∀ u, u.Inside v → Callable c order M u)
    (hemits : Emits c (.fields (pos.inHelper c job) (c.schema.fields job.target))
      (p.define job) b q) :
    RecordSound c order M v job type tested base p
      (helperCode ⟨.helper (pascal job.target.name) (p.counter + 1), sourceGo, targetGo⟩ b ++
        callCode (guardsAbove q pos job.path inField) job.path
          (.helper (pascal job.target.name) (p.counter + 1)) tested)
      { q with helpers := (p.define job).helpers } := by
  intro σ ut u old optional hready hpath htested hbase htype hut hrelated hfits hinside hget
  have hlater := hemits.later hunmapped
  have hguards : guardsAbove q pos job.path inField = .done := by
    cases inField
    · rfl
    · show q.deferred.guards _ _ = .done
      rw [hlater.deferred.trans hready.deferred]
      rfl
  let f : LocalFunction :=
    ⟨.helper (pascal job.target.name) (p.counter + 1), helperBlock targetGo b, σ.locals⟩
  -- The number of the new function is above those of all functions in scope.
  have hnumbers : ∀ g ∈ f :: σ.functions, g.name.number ≤ (p.define job).counter := by
    intro g hg
    rcases List.mem_cons.mp hg with rfl | hg
    · exact Nat.le_refl _
    · exact Nat.le_succ_of_le (hready.numbers g hg)
  have hscope : InScope c (p.define job).helpers (f :: σ.functions) := by
    refine .cons (b := b) hready.scope rfl (fun g hg heq => ?_) rfl rfl rfl hemits rfl
      hready.deferred hnumbers
    have := hready.numbers g hg
    rw [heq] at this
    exact absurd this (Nat.not_succ_le_self _)
  have hready' : Ready c { q with helpers := (p.define job).helpers }
      { σ with functions := f :: σ.functions } :=
    ⟨hlater.deferred.trans hready.deferred, hscope,
      fun g hg => Nat.le_trans (hnumbers g hg) hlater.counter⟩
  have hle : p.counter ≤ q.counter := Nat.le_trans (Nat.le_succ _) hlater.counter
  obtain ⟨τ, w, hruns, hwrites, hready'', hw⟩ :=
    @call_fills c order M _ { σ with functions := f :: σ.functions } job type tested _ _ _ f ut u
      old optional (hcalls u hinside) hready' hscope (List.dropWhile_cons_of_neg (by simp [f])) rfl rfl
      (htested.frame ⟨rfl, fun _ _ => rfl⟩ hle) htype hut hrelated hfits hget
  rw [hguards]
  refine ⟨τ, w, ?_, ⟨⟨hwrites.frame.whole, fun v hv => ?_⟩, hwrites.out⟩, hready'', hw⟩
  · exact .step (fun _ => rfl) (.define hruns)
  · exact hwrites.frame.locals v (Nat.le_trans hv hle)

end Records

end RecordBridge

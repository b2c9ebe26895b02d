import RecordBridge.Proofs.Conversion.Numbers
import RecordBridge.Proofs.Conversion.Targets
import RecordBridge.Proofs.Deferred

/-!
# Target records are allocated before they are written to

Along a derivation, statements rely on what lies above them and is not deferred. `Allocates` is the
invariant: the statements of a task are grounded in that, they keep it, and the table of deferred
records only gains records beneath the target. There is one lemma for each rule that writes
statements of its own.
-/

namespace RecordBridge

/-! ## What a task relies on -/

/-- The path of the record, container or element that a task fills. -/
def Task.path : Task → Path
  | .fields pos _ | .field pos _ => pos.target
  | .record _ job _ _ _ _ => job.path
  | .container _ _ job => job.path
  | .element _ _ _ slot => slot.path

/-- A path lies above everything that a task writes. -/
def Task.Over (k : Path) : Task → Prop
  | .fields pos _ | .field pos _ => k <+: pos.target
  | .record _ job _ _ _ _ => k.Above job.path
  | .container _ _ job => k.Above job.path
  | .element _ _ _ slot => k.Above slot.path

/-- What a task relies on to be allocated: what lies above it and is not deferred. A container is
made before its elements, with all above it. -/
def Task.Relies (p : Progress) (k : Path) : Task → Prop
  | .element _ _ _ slot => k.Above slot.path
  | task => task.Over k ∧ ¬p.deferred.Holds k

/-- What is grounded under a test that keeps nothing for later. -/
theorem Grounded.nest_test {owned known : Path → Prop} {head : Head} {body : Code}
    (htest : head.isTest = true) (hhead : head.ReadsLocals) (hbody : Grounded owned known body) :
    Grounded owned known (.nest head body .done) :=
  .test htest hhead hbody (fun _ (h : False) => h.elim) .done

/-! ## Choosing a container -/

section Choosing

variable {owned known : Path → Prop} {k : Path} {n : Nat} {primary : Place} {flagged : Bool}
  {standIn : Option Place}

theorem Selection.isLocal_source (hprimary : primary.root.isLocal = true) :
    (Selection.of n primary standIn flagged).source.root.isLocal = true := by
  cases standIn with
  | none => exact hprimary
  | some x => cases flagged <;> rfl

theorem Selection.keeps_code (hk : k.Known n) :
    Code.Keeps k (Selection.of n primary standIn flagged).code := by
  have hchosen : k.Ignores (.sourceList (n + 1)) := hk.ignores rfl (Nat.lt_succ_self n)
  have hflag : k.Ignores (.overridden (n + 2)) := hk.ignores rfl (Nat.lt_add_of_pos_right (by decide))
  cases standIn with
  | none => trivial
  | some x =>
    cases flagged with
    | false =>
      exact ⟨⟨rfl, hchosen⟩, nofun, ⟨⟨rfl, .inr hchosen⟩, trivial⟩, trivial⟩
    | true =>
      exact ⟨⟨rfl, hchosen⟩, ⟨rfl, hflag⟩, nofun,
        ⟨⟨rfl, .inr hchosen⟩, ⟨rfl, .inr hflag⟩, trivial⟩, trivial⟩

/-- The choice of a container touches local variables only. -/
theorem Selection.grounded_code (hprimary : primary.root.isLocal = true)
    (hstandIn : ∀ x, standIn = some x → x.root.isLocal = true) :
    Grounded owned known (Selection.of n primary standIn flagged).code := by
  have htest : (Head.ifSet [primary]).ReadsLocals := by
    intro p hp
    rw [List.mem_singleton.mp hp]
    exact hprimary
  cases standIn with
  | none => exact .done
  | some x =>
    -- All that is written are variables, so nothing of the target has to be allocated.
    have hx := hstandIn x rfl
    cases flagged with
    | false =>
      refine .define rfl hx (fun _ (h : False) => h.elim) ?_
      exact .nest_test rfl htest
        (.assign rfl hprimary (fun _ (h : False) => h.elim) .done)
    | true =>
      refine .define rfl hx (fun _ (h : False) => h.elim) ?_
      refine .define rfl trivial (fun _ (h : False) => h.elim) ?_
      refine .nest_test rfl htest ?_
      refine .assign rfl hprimary (fun _ (h : False) => h.elim) ?_
      exact .assign rfl trivial (fun _ (h : False) => h.elim) .done

end Choosing

/-! ## Assigning leaves -/

section Leaves

variable {F owned : Path → Prop} {d : Deferred} {k : Path} {a : Assignment}

/-- The places that an assignment tests start where its source does. -/
theorem Assignment.root_of_tested {p : Place} (hp : p ∈ a.tested) : p.root = a.source.root := by
  have hselections : ∀ {p : Place}, p ∈ a.source.selections → p.root = a.source.root := by
    intro p hp
    obtain ⟨path, -, rfl⟩ := List.mem_map.mp hp
    rfl
  rw [tested] at hp
  split at hp
  · split at hp
    · rw [List.mem_singleton.mp hp]
    · cases hp
  · split at hp
    · exact hselections hp
    · exact hselections (List.dropLast_subset _ hp)

theorem Assignment.keeps_code (hF : Path.Family F) (hd : d.Within F) (hpath : F a.target)
    (hk : k.Above a.target) : Code.Keeps k (a.code (d.guards [] a.target)) := by
  have hwrite : Code.Keeps k (d.guards [] a.target ++
      .step (.assign ⟨.output, a.target⟩ (.convert a.cast a.source)) .done) :=
    Deferred.keeps_write hF hd hpath hk rfl trivial
  rw [code]
  split
  · exact ⟨nofun, hwrite, trivial⟩
  · exact hwrite

theorem Assignment.grounded_code (hF : Path.Family F) (hd : d.Within F) (hpath : F a.target)
    (hsource : a.source.root.isLocal = true) :
    Grounded owned (fun k => k.Above a.target ∧ ¬d.Holds k) (a.code (d.guards [] a.target)) := by
  have hwrite : Grounded owned (fun k => k.Above a.target ∧ ¬d.Holds k) (d.guards [] a.target ++
      .step (.assign ⟨.output, a.target⟩ (.convert a.cast a.source)) .done) :=
    Deferred.grounded_write hF hd hpath hsource nofun
      (fun _ (h : False) => h.elim) .done
  rw [code]
  split
  · refine .nest_test rfl (fun p hp => ?_) hwrite
    rw [root_of_tested hp]
    exact hsource
  · exact hwrite

end Leaves

/-! ## The invariant -/

/-- What the statements of a task do to the records above them. -/
structure Allocates (c : Settings) (start : Position) (fs : List Field) (task : Task) (p : Progress)
    (b : Code) (q : Progress) : Prop where
  counter : p.counter ≤ q.counter
  within : q.deferred.Within (Led c fs)
  deferred : ∀ k, Led c fs k → p.deferred.Holds k → q.deferred.Holds k
  keeps : ∀ k, task.Over k → Code.Keeps k b
  grounded : Grounded (Owned c start fs) (fun k => task.Relies p k) b

namespace Allocates

variable {c : Settings} {start : Position} {fs : List Field} {task : Task} {pos : Position}
  {p q r : Progress} {b b₁ b₂ : Code} {f : Field} {job : RecordJob} {go : GoType}

/-- Nothing is written. -/
theorem done (hwithin : p.deferred.Within (Led c fs)) : Allocates c start fs task p .done p :=
  ⟨Nat.le_refl _, hwithin, fun _ _ => id, fun _ _ => trivial, .done⟩

/-- A task as a part of one that lies above the same. -/
theorem of_over {task' : Task} (h : Allocates c start fs task p b q)
    (hover : ∀ k, task'.Over k → task.Over k)
    (hrelies : ∀ k, task.Relies p k → task'.Relies p k) : Allocates c start fs task' p b q :=
  ⟨h.counter, h.within, h.deferred, fun k hk => h.keeps k (hover k hk), h.grounded.mono hrelies⟩

/-- Local functions do not matter. -/
theorem enclosed {hs : List Helper} (h : Allocates c start fs task p b q) :
    Allocates c start fs task p b { q with helpers := hs } :=
  ⟨h.counter, h.within, h.deferred, h.keeps, h.grounded⟩

theorem eitherElement {field : String} {type type₁ type₂ : FieldType} {slot : Slot}
    {job₁ job₂ : RecordJob} {flag : Var} {tested base₁ base₂ : Place}
    (hpath : job₁.path = slot.path ∧ job₂.path = slot.path)
    (hprimary : Allocates c start fs (.record pos job₁ type₁ tested base₁ false) p b₁ q)
    (hother : Allocates c start fs (.record pos job₂ type₂ tested base₂ false) q b₂ r) :
    Allocates c start fs (.element pos field type slot) p (.fork (.ifFlag flag) b₁ b₂ .done) r := by
  have habove₁ : ∀ k : Path, k.Above job₁.path ↔ k.Above slot.path := fun k => by rw [hpath.1]
  have habove₂ : ∀ k : Path, k.Above job₂.path ↔ k.Above slot.path := fun k => by rw [hpath.2]
  refine ⟨Nat.le_trans hprimary.counter hother.counter, hother.within,
    fun k hk h => hother.deferred k hk (hprimary.deferred k hk h), fun k hk => ?_, ?_⟩
  · exact ⟨hprimary.keeps k ((habove₁ k).mpr hk), hother.keeps k ((habove₂ k).mpr hk), trivial⟩
  · exact .fork rfl trivial (hprimary.grounded.mono fun k hk => (habove₁ k).mp hk.1)
      (hother.grounded.mono fun k hk => (habove₂ k).mp hk.1) (fun _ (h : False) => h.elim) .done

variable (hd : Direct c start fs)
include hd

theorem moreFields {gs : List Field} (hled : Led c fs pos.target)
    (hfirst : Allocates c start fs (.field pos f) p b₁ q)
    (hrest : Allocates c start fs (.fields pos gs) q b₂ r) :
    Allocates c start fs (.fields pos (f :: gs)) p (b₁ ++ b₂) r := by
  refine ⟨Nat.le_trans hfirst.counter hrest.counter, hrest.within,
    fun k hk h => hrest.deferred k hk (hfirst.deferred k hk h),
    fun k hk => Code.keeps_append.mpr ⟨hfirst.keeps k hk, hrest.keeps k hk⟩, ?_⟩
  refine hfirst.grounded.append hrest.grounded fun k hk => ?_
  obtain ⟨hover, hnot⟩ : k <+: pos.target ∧ ¬q.deferred.Holds k := hk
  have hk : Led c fs k := hd.family.of_isPrefix hled hover
  exact ⟨⟨hover, fun h => hnot (hfirst.deferred k hk h)⟩, hfirst.keeps k hover⟩

/-- A write under guards, with statements after it that rely on its path or on what lies above. -/
theorem write {e : Expr} {known : Path → Prop} {path : Path}
    (hwithin : p.deferred.Within (Led c fs)) (hled : Led c fs path)
    (he : e.ReadsFrom (·.Above path)) (howned : e.isNewRecord = true → Owned c start fs path)
    (hknown : ∀ k, known k → k.Above path ∨ k = path ∧ e.isMade = true)
    (hkeeps : ∀ k : Path, k.Above path → Code.Keeps k b)
    (hrest : Grounded (Owned c start fs) known b) :
    (∀ k : Path, k.Above path → Code.Keeps k (p.deferred.guards [] path ++
      .step (.assign ⟨.output, path⟩ e) b)) ∧
    Grounded (Owned c start fs) (fun k => k.Above path ∧ ¬p.deferred.Holds k)
      (p.deferred.guards [] path ++ .step (.assign ⟨.output, path⟩ e) b) :=
  ⟨fun k hk => Deferred.keeps_write hd.family hwithin hled hk he.isCall (hkeeps k hk),
    Deferred.grounded_write hd.family hwithin hled he howned hknown hrest⟩

theorem leaf {type : GoType} {primary : Source} {standIn : Option Source}
    (hv : Visits c start fs (.field pos f)) (hwithin : p.deferred.Within (Led c fs))
    (hsources : sourcesOf c pos f (pos.key f) = (some primary, standIn)) :
    Allocates c start fs (.field pos f) p
      (leafCode (p.deferred.guards pos.scope (pos.path f)) pos f type primary standIn) p := by
  obtain ⟨hscope, hlocal, -, hleads⟩ := hv.placed_field hd
  have hled : Led c fs (pos.path f) := .inr ⟨_, hleads⟩
  have habove := hv.above_iff hd
  obtain ⟨hprimary, hstandIn⟩ := isLocal_sourcesOf hlocal
  rw [hsources] at hprimary hstandIn
  -- Each assignment comes under the same guards, which are those for the leaf.
  have hone : ∀ (source : Source) (onlyIfSet : Bool), source.place.root.isLocal = true →
      (∀ k : Path, k.Above (pos.path f) → Code.Keeps k
        ((leafAssignment pos f type source onlyIfSet).code (p.deferred.guards [] (pos.path f)))) ∧
      Grounded (Owned c start fs) (fun k => k.Above (pos.path f) ∧ ¬p.deferred.Holds k)
        ((leafAssignment pos f type source onlyIfSet).code (p.deferred.guards [] (pos.path f))) :=
    fun source onlyIfSet hsource =>
      have hF := hd.family
      ⟨fun k hk => Assignment.keeps_code (a := leafAssignment pos f type source onlyIfSet) hF hwithin
          hled hk,
        Assignment.grounded_code (a := leafAssignment pos f type source onlyIfSet) hF hwithin hled
          hsource⟩
  have hrelies : ∀ k : Path, k.Above (pos.path f) ∧ ¬p.deferred.Holds k →
      (Task.field pos f).Relies p k := fun k hk => ⟨(habove k).mp hk.1, hk.2⟩
  rw [hscope]
  cases standIn with
  | none =>
    obtain ⟨hkeeps, hground⟩ := hone primary false (hprimary _ rfl)
    exact ⟨Nat.le_refl _, hwithin, fun _ _ => id, fun k hk => hkeeps k ((habove k).mpr hk),
      hground.mono hrelies⟩
  | some x =>
    obtain ⟨hkeeps, hground⟩ := hone x false (hstandIn _ rfl)
    obtain ⟨hkeeps', hground'⟩ := hone primary true (hprimary _ rfl)
    refine ⟨Nat.le_refl _, hwithin, fun _ _ => id, fun k hk => ?_, ?_⟩
    · exact Code.keeps_append.mpr ⟨hkeeps k ((habove k).mpr hk), hkeeps' k ((habove k).mpr hk)⟩
    · -- The second assignment finds all that the first one relied on, as that keeps it.
      exact (hground.append hground' fun k hk => ⟨hk, hkeeps k hk.1⟩).mono hrelies

theorem allocated {gs : List Field} (hv : Visits c start fs (.field pos f))
    (hwithin : p.deferred.Within (Led c fs)) (hrequired : f.required = true)
    (hfields : Allocates c start fs (.fields (pos.unsourced (pos.path f)) gs) p b q) :
    Allocates c start fs (.field pos f) p (p.deferred.guards pos.scope (pos.path f) ++
      .step (.assign ⟨.output, pos.path f⟩ (.newRecord go)) b) q := by
  obtain ⟨hscope, -, -, hleads⟩ := hv.placed_field hd
  have habove := hv.above_iff hd
  rw [hscope]
  obtain ⟨hkeeps, hground⟩ := write (e := .newRecord go) hd hwithin (.inr ⟨_, hleads⟩) trivial
    (fun _ => .inl ⟨_, _, hv, rfl, .inl hrequired⟩)
    (fun k hk => (Path.Above.or_eq hk.1).imp_right fun h => ⟨h, rfl⟩)
    (fun k hk => hfields.keeps k hk.isPrefix) hfields.grounded
  refine ⟨hfields.counter, hfields.within, hfields.deferred, fun k hk => ?_, ?_⟩
  · exact hkeeps k ((habove k).mpr hk)
  · exact hground.mono fun k hk => ⟨(habove k).mp hk.1, hk.2⟩

theorem deferring {gs : List Field} (hv : Visits c start fs (.field pos f))
    (hfields : Allocates c start fs (.fields (pos.unsourced (pos.path f)) gs)
      { p with deferred := p.deferred.defer (pos.scope ++ pos.path f) go } b q) :
    Allocates c start fs (.field pos f) p b q := by
  obtain ⟨hscope, -, -, hleads⟩ := hv.placed_field hd
  have habove := hv.above_iff hd
  rw [hscope, List.nil_append] at hfields
  have hled : Led c fs (pos.path f) := .inr ⟨_, hleads⟩
  have hmore : ∀ k, Led c fs k → p.deferred.Holds k →
      (p.deferred.defer (pos.path f) go).Holds k := fun k hk => .defer hd.family hk hled
  refine ⟨hfields.counter, hfields.within,
    fun k hk h => hfields.deferred k hk (hmore k hk h), fun k hk => ?_, ?_⟩
  · exact hfields.keeps k ((habove k).mpr hk).isPrefix
  · refine hfields.grounded.mono fun k hk => ?_
    obtain ⟨hinitial, hnot⟩ :
        k <+: pos.path f ∧ ¬(p.deferred.defer (pos.path f) go).Holds k := hk
    have hk : Led c fs k := hd.family.of_isPrefix hled hinitial
    rcases Path.Above.or_eq hinitial with hk' | rfl
    · exact ⟨(habove k).mp hk', fun h => hnot (hmore k hk h)⟩
    · exact absurd ⟨go, Table.mem_place_self _ _ _⟩ hnot

theorem inline {type : FieldType} {tested base : Place} {inField : Bool} {gs : List Field}
    (hv : Visits c start fs (.record pos job type tested base inField))
    (hwithin : p.deferred.Within (Led c fs))
    (hfields : Allocates c start fs (.fields (pos.inline c job base) gs) p b q) :
    Allocates c start fs (.record pos job type tested base inField) p
      (inlineCode (p.deferred.guards pos.scope job.path) job.path go tested b) q := by
  obtain ⟨hscope, hleads, -, htested, -⟩ := hv.placed hd
  have hled : Led c fs job.path := .inr ⟨_, hleads⟩
  have htest : (Head.ifSet [tested]).ReadsLocals := by
    intro p hp
    rw [List.mem_singleton.mp hp]
    exact htested
  rw [hscope]
  obtain ⟨hkeeps, hground⟩ := write (e := .newRecord go) hd hwithin hled trivial
    (fun _ => hv.owned)
    (fun k hk => (Path.Above.or_eq hk.1).imp_right fun h => ⟨h, rfl⟩)
    (fun k hk => hfields.keeps k hk.isPrefix) hfields.grounded
  refine ⟨hfields.counter, hfields.within, hfields.deferred, fun k hk => ?_, ?_⟩
  · rw [inlineCode]
    split
    · exact ⟨hkeeps k hk, ⟨⟨rfl, .inl ⟨rfl, hk.length_lt⟩⟩, trivial⟩, trivial⟩
    · exact ⟨fun _ h => absurd h List.not_mem_nil, hkeeps k hk, trivial⟩
  · rw [inlineCode]
    split
    · rename_i hempty
      -- No guards are needed, so none are missing where the record becomes absent.
      have hno := (write (b := .done) (e := .absent) hd hwithin hled trivial
        (fun h => absurd h Bool.false_ne_true) (fun _ (h : False) => h.elim)
        (fun _ _ => trivial) .done).2
      have hguards : p.deferred.guards [] job.path = .done := by
        cases hcode : p.deferred.guards [] job.path with
        | done => rfl
        | _ => rw [hcode] at hempty; cases hempty
      rw [hguards] at hno
      exact .fork rfl htest hground hno (fun _ (h : False) => h.elim) .done
    · exact .nest_test rfl htest hground

/-- A container that is made for the elements of the one that is chosen, and filled by a loop. The
body of the loop relies on `inner`. -/
theorem container {type : FieldType} {job : ContainerJob} {chosen : Selection} {flagged : Bool}
    {e : Expr} {head : Head} {body : Code} {inner : Path → Prop}
    (hv : Visits c start fs (.container pos type job)) (hwithin : p.deferred.Within (Led c fs))
    (hknown : job.path.Known p.counter)
    (hchosen : chosen = .of p.counter job.primary.place (job.standIn.map (·.place)) flagged)
    (he : e = .make go chosen.source ∨ e = .makeRoom go chosen.source)
    (hhead : head.source? = some chosen.source)
    (hbound : ∀ v ∈ head.bound, v.isLocal = true ∧ chosen.counter < v.number)
    (hinner : ∀ k : Path, inner k → k <+: job.path ∧ Code.Keeps k body)
    (hkeeps : ∀ k : Path, k.Above job.path → Code.Keeps k body)
    (hbody : Grounded (Owned c start fs) inner body) :
    (∀ k : Path, k.Above job.path → Code.Keeps k
      (chosen.code ++ (p.deferred.guards pos.scope job.path ++
        .step (.assign ⟨.output, job.path⟩ e) (.nest head body .done)))) ∧
    Grounded (Owned c start fs) (fun k => k.Above job.path ∧ ¬p.deferred.Holds k)
      (chosen.code ++ (p.deferred.guards pos.scope job.path ++
        .step (.assign ⟨.output, job.path⟩ e) (.nest head body .done))) := by
  obtain ⟨hscope, ⟨t, hleads, -⟩, hprimary, hstandIn⟩ := hv.placed hd
  have hled : Led c fs job.path := .inr ⟨_, hleads⟩
  have hle : p.counter ≤ chosen.counter := hchosen ▸ Selection.le_counter _ _ _ _
  have hsource : chosen.source.root.isLocal = true := hchosen ▸ Selection.isLocal_source hprimary
  have hchoice : ∀ k : Path, k.Above job.path → Code.Keeps k chosen.code := by
    intro k hk
    rw [hchosen]
    exact Selection.keeps_code fun s hs => hknown s (hk.isPrefix.subset hs)
  -- The variables of the loop are newer than all that the path uses, so they change nothing on it.
  have hignores : ∀ k : Path, k <+: job.path → ∀ v ∈ head.bound, k.Ignores v := by
    intro k hk v hv
    have hk : k.Known chosen.counter := fun s hs => Nat.le_trans (hknown s (hk.subset hs)) hle
    exact hk.ignores (hbound v hv).1 (hbound v hv).2
  have hrounds : ∀ k : Path, k.Above job.path → Code.Keeps k (.nest head body .done) := by
    intro k hk
    have hbound := hignores k hk.isPrefix
    cases head with
    | ifUnset place => cases hhead
    | _ => exact ⟨hbound, hkeeps k hk, trivial⟩
  have hground : Grounded (Owned c start fs) (· <+: job.path) (.nest head body .done) :=
    .loop hhead (Head.readsLocals_of_source hhead hsource) hbody
      (fun k hk => ⟨(hinner k hk).1, hignores k (hinner k hk).1, (hinner k hk).2⟩)
      (fun _ (h : False) => h.elim) .done
  have hreads : e.ReadsFrom (·.Above job.path) := by
    rcases he with rfl | rfl <;> exact hsource
  have hmade : e.isMade = true ∧ e.isNewRecord = false := by
    rcases he with rfl | rfl <;> exact ⟨rfl, rfl⟩
  -- The container is made at its place, and then it owns what the rounds write in it.
  obtain ⟨hkeeps', hground'⟩ := write hd hwithin hled hreads
    (fun h => absurd h (by rw [hmade.2]; exact Bool.false_ne_true))
    (fun k hk => (Path.Above.or_eq hk).imp_right fun h => ⟨h, hmade.1⟩) hrounds hground
  rw [hscope]
  refine ⟨fun k hk => Code.keeps_append.mpr ⟨hchoice k hk, hkeeps' k hk⟩, ?_⟩
  refine Grounded.append ?_ hground' fun k hk => ⟨hk, hchoice k hk.1⟩
  rw [hchosen]
  refine Selection.grounded_code hprimary fun x hx => ?_
  obtain ⟨y, hy, rfl⟩ := Option.map_eq_some_iff.mp hx
  exact hstandIn y hy

theorem loop {loop : Loop} {type : FieldType} {job : ContainerJob} {chosen : Selection}
    (hv : Visits c start fs (.container pos type job)) (hwithin : p.deferred.Within (Led c fs))
    (hknown : job.path.Known p.counter) (hloop : loop.Converts c job type)
    (hchosen : chosen = loop.selection c job p.counter)
    (helement : Allocates c start fs
      (.element pos job.field loop.element (loop.slot job chosen.flag chosen.counter))
      { p with counter := chosen.counter + 2 } b q) :
    Allocates c start fs (.container pos type job) p
      (loop.code (p.deferred.guards pos.scope job.path) job chosen b) q := by
  have hle : p.counter ≤ chosen.counter := hchosen ▸ Selection.le_counter _ _ _ _
  have hbound := hloop.newer_bound chosen.counter chosen.source
  -- What lies above a slot is the container and what lies above it.
  have hslot : ∀ k : Path, k.Above (loop.slot job chosen.flag chosen.counter).path ↔
      k <+: job.path := fun k => Path.Above.concat_iff
  obtain ⟨hkeeps, hground⟩ := container hd hv hwithin hknown hchosen (.inl rfl) rfl hbound
    (fun k hk => ⟨(hslot k).mp hk, helement.keeps k hk⟩)
    (fun k hk => helement.keeps k ((hslot k).mpr hk.isPrefix)) helement.grounded
  exact ⟨Nat.le_trans (Nat.le_trans hle (Nat.le_add_right _ 2)) helement.counter, helement.within,
    helement.deferred, hkeeps, hground⟩

theorem keys {element : FieldType} {form : SetForm} {job : ContainerJob} {chosen : Selection}
    {intoKeys fromKeys : Bool} (hv : Visits c start fs (.container pos (.set element form) job))
    (hwithin : p.deferred.Within (Led c fs)) (hknown : job.path.Known p.counter)
    (hchosen : chosen = .of p.counter job.primary.place (job.standIn.map (·.place)) false) :
    Allocates c start fs (.container pos (.set element form) job) p
      (keysCode (p.deferred.guards pos.scope job.path) job.path go intoKeys fromKeys chosen)
      { p with counter := chosen.counter + 1 } := by
  have hle : p.counter ≤ chosen.counter := hchosen ▸ Selection.le_counter _ _ _ _
  have hbound : ∀ v ∈ [Var.value (chosen.counter + 1)],
      v.isLocal = true ∧ chosen.counter < v.number := by
    intro v hv
    rw [List.mem_singleton.mp hv]
    exact ⟨rfl, Nat.lt_succ_self _⟩
  have hall : ∀ {b : Code}, (∀ k : Path, k.Above job.path → Code.Keeps k b) ∧
      Grounded (Owned c start fs) (fun k => k.Above job.path ∧ ¬p.deferred.Holds k) b →
      Allocates c start fs (.container pos (.set element form) job) p b
        { p with counter := chosen.counter + 1 } :=
    fun h => ⟨Nat.le_trans hle (Nat.le_succ _), hwithin, fun _ _ => id, h.1, h.2⟩
  refine hall ?_
  cases intoKeys with
  | true =>
    -- Each key is put beneath the container.
    have hkeeps : ∀ k : Path, k <+: job.path → Code.Keeps k (.step (.assign
        ⟨.output, job.path ++ [.keyAs go (.value (chosen.counter + 1))]⟩ .present) .done) :=
      fun k hk => ⟨⟨rfl, .inl ⟨rfl, (Path.Above.concat_iff.mpr hk).length_lt⟩⟩, trivial⟩
    have hbody : Grounded (Owned c start fs) (· <+: job.path) (.step (.assign
        ⟨.output, job.path ++ [.keyAs go (.value (chosen.counter + 1))]⟩ .present) .done) :=
      .write (fun k hk => Path.Above.concat_iff.mp hk) trivial nofun
        (fun _ (h : False) => h.elim) .done
    cases fromKeys <;>
      exact container hd hv hwithin hknown hchosen (.inl rfl) rfl hbound
        (fun k hk => ⟨hk, hkeeps k hk⟩) (fun k hk => hkeeps k hk.isPrefix) hbody
  | false =>
    -- The container is replaced by one with one element more.
    have hkeeps : ∀ k : Path, k.Above job.path → Code.Keeps k (.step (.assign
        ⟨.output, job.path⟩ (.append ⟨.output, job.path⟩ go (.value (chosen.counter + 1)))) .done) :=
      fun k hk => ⟨⟨rfl, .inl ⟨rfl, hk.length_lt⟩⟩, trivial⟩
    have hbody : Grounded (Owned c start fs) (·.Above job.path) (.step (.assign
        ⟨.output, job.path⟩ (.append ⟨.output, job.path⟩ go (.value (chosen.counter + 1)))) .done) :=
      .write (fun _ => id) ⟨rfl, fun _ => id⟩ nofun (fun _ (h : False) => h.elim) .done
    cases fromKeys <;>
      exact container hd hv hwithin hknown hchosen (.inr rfl) rfl hbound
        (fun k hk => ⟨hk.isPrefix, hkeeps k hk⟩) hkeeps hbody

theorem leafElement {field : String} {type : FieldType} {slot : Slot}
    (hv : Visits c start fs (.element pos field type slot))
    (hwithin : p.deferred.Within (Led c fs)) :
    Allocates c start fs (.element pos field type slot) p
      (.step (.assign ⟨.output, slot.path⟩ (.convert (.plain go) (.ofVar slot.value))) .done) p := by
  obtain ⟨-, -, hvalue, -, -⟩ := hv.placed hd
  refine ⟨Nat.le_refl _, hwithin, fun _ _ => id, fun k hk => ?_, ?_⟩
  · exact ⟨⟨rfl, .inl ⟨rfl, Path.Above.length_lt hk⟩⟩, trivial⟩
  · exact .write (fun _ => id) hvalue nofun (fun _ (h : False) => h.elim) .done

end Allocates

/-- What is emitted for a task that is taken on allocates the records above its writes. -/
theorem Emits.allocates {c : Settings} {start : Position} {fs : List Field} {task : Task}
    {p q : Progress} {b : Code} (hd : Direct c start fs) (h : Emits c task p b q)
    (hv : Visits c start fs task) (hwithin : p.deferred.Within (Led c fs))
    (hknown : task.path.Known p.counter) : Allocates c start fs task p b q := by
  have hfield : ∀ {pos : Position} {f : Field} {n : Nat}, Visits c start fs (.field pos f) →
      pos.target.Known n → (pos.path f).Known n := by
    intro pos f n hv hknown
    rw [(hv.placed_field hd).2.2.1]
    exact hknown.append (.singleton (Nat.zero_le n))
  -- By the rules of emission. Each record on the way is allocated, waits, or is written in the same
  -- block; inlined records stay within the parts of the targets that are led to.
  induction h with
  | noFields => exact .done hwithin
  | @moreFields pos f gs p q r b₁ b₂ _ _ ih₁ ih₂ =>
    have hhead := hv.field
    have h₁ := ih₁ hhead hwithin hknown
    have h₂ := ih₂ hv.rest h₁.within (hknown.mono h₁.counter)
    have hled : Led c fs (pos.path f) := .inr ⟨_, (hhead.placed_field hd).2.2.2⟩
    have htarget := ((hhead.above_iff hd) pos.target).mpr List.prefix_rfl
    exact .moreFields hd (hd.family.of_isPrefix hled htarget.isPrefix) h₁ h₂
  | leaf hsources _ _ => exact .leaf hd hv hwithin hsources
  | recordField hsources hroot horigin _ ih =>
    have h := ih (hv.recordField hsources hroot horigin) hwithin (hfield hv hknown)
    exact h.of_over (fun k hk => (hv.above_iff hd k).mpr hk)
      fun k hk => ⟨(hv.above_iff hd k).mp hk.1, hk.2⟩
  | containerField hsources hroot _ ih =>
    have h := ih (hv.containerField hsources) hwithin (hfield hv hknown)
    exact h.of_over (fun k hk => (hv.above_iff hd k).mpr hk)
      fun k hk => ⟨(hv.above_iff hd k).mp hk.1, hk.2⟩
  | allocated hsources hrecord _ _ hrequired _ ih =>
    exact .allocated hd hv hwithin hrequired
      (ih (hv.unsourced hsources hrecord) hwithin (hfield hv hknown))
  | deferred hsources hrecord _ _ _ _ ih =>
    -- The record joins those that wait, under a key that leads to a field.
    obtain ⟨hscope, -, -, hleads⟩ := hv.placed_field hd
    refine .deferring hd hv (ih (hv.unsourced hsources hrecord) (hwithin.defer ?_)
      (hfield hv hknown))
    rw [hscope]
    exact .inr ⟨_, hleads⟩
  | unset => exact .done hwithin
  | inline _ _ _ ih => exact (Allocates.inline hd hv hwithin (ih hv.inline hwithin hknown)).enclosed
  | call hneeds | define hneeds =>
    -- Without cycles no local function is needed.
    rw [hd.needsHelper_eq] at hneeds
    cases hneeds
  | @loop pos type job p q b loop chosen hloop hchosen _ ih =>
    have hle : p.counter ≤ chosen.counter := hchosen ▸ Selection.le_counter _ _ _ _
    have hstep : Path.Known (chosen.counter + 2) [loop.step (loop.position (chosen.counter + 1))] :=
      (hloop.known_step _).mono (Nat.le_succ _)
    have helement := ih (hv.element hloop chosen.flag chosen.counter) hwithin
      ((hknown.mono (Nat.le_trans hle (Nat.le_add_right _ 2))).append hstep)
    exact (Allocates.loop hd hv hwithin hknown hloop hchosen helement).enclosed
  | keys _ _ _ _ _ hchosen => exact .keys hd hv hwithin hknown hchosen
  | leafElement => exact .leafElement hd hv hwithin
  | recordElement hroot _ horigin _ ih =>
    have h := ih (hv.recordElement hroot (.inl rfl) horigin) hwithin hknown
    exact h.of_over (fun k hk => hk) fun k hk => hk.1
  | eitherElement hroot _ hstandIn horigin horigin' _ _ ih₁ ih₂ =>
    have h₁ := ih₁ (hv.recordElement hroot (.inl rfl) horigin) hwithin hknown
    have h₂ := ih₂ (hv.recordElement hroot (.inr hstandIn) horigin') h₁.within
      (hknown.mono h₁.counter)
    exact .eitherElement ⟨rfl, rfl⟩ h₁ h₂
  | containerElement _ _ ih =>
    have h := ih hv.containerElement hwithin hknown
    exact h.of_over (fun k hk => hk) fun k hk => hk.1

end RecordBridge

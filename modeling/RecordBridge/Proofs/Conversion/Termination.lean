import RecordBridge.Proofs.Conversion.Nesting
import RecordBridge.Proofs.Conversion.Sources

/-!
# Every conversion finishes

The bound on the depth of a conversion is never used up, for any schemas, mappings, listed paths and
packages: a run gives lines, or an error, or breaks at a line feed. It also does not matter: any
larger bound gives the same run, so the recursion that the bound cuts off is never reached.

Each function of the conversion is compared with itself over two ways to fill records. They agree
where these agree on the records one level further down, and there the room has become less.
-/

namespace RecordBridge

open Draft

/-- Local functions that were in scope still are; there may be more. -/
def Progress.Grows (p q : Progress) : Prop :=
  p.helpers ⊆ q.helpers

theorem Progress.Grows.refl (p : Progress) : p.Grows p :=
  List.Subset.refl _

theorem Progress.Grows.trans {p q r : Progress} (h : p.Grows q) (h' : q.Grows r) : p.Grows r :=
  List.Subset.trans h h'

/-- The progress after a draft, whatever its value is, has grown. -/
def Keeps {α : Type} (p : Progress) (_ : α) (q : Progress) : Prop :=
  p.Grows q

/-- One draft after the other keeps what is in scope if both do. -/
theorem Draft.Agree.bindKeeps {α β : Type} {d d' : Writing α} {f f' : α → Writing β} {p : Progress}
    (hd : Agree d d' p (Keeps p))
    (hf : ∀ a q, p.Grows q → Agree (f a) (f' a) q (Keeps q)) :
    Agree (d >>= f) (d' >>= f') p (Keeps p) :=
  hd.bind fun a q hq => (hf a q hq).mono fun _ _ h => hq.trans h

/-- The same where something is known of the value that the first draft ends with. -/
theorem Draft.Agree.bindKnown {α β : Type} {d d' : Writing α} {f f' : α → Writing β} {p : Progress}
    {V : α → Prop} (hd : Agree d d' p fun a q => V a ∧ Keeps p a q)
    (hf : ∀ a q, V a → p.Grows q → Agree (f a) (f' a) q (Keeps q)) :
    Agree (d >>= f) (d' >>= f') p (Keeps p) :=
  hd.bind fun a q hq => (hf a q hq.1 hq.2).mono fun _ _ h => hq.2.trans h

/-! ## Drafts that fill no records -/

/-- A draft that never stops at a bound and keeps what is in scope. -/
def Steady {α : Type} (d : Writing α) : Prop :=
  ∀ p, Agree d d p (Keeps p)

namespace Steady

variable {α β : Type}

/-- One draft after the other. This and the rules that follow go over every way of writing that fills no
record. -/
theorem bind {d : Writing α} {f : α → Writing β} (hd : Steady d) (hf : ∀ a, Steady (f a)) :
    Steady (d >>= f) :=
  fun p => (hd p).bindKeeps fun a q _ => hf a q

theorem pure (a : α) : Steady (Pure.pure a : Writing α) :=
  fun _ => .pure (.refl _)

theorem fail (cause : GenerationError) : Steady (Draft.fail cause : Writing α) :=
  fun _ => .fail

theorem ofExcept (e : Except GenerationError α) : Steady (Draft.ofExcept e : Writing α) :=
  fun _ => .ofExcept fun _ _ => .refl _

theorem write (b : Code) : Steady (Draft.write b : Writing Unit) :=
  fun _ => .write (.refl _)

theorem nest {head : Head} {d : Writing α} (hd : Steady d) : Steady (Draft.nest head d) :=
  fun p => (hd p).nest

theorem state : Steady (Draft.state : Writing Progress) :=
  fun _ => .state (.refl _)

theorem statement (s : Statement) : Steady (Writing.statement s) :=
  write _

theorem assign (target : Path) (value : Expr) : Steady (Writing.assign target value) :=
  statement _

theorem guards (pos : Position) (target : Path) : Steady (Writing.guards pos target) :=
  state.bind fun _ => pure _

/-- A fresh number comes from the counter, which is no matter of bounds. -/
theorem fresh : Steady Writing.fresh :=
  have hcount : Steady (Draft.update fun p : Progress => { p with counter := p.counter + 1 }) :=
    fun _ => .update (.refl _)
  hcount.bind fun _ => state.bind fun _ => pure _

theorem keyType (c : Settings) (field : String) (key : FieldType) :
    Steady (RecordBridge.keyType c field key) := by
  unfold RecordBridge.keyType
  split
  · exact ofExcept _
  · exact fail _

/-- Choosing between sources asks for numbers and statements. -/
theorem selectSource (primary : Place) (standIn : Option Place) (flagged : Bool) :
    Steady (RecordBridge.selectSource primary standIn flagged) := by
  unfold RecordBridge.selectSource
  split
  · exact pure _
  · refine fresh.bind fun _ => ?_
    split
    · exact fresh.bind fun _ => (statement _).bind fun _ => (statement _).bind fun _ =>
        (nest ((statement _).bind fun _ => statement _)).bind fun _ => pure _
    · exact (statement _).bind fun _ => (nest (statement _)).bind fun _ => pure _

theorem makeContainer (pos : Position) (job : ContainerJob) (value : Expr) :
    Steady (RecordBridge.makeContainer pos job value) :=
  (guards _ _).bind fun _ => (write _).bind fun _ => assign _ _

theorem assignField (pos : Position) (target : Field) (path : Path) (cast : Bool → Cast)
    (source : Source) (onlyIfSet : Bool) :
    Steady (RecordBridge.assignField pos target path cast source onlyIfSet) :=
  (guards _ _).bind fun _ => write _

theorem assignSources (pos : Position) (target : Field) (path : Path) (cast : Bool → Cast)
    (primary : Source) :
    ∀ standIn, Steady (RecordBridge.assignSources pos target path cast primary standIn)
  | none => assignField _ _ _ _ _ _
  | some _ => (assignField _ _ _ _ _ _).bind fun _ => assignField _ _ _ _ _ _

end Steady

/-! ## Drafts that fill records -/

/-- Two ways to fill records agree where the room is at most `n`. -/
def FillsAgree (c : Settings) (known : List Nat) (longest n : Nat) (fill fill' : Fill) : Prop :=
  ∀ (pos : Position) (fields : List Field) (p : Progress), pos.Within known →
    Schema.Within known fields → room c.schema known longest pos fields p.helpers ≤ n →
      Agree (fill pos fields) (fill' pos fields) p (Keeps p)

/-- A record to be converted among the fields of a position: the fields mention it, its source is a
known record, and its path is no shorter than that of the position. -/
structure RecordJob.Admitted (known : List Nat) (pos : Position) (fields : List Field)
    (job : RecordJob) : Prop where
  target : job.target ∈ Schema.mentioned fields
  source : job.source.id ∈ known
  path : pos.target.text.length ≤ job.path.text.length

/-- A local function that goes out of scope with the drafts behind it keeps what was in scope. -/
theorem agree_enclosed {α : Type} {d d' : Writing α} {p : Progress} (h : Agree d d' p (Keeps p)) :
    Agree (Writing.enclosed d) (Writing.enclosed d') p (Keeps p) := by
  refine Agree.bind (Q := fun a q => a = p ∧ q = p) (.state ⟨rfl, rfl⟩) ?_
  rintro before q ⟨rfl, rfl⟩
  exact h.bind fun a _ _ => Agree.bind (Q := fun _ => Keeps q a)
    (.update (.refl _)) fun _ _ hr => .pure hr

section Levels

variable {c : Settings} {known : List Nat} {longest n : Nat} {fill fill' : Fill} {pos : Position}
  {fields : List Field} {p : Progress}

/-- The room does not grow while drafts keep what is in scope. -/
theorem room_le_of_keeps {q : Progress} (h : p.Grows q)
    (hroom : room c.schema known longest pos fields p.helpers ≤ n) :
    room c.schema known longest pos fields q.helpers ≤ n :=
  Nat.le_trans (room_anti c.schema fields h) hroom

/-- A record that needs no local function does not occur within itself. -/
theorem isCyclic_eq_false_of_needsHelper (hc : c.Covered known longest) {target source : RecordRef}
    (htarget : target.id ∈ known) (hneeds : c.needsHelper target source = false) :
    c.schema.isCyclic target.id = false := by
  refine Bool.eq_false_iff.mpr fun hcyclic => ?_
  have hmem := hc.cyclic _ htarget hcyclic
  simp only [Settings.needsHelper, Bool.or_eq_false_iff] at hneeds
  rw [List.contains_iff_mem.mpr hmem] at hneeds
  exact Bool.noConfusion hneeds.1

/-- Records that known fields mention are known. -/
theorem id_mem_of_mentioned (hfields : Schema.Within known fields) {ref : RecordRef}
    (h : ref ∈ Schema.mentioned fields) : ref.id ∈ known := by
  obtain ⟨f, hf, href⟩ := Schema.mem_mentioned.mp h
  exact hfields f hf ref href

/-- The position of the fields of a known record lies within the known records. -/
theorem within_of_source (hc : c.Covered known longest) {source : RecordRef}
    (hsource : source.id ∈ known) (target scope : Path) (place : Place) :
    Position.Within known
      { target, source := some (place, c.schema.fields source), scope } := by
  intro place' fields' h
  cases h
  exact Schema.within_fields hc.closed hsource

/-- A record that needs no local function is filled by one bound less: on its way inwards it is on no
cycle, so fewer records are left to be entered. -/
theorem agree_convertInline (hc : c.Covered known longest)
    (hfill : FillsAgree c known longest n fill fill') (hfields : Schema.Within known fields)
    {job : RecordJob} (hjob : job.Admitted known pos fields)
    (hneeds : c.needsHelper job.target job.source = false)
    (hroom : room c.schema known longest pos fields p.helpers ≤ n + 1) (type : GoType)
    (tested base : Place) :
    Agree (convertInline c fill pos job type tested base)
      (convertInline c fill' pos job type tested base) p (Keeps p) := by
  have htarget := id_mem_of_mentioned hfields hjob.target
  have hacyclic := isCyclic_eq_false_of_needsHelper hc htarget hneeds
  have hpath : ∀ source, pathLeft longest { pos with target := job.path, source } ≤
      pathLeft longest pos := by
    intro source
    have := hjob.path
    simp only [pathLeft, Path.length_text_append]
    omega
  unfold convertInline
  refine (Steady.guards _ _ p).bindKeeps fun guards q hq => ?_
  -- Whatever the source is, the fields of the record have less room than those around it.
  have hbody : ∀ source, Position.Within known { pos with target := job.path, source } →
      Agree
        (Writing.enclosed do
          Draft.write guards
          Writing.assign job.path (.newRecord type)
          fill { pos with target := job.path, source } (c.schema.fields job.target))
        (Writing.enclosed do
          Draft.write guards
          Writing.assign job.path (.newRecord type)
          fill' { pos with target := job.path, source } (c.schema.fields job.target)) q
        (Keeps q) := by
    intro source hsource
    refine agree_enclosed <| (Steady.write _ _).bindKeeps fun _ q₁ h₁ =>
      (Steady.assign _ _ _).bindKeeps fun _ q₂ h₂ => ?_
    refine hfill _ _ _ hsource (Schema.within_fields hc.closed htarget) ?_
    have hless := room_lt_of_inline c.schema fields _ ((hq.trans h₁).trans h₂) (hpath source)
      (inlineLeft_fields_lt fields htarget hjob.target hacyclic)
    omega
  have hsource := within_of_source hc hjob.source job.path pos.scope base
  split
  · exact (hbody _ hsource).fork fun q' hq' =>
      (Steady.assign _ _ q').mono fun _ _ h => hq'.trans h
  · exact (hbody _ hsource).nest

/-- The body of a local function is filled in any position and at any progress that leave enough room. -/
theorem agree_helperBody (hc : c.Covered known longest)
    (hfill : FillsAgree c known longest n fill fill') {job : RecordJob}
    (htarget : job.target.id ∈ known) (hsource : job.source.id ∈ known)
    (hroom : ∀ (pos' : Position) (q : Progress), p.Grows q →
      pos'.scope = pos.scope ++ job.path → pos'.target = [] →
        room c.schema known longest pos' (c.schema.fields job.target) q.helpers ≤ n)
    (helper : HelperSignature) :
    Agree (helperBody c fill pos job helper) (helperBody c fill' pos job helper) p (Keeps p) := by
  unfold helperBody
  refine (Steady.statement _ _).bindKeeps fun _ q hq => Agree.nest ?_
  refine Agree.bindKeeps (Agree.fork (Q := Keeps q) (agree_enclosed ?_) fun q' hq' =>
    (Steady.statement _ q').mono fun _ _ h => hq'.trans h) fun _ q' _ => Steady.statement _ q'
  refine (Steady.statement _ _).bindKeeps fun _ q' hq' => ?_
  exact hfill _ _ _ (within_of_source hc hsource _ _ _) (Schema.within_fields hc.closed htarget)
    (hroom _ _ (hq.trans hq') rfl rfl)

/-- A local function that is new is in scope within its own body. So one pair of records fewer is left to
be written there, which pays for entering the record. -/
theorem agree_helperFor (hc : c.Covered known longest)
    (hfill : FillsAgree c known longest n fill fill') (hfields : Schema.Within known fields)
    {job : RecordJob} (hjob : job.Admitted known pos fields)
    (hroom : room c.schema known longest pos fields p.helpers ≤ n + 1) :
    Agree (helperFor c fill pos job) (helperFor c fill' pos job) p (Keeps p) := by
  have htarget := id_mem_of_mentioned hfields hjob.target
  unfold helperFor
  refine Agree.bind (Q := fun a q => a = p ∧ q = p) (.state ⟨rfl, rfl⟩) ?_
  rintro before q ⟨rfl, rfl⟩
  dsimp only
  split
  · exact Steady.pure _ q
  · rename_i hnone
    refine (Steady.ofExcept _ _).bindKeeps fun target q₁ h₁ =>
      (Steady.ofExcept _ _).bindKeeps fun source q₂ h₂ =>
        (Steady.fresh _).bindKeeps fun number q₃ h₃ => ?_
    -- No function for the pair is in scope, so there is one pair fewer with it.
    have hnew : ∀ h ∈ q.helpers, ¬(h.target = job.target.id ∧ h.source = job.source.id) := by
      simpa using List.find?_eq_none.mp hnone
    refine Agree.bind (Q := fun _ r => r.helpers =
        ⟨job.target.id, job.source.id, .helper (pascal job.target.name) number⟩ :: q₃.helpers)
      (.update rfl) fun _ r hr => ?_
    have hgrown : q₃.Grows r := by
      rw [Progress.Grows, hr]
      exact List.subset_cons_self _ _
    refine Agree.mono (Q := Keeps r) ?_ fun _ _ h => hgrown.trans h
    refine (agree_helperBody hc hfill htarget hjob.source ?_ _).bindKeeps fun _ r' _ =>
      Steady.pure _ r'
    intro pos' q' hq' hscope htarget'
    have hpairs : pairsLeft known q'.helpers < pairsLeft known q.helpers := by
      refine Nat.lt_of_le_of_lt (pairsLeft_anti known ?_) (pairsLeft_cons_lt
        (.helper (pascal job.target.name) number) htarget hjob.source hnew)
      rw [Progress.Grows, hr] at hq'
      exact List.Subset.trans (List.cons_subset_cons _ ((h₁.trans h₂).trans h₃)) hq'
    have hpath : pathLeft longest pos' ≤ pathLeft longest pos := by
      have := hjob.path
      simp only [pathLeft, hscope, htarget', Path.length_text_append, Path.text_nil]
      omega
    -- What is left of pairs counts for more than what is left of records to be entered.
    have hless := room_lt_of_restart c.schema fields (c.schema.fields job.target)
      (Nat.add_lt_add_of_lt_of_le hpairs hpath)
    omega

/-! ## Containers -/

/-- A slot whose sources lie within the known records, at a path no shorter than that of the
position. -/
structure Slot.Admitted (known : List Nat) (pos : Position) (slot : Slot) : Prop where
  path : pos.target.text.length ≤ slot.path.text.length
  primary : slot.primary.type.Within known
  standIn : ∀ x, slot.standIn = some x → x.type.Within known

/-- A container whose sources lie within the known records, at a path no shorter than that of the
position. -/
structure ContainerJob.Admitted (known : List Nat) (pos : Position) (job : ContainerJob) :
    Prop where
  path : pos.target.text.length ≤ job.path.text.length
  primary : job.primary.type.Within known
  standIn : ∀ x, job.standIn = some x → x.type.Within known

theorem Slot.Admitted.job {slot : Slot} (h : slot.Admitted known pos) (field : String) :
    (slot.job field).Admitted known pos :=
  ⟨h.path, h.primary, fun _ hx => (nomatch hx)⟩

/-- What the elements of a known source mention is known. -/
theorem Operand.within_listElements {x : Operand} {element : FieldType}
    (hx : x.type.Within known) (h : x.listElements? = some element) : element.Within known := by
  rw [Operand.listElements?] at h
  split at h
  · rename_i heq
    cases h
    exact fun ref href => hx.of_root heq ref href
  · cases h

theorem Operand.within_setElements {x : Operand} {part : FieldType × SetForm}
    (hx : x.type.Within known) (h : x.setElements? = some part) : part.1.Within known := by
  rw [Operand.setElements?] at h
  split at h
  · rename_i heq
    cases h
    exact fun ref href => hx.of_root heq ref href
  · cases h

theorem Operand.within_mapValues {x : Operand} {value : FieldType}
    (hx : x.type.Within known) (h : x.mapValues? = some value) : value.Within known := by
  rw [Operand.mapValues?] at h
  split at h
  · rename_i heq
    cases h
    exact fun ref href => hx.of_root heq ref (List.mem_append_right _ href)
  · cases h

/-- The shape of a source is asked for without a bound. -/
theorem agree_shaped {α : Type} {field : String} {shape : Shape} {part? : Operand → Option α}
    {x : Operand} :
    Agree (shaped field shape part? x) (shaped field shape part? x) p fun a q =>
      part? x = some a ∧ Keeps p a q := by
  unfold shaped
  cases h : part? x with
  | none => exact .fail
  | some part => exact .value ⟨rfl, .refl _⟩

/-- So is that of what stands in. -/
theorem agree_shapedStandIn {α : Type} {field : String} {shape : Shape}
    {part? : Operand → Option α} :
    ∀ {x : Option Operand},
      Agree (shapedStandIn field shape part? x) (shapedStandIn field shape part? x) p fun a q =>
        (∀ part, a = some part → ∃ y, x = some y ∧ part? y = some part) ∧ Keeps p a q
  | none => .pure ⟨fun _ h => (nomatch h), .refl _⟩
  | some x => agree_shaped.bind fun _ _ h =>
      .pure ⟨fun _ heq => ⟨x, rfl, Option.some.inj heq ▸ h.1⟩, h.2⟩

/-- What a container needs of the conversion of its elements. -/
def ElementsAgree (known : List Nat) (pos : Position) (p : Progress)
    (convert convert' : Slot → Writing Unit) : Prop :=
  ∀ (slot : Slot) (q : Progress), slot.Admitted known pos → p.Grows q →
    Agree (convert slot) (convert' slot) q (Keeps q)

/-- Elements may be converted later, too. -/
theorem ElementsAgree.mono {convert convert' : Slot → Writing Unit} {q : Progress}
    (h : ElementsAgree known pos p convert convert') (hq : p.Grows q) :
    ElementsAgree known pos q convert convert' :=
  fun slot r hslot hr => h slot r hslot (hq.trans hr)

/-- The place of an element is no shorter than that of its container. -/
theorem length_text_le_append {job : ContainerJob} (h : job.Admitted known pos) (rest : Path) :
    pos.target.text.length ≤ (Path.text (job.path ++ rest)).length := by
  rw [Path.length_text_append]
  exact Nat.le_trans h.path (Nat.le_add_right _ _)

/-- Containers agree if the conversions of their elements do: they enter no record themselves. -/
theorem agree_convertSlice {convert convert' : Slot → Writing Unit}
    (hconvert : ElementsAgree known pos p convert convert') {job : ContainerJob}
    (hjob : job.Admitted known pos) (element : FieldType) {primary : FieldType}
    {standIn : Option FieldType} (hprimary : primary.Within known)
    (hstandIn : ∀ t, standIn = some t → t.Within known) :
    Agree (convertSlice c pos element convert job primary standIn)
      (convertSlice c pos element convert' job primary standIn) p (Keeps p) := by
  unfold convertSlice
  refine (Steady.ofExcept _ _).bindKeeps fun type q₁ h₁ =>
    (Steady.selectSource _ _ _ _).bindKeeps fun chosen q₂ h₂ =>
      (Steady.makeContainer _ _ _ _).bindKeeps fun _ q₃ h₃ =>
        (Steady.fresh _).bindKeeps fun index q₄ h₄ =>
          (Steady.fresh _).bindKeeps fun value q₅ h₅ => Agree.nest (agree_enclosed ?_)
  refine hconvert _ _ ⟨length_text_le_append hjob _, hprimary, fun x hx => ?_⟩
    ((((h₁.trans h₂).trans h₃).trans h₄).trans h₅)
  split at hx
  · rename_i t _ ht
    cases hx
    exact hstandIn _ rfl
  · cases hx

theorem agree_convertList {convert convert' : Slot → Writing Unit}
    (hconvert : ElementsAgree known pos p convert convert') {job : ContainerJob}
    (hjob : job.Admitted known pos) (element : FieldType) :
    Agree (convertList c pos element convert job) (convertList c pos element convert' job) p
      (Keeps p) := by
  unfold convertList
  refine agree_shaped.bindKnown fun primary q₁ hprimary h₁ =>
    agree_shapedStandIn.bindKnown fun standIn q₂ hstandIn h₂ => ?_
  refine agree_convertSlice (hconvert.mono (h₁.trans h₂)) hjob element
    (Operand.within_listElements hjob.primary hprimary) fun t ht => ?_
  obtain ⟨x, hx, hpart⟩ := hstandIn t ht
  exact Operand.within_listElements (hjob.standIn x hx) hpart

/-- A set whose elements are keys converts none of them; another one is a slice. -/
theorem agree_convertSet {convert convert' : Slot → Writing Unit}
    (hconvert : ElementsAgree known pos p convert convert') {job : ContainerJob}
    (hjob : job.Admitted known pos) (element : FieldType) (form : SetForm) :
    Agree (convertSet c pos element form convert job) (convertSet c pos element form convert' job) p
      (Keeps p) := by
  unfold convertSet
  refine agree_shaped.bindKnown fun part q₁ hprimary h₁ =>
    agree_shapedStandIn.bindKnown fun standIn q₂ hstandIn h₂ => ?_
  obtain ⟨primary, primaryForm⟩ := part
  dsimp only
  split
  · refine agree_convertSlice (hconvert.mono (h₁.trans h₂)) hjob element
      (Operand.within_setElements hjob.primary hprimary) fun t ht => ?_
    obtain ⟨part, hpart, rfl⟩ := Option.map_eq_some_iff.mp ht
    obtain ⟨x, hx, heq⟩ := hstandIn part hpart
    exact Operand.within_setElements (hjob.standIn x hx) heq
  · split
    · exact Steady.fail _ _
    · -- A set with keys on one side holds no records, so it is converted without `convert`.
      refine (Steady.ofExcept _ _).bindKeeps fun type q₃ _ =>
        (Steady.selectSource _ _ _ _).bindKeeps fun chosen q₄ _ =>
          (Steady.makeContainer _ _ _ _).bindKeeps fun _ q₅ _ =>
            (Steady.fresh _).bindKeeps fun value q₆ _ => Agree.nest ?_
      split
      · exact Steady.assign _ _ _
      · exact Steady.assign _ _ _

/-- The values of a map are its elements. -/
theorem agree_convertMap {convert convert' : Slot → Writing Unit}
    (hconvert : ElementsAgree known pos p convert convert') {job : ContainerJob}
    (hjob : job.Admitted known pos) (key value : FieldType) :
    Agree (convertMap c pos key value convert job) (convertMap c pos key value convert' job) p
      (Keeps p) := by
  unfold convertMap
  refine (Steady.keyType _ _ _ _).bindKeeps fun keyGo q₁ h₁ =>
    agree_shaped.bindKnown fun primary q₂ hprimary h₂ =>
      agree_shapedStandIn.bindKnown fun standIn q₃ hstandIn h₃ =>
        (Steady.ofExcept _ _).bindKeeps fun valueGo q₄ h₄ =>
          (Steady.selectSource _ _ _ _).bindKeeps fun chosen q₅ h₅ =>
            (Steady.makeContainer _ _ _ _).bindKeeps fun _ q₆ h₆ =>
              (Steady.fresh _).bindKeeps fun position q₇ h₇ =>
                (Steady.fresh _).bindKeeps fun element q₈ h₈ => Agree.nest (agree_enclosed ?_)
  -- All that comes before the loop only adds to the progress.
  have hgrown : p.Grows q₈ :=
    ((((((h₁.trans h₂).trans h₃).trans h₄).trans h₅).trans h₆).trans h₇).trans h₈
  refine hconvert _ _ ⟨length_text_le_append hjob _,
    Operand.within_mapValues hjob.primary hprimary, fun x hx => ?_⟩ hgrown
  dsimp only at hx
  split at hx
  · cases hx
    obtain ⟨y, hy, hpart⟩ := hstandIn _ rfl
    exact Operand.within_mapValues (hjob.standIn y hy) hpart
  · cases hx

/-! ## Elements, fields and records -/

/-- A record among elements is filled in place or by a local function. -/
theorem agree_convertRecordElement (hc : c.Covered known longest)
    (hfill : FillsAgree c known longest n fill fill') (hfields : Schema.Within known fields)
    (hroom : room c.schema known longest pos fields p.helpers ≤ n + 1) {slot : Slot}
    (hpath : pos.target.text.length ≤ slot.path.text.length) {target : RecordRef}
    (htarget : target ∈ Schema.mentioned fields) {source : Operand}
    (hsource : source.type.Within known) (field : String) (type : FieldType) :
    Agree (convertRecordElement c fill pos field slot type target source)
      (convertRecordElement c fill' pos field slot type target source) p (Keeps p) := by
  unfold convertRecordElement
  split
  · exact Steady.fail _ _
  · rename_i origin horigin
    -- The job stays within the schema, and its path only grows.
    have hjob : RecordJob.Admitted known pos fields ⟨target, origin, slot.path⟩ :=
      ⟨htarget, hsource _ (FieldType.record?_mem_mentions horigin), hpath⟩
    dsimp only
    split
    · exact (agree_helperFor hc hfill hfields hjob hroom).bindKeeps fun helper q _ =>
        Steady.assign _ _ q
    · rename_i hneeds
      refine (Steady.ofExcept _ _).bindKeeps fun go q hq => ?_
      exact agree_convertInline hc hfill hfields hjob (Bool.eq_false_iff.mpr hneeds)
        (room_le_of_keeps hq hroom) _ _ _

/-- Elements of a type that occurs in the fields of a position. The induction is on the type;
containers within containers stay on the same level. -/
theorem agree_convertElement (hc : c.Covered known longest)
    (hfill : FillsAgree c known longest n fill fill') (hfields : Schema.Within known fields)
    (field : String) (type : FieldType) :
    ∀ {p : Progress} (whole : FieldType),
      (∀ ref ∈ type.mentions, ref ∈ Schema.mentioned fields) →
      room c.schema known longest pos fields p.helpers ≤ n + 1 →
      ElementsAgree known pos p (convertElement c fill pos field whole type)
        (convertElement c fill' pos field whole type) := by
  induction type with
  | «alias» _ _ target ih =>
    intro p whole hmentions hroom slot q hslot hq
    exact ih whole hmentions hroom slot q hslot hq
  | record target =>
    intro p whole hmentions hroom slot q hslot hq
    have htarget := hmentions target (List.mem_singleton_self _)
    have hroom := room_le_of_keeps hq hroom
    simp only [convertElement]
    split
    · rename_i selector standIn _ hstandIn
      -- Both branches of the choice fill the record, the second one with the functions of the first.
      refine Agree.fork (Q := Keeps q) (agree_convertRecordElement hc hfill hfields hroom
        hslot.path htarget hslot.primary field whole) fun q' hq' => ?_
      refine (agree_convertRecordElement hc hfill hfields (room_le_of_keeps hq' hroom) hslot.path
        htarget (hslot.standIn _ hstandIn) field whole).mono fun _ _ h => hq'.trans h
    · exact agree_convertRecordElement hc hfill hfields hroom hslot.path htarget hslot.primary
        field whole
  | list element ih =>
    intro p whole hmentions hroom slot q hslot hq
    exact agree_convertList (ih element hmentions (room_le_of_keeps hq hroom)) (hslot.job field) _
  | set element form ih =>
    intro p whole hmentions hroom slot q hslot hq
    exact agree_convertSet (ih element hmentions (room_le_of_keeps hq hroom)) (hslot.job field) _ _
  | map key value _ ih =>
    intro p whole hmentions hroom slot q hslot hq
    have hvalue : ∀ ref ∈ value.mentions, ref ∈ Schema.mentioned fields :=
      fun ref href => hmentions ref (List.mem_append_right _ href)
    exact agree_convertMap (ih value hvalue (room_le_of_keeps hq hroom)) (hslot.job field) _ _
  | bool | int8 | int16 | int32 | int64 | double | text | binary | enum =>
    intro p whole hmentions hroom slot q hslot hq
    exact (Steady.ofExcept _ _).bindKeeps fun _ q' _ => Steady.assign _ _ q'

/-- A field that is a record is filled in place or by a local function. -/
theorem agree_fillRecord (hc : c.Covered known longest)
    (hfill : FillsAgree c known longest n fill fill') (hfields : Schema.Within known fields)
    (hroom : room c.schema known longest pos fields p.helpers ≤ n + 1) {path : Path}
    (hpath : pos.target.text.length ≤ path.text.length) {record : RecordRef}
    (hrecord : record ∈ Schema.mentioned fields) {source : Source}
    (hsource : source.field.type.Within known) (target : Field) :
    Agree (fillRecord c fill pos target record path source)
      (fillRecord c fill' pos target record path source) p (Keeps p) := by
  unfold fillRecord
  split
  · exact Steady.fail _ _
  · rename_i origin horigin
    have hjob : RecordJob.Admitted known pos fields ⟨record, origin, path⟩ :=
      ⟨hrecord, hsource _ (FieldType.record?_mem_mentions horigin), hpath⟩
    dsimp only
    split
    · -- The helper is drafted with one unit of fuel less; the rest of the call spends none.
      exact (agree_helperFor hc hfill hfields hjob hroom).bindKeeps fun _ q _ =>
        (Steady.guards _ _ q).bindKeeps fun _ q _ => (Steady.write _ q).bindKeeps fun _ q _ =>
          Steady.assign _ _ q
    · rename_i hneeds
      refine (Steady.ofExcept _ _).bindKeeps fun go q hq => ?_
      exact agree_convertInline hc hfill hfields hjob (Bool.eq_false_iff.mpr hneeds)
        (room_le_of_keeps hq hroom) _ _ _

/-- A path with something mapped beneath it is shorter than some mapped path. -/
theorem length_text_le_of_mapsBelow (hc : c.Covered known longest) {path : Path}
    (h : c.mapsBelow path.bare = true) : path.text.length ≤ longest := by
  obtain ⟨e, he, hstart⟩ := List.any_eq_true.mp h
  have hlen := (List.isPrefixOf_iff_prefix.mp hstart).length_le
  have hdot : ".".length = 1 := rfl
  simp only [String.length_toList, String.length_append, Path.length_bare] at hlen
  have := hc.short e he
  omega

/-- A record that is filled from mappings lies below a path of a mapping. Each further one is at a longer
path, and no path of a mapping is longer than the longest. -/
theorem agree_fillMapped (hc : c.Covered known longest)
    (hfill : FillsAgree c known longest n fill fill') (hfields : Schema.Within known fields)
    (hroom : room c.schema known longest pos fields p.helpers ≤ n + 1) {path : Path}
    (hpath : pos.target.text.length < path.text.length) {record : RecordRef}
    (hrecord : record ∈ Schema.mentioned fields)
    (hmaps : c.mapsBelow (Path.bare (pos.scope ++ path)) = true) (target : Field) :
    Agree (fillMapped c fill pos target record path) (fillMapped c fill' pos target record path) p
      (Keeps p) := by
  have hbelow : ∀ q : Progress, p.Grows q →
      Agree (fill { pos with target := path, source := none } (c.schema.fields record))
        (fill' { pos with target := path, source := none } (c.schema.fields record)) q
        (Keeps q) := by
    intro q hq
    refine hfill _ _ _ (fun _ _ h => (nomatch h))
      (Schema.within_fields hc.closed (id_mem_of_mentioned hfields hrecord)) ?_
    -- Some mapping goes on below the record, so its path is still short enough.
    have hshort := length_text_le_of_mapsBelow hc hmaps
    have hleft : pathLeft longest { pos with target := path, source := none } <
        pathLeft longest pos := by
      simp only [pathLeft, Path.length_text_append] at hshort ⊢
      omega
    have hless := room_lt_of_restart c.schema fields (c.schema.fields record)
      (Nat.add_lt_add_of_le_of_lt (pairsLeft_anti known hq) hleft)
    omega
  unfold fillMapped
  refine (Steady.ofExcept _ _).bindKeeps fun type q hq => ?_
  split
  · exact (Steady.guards _ _ q).bindKeeps fun _ q₁ h₁ => (Steady.write _ q₁).bindKeeps fun _ q₂ h₂ =>
      (Steady.assign _ _ q₂).bindKeeps fun _ q₃ h₃ => hbelow q₃ (((hq.trans h₁).trans h₂).trans h₃)
  · refine Agree.bindKeeps (.update (.refl _)) fun _ q₁ h₁ => ?_
    exact hbelow q₁ (hq.trans h₁)

/-- A field without a source is filled from mappings, or not at all. -/
theorem agree_fillUnsourced (hc : c.Covered known longest)
    (hfill : FillsAgree c known longest n fill fill') (hfields : Schema.Within known fields)
    (hroom : room c.schema known longest pos fields p.helpers ≤ n + 1) {path : Path}
    (hpath : pos.target.text.length < path.text.length) {target : Field} (htarget : target ∈ fields) :
    Agree (fillUnsourced c fill pos target path) (fillUnsourced c fill' pos target path) p
      (Keeps p) := by
  unfold fillUnsourced
  dsimp only
  split
  · rename_i record hrecord hmaps
    refine agree_fillMapped hc hfill hfields hroom hpath ?_ hmaps target
    exact Schema.mem_mentioned.mpr ⟨target, htarget, FieldType.record?_mem_mentions hrecord⟩
  · split
    · exact Steady.fail _ _
    · exact Steady.pure _ _

/-- A field with a source, by the type behind its aliases; what it mentions is mentioned among the
fields. -/
theorem agree_fillSourced (hc : c.Covered known longest)
    (hfill : FillsAgree c known longest n fill fill') (hfields : Schema.Within known fields)
    (hroom : room c.schema known longest pos fields p.helpers ≤ n + 1) {path : Path}
    (hpath : pos.target.text.length ≤ path.text.length) {target : Field} (htarget : target ∈ fields)
    {primary : Source} {standIn : Option Source} (hprimary : primary.field.type.Within known)
    (hstandIn : ∀ x, standIn = some x → x.field.type.Within known) :
    Agree (fillSourced c fill pos target path primary standIn)
      (fillSourced c fill' pos target path primary standIn) p (Keeps p) := by
  have hjob : ContainerJob.Admitted known pos
      { field := target.name, path, primary := .ofSource primary
        standIn := standIn.map .ofSource } := by
    refine ⟨hpath, hprimary, fun x hx => ?_⟩
    obtain ⟨y, hy, rfl⟩ := Option.map_eq_some_iff.mp hx
    exact hstandIn y hy
  -- The records in the type of a field are mentioned by the record it belongs to.
  have hmentions : ∀ t, target.type.root = t → ∀ ref ∈ t.mentions,
      ref ∈ Schema.mentioned fields := by
    rintro t rfl ref href
    rw [FieldType.mentions_root] at href
    exact Schema.mem_mentioned.mpr ⟨target, htarget, href⟩
  have hassign : ∀ cast : GoType → Bool → Cast, Steady (do
      let type ← Draft.ofExcept (target.type.goType c.resolve)
      assignSources pos target path (cast type) primary standIn) :=
    fun cast => (Steady.ofExcept _).bind fun type => Steady.assignSources _ _ _ _ _ _
  unfold fillSourced
  dsimp only
  split
  · rename_i record heq
    exact agree_fillRecord hc hfill hfields hroom hpath
      (hmentions _ heq record (List.mem_singleton_self _)) hprimary target
  · rename_i element heq
    exact agree_convertList (agree_convertElement hc hfill hfields _ element element
      (fun ref href => hmentions _ heq ref href) hroom) hjob element
  · rename_i element form heq
    exact agree_convertSet (agree_convertElement hc hfill hfields _ element element
      (fun ref href => hmentions _ heq ref href) hroom) hjob element form
  · rename_i key value heq
    exact agree_convertMap (agree_convertElement hc hfill hfields _ value value
      (fun ref href => hmentions _ heq ref (List.mem_append_right _ href)) hroom) hjob key value
  · exact hassign (fun type _ => .bytes type) p
  · exact hassign (fun type required => Cast.forPresence type required target.required) p

/-! ## Sources -/

/-- The source of the same name is one of the fields of the source. -/
theorem within_directSource (hpos : pos.Within known) {target : Field} {x : Source}
    (h : directSource pos target = some x) : x.field.type.Within known := by
  obtain ⟨place, sources, hsource⟩ := exists_source_of_directSource h
  exact hpos place sources hsource x.field (directSource_some hsource h).1

/-- Sources that mappings lead to are known as well. -/
theorem within_sourcesOf (hc : c.Covered known longest) (hpos : pos.Within known) (target : Field)
    (path : String) :
    (∀ x, (sourcesOf c pos target path).1 = some x → x.field.type.Within known) ∧
      ∀ x, (sourcesOf c pos target path).2 = some x → x.field.type.Within known := by
  refine sourcesOf_forall (fun x hx => within_directSource hpos hx) fun mapped hmapped => ?_
  exact hc.mapped (path, mapped) (Settings.mem_of_mapping? hmapped)

/-- One field among those that are filled. -/
theorem agree_fillField (hc : c.Covered known longest)
    (hfill : FillsAgree c known longest n fill fill') (hpos : pos.Within known)
    (hfields : Schema.Within known fields)
    (hroom : room c.schema known longest pos fields p.helpers ≤ n + 1) {target : Field}
    (htarget : target ∈ fields) :
    Agree (fillField c fill pos target) (fillField c fill' pos target) p (Keeps p) := by
  have hpath := Path.length_text_lt_select pos.target (pascal target.name)
  have hsources := within_sourcesOf hc hpos target
    (Path.bare (pos.scope ++ pos.target.select (pascal target.name)))
  unfold fillField
  dsimp only
  split
  · rename_i primary standIn heq
    rw [heq] at hsources
    exact agree_fillSourced hc hfill hfields hroom (Nat.le_of_lt hpath) htarget
      (hsources.1 primary rfl) hsources.2
  · exact agree_fillUnsourced hc hfill hfields hroom hpath htarget

end Levels

/-! ## Whole conversions -/

/-- Two bounds that both cover the room make no difference. -/
theorem fillFields_agree {c : Settings} {known : List Nat} {longest : Nat}
    (hc : c.Covered known longest) :
    ∀ {n m m' : Nat}, n ≤ m → n ≤ m' →
      FillsAgree c known longest n (fillFields c m) (fillFields c m')
  | 0, _, _, _, _ => fun _ _ _ _ _ hroom => absurd hroom (Nat.not_succ_le_zero _)
  | n + 1, 0, _, hm, _ => absurd hm (Nat.not_succ_le_zero n)
  | n + 1, _, 0, _, hm' => absurd hm' (Nat.not_succ_le_zero n)
  | n + 1, m + 1, m' + 1, hm, hm' => by
    intro pos fields p hpos hfields hroom
    have hbelow := fillFields_agree hc (Nat.le_of_succ_le_succ hm) (Nat.le_of_succ_le_succ hm')
    refine Agree.forM (I := fun q : Progress => p.Grows q) (.refl _) ?_
    intro target htarget q hq
    exact (agree_fillField hc hbelow hpos hfields (room_le_of_keeps hq hroom) htarget).mono
      fun _ _ h => hq.trans h

/-- A number among others is at most the largest of them. -/
theorem le_foldl_max : ∀ {l : List Nat} {a b : Nat}, a ≤ b ∨ a ∈ l → a ≤ l.foldl max b
  | [], _, _, h => h.resolve_right List.not_mem_nil
  | x :: l, a, b, h => by
    refine le_foldl_max (l := l) ?_
    rcases h with h | h
    · exact .inl (Nat.le_trans h (Nat.le_max_left _ _))
    · rcases List.mem_cons.mp h with rfl | h
      · exact .inl (Nat.le_max_right _ _)
      · exact .inr h

/-- A path that can be followed from fields within a closed set leads to a type within it. -/
theorem within_followSource {s : Schema} {known : List Nat}
    (hclosed : ∀ a ∈ known, ∀ b, s.Mentions a b → b ∈ known) {names : List String} {path : Path}
    {fields : List Field} {found : Path × Field} (hfields : Schema.Within known fields)
    (h : followSource s path fields names = some found) : found.2.type.Within known := by
  refine followSource_forall (P := fun _ fields => Schema.Within known fields)
    (Q := fun _ f => f.type.Within known) (fun hwithin hf => hwithin _ hf) ?_ hfields h
  intro _ _ f ref hwithin hf href
  exact Schema.within_fields hclosed (hwithin f hf ref (FieldType.record?_mem_mentions href))

namespace ConversionRequest

/-- The length of the longest mapped path. -/
def longest (r : ConversionRequest) : Nat :=
  (r.mappings.keys.map String.length).foldl max 0

/-- The records of a request are closed under being mentioned. -/
theorem closed_records (r : ConversionRequest) :
    ∀ a ∈ r.records, ∀ b, r.schema.Mentions a b → b ∈ r.records :=
  (r.schema.reachable_closed _).2

/-- And they are all that its two groups of fields mention. -/
theorem within_records (r : ConversionRequest) :
    Schema.Within r.records r.source ∧ Schema.Within r.records r.target := by
  have h := Schema.within_reachable r.schema (r.source ++ r.target)
  exact ⟨fun f hf => h f (List.mem_append_left _ hf), fun f hf => h f (List.mem_append_right _ hf)⟩

/-- The records of a request cover its settings. -/
theorem covered (r : ConversionRequest) {mapped : List (String × MappedField)}
    (h : r.schema.followMappings r.source r.mappings.entries = .ok mapped) :
    (r.settings mapped).Covered r.records r.longest where
  closed := r.closed_records
  cyclic a ha hcyclic := List.mem_filter.mpr ⟨ha, hcyclic⟩
  mapped e he := by
    obtain ⟨m, -, hsource⟩ := mem_followMappings h e he
    exact within_followSource r.closed_records r.within_records.1 hsource
  short e he := by
    obtain ⟨m, hm, -⟩ := mem_followMappings h e he
    exact le_foldl_max (.inr (List.mem_map_of_mem (List.mem_map_of_mem hm)))

/-- The statements of a conversion with another bound on the depth. -/
def draftWithin (r : ConversionRequest) (depth : Nat) : Writing Unit := do
  let mapped ← Draft.ofExcept (r.schema.followMappings r.source r.mappings.entries)
  let c := r.settings mapped
  Draft.write (preamble c)
  fillFields c depth { source := some (.ofVar .input, r.source) } r.target

/-- The bound of a request covers the room at its start. -/
theorem room_le_depthBound (r : ConversionRequest) (pos : Position) (helpers : List Helper) :
    room r.schema r.records r.longest pos r.target helpers ≤ r.depthBound := by
  have hpairs := pairsLeft_le r.records helpers
  have hpath : pathLeft r.longest pos ≤ r.longest := Nat.sub_le ..
  have hinline := inlineLeft_le r.schema r.records r.target
  have hmul := Nat.mul_le_mul_right (r.records.length + 2) (Nat.add_le_add hpairs hpath)
  have hbound : r.depthBound =
      (r.records.length * r.records.length + r.longest) * (r.records.length + 2) +
        (r.records.length + 2) + 1 := by
    rw [← Nat.succ_mul]
    rfl
  unfold room
  omega

/-- A larger bound gives the same run, and no run stops at the bound. -/
theorem agree_draftWithin (r : ConversionRequest) {depth : Nat} (h : r.depthBound ≤ depth)
    (p : Progress) : Agree (r.draftWithin depth) r.draft p fun _ _ => True := by
  unfold draftWithin draft
  refine Agree.bind (Q := fun mapped _ =>
    r.schema.followMappings r.source r.mappings.entries = .ok mapped)
    (.ofExcept fun _ hmapped => hmapped) fun mapped q hmapped => ?_
  refine (Steady.write _ q).bind fun _ q' _ => ?_
  refine (fillFields_agree (r.covered hmapped) h (Nat.le_refl _) _ _ q' ?_ r.within_records.2
    (r.room_le_depthBound _ _)).mono fun _ _ _ => trivial
  intro place fields hsource
  cases hsource
  exact r.within_records.1

/-- **Termination**: every conversion comes to lines, to an error or to a break at a line feed, and
no larger bound on the depth of its recursion changes anything. -/
theorem run_terminates (r : ConversionRequest) :
    ((∃ text, r.run = .lines text) ∨ (∃ cause, r.run = .failed cause) ∨
        ∃ line written, r.run = .broke (.brokenLine line) written) ∧
      ∀ depth, r.depthBound ≤ depth → (r.draftWithin depth).outcome {} = r.run := by
  have hself := r.agree_draftWithin (Nat.le_refl _) {}
  constructor
  · unfold run Draft.outcome
    cases hdraft : r.draft {} with
    | ok result => exact .inl ⟨_, rfl⟩
    | error halt =>
      obtain ⟨written, stop⟩ := halt
      have hfinal : stop.IsFinal := hself.final _ hdraft
      match stop, hfinal with
      | .failed cause, _ => exact .inr (.inl ⟨cause, rfl⟩)
      | .broke (.brokenLine line), _ => exact .inr (.inr ⟨line, _, rfl⟩)
  · intro depth hdepth
    rw [run, Draft.outcome, Draft.outcome, (r.agree_draftWithin hdepth {}).same]

end ConversionRequest

end RecordBridge

import RecordBridge.Proofs.Conversion.Derivation

/-!
# Finished conversions have derivations

Each function of the conversion is inverted once: where it finishes, what it has written is emitted
by one of the rules. `emits_of_fillFields` ties the knot between fields and records by induction on
the bound on the depth, which the rules do not mention.
-/

namespace RecordBridge

open Draft

/-! ## Small drafts -/

namespace Writing

variable {α : Type} {p q : Progress} {b : Code}

/-- Guards are looked up in the table of the records that wait, and change nothing. -/
theorem guards_ok {pos : Position} {target : Path} {g : Code} :
    guards pos target p = .ok (g, b, q) ↔
      g = p.deferred.guards pos.scope target ∧ b = .done ∧ q = p := by
  constructor
  · intro h
    cases h
    exact ⟨rfl, rfl, rfl⟩
  · rintro ⟨rfl, rfl, rfl⟩
    rfl

/-- A fresh number is the next one. -/
theorem fresh_ok {n : Nat} :
    fresh p = .ok (n, b, q) ↔
      n = p.counter + 1 ∧ b = .done ∧ q = { p with counter := p.counter + 1 } := by
  constructor
  · intro h
    cases h
    exact ⟨rfl, rfl, rfl⟩
  · rintro ⟨rfl, rfl, rfl⟩
    rfl

theorem statement_ok {s : Statement} {u : Unit} (h : statement s p = .ok (u, b, q)) :
    b = .step s .done ∧ q = p :=
  write_ok h

theorem assign_ok {target : Path} {value : Expr} {u : Unit}
    (h : assign target value p = .ok (u, b, q)) :
    b = .step (.assign ⟨.output, target⟩ value) .done ∧ q = p :=
  statement_ok h

/-- What an enclosed draft ends with is in scope only within it. -/
theorem enclosed_ok {d : Writing α} {a : α} (h : enclosed d p = .ok (a, b, q)) :
    ∃ r, d p = .ok (a, b, r) ∧ q = { r with helpers := p.helpers } := by
  obtain ⟨before, b₁, p₁, b₂, hstate, h₁, rfl⟩ := bind_ok.mp h
  obtain ⟨rfl, rfl, rfl⟩ := state_ok.mp hstate
  obtain ⟨a', b₃, r, b₄, hd, h₂, rfl⟩ := bind_ok.mp h₁
  obtain ⟨_, b₅, p₂, b₆, hupdate, h₃, rfl⟩ := bind_ok.mp h₂
  obtain ⟨rfl, rfl⟩ := update_ok.mp hupdate
  obtain ⟨rfl, rfl, rfl⟩ := pure_ok.mp h₃
  exact ⟨r, by simpa using hd, rfl⟩

end Writing

open Writing

variable {c : Settings} {fill : Fill} {pos : Position} {p q : Progress} {b : Code} {u : Unit}

/-! ## Records -/

/-- What a way to fill records writes is emitted for their fields. -/
def Fill.Emits (c : Settings) (fill : Fill) : Prop :=
  ∀ {pos : Position} {fields : List Field} {p q : Progress} {b : Code} {u : Unit},
    fill pos fields p = .ok (u, b, q) → RecordBridge.Emits c (.fields pos fields) p b q

/-- A record that is filled in place is told by how its fields are: in a test of the source, with an
alternative or without. -/
theorem emits_convertInline (hfill : Fill.Emits c fill) {job : RecordJob} {type : FieldType}
    {go : GoType} {tested base : Place} {inField : Bool}
    (hneeds : c.needsHelper job.target job.source = false)
    (htype : type.goType c.resolve = .ok go)
    (h : convertInline c fill pos job go tested base p = .ok (u, b, q)) :
    Emits c (.record pos job type tested base inField) p b q := by
  obtain ⟨guards, b₁, p₁, b₂, hguards, h₁, rfl⟩ := bind_ok.mp h
  obtain ⟨rfl, rfl, rfl⟩ := guards_ok.mp hguards
  -- Both forms of the block have the same body.
  have hbody : ∀ {u : Unit} {body : Code} {r : Progress},
      enclosed (do
        Draft.write (p₁.deferred.guards pos.scope job.path)
        Writing.assign job.path (.newRecord go)
        fill (pos.inline c job base) (c.schema.fields job.target)) p₁ = .ok (u, body, r) →
      ∃ filled q', body = p₁.deferred.guards pos.scope job.path ++
          .step (.assign ⟨.output, job.path⟩ (.newRecord go)) filled ∧
        r = { q' with helpers := p₁.helpers } ∧
        Emits c (.fields (pos.inline c job base) (c.schema.fields job.target)) p₁ filled q' := by
    intro u body r hd
    obtain ⟨q', hd₀, rfl⟩ := enclosed_ok hd
    obtain ⟨_, b₃, p₂, b₄, hwrite, hd₁, rfl⟩ := bind_ok.mp hd₀
    obtain ⟨rfl, rfl⟩ := write_ok hwrite
    obtain ⟨_, b₅, p₃, b₆, hassign, hd₂, rfl⟩ := bind_ok.mp hd₁
    obtain ⟨rfl, rfl⟩ := assign_ok hassign
    exact ⟨b₆, q', rfl, rfl, hfill hd₂⟩
  rw [Block.done_append]
  split at h₁
  · rename_i hempty
    obtain ⟨yes, p₂, no, hyes, hno, rfl⟩ := fork_ok h₁
    obtain ⟨filled, q', rfl, rfl, hfields⟩ := hbody hyes
    obtain ⟨rfl, rfl⟩ := assign_ok hno
    have hrecord : Emits c (.record pos job type tested base inField) _ _ _ :=
      .inline hneeds htype hfields
    rwa [inlineCode, if_pos hempty] at hrecord
  · rename_i hguarded
    obtain ⟨body, hnest, rfl⟩ := nest_ok h₁
    obtain ⟨filled, q', rfl, rfl, hfields⟩ := hbody hnest
    have hrecord : Emits c (.record pos job type tested base inField) _ _ _ :=
      .inline hneeds htype hfields
    rwa [inlineCode, if_neg hguarded] at hrecord

/-- The body of a local function is told by how its fields are filled from its variables. Functions that
it defines go out of scope with it. -/
theorem emits_helperBody (hfill : Fill.Emits c fill) {job : RecordJob} {helper : HelperSignature}
    (h : helperBody c fill pos job helper p = .ok (u, b, q)) :
    ∃ body q', b = helperCode helper body ∧ q = { q' with helpers := p.helpers } ∧
      Emits c (.fields (pos.inHelper c job) (c.schema.fields job.target)) p body q' := by
  obtain ⟨_, b₁, p₁, b₂, hdeclare, h₁, rfl⟩ := bind_ok.mp h
  obtain ⟨rfl, rfl⟩ := statement_ok hdeclare
  obtain ⟨body, h₂, rfl⟩ := nest_ok h₁
  obtain ⟨_, b₃, p₂, b₄, hfork, hback, rfl⟩ := bind_ok.mp h₂
  obtain ⟨rfl, rfl⟩ := statement_ok hback
  obtain ⟨yes, p₃, no, hyes, hno, rfl⟩ := fork_ok hfork
  obtain ⟨rfl, rfl⟩ := statement_ok hno
  obtain ⟨q', hbody, rfl⟩ := enclosed_ok hyes
  obtain ⟨_, b₅, p₄, b₆, hnew, hfields, rfl⟩ := bind_ok.mp hbody
  obtain ⟨rfl, rfl⟩ := statement_ok hnew
  exact ⟨b₆, q', rfl, rfl, hfill hfields⟩

/-- A record that is converted by a local function: a call of one in scope, or of a new one. The
statements of `call` follow, from the progress that the function leaves. -/
theorem emits_helperFor (hfill : Fill.Emits c fill) {job : RecordJob} {type : FieldType}
    {tested base : Place} {inField : Bool} {helper : Var} {b₁ b₂ : Code} {r : Progress}
    (hneeds : c.needsHelper job.target job.source = true)
    (hhelper : helperFor c fill pos job p = .ok (helper, b₁, q))
    (hcall : b₂ = callCode (guardsAbove q pos job.path inField) job.path helper tested)
    (hr : r = q) :
    Emits c (.record pos job type tested base inField) p (b₁ ++ b₂) r := by
  subst hcall hr
  obtain ⟨before, b₃, p₁, b₄, hstate, h, rfl⟩ := bind_ok.mp hhelper
  obtain ⟨rfl, rfl, rfl⟩ := state_ok.mp hstate
  -- Either a function for the pair is in scope and is called, or a new one is defined.
  cases hknown : p₁.helper? job with
  | some known =>
    rw [Progress.helper?] at hknown
    simp only [hknown] at h
    obtain ⟨rfl, rfl, rfl⟩ := pure_ok.mp h
    exact .call hneeds hknown
  | none =>
    have hnone := hknown
    rw [Progress.helper?] at hknown
    simp only [hknown] at h
    obtain ⟨target, b₅, p₂, b₆, hd₁, h₁, rfl⟩ := bind_ok.mp h
    obtain ⟨htarget, rfl, rfl⟩ := ofExcept_ok.mp hd₁
    obtain ⟨source, b₇, p₃, b₈, hd₂, h₂, rfl⟩ := bind_ok.mp h₁
    obtain ⟨hsource, rfl, rfl⟩ := ofExcept_ok.mp hd₂
    obtain ⟨number, b₉, p₄, b₁₀, hfresh, h₃, rfl⟩ := bind_ok.mp h₂
    obtain ⟨rfl, rfl, rfl⟩ := fresh_ok.mp hfresh
    obtain ⟨_, b₁₁, p₅, b₁₂, hupdate, h₄, rfl⟩ := bind_ok.mp h₃
    obtain ⟨rfl, rfl⟩ := update_ok.mp hupdate
    obtain ⟨_, b₁₃, p₆, b₁₄, hbody, h₅, rfl⟩ := bind_ok.mp h₄
    obtain ⟨rfl, rfl, rfl⟩ := pure_ok.mp h₅
    obtain ⟨body, q', rfl, rfl, hfields⟩ := emits_helperBody hfill hbody
    simp only [Block.done_append, Block.append_done]
    exact .define (q := q') hneeds hnone htarget hsource hfields

/-! ## Containers -/

/-- A source that passes has the shape that was asked for. -/
theorem shaped_ok {α : Type} {field : String} {shape : Shape} {part? : Operand → Option α}
    {x : Operand} {a : α} (h : shaped field shape part? x p = .ok (a, b, q)) :
    part? x = some a ∧ b = .done ∧ q = p := by
  cases hpart : part? x with
  | some part =>
    simp only [shaped, hpart] at h
    obtain ⟨rfl, rfl, rfl⟩ := value_ok.mp h
    exact ⟨rfl, rfl, rfl⟩
  | none =>
    simp only [shaped, hpart] at h
    exact absurd h not_stop_ok

/-- What stands in has it, too, or does not stand in. -/
theorem shapedStandIn_ok {α : Type} {field : String} {shape : Shape}
    {part? : Operand → Option α} {x : Option Operand} {a : Option α}
    (h : shapedStandIn field shape part? x p = .ok (a, b, q)) :
    standInPart part? x = some a ∧ b = .done ∧ q = p := by
  cases x with
  | none =>
    obtain ⟨rfl, rfl, rfl⟩ := pure_ok.mp h
    exact ⟨rfl, rfl, rfl⟩
  | some x =>
    obtain ⟨part, b₁, p₁, b₂, hd, h₁, rfl⟩ := bind_ok.mp h
    obtain ⟨hpart, rfl, rfl⟩ := shaped_ok hd
    obtain ⟨rfl, rfl, rfl⟩ := pure_ok.mp h₁
    exact ⟨by rw [standInPart, hpart]; rfl, rfl, rfl⟩

/-- Keys that pass are text, with a Go type. -/
theorem keyType_ok {field : String} {key : FieldType} {go : GoType}
    (h : keyType c field key p = .ok (go, b, q)) :
    key.isText = true ∧ key.goType c.resolve = .ok go ∧ b = .done ∧ q = p := by
  rw [keyType] at h
  split at h
  · rename_i htext
    exact ⟨htext, ofExcept_ok.mp h⟩
  · exact absurd h not_stop_ok

/-- The choice between sources is the one that `Selection.of` describes: nothing, or a variable
with what stands in, over which the primary source is put if it is set, with a flag where the
choice matters later. -/
theorem selectSource_ok {primary : Place} {standIn : Option Place} {flagged : Bool}
    {place : Place} {flag : Option Var}
    (h : selectSource primary standIn flagged p = .ok ((place, flag), b, q)) :
    ∃ chosen, chosen = Selection.of p.counter primary standIn flagged ∧ b = chosen.code ∧
      place = chosen.source ∧ flag = chosen.flag ∧ q = { p with counter := chosen.counter } := by
  refine ⟨_, rfl, ?_⟩
  cases standIn with
  | none =>
    obtain ⟨heq, rfl, rfl⟩ := pure_ok.mp h
    cases heq
    exact ⟨rfl, rfl, rfl, rfl⟩
  | some standIn =>
    obtain ⟨n, b₁, p₁, b₂, hfresh, h₁, rfl⟩ := bind_ok.mp h
    obtain ⟨rfl, rfl, rfl⟩ := fresh_ok.mp hfresh
    -- The flag, where one is kept, gets the second of two numbers.
    cases flagged with
    | false =>
      obtain ⟨_, b₃, p₂, b₄, hdefine, h₂, rfl⟩ := bind_ok.mp h₁
      obtain ⟨rfl, rfl⟩ := statement_ok hdefine
      obtain ⟨_, b₅, p₃, b₆, hnest, h₃, rfl⟩ := bind_ok.mp h₂
      obtain ⟨taken, hassign, rfl⟩ := nest_ok hnest
      obtain ⟨rfl, rfl⟩ := statement_ok hassign
      obtain ⟨heq, rfl, rfl⟩ := pure_ok.mp h₃
      cases heq
      exact ⟨rfl, rfl, rfl, rfl⟩
    | true =>
      obtain ⟨m, b₃, p₂, b₄, hfresh, h₂, rfl⟩ := bind_ok.mp h₁
      obtain ⟨rfl, rfl, rfl⟩ := fresh_ok.mp hfresh
      obtain ⟨_, b₅, p₃, b₆, hchosen, h₃, rfl⟩ := bind_ok.mp h₂
      obtain ⟨rfl, rfl⟩ := statement_ok hchosen
      obtain ⟨_, b₇, p₄, b₈, hflag, h₄, rfl⟩ := bind_ok.mp h₃
      obtain ⟨rfl, rfl⟩ := statement_ok hflag
      obtain ⟨_, b₉, p₅, b₁₀, hnest, h₅, rfl⟩ := bind_ok.mp h₄
      obtain ⟨taken, htaken, rfl⟩ := nest_ok hnest
      obtain ⟨_, b₁₁, p₆, b₁₂, htake, hset, rfl⟩ := bind_ok.mp htaken
      obtain ⟨rfl, rfl⟩ := statement_ok htake
      obtain ⟨rfl, rfl⟩ := statement_ok hset
      obtain ⟨heq, rfl, rfl⟩ := pure_ok.mp h₅
      cases heq
      exact ⟨rfl, rfl, rfl, rfl⟩

/-- A container is made under the guards for what is above it. -/
theorem makeContainer_ok {job : ContainerJob} {value : Expr}
    (h : makeContainer pos job value p = .ok (u, b, q)) :
    b = p.deferred.guards pos.scope job.path ++
      .step (.assign ⟨.output, job.path⟩ value) .done ∧ q = p := by
  obtain ⟨guards, b₁, p₁, b₂, hguards, h₁, rfl⟩ := bind_ok.mp h
  obtain ⟨rfl, rfl, rfl⟩ := guards_ok.mp hguards
  obtain ⟨_, b₃, p₂, b₄, hwrite, h₂, rfl⟩ := bind_ok.mp h₁
  obtain ⟨rfl, rfl⟩ := write_ok hwrite
  obtain ⟨rfl, rfl⟩ := assign_ok h₂
  exact ⟨rfl, rfl⟩

/-- What a conversion of elements writes is emitted for them. -/
def ConvertsElements (c : Settings) (pos : Position) (field : String) (element : FieldType)
    (convert : Slot → Writing Unit) : Prop :=
  ∀ {slot : Slot} {p q : Progress} {b : Code} {u : Unit},
    convert slot p = .ok (u, b, q) → Emits c (.element pos field element slot) p b q

/-- The statements of a loop, from the choice of its container on. -/
theorem emits_loop {loop : Loop} {type : FieldType} {job : ContainerJob}
    {convert : Slot → Writing Unit} (hloop : loop.Converts c job type)
    (hconvert : ConvertsElements c pos job.field loop.element convert)
    (h : (do
      let (source, selector) ← selectSource job.primary.place (job.standIn.map (·.place))
        (choosesPerElement c loop.element loop.primary)
      makeContainer pos job (.make loop.made source)
      let index ← fresh
      let value ← fresh
      Draft.nest (.each (loop.position index) (.value value) source) <| enclosed <| convert
        { path := job.path ++ [loop.step (loop.position index)]
          value := .value value
          primary := ⟨loop.primary, job.primary.place.element (loop.position index)⟩
          standIn := match job.standIn, loop.standIn with
            | some x, some type => some ⟨type, x.place.element (loop.position index)⟩
            | _, _ => none
          selector } : Writing Unit) p = .ok (u, b, q)) :
    Emits c (.container pos type job) p b q := by
  obtain ⟨⟨source, selector⟩, b₁, p₁, b₂, hselect, h₁, rfl⟩ := bind_ok.mp h
  obtain ⟨chosen, hchosen, rfl, rfl, rfl, rfl⟩ := selectSource_ok hselect
  obtain ⟨_, b₃, p₂, b₄, hmake, h₂, rfl⟩ := bind_ok.mp h₁
  obtain ⟨rfl, rfl⟩ := makeContainer_ok hmake
  obtain ⟨index, b₅, p₃, b₆, hindex, h₃, rfl⟩ := bind_ok.mp h₂
  obtain ⟨rfl, rfl, rfl⟩ := fresh_ok.mp hindex
  obtain ⟨value, b₇, p₄, b₈, hvalue, h₄, rfl⟩ := bind_ok.mp h₃
  obtain ⟨rfl, rfl, rfl⟩ := fresh_ok.mp hvalue
  obtain ⟨body, henclosed, rfl⟩ := nest_ok h₄
  obtain ⟨r, hbody, rfl⟩ := enclosed_ok henclosed
  -- The parts of the draft are the premises of the rule for loops; the code is told by `Loop.code`.
  have hemits : Emits c (.container pos type job) _ _ _ := .loop hloop hchosen (hconvert hbody)
  simpa only [Loop.code, Block.done_append, Block.append_assoc, Block.step_append] using hemits

/-- A list is converted by a loop. -/
theorem emits_convertList {element : FieldType} {convert : Slot → Writing Unit}
    {job : ContainerJob} (hconvert : ConvertsElements c pos job.field element convert)
    (h : convertList c pos element convert job p = .ok (u, b, q)) :
    Emits c (.container pos (.list element) job) p b q := by
  obtain ⟨primary, b₁, p₁, b₂, hprimary', h₁, rfl⟩ := bind_ok.mp h
  obtain ⟨hprimary, rfl, rfl⟩ := shaped_ok hprimary'
  obtain ⟨standIn, b₃, p₂, b₄, hstandIn', h₂, rfl⟩ := bind_ok.mp h₁
  obtain ⟨hstandIn, rfl, rfl⟩ := shapedStandIn_ok hstandIn'
  obtain ⟨type, b₅, p₃, b₆, htype', h₃, rfl⟩ := bind_ok.mp h₂
  obtain ⟨htype, rfl, rfl⟩ := ofExcept_ok.mp htype'
  exact emits_loop (.list hprimary hstandIn htype) hconvert h₃

/-- A set is converted by a loop if both sides are slices, and otherwise its elements are taken over as
keys. -/
theorem emits_convertSet {element : FieldType} {form : SetForm} {convert : Slot → Writing Unit}
    {job : ContainerJob} (hconvert : ConvertsElements c pos job.field element convert)
    (h : convertSet c pos element form convert job p = .ok (u, b, q)) :
    Emits c (.container pos (.set element form) job) p b q := by
  obtain ⟨⟨primary, primaryForm⟩, b₁, p₁, b₂, hprimary', h₁, rfl⟩ := bind_ok.mp h
  obtain ⟨hprimary, rfl, rfl⟩ := shaped_ok hprimary'
  obtain ⟨standIn, b₃, p₂, b₄, hstandIn', h₂, rfl⟩ := bind_ok.mp h₁
  obtain ⟨hstandIn, rfl, rfl⟩ := shapedStandIn_ok hstandIn'
  dsimp only at h₂
  split at h₂
  · -- Both sides are slices: the loop is that of a list.
    rename_i hslices
    obtain ⟨hkeyed, hprimaryKeyed⟩ : isKeyed element form = false ∧
        isKeyed primary primaryForm = false := by simpa using hslices
    obtain ⟨type, b₅, p₃, b₆, htype', h₃, rfl⟩ := bind_ok.mp h₂
    obtain ⟨htype, rfl, rfl⟩ := ofExcept_ok.mp htype'
    exact emits_loop (.set hprimary hstandIn hkeyed hprimaryKeyed htype) hconvert h₃
  · rename_i hkeys
    split at h₂
    · exact absurd h₂ not_stop_ok
    · rename_i hhashable
      obtain ⟨type, b₅, p₃, b₆, htype', h₄, rfl⟩ := bind_ok.mp h₂
      obtain ⟨htype, rfl, rfl⟩ := ofExcept_ok.mp htype'
      obtain ⟨⟨source, selector⟩, b₇, p₄, b₈, hselect, h₅, rfl⟩ := bind_ok.mp h₄
      obtain ⟨chosen, hchosen, rfl, rfl, rfl, rfl⟩ := selectSource_ok hselect
      obtain ⟨_, b₉, p₅, b₁₀, hmake, h₆, rfl⟩ := bind_ok.mp h₅
      obtain ⟨rfl, rfl⟩ := makeContainer_ok hmake
      obtain ⟨value, b₁₁, p₆, b₁₂, hvalue, h₇, rfl⟩ := bind_ok.mp h₆
      obtain ⟨rfl, rfl, rfl⟩ := fresh_ok.mp hvalue
      obtain ⟨body, hbody, rfl⟩ := nest_ok h₇
      -- One of the sides is kept as a map, and the elements can be keys.
      have hkeyed : (isKeyed element form || isKeyed primary primaryForm) = true := by
        cases hi : isKeyed element form <;> cases hf : isKeyed primary primaryForm <;>
          simp [hi, hf] at hkeys ⊢
      have hemits : Emits c (.container pos (.set element form) job) _ _ _ :=
        .keys hprimary hstandIn hkeyed (by simpa using hhashable) htype hchosen
      cases hi : isKeyed element form <;> rw [hi] at hbody hemits <;>
        obtain ⟨rfl, rfl⟩ := assign_ok hbody <;>
        simpa only [keysCode, Block.done_append, Block.append_assoc, Block.step_append, reduceIte,
          Bool.false_eq_true] using hemits

/-- A map is converted by a loop over its keys and values. -/
theorem emits_convertMap {key value : FieldType} {convert : Slot → Writing Unit}
    {job : ContainerJob} (hconvert : ConvertsElements c pos job.field value convert)
    (h : convertMap c pos key value convert job p = .ok (u, b, q)) :
    Emits c (.container pos (.map key value) job) p b q := by
  obtain ⟨keyGo, b₁, p₁, b₂, hkey', h₁, rfl⟩ := bind_ok.mp h
  obtain ⟨htext, hkey, rfl, rfl⟩ := keyType_ok hkey'
  obtain ⟨primary, b₃, p₂, b₄, hprimary', h₂, rfl⟩ := bind_ok.mp h₁
  obtain ⟨hprimary, rfl, rfl⟩ := shaped_ok hprimary'
  obtain ⟨standIn, b₅, p₃, b₆, hstandIn', h₃, rfl⟩ := bind_ok.mp h₂
  obtain ⟨hstandIn, rfl, rfl⟩ := shapedStandIn_ok hstandIn'
  obtain ⟨valueGo, b₇, p₄, b₈, htype', h₄, rfl⟩ := bind_ok.mp h₃
  obtain ⟨htype, rfl, rfl⟩ := ofExcept_ok.mp htype'
  exact emits_loop (.map htext hkey hprimary hstandIn htype) hconvert h₄

/-! ## Elements -/

/-- A record among elements has a source that is a record, too. -/
theorem emits_convertRecordElement (hfill : Fill.Emits c fill) {field : String} {slot : Slot}
    {type : FieldType} {target : RecordRef} {source : Operand}
    (h : convertRecordElement c fill pos field slot type target source p = .ok (u, b, q)) :
    ∃ origin, source.type.record? = some origin ∧
      Emits c (.record pos ⟨target, origin, slot.path⟩ type (.ofVar slot.value) source.place false)
        p b q := by
  cases horigin : source.type.record? with
  | none =>
    simp only [convertRecordElement, horigin] at h
    exact absurd h not_stop_ok
  | some origin =>
    refine ⟨origin, rfl, ?_⟩
    simp only [convertRecordElement, horigin] at h
    -- What needs a helper is filled by a call of it, all else in place.
    split at h
    · rename_i hneeds
      obtain ⟨helper, b₁, p₁, b₂, hhelper, h₁, rfl⟩ := bind_ok.mp h
      obtain ⟨hcall, hr⟩ := assign_ok h₁
      exact emits_helperFor hfill hneeds hhelper hcall hr
    · rename_i hneeds
      obtain ⟨go, b₁, p₁, b₂, htype', h₁, rfl⟩ := bind_ok.mp h
      obtain ⟨htype, rfl, rfl⟩ := ofExcept_ok.mp htype'
      exact emits_convertInline hfill (Bool.eq_false_iff.mpr hneeds) htype h₁

/-- A record among elements is filled from the primary source, or from whichever of two sources the flag
tells. -/
theorem emits_recordElement (hfill : Fill.Emits c fill) {field : String} {slot : Slot}
    {type : FieldType} {target : RecordRef} (hroot : type.root = .record target)
    (h : convertElement c fill pos field type (.record target) slot p = .ok (u, b, q)) :
    Emits c (.element pos field type slot) p b q := by
  rw [convertElement] at h
  cases hselector : slot.selector with
  | none =>
    simp only [hselector] at h
    obtain ⟨origin, horigin, hrecord⟩ := emits_convertRecordElement hfill h
    exact .recordElement hroot (.inl hselector) horigin hrecord
  | some selector =>
    cases hstandIn : slot.standIn with
    | none =>
      simp only [hselector, hstandIn] at h
      obtain ⟨origin, horigin, hrecord⟩ := emits_convertRecordElement hfill h
      exact .recordElement hroot (.inr hstandIn) horigin hrecord
    | some standIn =>
      simp only [hselector, hstandIn] at h
      -- With a flag and something that stands in, there are two ways to fill it.
      obtain ⟨b₁, p₁, b₂, hyes, hno, rfl⟩ := fork_ok h
      obtain ⟨origin, horigin, hprimary⟩ := emits_convertRecordElement hfill hyes
      obtain ⟨origin', horigin', hother⟩ := emits_convertRecordElement hfill hno
      exact .eitherElement hroot hselector hstandIn horigin horigin' hprimary hother

/-- The induction is on the type that is left, which may be that of an element. -/
theorem emits_convertElement (hfill : Fill.Emits c fill) (field : String) :
    ∀ (type whole : FieldType), whole.root = type.root →
      ConvertsElements c pos field whole (convertElement c fill pos field whole type) := by
  have hleaf : ∀ {whole : FieldType} {slot : Slot} {p q : Progress} {b : Code} {u : Unit},
      whole.root.isLeaf = true →
      (do
        let type ← Draft.ofExcept (whole.goType c.resolve)
        Writing.assign slot.path (.convert (.plain type) (.ofVar slot.value)) : Writing Unit) p =
          .ok (u, b, q) →
      Emits c (.element pos field whole slot) p b q := by
    intro whole slot p q b u hleaf h
    obtain ⟨go, b₁, p₁, b₂, htype', h₁, rfl⟩ := bind_ok.mp h
    obtain ⟨htype, rfl, rfl⟩ := ofExcept_ok.mp htype'
    obtain ⟨rfl, rfl⟩ := assign_ok h₁
    exact .leafElement hleaf htype
  -- By induction on the type, which may stand behind aliases of the whole.
  intro type
  induction type with
  | «alias» _ _ target ih => exact fun whole hroot _ _ _ _ _ h => ih whole hroot h
  | record target => exact fun whole hroot _ _ _ _ _ h => emits_recordElement hfill hroot h
  | list element ih =>
    intro whole hroot slot p q b u h
    have hroot : whole.root = .list element := hroot
    have hlist : Emits c (.container pos (.list element) (slot.job field)) p b q :=
      emits_convertList (ih element rfl) h
    exact .containerElement (by rw [hroot]; rfl) (hroot ▸ hlist)
  | set element form ih =>
    intro whole hroot slot p q b u h
    have hroot : whole.root = .set element form := hroot
    have hset : Emits c (.container pos (.set element form) (slot.job field)) p b q :=
      emits_convertSet (ih element rfl) h
    exact .containerElement (by rw [hroot]; rfl) (hroot ▸ hset)
  | map key value _ ih =>
    intro whole hroot slot p q b u h
    have hroot : whole.root = .map key value := hroot
    have hmap : Emits c (.container pos (.map key value) (slot.job field)) p b q :=
      emits_convertMap (ih value rfl) h
    exact .containerElement (by rw [hroot]; rfl) (hroot ▸ hmap)
  | _ => exact fun whole hroot _ _ _ _ _ h => hleaf (by rw [hroot]; rfl) h

/-! ## Fields -/

/-- A leaf is assigned from what stands in, and then from the primary source. -/
theorem emits_assignSources {f : Field} {type : GoType} {primary : Source}
    {standIn : Option Source}
    (h : assignSources pos f (pos.path f) (leafCast f type) primary standIn p = .ok (u, b, q)) :
    b = leafCode (p.deferred.guards pos.scope (pos.path f)) pos f type primary standIn ∧ q = p := by
  have hone : ∀ {source : Source} {onlyIfSet : Bool} {p q : Progress} {b : Code} {u : Unit},
      assignField pos f (pos.path f) (leafCast f type) source onlyIfSet p = .ok (u, b, q) →
      b = (leafAssignment pos f type source onlyIfSet).code
        (p.deferred.guards pos.scope (pos.path f)) ∧ q = p := by
    intro source onlyIfSet p q b u h
    obtain ⟨guards, b₁, p₁, b₂, hguards, h₁, rfl⟩ := bind_ok.mp h
    obtain ⟨rfl, rfl, rfl⟩ := guards_ok.mp hguards
    obtain ⟨rfl, rfl⟩ := write_ok h₁
    exact ⟨rfl, rfl⟩
  cases standIn with
  | none => exact hone h
  | some standIn =>
    obtain ⟨_, b₁, p₁, b₂, hstandIn, hprimary, rfl⟩ := bind_ok.mp h
    obtain ⟨rfl, rfl⟩ := hone hstandIn
    obtain ⟨rfl, rfl⟩ := hone hprimary
    exact ⟨rfl, rfl⟩

/-- A field that is a record is filled by a call or in place. -/
theorem emits_fillRecord (hfill : Fill.Emits c fill) {f : Field} {target : RecordRef}
    {primary : Source} {standIn : Option Source}
    (hsources : sourcesOf c pos f (pos.key f) = (some primary, standIn))
    (hroot : f.type.root = .record target)
    (h : fillRecord c fill pos f target (pos.path f) primary p = .ok (u, b, q)) :
    Emits c (.field pos f) p b q := by
  cases horigin : primary.field.type.record? with
  | none =>
    simp only [fillRecord, horigin] at h
    exact absurd h not_stop_ok
  | some origin =>
    simp only [fillRecord, horigin] at h
    refine .recordField hsources hroot horigin ?_
    split at h
    · rename_i hneeds
      -- Guards stand before the call, since a call as such has none.
      obtain ⟨helper, b₁, p₁, b₂, hhelper, h₁, rfl⟩ := bind_ok.mp h
      obtain ⟨guards, b₃, p₂, b₄, hguards, h₂, rfl⟩ := bind_ok.mp h₁
      obtain ⟨rfl, rfl, rfl⟩ := guards_ok.mp hguards
      obtain ⟨_, b₅, p₃, b₆, hwrite, h₃, rfl⟩ := bind_ok.mp h₂
      obtain ⟨rfl, rfl⟩ := write_ok hwrite
      obtain ⟨rfl, rfl⟩ := assign_ok h₃
      exact emits_helperFor hfill hneeds hhelper rfl rfl
    · rename_i hneeds
      obtain ⟨go, b₁, p₁, b₂, hgo, h₁, rfl⟩ := bind_ok.mp h
      obtain ⟨htype, rfl, rfl⟩ := ofExcept_ok.mp hgo
      exact emits_convertInline hfill (Bool.eq_false_iff.mpr hneeds) htype h₁

/-- A field with a source is a record, a container or a leaf, by the type behind its aliases. -/
theorem emits_fillSourced (hfill : Fill.Emits c fill) {f : Field} {primary : Source}
    {standIn : Option Source}
    (hsources : sourcesOf c pos f (pos.key f) = (some primary, standIn))
    (h : fillSourced c fill pos f (pos.path f) primary standIn p = .ok (u, b, q)) :
    Emits c (.field pos f) p b q := by
  -- The leaves share one branch, which the cases at the end come to.
  have hleaf : f.type.root.isLeaf = true →
      (do
        let type ← Draft.ofExcept (f.type.goType c.resolve)
        assignSources pos f (pos.path f) (leafCast f type) primary standIn : Writing Unit) p =
          .ok (u, b, q) →
      Emits c (.field pos f) p b q := by
    intro hleaf h
    obtain ⟨type, b₁, p₁, b₂, hgo, h₁, rfl⟩ := bind_ok.mp h
    obtain ⟨htype, rfl, rfl⟩ := ofExcept_ok.mp hgo
    obtain ⟨rfl, rfl⟩ := emits_assignSources h₁
    exact .leaf hsources hleaf htype
  have hcontainer : ∀ {b : Code} {q : Progress}, f.type.root.isContainer = true →
      Emits c (.container pos f.type.root
        ⟨f.name, pos.path f, .ofSource primary, standIn.map .ofSource⟩) p b q →
      Emits c (.field pos f) p b q :=
    fun hroot h => .containerField hsources hroot h
  -- The root of a type decides which rule is taken; an alias is never one.
  cases hroot : f.type.root with
  | record target =>
    simp only [fillSourced, hroot] at h
    exact emits_fillRecord hfill hsources hroot h
  | list element =>
    simp only [fillSourced, hroot] at h
    refine hcontainer (by rw [hroot]; rfl) ?_
    rw [hroot]
    exact emits_convertList (emits_convertElement hfill f.name element element rfl) h
  | set element form =>
    simp only [fillSourced, hroot] at h
    refine hcontainer (by rw [hroot]; rfl) ?_
    rw [hroot]
    exact emits_convertSet (emits_convertElement hfill f.name element element rfl) h
  | map key value =>
    simp only [fillSourced, hroot] at h
    refine hcontainer (by rw [hroot]; rfl) ?_
    rw [hroot]
    exact emits_convertMap (emits_convertElement hfill f.name value value rfl) h
  | «alias» name file target => exact absurd hroot (FieldType.root_ne_alias _ _ _ _)
  | _ =>
    simp only [leafCast, hroot] at hleaf
    simp only [fillSourced, hroot] at h
    exact hleaf rfl h

/-- A field without a source stays unset, or is a record that is filled from mappings: allocated at once
if it is required, and otherwise put off until something below it is written. -/
theorem emits_fillUnsourced (hfill : Fill.Emits c fill) {f : Field} {other : Option Source}
    (hsources : sourcesOf c pos f (pos.key f) = (none, other))
    (h : fillUnsourced c fill pos f (pos.path f) p = .ok (u, b, q)) :
    Emits c (.field pos f) p b q := by
  have hunset : f.type.record? = none ∨ c.mapsBelow (pos.key f) = false →
      (if f.required && !c.allowsUnset (pos.key f) then Draft.fail (.missingRequired f.name)
        else return : Writing Unit) p = .ok (u, b, q) →
      Emits c (.field pos f) p b q := by
    intro hmaps h
    split at h
    · exact absurd h not_stop_ok
    · rename_i hmay
      obtain ⟨-, rfl, rfl⟩ := pure_ok.mp h
      refine .unset hsources hmaps ?_
      cases hrequired : f.required <;> simp_all
  rw [fillUnsourced, show Path.bare (pos.scope ++ pos.path f) = pos.key f from rfl] at h
  cases hrecord : f.type.record? with
  | none =>
    simp only [hrecord] at h
    exact hunset (.inl hrecord) h
  | some record =>
    cases hmaps : c.mapsBelow (pos.key f) with
    | false =>
      simp only [hrecord, hmaps] at h
      exact hunset (.inr hmaps) h
    | true =>
      simp only [hrecord, hmaps] at h
      obtain ⟨type, b₁, p₁, b₂, hgo, h₁, rfl⟩ := bind_ok.mp h
      obtain ⟨htype, rfl, rfl⟩ := ofExcept_ok.mp hgo
      -- Required records are allocated, the others wait.
      split at h₁
      · rename_i hrequired
        obtain ⟨guards, b₃, p₂, b₄, hguards, h₂, rfl⟩ := bind_ok.mp h₁
        obtain ⟨rfl, rfl, rfl⟩ := guards_ok.mp hguards
        obtain ⟨_, b₅, p₃, b₆, hwrite, h₃, rfl⟩ := bind_ok.mp h₂
        obtain ⟨rfl, rfl⟩ := write_ok hwrite
        obtain ⟨_, b₇, p₄, b₈, hassign, hfields, rfl⟩ := bind_ok.mp h₃
        obtain ⟨rfl, rfl⟩ := assign_ok hassign
        exact .allocated hsources hrecord hmaps htype hrequired (hfill hfields)
      · rename_i hoptional
        obtain ⟨_, b₃, p₂, b₄, hupdate, hfields, rfl⟩ := bind_ok.mp h₁
        obtain ⟨rfl, rfl⟩ := update_ok.mp hupdate
        exact .deferred hsources hrecord hmaps htype (Bool.eq_false_iff.mpr hoptional)
          (hfill hfields)

/-- A field, with a source or without. -/
theorem emits_fillField (hfill : Fill.Emits c fill) {f : Field}
    (h : fillField c fill pos f p = .ok (u, b, q)) : Emits c (.field pos f) p b q := by
  rcases hsources : sourcesOf c pos f (pos.key f) with ⟨_ | primary, standIn⟩
  · have hsources' := hsources
    rw [Position.key, Position.path] at hsources'
    simp only [fillField, hsources'] at h
    exact emits_fillUnsourced hfill hsources h
  · have hsources' := hsources
    rw [Position.key, Position.path] at hsources'
    simp only [fillField, hsources'] at h
    exact emits_fillSourced hfill hsources h

/-- Fields are filled one after the other. -/
theorem emits_forM (hfill : Fill.Emits c fill) :
    ∀ {fields : List Field} {p : Progress} {b : Code} {u : Unit},
      fields.forM (fillField c fill pos) p = .ok (u, b, q) → Emits c (.fields pos fields) p b q
  | [], _, _, _, h => by
    obtain ⟨-, rfl, rfl⟩ := pure_ok.mp h
    exact .noFields
  | f :: fields, p, b, u, h => by
    change (fillField c fill pos f >>= fun _ => fields.forM (fillField c fill pos)) p = _ at h
    obtain ⟨_, b₁, p₁, b₂, hfirst, hrest, rfl⟩ := bind_ok.mp h
    exact .moreFields (emits_fillField hfill hfirst) (emits_forM hfill hrest)

/-- What a conversion of fields writes, within any bound on the depth, is emitted by the rules. -/
theorem emits_of_fillFields (c : Settings) : ∀ depth, Fill.Emits c (fillFields c depth)
  | 0 => fun h => absurd h not_stop_ok
  | depth + 1 => fun h => emits_forM (emits_of_fillFields c depth) h

namespace ConversionRequest

variable {r : ConversionRequest}

/-- The position at which a conversion starts. -/
def start (r : ConversionRequest) : Position where
  source := some (.ofVar .input, r.source)

/-- What a conversion comes to if it finishes: the mappings can be followed, and the statements for
the target fields come after those that keep the whole records in reach. -/
theorem emits_of_draft (h : r.draft {} = .ok (u, b, q)) :
    ∃ mapped body, r.schema.followMappings r.source r.mappings.entries = .ok mapped ∧
      b = preamble (r.settings mapped) ++ body ∧
      Emits (r.settings mapped) (.fields r.start r.target) {} body q := by
  obtain ⟨mapped, b₁, p₁, b₂, hd, h₁, rfl⟩ := bind_ok.mp h
  obtain ⟨hmapped, rfl, rfl⟩ := ofExcept_ok.mp hd
  obtain ⟨_, b₃, p₂, b₄, hwrite, hfields, rfl⟩ := bind_ok.mp h₁
  obtain ⟨rfl, rfl⟩ := write_ok hwrite
  exact ⟨mapped, b₄, hmapped, rfl, emits_of_fillFields _ _ hfields⟩

/-- The lines of a run are those of the statements that its draft writes. -/
theorem draft_of_run {text : List String} (h : r.run = .lines text) :
    ∃ b q, r.draft {} = .ok ((), b, q) ∧ text = b.lines.map Line.indented := by
  obtain ⟨_, b, q, hdraft, htext⟩ := exists_of_outcome h
  exact ⟨b, q, hdraft, htext⟩

end ConversionRequest

end RecordBridge

import RecordBridge.Proofs.Conversion.Containers

/-!
# Conversions without mappings are correct

The statements of a conversion without mappings, run on any record of its source, run to the end and
leave the reference conversion in the target. The proof goes by the derivation of the statements, one
lemma for each rule. Calls of local functions are not in the derivation: they are shown to be sound by
induction on the value that they convert, which a call takes apart.
-/

namespace RecordBridge

open Relation

variable {c : Settings} {order : Order} {M : FieldType → FieldType → Prop} {v : GoValue}
  {p q : Progress} {b : Code} {σ τ : State} {pos : Position} {f : Field}

/-! ## Fields that hold more than a leaf -/

theorem noFields_sound : FieldsSound c order M v pos [] p .done p := by
  intro σ gs vs ws base hready hsource hpairing htarget hget huntouched
  exact ⟨σ, .record ws, .done, .self hget rfl, hready, ws, rfl, nofun, fun _ _ => rfl⟩

/-- A field without a source is left untouched. -/
theorem unset_sound (hM : Matching c M) {other : Option Source}
    (hsources : sourcesOf c pos f (pos.key f) = (none, other)) :
    FieldsSound c order M v pos [f] p .done p := by
  rw [sourcesOf_of_unmapped hM.unmapped] at hsources
  have hdirect : directSource pos f = none := congrArg Prod.fst hsources
  apply fieldsSound_of_fills
  intro σ gs vs base hready hsource hpairing htarget hget huntouched
  exact ⟨σ, .absent, .done, huntouched, hready,
    .unmatched (directSource_none hsource.source hdirect)⟩

/-- What a field holds is inside of a value that its record is inside of. -/
theorem SourceAt.inside_field {n : Nat} {gs : List Field} {vs : String → GoValue} {base : Place}
    (h : SourceAt c v n σ pos gs vs base) (name : String) : (vs name).Inside v :=
  .inr (TransGen.head' (.field vs name) h.inside)

theorem recordField_sound (hM : Matching c M) {primary : Source} {standIn : Option Source}
    {target origin : RecordRef}
    (hsources : sourcesOf c pos f (pos.key f) = (some primary, standIn))
    (hroot : f.type.root = .record target) (horigin : primary.field.type.record? = some origin)
    (hrecord : RecordSound c order M v ⟨target, origin, pos.path f⟩ f.type primary.place
      primary.place p b q) :
    FieldsSound c order M v pos [f] p b q := by
  rw [sourcesOf_of_unmapped hM.unmapped] at hsources
  have hdirect : directSource pos f = some primary := congrArg Prod.fst hsources
  apply fieldsSound_of_fills
  intro σ gs vs base hready hsource hpairing htarget hget huntouched
  obtain ⟨hmem, hname, hplace, hholds⟩ := hsource.direct hpairing hdirect
  have hpath : (pos.path f).Known p.counter :=
    Position.known_path (hpairing.targetNames f (List.mem_singleton_self f)) htarget
  obtain ⟨τ, w, hruns, hwrites, hready', hw⟩ :=
    hrecord hready hpath hholds (fun _ => hholds) hroot (FieldType.root_of_record horigin)
      (hpairing.related f (List.mem_singleton_self f) _ hmem hname) (hsource.fits _ hmem)
      (hsource.inside_field _) hget
  exact ⟨τ, w, hruns, hwrites, hready', .other hmem hname (by rw [hroot]; rfl) hw⟩

theorem containerField_sound (hM : Matching c M) {primary : Source} {standIn : Option Source}
    (hsources : sourcesOf c pos f (pos.key f) = (some primary, standIn))
    (hroot : f.type.root.isContainer = true)
    (hcontainer : ContainerSound c order M v f.type.root
      ⟨f.name, pos.path f, .ofSource primary, standIn.map .ofSource⟩ p b q) :
    FieldsSound c order M v pos [f] p b q := by
  rw [sourcesOf_of_unmapped hM.unmapped] at hsources
  obtain ⟨hdirect, rfl⟩ := Prod.mk.injEq .. ▸ hsources
  apply fieldsSound_of_fills
  intro σ gs vs base hready hsource hpairing htarget hget huntouched
  obtain ⟨hmem, hname, hplace, hholds⟩ := hsource.direct hpairing hdirect
  have hpath : (pos.path f).Known p.counter :=
    Position.known_path (hpairing.targetNames f (List.mem_singleton_self f)) htarget
  have hleaf := FieldType.isLeaf_of_isContainer hroot
  obtain ⟨τ, w, hruns, hwrites, hready', hw⟩ :=
    hcontainer hready rfl rfl (hpairing.related f (List.mem_singleton_self f) _ hmem hname) hpath
      hholds (hsource.fits _ hmem) (hsource.inside_field _) hget
  exact ⟨τ, w, hruns, hwrites, hready', .other hmem hname hleaf hw⟩

/-! ## Elements -/

section Elements

variable {type : FieldType} {slot : Slot}

theorem leafElement_sound {go : GoType} (hleaf : type.root.isLeaf = true) :
    ElementSound c order M v type slot p
      (.step (.assign ⟨.output, slot.path⟩ (.convert (.plain go) (.ofVar slot.value))) .done) p := by
  intro σ u old hready hstandIn hrelated hpath hvalue hplace hfits hinside hget
  obtain ⟨o, hexec, hwrites⟩ := exists_exec_assign (n := p.counter) (x := u)
    (e := .convert (.plain go) (.ofVar slot.value)) (fun call => by
      show (σ.read (.ofVar slot.value) >>= fun x => Except.ok (x, σ)) = _
      rw [hvalue.read]
      rfl) hget
  exact ⟨_, u, .step hexec .done, hwrites, hready.withOut o, .leaf hleaf⟩

theorem recordElement_sound {target origin : RecordRef} (hroot : type.root = .record target)
    (horigin : slot.primary.type.record? = some origin)
    (hrecord : RecordSound c order M v ⟨target, origin, slot.path⟩ type (.ofVar slot.value)
      slot.primary.place p b q) :
    ElementSound c order M v type slot p b q := by
  intro σ u old hready hstandIn hrelated hpath hvalue hplace hfits hinside hget
  exact hrecord hready hpath hvalue (fun _ => hplace) hroot (FieldType.root_of_record horigin)
    hrelated hfits hinside hget

theorem containerElement_sound {field : String}
    (hcontainer : ContainerSound c order M v type.root (slot.job field) p b q) :
    ElementSound c order M v type slot p b q := by
  intro σ u old hready hstandIn hrelated hpath hvalue hplace hfits hinside hget
  exact hcontainer hready rfl rfl hrelated hpath hvalue hfits hinside hget

end Elements

/-! ## All statements -/

/-- The statements that are emitted for a task are sound, if calls are with the parts of a value. -/
theorem Emits.sound (hM : Matching c M) (horder : ∀ n keys, (order n keys).Perm keys)
    (hcalls : ∀ u, u.Inside v → Callable c order M u) {task : Task}
    (h : Emits c task p b q) : task.Sound c order M v p b q := by
  induction h with
  | noFields => exact noFields_sound
  | moreFields hfirst _ ih₁ ih₂ => exact fieldsSound_cons (hfirst.later hM.unmapped).counter ih₁ ih₂
  | leaf hsources hleaf _ => exact leaf_sound hM hsources hleaf
  | recordField hsources hroot horigin _ ih => exact recordField_sound hM hsources hroot horigin ih
  | containerField hsources hroot _ ih => exact containerField_sound hM hsources hroot ih
  | allocated _ _ hmaps | deferred _ _ hmaps =>
    rw [Settings.mapsBelow_of_unmapped hM.unmapped] at hmaps
    cases hmaps
  | unset hsources _ _ => exact unset_sound hM hsources
  | inline _ _ hfields ih => exact inline_sound hM (hfields.later hM.unmapped) ih
  | call _ hknown => exact call_sound hcalls hknown
  | define _ _ _ _ hfields _ => exact define_sound hM.unmapped hcalls hfields
  | loop hloop hchosen helement ih =>
    exact loop_sound hM horder hloop hchosen (helement.later hM.unmapped) ih
  | keys hprimary _ hkeyed hhashable _ hchosen =>
    exact keys_sound hM horder hprimary hkeyed hhashable hchosen
  | leafElement hleaf _ => exact leafElement_sound hleaf
  | recordElement hroot _ horigin _ ih => exact recordElement_sound hroot horigin ih
  | eitherElement _ _ hstandIn =>
    -- Nothing stands in for an element.
    intro σ u old _ hnone
    rw [hstandIn] at hnone
    cases hnone
  | containerElement _ _ ih => exact containerElement_sound ih

/-! ## Local functions -/

/-- A call with nil gives nil back. -/
theorem callable_absent : Callable c order M .absent := by
  intro h hs f fs t ut target source optional σ hscope ht hut htarget hsource hrelated hfits
  cases hscope with
  | cons _ _ _ _ _ hbody =>
    rw [hbody]
    exact ⟨_, .forkFalse rfl (.step (fun _ => rfl) .done) (.step (fun _ => rfl) .done), rfl,
      .noRecord ht⟩

/-- A call with a record converts its fields, if calls with parts of it are sound. -/
theorem callable_record (hM : Matching c M) (horder : ∀ n keys, (order n keys).Perm keys)
    {vs : String → GoValue} (hcalls : ∀ u, u.Inside (.record vs) → Callable c order M u) :
    Callable c order M (.record vs) := by
  intro h hs f fs t ut target source optional σ hscope ht hut htarget hsource hrelated hfits
  have hall := hscope
  cases hscope with
  | @cons _ _ _ _ pos job go p q b hrest hname hnew htarget' hsource' hbody hemits hhelpers hdeferred
      hnumbers =>
    have htargetFields : c.schema.fields job.target = c.schema.fields target := by
      rw [Schema.fields, Schema.fields, ← htarget', htarget]
    have hsourceFields : c.schema.fields job.source = c.schema.fields source := by
      rw [Schema.fields, Schema.fields, ← hsource', hsource]
    obtain ⟨vs', heq, hvs⟩ := hfits.exists_record hut rfl
    cases heq
    -- The state at which the helper fills its result, which it has just made.
    let σ' := { σ.enter f (f :: fs) (.record vs) with out := GoValue.fresh }
    have hin : σ'.locals .input = .record vs := rfl
    have hready : Ready c p σ' := by
      refine ⟨hdeferred, ?_, hnumbers⟩
      rw [hhelpers]
      exact hall
    have hat : SourceAt c (.record vs) p.counter σ' (pos.inHelper c job)
        (c.schema.fields job.source) vs (.ofVar .input) :=
      ⟨rfl, ⟨.ofVar rfl (Nat.zero_le _), congrArg Except.ok hin⟩, .refl, hsourceFields ▸ hvs⟩
    -- The fields are paired up by what relates the two records, as those of the whole run are.
    have hpairing := hM.record hrelated ht hut
    rw [← htargetFields, ← hsourceFields] at hpairing
    obtain ⟨τ, w, hruns, hwrites, -, ws, rfl, hconverted, hothers⟩ :=
      hemits.sound hM horder hcalls hready hat hpairing .nil rfl fun _ _ => rfl
    rw [htargetFields] at hconverted hothers
    rw [hsourceFields] at hconverted
    have hout : τ.out = .record ws := (Except.ok.inj hwrites.out).symm
    refine ⟨(σ.enter f (f :: fs) (.record vs)).afterBlock τ, ?_, hwrites.frame.whole, ?_⟩
    · -- The argument is set, so the branch is taken that makes the result and fills it.
      rw [hbody]
      refine .forkTrue ?_ (.step (fun _ => rfl) hruns) (.step (fun _ => rfl) .done)
      exact congrArg Except.ok (congrArg GoValue.isSet hin)
    · show Converted c.schema t ut (.record vs) τ.out
      rw [hout]
      exact .record ht hut hconverted hothers

/-- Calls are sound, by induction on the value: a function is only called again with parts of the
record that it converts. -/
theorem callable (hM : Matching c M) (horder : ∀ n keys, (order n keys).Perm keys) (u : GoValue) :
    Callable c order M u := by
  induction u using GoValue.wellFounded_part.transGen.induction with
  | _ u ih =>
    have hcalls : ∀ x, x.Inside u → Callable c order M x := by
      rintro x (rfl | hx)
      · exact @callable_absent c order M
      · exact ih x hx
    cases u with
    | absent => exact @callable_absent c order M
    | record vs => exact @callable_record c order M hM horder vs hcalls
    | _ =>
      intro h hs f fs t ut target source optional σ hscope ht hut htarget hsource hrelated hfits
      obtain ⟨vs, heq, -⟩ := hfits.exists_record hut rfl
      cases heq

/-! ## Conversions -/

/-- The state in which a conversion starts. -/
def State.start (input : GoValue) : State where
  out := .fresh
  locals := Function.update (fun _ => .absent) .input input

namespace ConversionRequest

variable {r : ConversionRequest}

/-- The statements before all others keep the whole source where mapped sources start from it. -/
theorem exec_preamble (c : Settings) (input : GoValue) :
    ∃ σ, (∀ order call, exec order call (preamble c) (.start input) = .ok σ) ∧ σ.out = .fresh ∧
      σ.functions = [] ∧ σ.locals .input = input ∧
      (c.mapped ≠ [] → σ.locals c.mappedRoot = input) := by
  rw [preamble]
  split
  · rename_i hkept
    have hroot : c.mappedRoot = .wholeInput := if_pos (Bool.and_eq_true_iff.mp hkept).1
    refine ⟨_, fun _ _ => rfl, rfl, rfl, rfl, fun _ => ?_⟩
    rw [hroot]
    rfl
  · rename_i hkept
    refine ⟨_, fun _ _ => rfl, rfl, rfl, rfl, fun hmapped => ?_⟩
    have hroot : c.mappedRoot = .input := by
      refine if_neg fun hrecursive => hkept (Bool.and_eq_true_iff.mpr ⟨hrecursive, ?_⟩)
      simpa using hmapped
    rw [hroot]
    rfl

/-- The fields of two groups are paired if those of one name meet. -/
theorem Regular.pairing (h : r.Regular) {targets sources : List Field} (ht : r.Group targets)
    (hs : r.Group sources)
    (hmeets : ∀ f ∈ targets, ∀ g ∈ sources, f.MatchedBy g → r.Meets f.type g.type) :
    Pairing r.Meets targets sources := by
  refine ⟨h.names _ ht, h.names _ hs, (h.distinct _ ht).imp fun hfg heq => ?_, hmeets⟩
  rw [heq, Text.sameIgnoringCase, beq_self_eq_true] at hfg
  cases hfg

theorem Regular.matching (h : r.Regular) : Matching (r.settings []) r.Meets where
  unmapped := rfl
  record hrelated ht hu := h.pairing (.record _) (.record _) fun _ hf _ hg hname =>
    .field hrelated ht hu hf hg hname
  list := .list
  set := .set
  map := .map
  leaf := h.leaves _ _

/-- A block, run on any record of the source, comes to an end without a fault, and leaves in a fresh
target what the reference conversion asks for. Nothing else is in the target, and the order in which
maps are walked through does not matter. -/
def IsConvertedBy (r : ConversionRequest) (b : Code) : Prop :=
  ∀ order : Order, (∀ n keys, (order n keys).Perm keys) →
    ∀ vs : String → GoValue, FieldsFit r.schema r.source vs →
      ∃ σ ws, Runs order b (.start (.record vs)) σ ∧ σ.out = .record ws ∧
        (∀ f ∈ r.target, FieldConverted r.schema r.source vs f (ws (pascal f.name))) ∧
        ∀ name, (∀ f ∈ r.target, pascal f.name ≠ name) → ws name = .absent

/-- The lines of a conversion without mappings are those of statements that convert every record. -/
theorem run_correct (hr : r.Regular) (hempty : r.mappings.entries = []) {text : List String}
    (hrun : r.run = .lines text) :
    ∃ b : Code, text = b.lines.map Line.indented ∧ r.IsConvertedBy b := by
  obtain ⟨b, q, hdraft, rfl⟩ := draft_of_run hrun
  obtain ⟨mapped, body, hmapped, rfl, hemits⟩ := emits_of_draft hdraft
  rw [hempty] at hmapped
  cases hmapped
  refine ⟨_, rfl, fun order horder vs hvs => ?_⟩
  have hM := hr.matching
  have hpreamble : preamble (r.settings []) = .done := by
    rw [preamble]
    cases (r.settings []).isRecursive <;> rfl
  rw [hpreamble]
  have hready : Ready (r.settings []) {} (.start (.record vs)) := ⟨rfl, .nil, nofun⟩
  have hsource : SourceAt (r.settings []) (.record vs) 0 (.start (.record vs)) r.start r.source vs
      (.ofVar .input) :=
    ⟨rfl, ⟨.ofVar rfl (Nat.le_refl 0), rfl⟩, .refl, hvs⟩
  -- The induction is over values: what a helper is called with is inside of `in`.
  have hpairing := hr.pairing .target .source fun f hf g hg hname => .top hf hg hname
  obtain ⟨σ, w, hruns, hwrites, -, ws, rfl, hconverted, hothers⟩ :=
    hemits.sound hM horder (fun u _ => callable hM horder u) hready hsource hpairing .nil rfl
      fun _ _ => rfl
  exact ⟨σ, ws, hruns, (Except.ok.inj hwrites.out).symm, hconverted, hothers⟩

/-! ### Records that hold themselves -/

/-- A conversion between the records of a chain. -/
def chain : ConversionRequest :=
  let node : List Field :=
    [⟨0, "value", true, .int32, []⟩, ⟨1, "next", false, .record ⟨0, "Node", "chain"⟩, []⟩]
  { schema := ⟨[(0, node)]⟩
    resolve := fun file => .ok file
    source := node
    target := node
    mappings := .empty
    optional := [] }

/-- The groups of fields in the chain are those of its record, or empty. -/
theorem chain_group {fields : List Field} (h : chain.Group fields) :
    fields = chain.source ∨ fields = [] := by
  cases h with
  | source | target => exact .inl rfl
  | record ref =>
    obtain ⟨id, name, file⟩ := ref
    cases id with
    | zero => exact .inl rfl
    | succ n => exact .inr rfl

/-- The types that meet in the chain are the same. -/
theorem chain_meets {t u : FieldType} (h : chain.Meets t u) : t = u := by
  have hsame : ∀ f ∈ chain.source, ∀ g ∈ chain.source, f.MatchedBy g → f.type = g.type := by
    unfold Field.MatchedBy
    decide +kernel
  induction h with
  | top hf hg hname => exact hsame _ hf _ hg hname
  | field _ ht hu hf hg hname ih =>
    rcases chain_group (.record _) with heq | heq <;> rw [heq] at hf
    · rw [ih, hu] at ht
      cases ht
      rw [heq] at hg
      exact hsame _ hf _ hg hname
    · cases hf
  | list _ ht hu ih | set _ ht hu ih | map _ ht hu ih =>
    rw [ih, hu] at ht
    cases ht
    rfl

theorem chain_regular : chain.Regular where
  names fields h := by
    rcases chain_group h with rfl | rfl
    · decide +kernel
    · intro f hf
      cases hf
  distinct fields h := by
    rcases chain_group h with rfl | rfl
    · decide +kernel
    · exact .nil
  leaves t u h _ := by rw [chain_meets h]

theorem chain_run : ∃ text, chain.run = .lines text := by
  decide +kernel

/-- The chain is converted by a local function that calls itself. -/
theorem chain_run_correct : chain.Regular ∧ chain.mappings.entries = [] ∧
    ∃ text, chain.run = .lines text ∧
      ∃ b : Code, text = b.lines.map Line.indented ∧ chain.IsConvertedBy b := by
  obtain ⟨text, hrun⟩ := chain_run
  exact ⟨chain_regular, rfl, text, hrun, run_correct chain_regular rfl hrun⟩

end ConversionRequest

end RecordBridge

import RecordBridge.Proofs.Cutting
import RecordBridge.Proofs.Header.Binding
import RecordBridge.Proofs.Header.Execution

/-!
# What binding headers leaves in a request

The statements that bind headers run without a fault on every request whose records are records or
nil, whatever headers there are. Each mapped path is left as it was or holds what its own header is
in the type of its field; all else stays, but for records that are allocated on the way to a mapped
path.

One mapping is bound by a write at one path, below which there is nothing (`exec_bind`). Mapped paths
are never above one another (`not_prefix_of_followTarget`), so a mapping leaves what another one has
written, and the room for what another one is going to write. `Filled` says what a list of mappings
does; it is built up mapping by mapping (`AllBound.cons`).
-/

namespace RecordBridge

/-! ## Mapped paths -/

/-- Names are the Go names of the fields that they resolve to. -/
def GoSpelled (s : Schema) : List Field → List String → Prop
  | _, [] => True
  | fields, name :: rest =>
    ∀ field ∈ fields.find? fun f => Text.sameIgnoringCase f.name name,
      name = pascal field.name ∧ ∀ ref ∈ field.type.record?, GoSpelled s (s.fields ref) rest

instance GoSpelled.decide (s : Schema) :
    ∀ (fields : List Field) (names : List String), Decidable (GoSpelled s fields names)
  | _, [] => .isTrue trivial
  | fields, name :: rest =>
    have := fun ref => GoSpelled.decide s (s.fields ref) rest
    inferInstanceAs (Decidable (∀ field ∈ fields.find? fun f => Text.sameIgnoringCase f.name name,
      name = pascal field.name ∧ ∀ ref ∈ field.type.record?, GoSpelled s (s.fields ref) rest))

section Paths

variable {s : Schema} {fields : List Field} {names : List String} {records : List RecordRef}
  {field : Field} {v : GoValue}

/-- Names that resolve to a field: the first one finds a field, and this is the last one or holds the
record that the others lead through. -/
theorem followTarget_cons {name : String} {rest : List String}
    (h : followTarget s fields (name :: rest) = some (records, field)) :
    ∃ first, fields.find? (fun f => Text.sameIgnoringCase f.name name) = some first ∧
      (rest = [] ∧ records = [] ∧ field = first ∨
        ∃ ref more, first.type.record? = some ref ∧ records = ref :: more ∧ rest ≠ [] ∧
          followTarget s (s.fields ref) rest = some (more, field)) := by
  rw [followTarget] at h
  split at h
  · cases h
  · rename_i first hfirst
    refine ⟨first, hfirst, ?_⟩
    split at h
    · -- The path ends with this name, or it goes on through a record.
      rename_i hempty
      cases h
      exact .inl ⟨List.isEmpty_iff.mp hempty, rfl, rfl⟩
    · rename_i hempty
      split at h
      · rename_i ref href
        obtain ⟨⟨more, last⟩, hmore, heq⟩ := Option.map_eq_some_iff.mp h
        cases heq
        exact .inr ⟨ref, more, href, rfl, fun hrest => hempty (List.isEmpty_iff.mpr hrest), hmore⟩
      · cases h

theorem length_of_followTarget (h : followTarget s fields names = some (records, field)) :
    names.length = records.length + 1 := by
  induction names generalizing fields records with
  | nil => cases h
  | cons name rest ih =>
    obtain ⟨first, -, ⟨rfl, rfl, -⟩ | ⟨ref, more, -, rfl, -, hmore⟩⟩ := followTarget_cons h
    · rfl
    · rw [List.length_cons, List.length_cons, ih hmore]

/-- A request has room for the records on the way to a field. -/
theorem open_of_followTarget (h : followTarget s fields names = some (records, field))
    (hspelled : GoSpelled s fields names) (hroom : v.isRoom = true)
    (hholds : ∀ f ∈ fields, HoldsRecords s f.type (v.select (pascal f.name))) :
    v.Open names := by
  induction names generalizing fields records v with
  | nil => cases h
  | cons name rest ih =>
    obtain ⟨first, hfirst, hrest⟩ := followTarget_cons h
    obtain ⟨rfl, hnames⟩ := hspelled first hfirst
    refine ⟨hroom, ?_⟩
    rcases hrest with ⟨rfl, -, -⟩ | ⟨ref, more, href, -, -, hmore⟩
    · trivial
    · have hfield := hholds first (List.mem_of_find?_eq_some hfirst)
      exact ih hmore (hnames ref href) (hfield.isRoom href) fun f hf => hfield.select href hf

/-- No path leads on from a field that is no record. -/
theorem not_prefix_of_followTarget {others : List String} {records' : List RecordRef}
    {field' : Field} (h : followTarget s fields names = some (records, field))
    (hleaf : field.type.record? = none)
    (h' : followTarget s fields others = some (records', field')) (hne : names ≠ others) :
    ¬names <+: others := by
  induction names generalizing fields records others records' with
  | nil => cases h
  | cons name rest ih =>
    rintro ⟨more, rfl⟩
    obtain ⟨first, hfirst, hrest⟩ := followTarget_cons h
    obtain ⟨first', hfirst', hrest'⟩ := followTarget_cons h'
    rw [hfirst] at hfirst'
    cases hfirst'
    rcases hrest with ⟨rfl, -, rfl⟩ | ⟨ref, refs, href, -, -, hfollow⟩
    · -- ⟨ref', _, href', -, -, -⟩ | The shorter path ends in a leaf, which no other path goes through.
      rcases hrest' with ⟨hnil, -, -⟩ | ⟨ref', _, href', -, -, -⟩
      · exact hne (congrArg (name :: ·) hnil.symm)
      · rw [hleaf] at href'
        cases href'
    · rcases hrest' with ⟨hnil, -, -⟩ | ⟨ref', refs', href', -, -, hfollow'⟩
      · rw [(List.append_eq_nil_iff.mp hnil).1] at hfollow
        cases hfollow
      · rw [href] at href'
        cases href'
        exact ih hfollow hfollow' (fun heq => hne (congrArg (name :: ·) heq)) ⟨more, rfl⟩

end Paths

namespace BindingRequest

variable {r : BindingRequest} {src : HeaderSource} {σ : HeaderState} {v w : GoValue}

/-- The form of headers for a field yields the values of headers in its type. -/
theorem rule_form_ok {header : String} {field : Field} {form : HeaderForm} {b : HeaderCode}
    {p q : Unit} (h : r.rule.form header field p = .ok (form, b, q)) :
    b = .done ∧ (r.readsLiterals = false → field.type.isText = true) ∧
      field.type.record? = none ∧
        ∀ src text, form.parse src text = field.type.headerValue src r.resolve text := by
  have htext : r.readsLiterals = false → field.type.isText = true := fun hreads => by
    by_contra htext
    rw [rule, hreads, if_neg Bool.false_ne_true,
      r.populating_form_of_not_isText (Bool.eq_false_iff.mpr htext)] at h
    cases h
  have hpropagating : r.propagating.form header field p = .ok (form, b, q) := by
    rw [rule] at h
    split at h
    · exact h
    · rename_i hreads
      rwa [r.populating_form_of_isText (htext (Bool.eq_false_iff.mpr hreads))] at h
  obtain ⟨hdone, -, hleaf, hparse⟩ := formFor_ok hpropagating
  exact ⟨hdone, htext, hleaf, hparse⟩

/-- The names of the path of a mapping. -/
def pathOf (e : String × Mapping) : List String :=
  Text.split '.' e.1

/-- What the field of a mapping holds with the value of its own header, if the header is there and is
a value of its type. -/
def valueFor (r : BindingRequest) (src : HeaderSource) (e : String × Mapping) : Option GoValue :=
  match followTarget r.schema r.target (pathOf e), src.text e.2.source with
  | some (_, field), some text =>
    (field.type.headerValue src r.resolve text).map (.holding field.required)
  | _, _ => none

/-- Whether a mapping leaves a field that holds `old` even where its header is there. One that does not
override leaves an optional field that is set, and a required text that is empty. -/
def keeps (overrides : Bool) (field : Field) (old : GoValue) : Bool :=
  !overrides && if field.required then field.type.isText && !old.isNotEmpty else old.isSet

/-- What the field of a mapping holds after the mapping was bound, if it has held `old`: the value of
the header, unless there is none or the mapping leaves the field. -/
def valueAfter (r : BindingRequest) (src : HeaderSource) (e : String × Mapping) (old : GoValue) :
    GoValue :=
  match followTarget r.schema r.target (pathOf e) with
  | some (_, field) =>
    if keeps e.2.overrides field old then old else (r.valueFor src e).getD old
  | none => old

theorem valueFor_of_missing {e : String × Mapping} (h : src.text e.2.source = none) :
    r.valueFor src e = none := by
  rw [valueFor, h]
  split
  · rename_i heq
    cases heq
  · rfl

theorem valueAfter_of_missing {e : String × Mapping} {old : GoValue}
    (h : src.text e.2.source = none) : r.valueAfter src e old = old := by
  rw [valueAfter]
  split
  · rw [valueFor_of_missing h]
    exact ite_self _
  · rfl

/-- A mapped field is left, or holds the value of its header. -/
theorem valueAfter_cases (r : BindingRequest) (src : HeaderSource) (e : String × Mapping)
    (old : GoValue) :
    r.valueAfter src e old = old ∨ r.valueFor src e = some (r.valueAfter src e old) := by
  rw [valueAfter]
  split
  · split
    · exact .inl rfl
    · cases r.valueFor src e with
      | none => exact .inl rfl
      | some x => exact .inr rfl
  · exact .inl rfl

/-- Where its mapping overrides, a field holds the value of its header, if this is one. -/
theorem valueAfter_of_overrides {e : String × Mapping} {old x : GoValue}
    (hoverrides : e.2.overrides = true) (hx : r.valueFor src e = some x) :
    r.valueAfter src e old = x := by
  rw [valueAfter]
  split
  · rw [keeps, hoverrides, hx]
    rfl
  · rename_i hfollow
    rw [valueFor, hfollow] at hx
    cases hx

/-! ## One mapping -/

/-- What binding one mapping does to a request: nothing without its header. With it, the records on
the way are there, and the field holds what it is to hold after it. -/
inductive Bound (r : BindingRequest) (src : HeaderSource) (e : String × Mapping) (v : GoValue) :
    GoValue → Prop where
  | missing (h : src.text e.2.source = none) : Bound r src e v v
  | filled {text : String} (h : src.text e.2.source = some text) :
    Bound r src e v (v.fill (pathOf e) (r.valueAfter src e (v.follow (pathOf e))))

/-- The guards above a field allocate all records on the way. -/
theorem exec_allocateAbove (src : HeaderSource) {resolve : Resolver} {records : List RecordRef}
    {before names : List String} {code : HeaderCode} {p q : Unit}
    (hdone : allocateAbove resolve before (names.zip records) p = .ok ((), code, q))
    (hlength : names.length = records.length + 1) (hsolid : (σ.vars .input).Solid before)
    (hrecord : ((σ.vars .input).follow before).isRecord = true)
    (hopen : ((σ.vars .input).follow before).Open names) :
    HeaderCode.exec src code σ = .ok (σ.set .input
      ((σ.vars .input).fill (before ++ names) ((σ.vars .input).follow (before ++ names)))) := by
  -- Each guard allocates the record at `before ++ [name]`; what the guards below it write into is then
  -- there, and the write as a whole is the same with or without that first allocation.
  induction records generalizing before names code σ with
  | nil =>
    obtain ⟨last, rfl⟩ := List.length_eq_one_iff.mp hlength
    cases hdone
    have hlast : (σ.vars .input).Solid (before ++ [last]) := hsolid.append ⟨hrecord, trivial⟩
    rw [hlast.fill_follow, HeaderState.set_self]
    rfl
  | cons ref records ih =>
    obtain ⟨name, rest, rfl⟩ := List.exists_cons_of_length_eq_add_one hlength
    have hlength' : rest.length = records.length + 1 := Nat.succ.inj hlength
    have hrest : rest ≠ [] := List.ne_nil_of_length_eq_add_one hlength'
    obtain ⟨type, _, _, _, htype, hguarded, rfl⟩ := Draft.bind_ok.mp hdone
    obtain ⟨-, rfl, -⟩ := Draft.ofExcept_ok.mp htype
    obtain ⟨_, _, _, more, hguard, hmore, rfl⟩ := Draft.bind_ok.mp hguarded
    obtain ⟨rfl, -⟩ := Draft.write_ok hguard
    have hhere : (σ.vars .input).Solid (before ++ [name]) := hsolid.append ⟨hrecord, trivial⟩
    have hopenHere : ((σ.vars .input).follow (before ++ [name])).Open rest := by
      rw [GoValue.follow_append]
      exact hopen.2
    have hroom : ((σ.vars .input).follow (before ++ [name])).isRoom = true := by
      cases rest with
      | nil => exact absurd rfl hrest
      | cons next rest => exact hopenHere.1
    show HeaderCode.exec src (.guard ⟨.input, (before ++ [name]).map .field⟩ type more) σ = _
    rw [HeaderCode.exec_guard hhere, ih hmore hlength']
    · rw [HeaderState.set_set, HeaderState.vars_set, GoValue.follow_allocated_append hrest,
        GoValue.fill_allocated_append hrest, List.append_assoc, List.singleton_append]
    · rw [HeaderState.vars_set]
      exact GoValue.solid_allocated hhere
    · rw [HeaderState.vars_set]
      exact GoValue.isRecord_follow_allocated hroom
    · rw [HeaderState.vars_set]
      exact hopenHere.allocated

/-- The test of a field lets the header be written unless the mapping leaves the field, and there is no
test only where it never does. -/
theorem enter_condition (r : BindingRequest) (src : HeaderSource) (overrides : Bool) {field : Field}
    {names : List String} (htext : r.readsLiterals = false → field.type.isText = true)
    (hsolid : (σ.vars .input).Solid names) :
    match r.rule.condition? overrides (place names) field with
    | some head => head.enter src σ = .ok
        (if keeps overrides field ((σ.vars .input).follow names) then none else some σ)
    | none => keeps overrides field ((σ.vars .input).follow names) = false := by
  -- Where only texts are bound the two rules have one condition.
  have hcondition : r.rule.condition? overrides (place names) field =
      r.propagating.condition? overrides (place names) field := by
    cases hreads : r.readsLiterals with
    | true => rw [rule, hreads, if_pos rfl]
    | false =>
      rw [rule, hreads, if_neg Bool.false_ne_true, r.populating_condition_of_isText (htext hreads)]
  rw [hcondition]
  cases overrides with
  | true => rfl
  | false =>
    cases hrequired : field.required with
    | false =>
      simp only [propagating, keeps, hrequired]
      exact HeaderHead.enter_ifUnset src hsolid
    | true =>
      cases hfield : field.type.isText with
      | false => simp [propagating, keeps, hrequired, hfield]
      | true =>
        simp only [propagating, keeps, hrequired, hfield]
        show (HeaderHead.ifNotEmpty ⟨.input, names.map .field⟩).enter src σ =
          .ok (if (!((σ.vars .input).follow names).isNotEmpty) = true then none else some σ)
        rw [HeaderHead.enter_ifNotEmpty src hsolid]
        cases ((σ.vars .input).follow names).isNotEmpty <;> rfl

/-- A header is written to a field, or passed over by a test of the field. -/
theorem exec_storeUnder (r : BindingRequest) (src : HeaderSource) (overrides : Bool) {field : Field}
    (form : HeaderForm) {names : List String} {text : String}
    (htext : r.readsLiterals = false → field.type.isText = true)
    (hvalue : σ.values .text = some (.leaf .text text))
    (hsolid : (σ.vars .input).Solid names) :
    ∃ τ, HeaderCode.exec src (storeUnder (r.rule.condition? overrides (place names) field)
        (form.store (place names) .text field.required)) σ = .ok τ ∧
      τ.vars = (σ.set .input
        (if keeps overrides field ((σ.vars .input).follow names) then σ.vars .input
        else form.stored src names text field.required (σ.vars .input))).vars := by
  obtain ⟨τ, hstore, hvars⟩ := form.exec_store src field.required hvalue hsolid
  have henter := r.enter_condition src overrides htext hsolid
  -- Without a condition the store is bare, and what the request held is not kept.
  cases hcondition : r.rule.condition? overrides (place names) field with
  | none =>
    rw [hcondition] at henter
    rw [if_neg (Bool.eq_false_iff.mp henter)]
    exact ⟨τ, hstore, hvars⟩
  | some head =>
    rw [hcondition] at henter
    by_cases hkeeps : keeps overrides field ((σ.vars .input).follow names) = true
    · rw [if_pos hkeeps, HeaderState.set_self]
      exact ⟨σ, HeaderCode.exec_nest_none (henter.trans (congrArg _ (if_pos hkeeps))), rfl⟩
    · rw [if_neg hkeeps]
      refine ⟨σ.afterBlock τ, ?_, hvars⟩
      show HeaderCode.exec src (.nest head (form.store (place names) .text field.required) .done) σ = _
      rw [HeaderCode.exec_nest_some (henter.trans (congrArg _ (if_neg hkeeps)))]
      show (HeaderCode.exec src (form.store ⟨.input, _⟩ .text field.required) σ >>= _) = _
      rw [hstore]
      rfl

/-- The statements of a mapping: in the block of its header, the guards above its field stand before
what writes the field. -/
theorem exists_of_bind {e : String × Mapping} {code : HeaderCode} {p q : Unit}
    (h : r.bind r.rule e p = .ok ((), code, q)) :
    ∃ records field, ∃ form : HeaderForm, ∃ above,
      followTarget r.schema r.target (pathOf e) = some (records, field) ∧
      (r.readsLiterals = false → field.type.isText = true) ∧
      field.type.record? = none ∧
      (∀ src text, form.parse src text = field.type.headerValue src r.resolve text) ∧
      allocateAbove r.resolve [] ((pathOf e).zip records) () = .ok ((), above, ()) ∧
      code = .nest (.ifHeader e.2.source) (above ++
        storeUnder (r.rule.condition? e.2.overrides (place (pathOf e)) field)
          (form.store (place (pathOf e)) .text field.required)) .done := by
  simp only [BindingRequest.bind] at h
  cases hfollow : followTarget r.schema r.target (pathOf e) with
  | none =>
    rw [pathOf] at hfollow
    rw [hfollow] at h
    cases h
  | some found =>
    obtain ⟨records, field⟩ := found
    rw [pathOf] at hfollow
    rw [hfollow] at h
    -- The steps of the draft: the form, the test of the header, what is above, and the store.
    obtain ⟨form, _, _, _, hform, hnest, rfl⟩ := Draft.bind_ok.mp h
    obtain ⟨rfl, htext, hleaf, hparse⟩ := rule_form_ok hform
    obtain ⟨body, hbody, rfl⟩ := Draft.nest_ok hnest
    obtain ⟨_, above, _, _, habove, hstore, rfl⟩ := Draft.bind_ok.mp hbody
    obtain ⟨rfl, -⟩ := Draft.write_ok hstore
    exact ⟨records, field, form, above, rfl, htext, hleaf, hparse, habove, rfl⟩

/-- What is written to a field on whose way the records are there. -/
theorem stored_fill {e : String × Mapping} {text : String} {form : HeaderForm} {required : Bool}
    (hvalue : r.valueFor src e = (form.parse src text).map (.holding required)) :
    form.stored src (pathOf e) text required (v.fill (pathOf e) (v.follow (pathOf e))) =
      v.fill (pathOf e) ((r.valueFor src e).getD (v.follow (pathOf e))) := by
  rw [HeaderForm.stored, hvalue]
  cases form.parse src text with
  | none => rfl
  | some d => exact GoValue.fill_fill

/-- The statements of a mapping run on a request with room for the records on its path. -/
theorem exec_bind (src : HeaderSource) {e : String × Mapping} {code : HeaderCode} {p q : Unit}
    (hdone : r.bind r.rule e p = .ok ((), code, q)) (hrecord : (σ.vars .input).isRecord = true)
    (hopen : (σ.vars .input).Open (pathOf e)) :
    ∃ w, HeaderCode.exec src code σ = .ok (σ.set .input w) ∧ r.Bound src e (σ.vars .input) w := by
  obtain ⟨records, field, form, above, hfollow, htype, -, hparse, habove, rfl⟩ := exists_of_bind hdone
  have henter : (HeaderHead.ifHeader e.2.source).enter src σ =
      .ok ((src.text e.2.source).map fun t => σ.bind .text (.leaf .text t)) := rfl
  cases htext : src.text e.2.source with
  | none =>
    rw [htext] at henter
    refine ⟨_, ?_, .missing htext⟩
    rw [HeaderCode.exec_nest_none henter, HeaderState.set_self, HeaderCode.exec_done]
  | some text =>
    rw [htext] at henter
    -- In the block the guards run on the state that has the text of the header bound.
    have hallocated := exec_allocateAbove src (σ := σ.bind .text (.leaf .text text)) habove
      (length_of_followTarget hfollow) trivial hrecord hopen
    rw [List.nil_append, HeaderState.vars_bind] at hallocated
    have hvalue : ((σ.bind .text (.leaf .text text)).set .input ((σ.vars .input).fill (pathOf e)
        ((σ.vars .input).follow (pathOf e)))).values .text = some (.leaf .text text) := by
      rw [HeaderState.values_set, HeaderState.values_bind]
    have hsolid : (((σ.bind .text (.leaf .text text)).set .input ((σ.vars .input).fill (pathOf e)
        ((σ.vars .input).follow (pathOf e)))).vars .input).Solid (pathOf e) := by
      rw [HeaderState.vars_set]
      exact GoValue.solid_fill
    obtain ⟨τ, hexec, hvars⟩ := exec_storeUnder r src e.2.overrides form htype hvalue hsolid
    have hfor : r.valueFor src e = (form.parse src text).map (.holding field.required) := by
      rw [valueFor, hfollow, htext, hparse]
    have hafter : r.valueAfter src e ((σ.vars .input).follow (pathOf e)) =
        if keeps e.2.overrides field ((σ.vars .input).follow (pathOf e)) then
          (σ.vars .input).follow (pathOf e)
        else (r.valueFor src e).getD ((σ.vars .input).follow (pathOf e)) := by
      rw [valueAfter, hfollow]
    rw [HeaderState.set_set, HeaderState.vars_set, GoValue.follow_fill, stored_fill hfor,
      ← apply_ite, ← hafter] at hvars
    refine ⟨_, ?_, .filled htext⟩
    rw [HeaderCode.exec_nest_some henter, HeaderCode.exec_append_of hallocated, hexec]
    exact congrArg Except.ok (HeaderState.afterBlock_of_vars hvars)

namespace Bound

variable {e : String × Mapping} {p : List String}

theorem isRecord (h : r.Bound src e v w) (hpath : pathOf e ≠ []) (hv : v.isRecord = true) :
    w.isRecord = true := by
  cases h with
  | missing => exact hv
  | filled =>
    obtain ⟨name, rest, hcons⟩ := List.exists_cons_of_ne_nil hpath
    rw [hcons]
    rfl

/-- Room on another path stays. -/
theorem keeps_open (h : r.Bound src e v w) (hv : v.Open p) (hp : ¬pathOf e <+: p) : w.Open p := by
  cases h with
  | missing => exact hv
  | filled => exact hv.fill hp

theorem follow_path (h : r.Bound src e v w) :
    w.follow (pathOf e) = r.valueAfter src e (v.follow (pathOf e)) := by
  cases h with
  | missing hmissing => exact (valueAfter_of_missing hmissing).symm
  | filled => exact GoValue.follow_fill

/-- What is not at or below the path stays, or is room on the way where there is a record now. -/
theorem frame (h : r.Bound src e v w) (hopen : v.Open (pathOf e)) (hp : ¬pathOf e <+: p) :
    w.follow p = v.follow p ∨ (v.follow p).isRoom = true ∧ (w.follow p).isRecord = true ∧
      p <+: pathOf e ∧ (src.text e.2.source).isSome = true := by
  cases h with
  | missing => exact .inl rfl
  | @filled text htext =>
    by_cases habove : p <+: pathOf e
    · have hne : p ≠ pathOf e := fun heq => hp (heq ▸ List.prefix_rfl)
      refine .inr ⟨?_, GoValue.isRecord_follow_fill habove hne, habove, by rw [htext]; rfl⟩
      obtain ⟨rest, hrest⟩ := habove
      rw [← hrest] at hopen hne
      cases rest with
      | nil => exact absurd (List.append_nil p).symm hne
      | cons name rest => exact hopen.follow.1
    · exact .inl (GoValue.follow_fill_of_apart hp habove)

end Bound

/-! ## All mappings -/

/-- What binding some mappings does to a request. -/
structure Filled (r : BindingRequest) (src : HeaderSource) (entries : List (String × Mapping))
    (v w : GoValue) : Prop where
  /-- A mapped path is left as it was, or holds the value of its own header. -/
  mapped : ∀ e ∈ entries, w.follow (pathOf e) = v.follow (pathOf e) ∨
    r.valueFor src e = some (w.follow (pathOf e))
  /-- It holds the value where the mapping overrides and the header is there and is a value. -/
  overridden : ∀ e ∈ entries, e.2.overrides = true → ∀ x, r.valueFor src e = some x →
    w.follow (pathOf e) = x
  /-- All else is left as it was, but for records or nil on the way to a mapped path whose header is
  there: these are records now. -/
  frame : ∀ p, (∀ e ∈ entries, ¬pathOf e <+: p) → w.follow p = v.follow p ∨
    (v.follow p).isRoom = true ∧ (w.follow p).isRecord = true ∧
      ∃ e ∈ entries, p <+: pathOf e ∧ (src.text e.2.source).isSome = true

/-- What binding some mappings does to a request, to the value: each mapped path holds what it is to
hold after its own mapping. All else is left but for records on the way. -/
structure AllBound (r : BindingRequest) (src : HeaderSource) (entries : List (String × Mapping))
    (v w : GoValue) : Prop where
  paths : ∀ e ∈ entries, w.follow (pathOf e) = r.valueAfter src e (v.follow (pathOf e))
  frame : ∀ p, (∀ e ∈ entries, ¬pathOf e <+: p) → w.follow p = v.follow p ∨
    (v.follow p).isRoom = true ∧ (w.follow p).isRecord = true ∧
      ∃ e ∈ entries, p <+: pathOf e ∧ (src.text e.2.source).isSome = true

theorem AllBound.filled {entries : List (String × Mapping)} (h : r.AllBound src entries v w) :
    r.Filled src entries v w where
  mapped e he := by
    rw [h.paths e he]
    exact r.valueAfter_cases src e _
  overridden e he hoverrides x hx := by
    rw [h.paths e he]
    exact valueAfter_of_overrides hoverrides hx
  frame := h.frame

/-- A mapping before others whose paths are neither above nor below its own. -/
theorem AllBound.cons {e : String × Mapping} {entries : List (String × Mapping)} {u v w : GoValue}
    (hfirst : r.Bound src e u v) (hrest : r.AllBound src entries v w) (hopen : u.Open (pathOf e))
    (hapart : ∀ e' ∈ entries, ¬pathOf e <+: pathOf e' ∧ ¬pathOf e' <+: pathOf e) :
    r.AllBound src (e :: entries) u w := by
  -- The mappings that follow leave the path of the first one.
  have hown : w.follow (pathOf e) = v.follow (pathOf e) := by
    rcases hrest.frame (pathOf e) fun e' he' => (hapart e' he').2 with h | ⟨-, -, e', he', h, -⟩
    · exact h
    · exact absurd h (hapart e' he').1
  -- The first mapping has left the paths of those that follow.
  have hothers : ∀ e' ∈ entries, v.follow (pathOf e') = u.follow (pathOf e') := by
    intro e' he'
    rcases hfirst.frame hopen (hapart e' he').1 with h | ⟨-, -, h, -⟩
    · exact h
    · exact absurd h (hapart e' he').2
  constructor
  · intro e' he'
    rcases List.mem_cons.mp he' with rfl | he'
    · rw [hown, hfirst.follow_path]
    · rw [hrest.paths e' he', hothers e' he']
  · intro p hp
    have hlater := hrest.frame p fun e' he' => hp e' (List.mem_cons_of_mem _ he')
    rcases hfirst.frame hopen (hp e List.mem_cons_self) with hsame | ⟨hroom, hrecord, hway⟩
    · rw [← hsame]
      refine hlater.imp_right fun ⟨hroom, hrecord, e', he', hway⟩ => ?_
      exact ⟨hroom, hrecord, e', List.mem_cons_of_mem _ he', hway⟩
    · refine .inr ⟨hroom, ?_, e, List.mem_cons_self, hway⟩
      rcases hlater with hsame | ⟨-, hstill, -⟩
      · rw [hsame]
        exact hrecord
      · exact hstill

/-- The path of a mapping leads to a field that is no record. -/
def Leads (r : BindingRequest) (e : String × Mapping) : Prop :=
  ∃ records field, followTarget r.schema r.target (pathOf e) = some (records, field) ∧
    field.type.record? = none

/-- Paths of different mappings are neither above nor below one another. -/
theorem Leads.not_prefix {e e' : String × Mapping} (h : r.Leads e) (h' : r.Leads e')
    (hne : e.1 ≠ e'.1) : ¬pathOf e <+: pathOf e' := by
  obtain ⟨_, field, hfollow, hleaf⟩ := h
  obtain ⟨_, field', hfollow', -⟩ := h'
  exact not_prefix_of_followTarget hfollow hleaf hfollow' fun heq => hne (Text.eq_of_split_eq heq)

theorem leads_of_forM {entries : List (String × Mapping)} {code : HeaderCode} {p q : Unit}
    (hdone : entries.forM (r.bind r.rule) p = .ok ((), code, q)) : ∀ e ∈ entries, r.Leads e := by
  induction entries generalizing code p with
  | nil => exact fun e he => absurd he List.not_mem_nil
  | cons e entries ih =>
    obtain ⟨_, _, _, _, hfirst, hrest, -⟩ := Draft.bind_ok.mp hdone
    obtain ⟨records, field, -, -, hfollow, -, hleaf, -⟩ := exists_of_bind hfirst
    exact List.forall_mem_cons.mpr ⟨⟨records, field, hfollow, hleaf⟩, ih hrest⟩

/-- The statements of mappings with different paths run one after the other. -/
theorem exec_forM_allBound (src : HeaderSource) {entries : List (String × Mapping)}
    {code : HeaderCode} {p q : Unit}
    (hdone : entries.forM (r.bind r.rule) p = .ok ((), code, q))
    (hdistinct : entries.Pairwise fun e e' => e.1 ≠ e'.1)
    (hrecord : (σ.vars .input).isRecord = true)
    (hopen : ∀ e ∈ entries, (σ.vars .input).Open (pathOf e)) :
    ∃ w, HeaderCode.exec src code σ = .ok (σ.set .input w) ∧
      r.AllBound src entries (σ.vars .input) w := by
  induction entries generalizing code p σ with
  | nil =>
    cases hdone
    exact ⟨_, by rw [HeaderState.set_self, HeaderCode.exec_done],
      fun e he => absurd he List.not_mem_nil, fun p _ => .inl rfl⟩
  | cons e entries ih =>
    have hleads := leads_of_forM hdone
    obtain ⟨hne, hdistinct⟩ := List.pairwise_cons.mp hdistinct
    -- Entries have different paths, all to leaves, so none is above another.
    have hapart : ∀ e' ∈ entries, ¬pathOf e <+: pathOf e' ∧ ¬pathOf e' <+: pathOf e := by
      intro e' he'
      have hfirst := hleads e List.mem_cons_self
      have hlater := hleads e' (List.mem_cons_of_mem _ he')
      exact ⟨hfirst.not_prefix hlater (hne e' he'), hlater.not_prefix hfirst (hne e' he').symm⟩
    have hpath : pathOf e ≠ [] := by
      obtain ⟨_, _, hfollow, -⟩ := hleads e List.mem_cons_self
      exact List.ne_nil_of_length_eq_add_one (length_of_followTarget hfollow)
    obtain ⟨_, code₁, _, code₂, hfirst, hrest, rfl⟩ := Draft.bind_ok.mp hdone
    obtain ⟨v, hexec, hbound⟩ := exec_bind src hfirst hrecord (hopen e List.mem_cons_self)
    obtain ⟨w, hexec', hbounds⟩ := ih (σ := σ.set .input v) hrest hdistinct
      (by rw [HeaderState.vars_set]; exact hbound.isRecord hpath hrecord)
      (fun e' he' => by
        rw [HeaderState.vars_set]
        exact hbound.keeps_open (hopen e' (List.mem_cons_of_mem _ he')) (hapart e' he').1)
    rw [HeaderState.set_set] at hexec'
    rw [HeaderState.vars_set] at hbounds
    refine ⟨w, ?_, .cons hbound hbounds (hopen e List.mem_cons_self) hapart⟩
    rw [HeaderCode.exec_append_of hexec, hexec']

/-- Mapped paths are spelled with the Go names of the fields that they resolve to. -/
def GoNamed (r : BindingRequest) : Prop :=
  ∀ e ∈ r.mappings.entries, GoSpelled r.schema r.target (pathOf e)

/-- A request in which nothing is set. -/
def nothingSet : HeaderState where
  vars _ := .fresh

end BindingRequest

end RecordBridge

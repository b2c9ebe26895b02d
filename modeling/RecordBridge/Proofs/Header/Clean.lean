import RecordBridge.Header.Binding
import RecordBridge.Proofs.Clean
import RecordBridge.Proofs.Schema.Supported

/-!
# Binding headers to supported fields is clean

Headers are bound by single lines, and not without the packages of named types, if fields are supported
and neither the target paths nor the headers hold a line feed.
-/

namespace RecordBridge

/-! ## Spellings -/

/-- The variables of statements that bind headers have fixed names. -/
def HeaderVar.IsFixed : HeaderVar → Prop
  | .named _ => False
  | _ => True

/-- Variables with a fixed name hold no line feed. -/
theorem HeaderVar.IsFixed.spelling {v : HeaderVar} (h : v.IsFixed) : IsSingle v.spelling := by
  cases v with
  | named name => exact absurd h id
  | _ => decide

namespace HeaderStatement

variable {p : Place} {type : GoType} {v : HeaderVar}

theorem isSingle_allocate (hp : p.IsSingle) (htype : IsSingle type.text) :
    IsSingle (allocate p type).text := by
  simp +decide [text, hp.text, htype]

theorem isSingle_store (hp : p.IsSingle) (hv : IsSingle v.spelling) (byAddress : Bool) :
    IsSingle (store p v byAddress).text := by
  cases byAddress <;> simp +decide [text, hp.text, hv]

theorem isSingle_storeAs (hp : p.IsSingle) (htype : IsSingle type.text) (hv : IsSingle v.spelling) :
    IsSingle (storeAs p type v).text := by
  simp +decide [text, hp.text, htype, hv]

theorem isSingle_convert (htype : IsSingle type.text) (hv : IsSingle v.spelling) :
    IsSingle (convert type v).text := by
  simp +decide [text, htype, hv]

theorem isSingle_fetch (hv : IsSingle v.spelling) {header : String} (h : IsSingle header) :
    IsSingle (fetch v header).text := by
  simp +decide [text, hv, h]

theorem isSingle_fetchTested (hv : IsSingle v.spelling) {header : String} (h : IsSingle header) :
    IsSingle (fetchTested v header).text := by
  simp +decide [text, HeaderVar.presence, hv, h]

end HeaderStatement

namespace HeaderHead

theorem isSingle_ifHeader {header : String} (h : IsSingle header) :
    IsSingle (ifHeader header).text := by
  have hopen : IsSingle "if key, ok := headers.Get(\"" := by decide
  exact isSingle_append.mpr ⟨isSingle_append.mpr ⟨hopen, h⟩, by decide⟩

theorem isSingle_ifUnset {p : Place} (hp : p.IsSingle) : IsSingle (ifUnset p).text := by
  have hopen : IsSingle "if " := by decide
  exact isSingle_append.mpr ⟨isSingle_append.mpr ⟨hopen, hp.text⟩, by decide⟩

theorem isSingle_ifNotEmpty {p : Place} (hp : p.IsSingle) : IsSingle (ifNotEmpty p).text := by
  have hopen : IsSingle "if " := by decide
  exact isSingle_append.mpr ⟨isSingle_append.mpr ⟨hopen, hp.text⟩, by decide⟩

theorem isSingle_ifExists {v : HeaderVar} (hv : IsSingle v.spelling) :
    IsSingle (ifExists v).text := by
  have hopen : IsSingle "if " := by decide
  exact isSingle_append.mpr ⟨hopen, isSingle_append.mpr ⟨hv, by decide⟩⟩

/-- A test whether a text spells a literal. -/
theorem isSingle_ifParsed (l : Literal) {v : HeaderVar} (hv : IsSingle v.spelling) :
    IsSingle (ifParsed l v).text := by
  have hopen : IsSingle "if v, err := " := by decide
  have hcall : IsSingle (l.call v.spelling) := by
    cases l with
    | bool => exact isSingle_append.mpr ⟨isSingle_append.mpr ⟨by decide, hv⟩, by decide⟩
    | float => exact isSingle_append.mpr ⟨isSingle_append.mpr ⟨by decide, hv⟩, by decide⟩
    | int bits =>
      have hopen : IsSingle "strconv.ParseInt(" := by decide
      have hbase : IsSingle ", 10, " := by decide
      have htext := isSingle_append.mpr ⟨isSingle_append.mpr ⟨hopen, hv⟩, hbase⟩
      exact isSingle_append.mpr ⟨isSingle_append.mpr ⟨htext, isSingle_repr bits⟩, by decide⟩
  exact isSingle_append.mpr ⟨isSingle_append.mpr ⟨hopen, hcall⟩, by decide⟩

end HeaderHead

/-! ## Forms -/

/-- A form without line feeds. -/
def HeaderForm.IsSingle (form : HeaderForm) : Prop :=
  ∀ type, form = .named type → RecordBridge.IsSingle type.text

section Forms

variable {σ : Type} {I : σ → Prop} {resolve : Resolver}

/-- A header is written in a form with the type of its field, which has a name in a known package or
none. -/
theorem clean_headerForm {type : FieldType} (h : type.Supported resolve) :
    Draft.Clean False I (fun form => ∀ f ∈ form, f.IsSingle)
      (headerForm resolve type : HeaderWriting σ (Option HeaderForm)) := by
  have hnamed : ∀ go : GoType, IsSingle go.text →
      ∀ f ∈ some (HeaderForm.named go), f.IsSingle := by
    rintro go hgo _ ⟨⟩ _ ⟨⟩
    exact hgo
  -- Only named types bring in a name of their own; the rest of the types that hold headers are fixed
  -- words.
  cases type with
  | int8 => exact absurd h id
  | enum name file => exact .bind (.ofExcept h.resolved.goType) fun go hgo => .pure (hnamed go hgo)
  | «alias» name file target =>
    rw [headerForm]
    split
    · exact .bind (.ofExcept h.resolved.goType) fun go hgo => .pure (hnamed go hgo)
    · exact .pure nofun
  | text | bool | int16 | int32 | int64 | double =>
    refine .pure ?_
    rintro _ ⟨⟩ _ ⟨⟩
  | _ => exact .pure nofun

/-- A field that is refused is no unknown package. -/
theorem clean_formFor {header : String} {field : Field} (h : field.type.Supported resolve) :
    Draft.Clean False I HeaderForm.IsSingle
      (formFor resolve header field : HeaderWriting σ HeaderForm) := by
  refine .bind (clean_headerForm h) fun form hform => ?_
  cases form with
  | none => exact .fail trivial
  | some form => exact .pure (hform form rfl)

/-- The statements of a form spell the place, the variable and the type of the form. -/
theorem HeaderForm.IsSingle.store {form : HeaderForm} (h : form.IsSingle) {p : Place}
    (hp : p.IsSingle) {v : HeaderVar} (hv : RecordBridge.IsSingle v.spelling) (required : Bool) :
    (form.store p v required).IsSingle := by
  have hconverted := HeaderVar.IsFixed.spelling (v := .converted) trivial
  have hparsed := HeaderVar.IsFixed.spelling (v := .parsed) trivial
  have hint : ∀ type : GoType, RecordBridge.IsSingle type.text →
      Block.IsSingle (S := HeaderStatement) (H := HeaderHead)
        (.ofList [.convert type .parsed, .store p .converted (!required)]) := fun type htype =>
    .step (HeaderStatement.isSingle_convert htype hparsed)
      (.step (HeaderStatement.isSingle_store hp hconverted _) .done)
  cases form with
  | plain => exact .step (HeaderStatement.isSingle_store hp hv _) .done
  | named type =>
    have htype := h type rfl
    rw [HeaderForm.store]
    split
    · exact .step (HeaderStatement.isSingle_storeAs hp htype hv) .done
    · exact .step (HeaderStatement.isSingle_convert htype hv)
        (.step (HeaderStatement.isSingle_store hp hconverted _) .done)
  | literal l =>
    -- Integers are converted to their width first; the other literals are stored as they are parsed.
    refine .nest (HeaderHead.isSingle_ifParsed l hv) ?_ .done
    split
    · exact hint _ (by decide)
    · exact hint _ (by decide)
    · exact .step (HeaderStatement.isSingle_store hp hparsed _) .done

end Forms

/-! ## Binding -/

namespace BindingRequest

/-- The fields that a request is about are supported, and neither the target paths nor the headers
hold a line feed. -/
structure Supported (r : BindingRequest) : Prop where
  schema : r.schema.Supported r.resolve
  target : ∀ f ∈ r.target, f.Supported r.resolve
  mappings : ∀ e ∈ r.mappings.entries, IsSingle e.1 ∧ IsSingle e.2.source

/-- The records on the way to a field have Go types, and the field is supported. -/
theorem followTarget_supported {resolve : Resolver} {s : Schema} (hs : s.Supported resolve) :
    ∀ {names : List String} {fields : List Field} {found : List RecordRef × Field},
      (∀ f ∈ fields, f.Supported resolve) → followTarget s fields names = some found →
      (∀ ref ∈ found.1, NameSupported resolve ref.name ref.file) ∧ found.2.Supported resolve
  | [], _, _, _, h => by cases h
  | name :: rest, fields, found, hfields, h => by
    rw [followTarget] at h
    split at h
    · cases h
    · rename_i field hfind
      have hfield := hfields field (List.mem_of_find?_eq_some hfind)
      split at h
      · cases h
        exact ⟨fun _ href => absurd href List.not_mem_nil, hfield⟩
      · split at h
        · -- The name is that of a record, so the rest of the names is followed among its fields.
          rename_i ref href
          obtain ⟨inner, hinner, rfl⟩ := Option.map_eq_some_iff.mp h
          obtain ⟨hrefs, hlast⟩ := followTarget_supported hs (hs.fields ref) hinner
          exact ⟨List.forall_mem_cons.mpr ⟨(hfield.type.resolved.record? href).1, hrefs⟩, hlast⟩
        · cases h

/-- A place below the request, by names of the path. -/
theorem place_isSingle {names : List String} (h : ∀ name ∈ names, IsSingle name) :
    (place names).IsSingle := by
  refine ⟨Var.isSingle_text nofun, fun s hs => ?_⟩
  obtain ⟨name, hname, rfl⟩ := List.mem_map.mp hs
  have hsingle := h name hname
  simpa +decide [Step.text] using hsingle

/-- Records above a field are allocated one below the other. -/
theorem clean_allocateAbove {resolve : Resolver} {I : Unit → Prop} :
    ∀ {before : List String} {records : List (String × RecordRef)},
      (∀ name ∈ before, IsSingle name) →
      (∀ e ∈ records, IsSingle e.1 ∧ NameSupported resolve e.2.name e.2.file) →
      Draft.Clean False I (fun _ => True) (allocateAbove resolve before records)
  | _, [], _, _ => .pure trivial
  | before, (name, ref) :: rest, hbefore, hrecords => by
    obtain ⟨⟨hname, href⟩, hrest⟩ := List.forall_mem_cons.mp hrecords
    have hhere : ∀ n ∈ before ++ [name], IsSingle n :=
      List.forall_mem_append.mpr ⟨hbefore, List.forall_mem_singleton.mpr hname⟩
    have hplace := place_isSingle hhere
    refine .bind (.ofExcept href.namedType) fun type htype => .bind (.write ?_) fun _ _ =>
      clean_allocateAbove hhere hrest
    exact .nest (HeaderHead.isSingle_ifUnset hplace)
      (.step (HeaderStatement.isSingle_allocate hplace htype) .done) .done

variable {r : BindingRequest}

/-- A rule is clean if it takes supported fields cleanly, under conditions without line feeds. -/
structure BindingRule.Clean (resolve : Resolver) (rule : BindingRule) : Prop where
  form : ∀ header (field : Field), field.type.Supported resolve →
    Draft.Clean False (fun _ => True) HeaderForm.IsSingle (rule.form header field)
  condition : ∀ overrides (p : Place) field, p.IsSingle →
    ∀ head ∈ rule.condition? overrides p field, IsSingle head.text

/-- What the populator accepts is written in a form without unknown packages, and under a test of the
place. -/
theorem clean_populating : BindingRule.Clean r.resolve r.populating where
  form header field h := by
    have hplain : HeaderForm.plain.IsSingle := nofun
    rw [populating]
    dsimp only
    split
    · exact .pure hplain
    · split
      · refine .bind (clean_headerForm h) fun form hform => .pure ?_
        -- An alias of text has a form of its own, if it has any.
        cases form with
        | none => exact hplain
        | some form => exact hform form rfl
      · exact .fail trivial
    · exact .fail trivial
  condition overrides p field hp head hhead := by
    rw [populating] at hhead
    dsimp only at hhead
    split at hhead
    · cases hhead
    · split at hhead
      · cases hhead
        exact HeaderHead.isSingle_ifNotEmpty hp
      · cases hhead
        exact HeaderHead.isSingle_ifUnset hp

/-- What the propagator accepts and tests. -/
theorem clean_propagating : BindingRule.Clean r.resolve r.propagating where
  form header field h := clean_formFor h
  condition overrides p field hp head hhead := by
    rw [propagating] at hhead
    dsimp only at hhead
    split at hhead
    · cases hhead
    · split at hhead
      · cases hhead
        exact HeaderHead.isSingle_ifUnset hp
      · split at hhead
        · cases hhead
          exact HeaderHead.isSingle_ifNotEmpty hp
        · cases hhead

/-- Both rules are clean, whichever a request follows. -/
theorem clean_rule : BindingRule.Clean r.resolve r.rule := by
  rw [rule]
  split
  · exact clean_propagating
  · exact clean_populating

/-- One entry of the map: the path is followed, the form is chosen, and only then is something
written. -/
theorem clean_bind (h : r.Supported) {entry : String × Mapping}
    (hentry : entry ∈ r.mappings.entries) :
    Draft.Clean False (fun _ => True) (fun _ => True) (r.bind r.rule entry) := by
  obtain ⟨hpath, hheader⟩ := h.mappings entry hentry
  have hnames : ∀ name ∈ Text.split '.' entry.1, IsSingle name := fun _ => hpath.of_mem_split
  have hplace := place_isSingle hnames
  rw [BindingRequest.bind]
  split
  · exact .fail trivial
  · rename_i records field hfound
    obtain ⟨hrecords, hfield⟩ := followTarget_supported h.schema h.target hfound
    refine .bind (clean_rule.form _ _ hfield.type) fun form hform =>
      .nest (HeaderHead.isSingle_ifHeader hheader) ?_
    refine .bind (clean_allocateAbove (fun _ hn => absurd hn List.not_mem_nil) fun e he => ?_)
      fun _ _ => .write ?_
    · exact ⟨hnames _ (List.of_mem_zip he).1, hrecords _ (List.of_mem_zip he).2⟩
    · have htext := HeaderVar.IsFixed.spelling (v := .text) trivial
      have hstore := hform.store hplace htext field.required
      -- The store stands alone where the rule has no test for it.
      unfold storeUnder
      split
      · rename_i head hhead
        exact .nest (clean_rule.condition _ _ _ hplace head hhead) hstore .done
      · exact hstore

/-- Binding headers to supported fields gives single lines, or an error that is no unknown package. -/
theorem run_clean (h : r.Supported) :
    (∃ lines, r.run = .lines lines ∧ ∀ line ∈ lines, IsSingle line) ∨
      ∃ cause, r.run = .failed cause ∧ ∀ name reason, cause ≠ .unresolvedPackage name reason := by
  have hdraft : Draft.Clean False (fun _ => True) (fun _ => True) r.draft :=
    .forM fun entry hentry => clean_bind h hentry
  rcases hdraft.outcome (p := ()) trivial with hlines | hfailed | hunfinished
  · exact .inl hlines
  · exact .inr hfailed
  · exact absurd hunfinished.1 id

end BindingRequest

end RecordBridge

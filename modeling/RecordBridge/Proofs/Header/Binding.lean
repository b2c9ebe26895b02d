import RecordBridge.Header.Binding
import RecordBridge.Proofs.Refusal

/-!
# Populating and propagating

The two ways of binding headers have each a rule of its own. On a text field the rules agree
(`populating_form_of_isText`, `populating_condition_of_isText`); every other field is refused by
populating (`populating_form_of_not_isText`). So one mapping gives the same under both unless
populating refuses its field, and `Draft.FollowsUnless` carries this from one mapping to all of them:
the first refusal ends the run of populating, and up to there the two runs are one.
-/

namespace RecordBridge

namespace BindingRequest

variable (r : BindingRequest)

/-! ## The two rules -/

/-- The form of headers for an alias of text is the one that holds them. -/
theorem populating_form_of_isText {header : String} {field : Field} (h : field.type.isText = true) :
    r.populating.form header field = r.propagating.form header field := by
  simp only [populating, propagating, formFor, headerForm]
  cases htype : field.type with
  | «alias» name file target =>
    rw [htype] at h
    simp only [h, if_true, bind_assoc, pure_bind, Option.getD_some]
  | text => simp
  | _ => simp [htype, FieldType.isText, FieldType.root] at h

/-- Populating refuses every field that is not text. -/
theorem populating_form_of_not_isText {header : String} {field : Field}
    (h : field.type.isText = false) :
    r.populating.form header field = Draft.fail (.headerTarget header field.name) := by
  cases htype : field.type with
  | text => simp [htype, FieldType.isText, FieldType.root] at h
  | «alias» name file target =>
    rw [htype] at h
    simp [populating, htype, h]
  | _ => simp [populating, htype]

/-- Text fields are filled under the same condition. -/
theorem populating_condition_of_isText {field : Field} (h : field.type.isText = true)
    (overrides : Bool) (place : Place) :
    r.populating.condition? overrides place field =
      r.propagating.condition? overrides place field := by
  cases hrequired : field.required <;> simp [populating, propagating, h, hrequired]

/-! ## Runs -/

/-- Whether a run fails because a field cannot hold its header. -/
def IsRefusal (cause : GenerationError) : Prop :=
  ∃ header field, cause = .headerTarget header field

/-- For one mapping, propagating does what populating does unless the field is refused. -/
theorem bind_followsUnless (entry : String × Mapping) :
    Draft.FollowsUnless IsRefusal (r.bind r.populating entry) (r.bind r.propagating entry) := by
  simp only [BindingRequest.bind]
  cases followTarget r.schema r.target (Text.split '.' entry.1) with
  | none => exact .refl _
  | some found =>
    obtain ⟨records, field⟩ := found
    cases htext : field.type.isText with
    | true =>
      simp only [r.populating_form_of_isText htext, r.populating_condition_of_isText htext]
      exact .refl _
    | false =>
      simp only [r.populating_form_of_not_isText htext]
      -- What follows a refusal is not reached.
      exact .fail ⟨_, _, rfl⟩ _

/-- Propagating does for a request what populating does, whether it gives lines, fails or breaks,
unless populating fails because a field cannot hold its header. -/
theorem propagates_as_populates (r : BindingRequest) :
    { r with readsLiterals := true }.run = { r with readsLiterals := false }.run ∨
      ∃ header field,
        { r with readsLiterals := false }.run = .failed (.headerTarget header field) := by
  have hdraft : Draft.FollowsUnless IsRefusal { r with readsLiterals := false }.draft
      { r with readsLiterals := true }.draft :=
    .forM r.bind_followsUnless r.mappings.entries
  rcases hdraft.outcome () with hsame | ⟨cause, hfailed, header, field, rfl⟩
  · exact .inl hsame
  · exact .inr ⟨header, field, hfailed⟩

/-- A request with a text field and a number, which are bound to a header each. -/
def portOf (readsLiterals : Bool) : BindingRequest :=
  { schema := {}
    resolve := fun _ => .ok "structs"
    target := [⟨0, "host", false, .text, []⟩, ⟨1, "port", true, .int64, []⟩]
    mappings := (Table.empty.insert "Host" ⟨"x-host", false⟩).insert "Port" ⟨"x-port", true⟩
    readsLiterals }

example : (portOf false).run = .failed (.headerTarget "x-port" "port") := by
  decide +kernel

example : (portOf true).run = .lines
    ["if key, ok := headers.Get(\"x-host\"); ok \x7b",
      "\tif in.Host == nil \x7b",
      "\t\tin.Host = &key",
      "\t\x7d",
      "\x7d",
      "if key, ok := headers.Get(\"x-port\"); ok \x7b",
      "\tif v, err := strconv.ParseInt(key, 10, 64); err == nil \x7b",
      "\t\tin.Port = v",
      "\t\x7d",
      "\x7d"] := by
  decide +kernel

end BindingRequest

end RecordBridge

import RecordBridge.Proofs.Header.Filling

/-!
# What mappings leave as it was

A mapping that does not override tests the field before it writes to it. For an optional field the test
is whether it is nil: one that is set is left, and one that is nil takes the value of the header
(`KeepsSet`). For a required text the test is the other way round: the text is left while it is empty,
and overwritten where it is not (`KeepsEmpty`). Any other required field is not tested, and takes each
value. `run_leaves` says so for every run, mapping by mapping.
-/

namespace RecordBridge

namespace BindingRequest

variable {r : BindingRequest} {src : HeaderSource} {e : String × Mapping} {v w : GoValue}

/-- A field that is set is left, and one that is nil holds the value of its header, if this is one. -/
structure KeepsSet (r : BindingRequest) (src : HeaderSource) (e : String × Mapping) (old new : GoValue) :
    Prop where
  set : old.isSet = true → new = old
  unset : old.isSet = false → new = (r.valueFor src e).getD old

/-- A text that is empty is left, and one that is not holds the value of its header, if this is one. -/
structure KeepsEmpty (r : BindingRequest) (src : HeaderSource) (e : String × Mapping)
    (old new : GoValue) : Prop where
  empty : old.isNotEmpty = false → new = old
  notEmpty : old.isNotEmpty = true → new = (r.valueFor src e).getD old

/-- What a mapping that does not override does to its field, by the kind of the field. -/
structure Leaves (r : BindingRequest) (src : HeaderSource) (e : String × Mapping) (field : Field)
    (old new : GoValue) : Prop where
  optional : field.required = false → r.KeepsSet src e old new
  text : field.required = true → field.type.isText = true → r.KeepsEmpty src e old new
  other : field.required = true → field.type.isText = false → new = (r.valueFor src e).getD old

/-- What a field holds after its mapping was bound without overriding. -/
theorem leaves_valueAfter {records : List RecordRef} {field : Field}
    (hfollow : followTarget r.schema r.target (pathOf e) = some (records, field))
    (hoverrides : e.2.overrides = false) (old : GoValue) :
    r.Leaves src e field old (r.valueAfter src e old) := by
  have hafter : r.valueAfter src e old =
      if (if field.required then field.type.isText && !old.isNotEmpty else old.isSet) = true then old
      else (r.valueFor src e).getD old := by
    rw [valueAfter, hfollow, hoverrides]
    rfl
  refine ⟨fun hrequired => ⟨fun hset => ?_, fun hset => ?_⟩,
    fun hrequired htext => ⟨fun hempty => ?_, fun hempty => ?_⟩, fun hrequired htext => ?_⟩
  · simp [hafter, hrequired, hset]
  · simp [hafter, hrequired, hset]
  · simp [hafter, hrequired, htext, hempty]
  · simp [hafter, hrequired, htext, hempty]
  · simp [hafter, hrequired, htext]

/-- **What runs leave.** The lines that bind headers are those of statements that do to the field of each
mapping that does not override what is told by the kind of the field. -/
theorem run_leaves (hr : r.GoNamed) {text : List String} (hrun : r.run = .lines text) :
    ∃ code : HeaderCode, text = code.lines.map Line.indented ∧
      ∀ (src : HeaderSource) (σ : HeaderState), IsRequest r.schema r.target (σ.vars .input) →
        ∃ w, HeaderCode.exec src code σ = .ok (σ.set .input w) ∧
          ∀ e ∈ r.mappings.entries, e.2.overrides = false → ∀ records field,
            followTarget r.schema r.target (pathOf e) = some (records, field) →
              r.Leaves src e field ((σ.vars .input).follow (pathOf e)) (w.follow (pathOf e)) := by
  obtain ⟨_, code, _, hdone, rfl⟩ := Draft.exists_of_outcome hrun
  refine ⟨code, rfl, fun src σ hrequest => ?_⟩
  obtain ⟨w, hexec, hbounds⟩ := exec_forM_allBound src (σ := σ) hdone
    (r.mappings.sorted.imp fun hlt => String.ne_of_lt hlt) hrequest.isRecord fun e he => by
      obtain ⟨_, _, hfollow, -⟩ := leads_of_forM hdone e he
      exact open_of_followTarget hfollow (hr e he) (GoValue.isRoom_of_isRecord hrequest.isRecord)
        hrequest.holds
  refine ⟨w, hexec, fun e he hoverrides records field hfollow => ?_⟩
  rw [hbounds.paths e he]
  exact leaves_valueAfter hfollow hoverrides _

/-! ## A required text -/

/-- A request with a required text, which is bound to a header that does not override. -/
def greetingOf (readsLiterals : Bool) : BindingRequest :=
  { schema := {}
    resolve := fun _ => .ok "structs"
    target := [⟨0, "one", true, .text, []⟩]
    mappings := Table.empty.insert "One" ⟨"x-one", false⟩
    readsLiterals }

/-- Every header is there, with one text. -/
def everyHeader (text : String) : HeaderSource where
  text _ := some text
  read _ _ := none
  cast _ d := d

/-- A request in which every field is a text that is set. -/
def everyText (text : String) : HeaderState where
  vars _ := .record fun _ => .plain (.leaf .text text)

/-- The required text is overwritten though it is set, and where it is empty it stays so though the
header is there. -/
theorem greetingOf_overwritten :
    (greetingOf true).run = (greetingOf false).run ∧
    (greetingOf false).run = .lines
      ["if key, ok := headers.Get(\"x-one\"); ok \x7b",
        "\tif in.One != \"\" \x7b",
        "\t\tin.One = key",
        "\t\x7d",
        "\x7d"] ∧
    ∃ code : HeaderCode, (greetingOf false).run = .lines (code.lines.map Line.indented) ∧
      (∃ w, HeaderCode.exec (everyHeader "b") code (everyText "a") =
          .ok ((everyText "a").set .input w) ∧
        ((everyText "a").vars .input).follow ["One"] = .plain (.leaf .text "a") ∧
        w.follow ["One"] = .plain (.leaf .text "b")) ∧
      ∃ w, HeaderCode.exec (everyHeader "b") code nothingSet = .ok (nothingSet.set .input w) ∧
        w.follow ["One"] = .absent := by
  have hnamed : (greetingOf false).GoNamed := by
    rw [GoNamed]
    decide +kernel
  have hrun : (greetingOf false).run = .lines
      ["if key, ok := headers.Get(\"x-one\"); ok \x7b",
        "\tif in.One != \"\" \x7b",
        "\t\tin.One = key",
        "\t\x7d",
        "\x7d"] := by
    decide +kernel
  have hsame : (greetingOf true).run = (greetingOf false).run := by
    decide +kernel
  obtain ⟨code, htext, hleaves⟩ := run_leaves hnamed hrun
  have hentry : ("One", ⟨"x-one", false⟩) ∈ (greetingOf false).mappings.entries := by
    decide +kernel
  have hpath : pathOf ("One", ⟨"x-one", false⟩) = ["One"] := by
    decide +kernel
  have hfollow : followTarget (greetingOf false).schema (greetingOf false).target
      (pathOf ("One", ⟨"x-one", false⟩)) = some ([], ⟨0, "one", true, .text, []⟩) := by
    decide +kernel
  have hvalue : (greetingOf false).valueFor (everyHeader "b") ("One", ⟨"x-one", false⟩) =
      some (.plain (.leaf .text "b")) := by
    rw [valueFor, hfollow]
    rfl
  have hholds : ∀ v : GoValue, ∀ f ∈ (greetingOf false).target,
      HoldsRecords (greetingOf false).schema f.type (v.select (pascal f.name)) :=
    fun _ => List.forall_mem_singleton.mpr (.other rfl)
  -- The same code on two requests: one that holds a text, and one that holds none.
  obtain ⟨w, hexec, hset⟩ := hleaves (everyHeader "b") (everyText "a") ⟨rfl, hholds _⟩
  obtain ⟨w', hexec', hunset⟩ := hleaves (everyHeader "b") nothingSet ⟨rfl, hholds _⟩
  have hset := (hset _ hentry rfl _ _ hfollow).text rfl rfl
  have hunset := (hunset _ hentry rfl _ _ hfollow).text rfl rfl
  rw [hpath] at hset hunset
  refine ⟨hsame, hrun, code, htext ▸ hrun, ⟨w, hexec, rfl, ?_⟩, w', hexec', hunset.empty rfl⟩
  rw [hset.notEmpty rfl, hvalue]
  rfl

end BindingRequest

end RecordBridge

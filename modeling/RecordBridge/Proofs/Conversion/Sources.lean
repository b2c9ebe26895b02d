import RecordBridge.Conversion.Field
import RecordBridge.Proofs.Execution.Frame

/-!
# Where fields take their values from

The sources of a target field are its direct source, a field of the same name, and the source that it
is mapped to. What holds of both holds of those that a conversion chooses.
-/

namespace RecordBridge

/-- A source field of the same name as a target field; the case of ASCII letters does not count. -/
def Field.MatchedBy (target source : Field) : Prop :=
  Text.sameIgnoringCase source.name target.name = true

/-- The direct source of a field is a field of the same name. -/
theorem directSource_some {pos : Position} {f : Field} {source : Source} {base : Place}
    {gs : List Field} (hpos : pos.source = some (base, gs))
    (h : directSource pos f = some source) :
    source.field ∈ gs ∧ f.MatchedBy source.field ∧
      source.place = base.select (pascal source.field.name) := by
  rw [directSource, hpos] at h
  obtain ⟨g, hg, rfl⟩ := Option.map_eq_some_iff.mp h
  have hname := List.find?_some hg
  exact ⟨List.mem_of_find?_eq_some hg, hname, rfl⟩

theorem directSource_none {pos : Position} {f : Field} {base : Place} {gs : List Field}
    (hpos : pos.source = some (base, gs)) (h : directSource pos f = none) :
    ∀ g ∈ gs, ¬f.MatchedBy g := by
  rw [directSource, hpos] at h
  exact List.find?_eq_none.mp (Option.map_eq_none_iff.mp h)

/-- Without mappings a field has no source but the direct one. -/
theorem sourcesOf_of_unmapped {c : Settings} (h : c.mapped = []) (pos : Position) (f : Field)
    (path : String) : sourcesOf c pos f path = (directSource pos f, none) := by
  simp [sourcesOf, Settings.mapping?, h]

theorem Settings.mapsBelow_of_unmapped {c : Settings} (h : c.mapped = []) (path : String) :
    c.mapsBelow path = false := by
  simp [mapsBelow, h]

/-- Only a record has direct sources. -/
theorem exists_source_of_directSource {pos : Position} {f : Field} {source : Source}
    (h : directSource pos f = some source) : ∃ base gs, pos.source = some (base, gs) := by
  cases hpos : pos.source with
  | none =>
    rw [directSource, hpos] at h
    cases h
  | some at_ => exact ⟨at_.1, at_.2, rfl⟩

/-- The chosen sources are those that are there to choose from. -/
theorem arbitrate_forall {P : Source → Prop} {direct mapped : Option Source} {overrides : Bool}
    (hdirect : ∀ x, direct = some x → P x) (hmapped : ∀ x, mapped = some x → P x) :
    (∀ x, (arbitrate direct mapped overrides).1 = some x → P x) ∧
      ∀ x, (arbitrate direct mapped overrides).2 = some x → P x := by
  cases direct <;> cases mapped <;> cases overrides <;> simp_all [arbitrate]

theorem sourcesOf_forall {P : Source → Prop} {c : Settings} {pos : Position} {f : Field}
    {path : String} (hdirect : ∀ x, directSource pos f = some x → P x)
    (hmapped : ∀ m, c.mapping? path = some m → P ⟨m.field, ⟨c.mappedRoot, m.path⟩⟩) :
    (∀ x, (sourcesOf c pos f path).1 = some x → P x) ∧
      ∀ x, (sourcesOf c pos f path).2 = some x → P x := by
  unfold sourcesOf
  split
  · refine ⟨hdirect, ?_⟩
    intro x hx
    cases hx
  · rename_i mapped hmapping
    refine arbitrate_forall hdirect fun x hx => ?_
    cases hx
    exact hmapped mapped hmapping

/-- What a path is mapped to is among the mappings. -/
theorem Settings.mem_of_mapping? {c : Settings} {path : String} {m : MappedField}
    (h : c.mapping? path = some m) : (path, m) ∈ c.mapped := by
  obtain ⟨l₁, l₂, heq, -⟩ := List.lookup_eq_some_iff.mp h
  rw [heq]
  exact List.mem_append_right _ List.mem_cons_self

/-- Mapped sources start at a variable of every conversion. -/
theorem Settings.mappedRoot_spec (c : Settings) :
    c.mappedRoot.isLocal = true ∧ c.mappedRoot.number = 0 := by
  rw [mappedRoot]
  split <;> exact ⟨rfl, rfl⟩

/-- Names lead to a field if the first one finds a field, and this is the last one or holds the record
that the others lead through. -/
theorem followSource_cons {s : Schema} {before : Path} {fields : List Field} {name : String}
    {rest : List String} {found : Path × Field} :
    followSource s before fields (name :: rest) = some found ↔
      ∃ first, findSource? fields name = some first ∧
        (rest = [] ∧ found = (before.select (pascal first.name), first) ∨
          rest ≠ [] ∧ ∃ ref, first.type.record? = some ref ∧
            followSource s (before.select (pascal first.name)) (s.fields ref) rest = some found) := by
  rw [followSource]
  cases findSource? fields name with
  | none => simp
  | some first =>
    cases rest with
    | nil => simp [eq_comm]
    | cons next rest => cases href : first.type.record? <;> simp [href]

/-- What holds where names start, and of each record that they enter from there, holds of what they
lead to. -/
theorem followSource_forall {s : Schema} {P : Path → List Field → Prop} {Q : Path → Field → Prop}
    (hfound : ∀ {before fields f}, P before fields → f ∈ fields →
      Q (before.select (pascal f.name)) f)
    (henter : ∀ {before fields f ref}, P before fields → f ∈ fields → f.type.record? = some ref →
      P (before.select (pascal f.name)) (s.fields ref)) {names : List String} {before : Path}
    {fields : List Field} {found : Path × Field} (hstart : P before fields)
    (h : followSource s before fields names = some found) : Q found.1 found.2 := by
  induction names generalizing before fields with
  | nil => cases h
  | cons name rest ih =>
    obtain ⟨first, hfind, hrest⟩ := followSource_cons.mp h
    have hmem : first ∈ fields := List.mem_of_find?_eq_some hfind
    rcases hrest with ⟨-, rfl⟩ | ⟨-, ref, href, hmore⟩
    · exact hfound hstart hmem
    · exact ih (henter hstart hmem href) hmore

/-- Mappings that can be followed keep their target paths, and lead to source fields. -/
theorem mem_followMappings {s : Schema} {fields : List Field} :
    ∀ {mappings : List (String × Mapping)} {mapped : List (String × MappedField)},
      s.followMappings fields mappings = .ok mapped → ∀ e ∈ mapped,
        ∃ m, (e.1, m) ∈ mappings ∧ s.sourceAt? fields m.source = some (e.2.path, e.2.field)
  | [], _, h, e, he => by
    cases h
    exact absurd he List.not_mem_nil
  | (target, mapping) :: rest, mapped, h, e, he => by
    rw [Schema.followMappings] at h
    split at h
    · cases h
    · rename_i path field hfound
      cases hrest : s.followMappings fields rest with
      | error cause =>
        rw [hrest] at h
        cases h
      | ok others =>
        rw [hrest] at h
        cases h
        -- he | The entry is the first one, just followed, or one of the rest.
        rcases List.mem_cons.mp he with rfl | he
        · exact ⟨mapping, List.mem_cons_self, hfound⟩
        · obtain ⟨m, hm, hsource⟩ := mem_followMappings hrest e he
          exact ⟨m, List.mem_cons_of_mem _ hm, hsource⟩

end RecordBridge

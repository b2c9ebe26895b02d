import Mathlib.Data.List.Forall2
import RecordBridge.Proofs.Header.Filling
import RecordBridge.Proofs.Schema.GoPaths

/-!
# Paths that mappings are keyed by

A walk tells the path of a field in Go names. A mapping of headers is keyed by a path, too, but the names
in it are compared with schema names up to case, and written to as they stand. The two agree on fields of
a single word alone: the Go name of any other field has lost the underscores of its schema name.

- The Go path of a visit leads to the field of the visit exactly if no name on the way holds an
  underscore, and to no field otherwise (`target_of_visit`).
- A path that leads to a field is its path in Go names only if none of these names does
  (`isWord_of_goNames`). So a field with an underscore in its name has no key by which it is filled under
  its Go name (`userOf_unknown`).
-/

namespace RecordBridge

open Text

namespace GoDistinct

variable {group : List Field} {f g : Field}

/-- The Go name of a field finds the field if its name is a single word, and no field otherwise. -/
theorem find?_goName (h : GoDistinct group) (hf : f ∈ group) :
    (group.find? fun g => sameIgnoringCase g.name (pascal f.name)) =
      if f.IsWord then some f else none := by
  cases hfind : group.find? fun g => sameIgnoringCase g.name (pascal f.name) with
  | some g =>
    have hname := List.find?_some hfind
    obtain ⟨rfl, hword⟩ := h.eq_of_goName hf (List.mem_of_find?_eq_some hfind) hname
    rw [if_pos hword]
  | none =>
    rw [if_neg]
    intro hword
    exact List.find?_eq_none.mp hfind f hf ((h.identifiers f hf).sameIgnoringCase_pascal hword)

variable {s : Schema}

/-- The Go name of a field as the last one of a path. -/
theorem target_last (h : GoDistinct group) (hf : f ∈ group) :
    (followTarget s group [pascal f.name]).map Prod.snd = if f.IsWord then some f else none := by
  have hfind := h.find?_goName hf
  rw [followTarget, hfind]
  by_cases hword : f.IsWord
  · rw [if_pos hword]
    rfl
  · rw [if_neg hword]
    rfl

/-- The Go name of a field that leads into a record. -/
theorem target_into (h : GoDistinct group) (hf : f ∈ group) {ref : RecordRef}
    (href : f.type.record? = some ref) {rest : List String} (hrest : rest ≠ []) :
    (followTarget s group (pascal f.name :: rest)).map Prod.snd =
      if f.IsWord then (followTarget s (s.fields ref) rest).map Prod.snd else none := by
  have hfind := h.find?_goName hf
  rw [followTarget, hfind]
  by_cases hword : f.IsWord
  · rw [if_pos hword, if_pos hword]
    dsimp only
    rw [if_neg (by simpa using hrest), href]
    exact Option.map_map ..
  · rw [if_neg hword, if_neg hword]
    rfl

end GoDistinct

section Paths

variable {s : Schema} {fields path group : List Field} {f : Field}

/-! ## From Go paths to fields -/

variable (hgroups : ∀ path group, Entered s fields path group → GoDistinct group)

include hgroups

/-- Go names lead into a group if those of the fields passed are single words, and nowhere otherwise. -/
theorem target_append (h : Entered s fields path group) {rest : List String} (hrest : rest ≠ []) :
    (followTarget s fields (goNamesOf path ++ rest)).map Prod.snd =
      if ∀ f ∈ path, f.IsWord then (followTarget s group rest).map Prod.snd else none := by
  induction h generalizing rest with
  | start =>
    rw [if_pos fun _ hf => absurd hf List.not_mem_nil]
    rfl
  | @into path group f ref h hf href ih =>
    -- The name of the field entered last is looked up as the first one of what is left.
    have hnames : goNamesOf (path ++ [f]) ++ rest = goNamesOf path ++ pascal f.name :: rest := by
      simp [goNamesOf]
    rw [hnames, ih (List.cons_ne_nil _ _), (hgroups _ _ h).target_into hf href hrest]
    simp only [List.forall_mem_append, List.forall_mem_singleton, ite_and]

/-- The Go names of a field and of those on the way lead to the field if they are all single words. -/
theorem target_goNamesOf (h : Entered s fields path group) (hf : f ∈ group) :
    (followTarget s fields (goNamesOf (path ++ [f]))).map Prod.snd =
      if ∀ g ∈ path ++ [f], g.IsWord then some f else none := by
  have hnames : goNamesOf (path ++ [f]) = goNamesOf path ++ [pascal f.name] := by
    simp [goNamesOf]
  rw [hnames, target_append hgroups h (List.cons_ne_nil _ _), (hgroups _ _ h).target_last hf]
  simp only [List.forall_mem_append, List.forall_mem_singleton, ite_and]

/-- **Go paths as keys**: the Go path of a visit leads to the field of the visit exactly if its names and
those on the way are single words. Otherwise it leads to no field at all. -/
theorem target_of_visit {v : Visit} (hv : v ∈ s.visits fields) :
    (followTarget s fields (split '.' v.goKey)).map Prod.snd =
      if ∀ f ∈ v.path ++ [v.field], f.IsWord then some v.field else none := by
  obtain ⟨group, hentered, hfield⟩ := entered_of_mem_visits hv
  rw [split_goKey hgroups hv]
  exact target_goNamesOf hgroups hentered hfield

/-! ## From accepted paths to Go names -/

omit hgroups in
/-- A path that is accepted names, up to case, the fields that it leads through. -/
theorem exists_of_followTarget {names : List String} {refs : List RecordRef}
    (h : followTarget s fields names = some (refs, f)) :
    ∃ path group, Entered s fields path group ∧ f ∈ group ∧
      List.Forall₂ (fun g name => sameIgnoringCase g.name name = true) (path ++ [f]) names := by
  induction names generalizing fields refs with
  | nil => cases h
  | cons name rest ih =>
    obtain ⟨first, hfirst, hrest⟩ := followTarget_cons h
    have hmem := List.mem_of_find?_eq_some hfirst
    have hname := List.find?_some hfirst
    rcases hrest with ⟨rfl, -, rfl⟩ | ⟨ref, more, href, -, -, hmore⟩
    · exact ⟨[], fields, .start, hmem, .cons hname .nil⟩
    · obtain ⟨path, group, hentered, hf, hnames⟩ := ih hmore
      exact ⟨first :: path, group, hentered.cons hmem href, hf, .cons hname hnames⟩

/-- **Accepted paths**: a path that leads to a field names, up to case, the field and those on the way. It
spells their Go names only if these are all single words. -/
theorem isWord_of_goNames {names : List String} {refs : List RecordRef}
    (h : followTarget s fields names = some (refs, f)) :
    ∃ path group, Entered s fields path group ∧ f ∈ group ∧
      List.Forall₂ (fun g name => sameIgnoringCase g.name name = true) (path ++ [f]) names ∧
        (names = goNamesOf (path ++ [f]) → ∀ g ∈ path ++ [f], g.IsWord) := by
  obtain ⟨path, group, hentered, hf, hnames⟩ := exists_of_followTarget h
  refine ⟨path, group, hentered, hf, hnames, ?_⟩
  rintro rfl
  -- Were the path spelled in Go names, each field would be named by its own Go name up to case, and
  -- Go names hold no underscore.
  rw [goNamesOf, List.forall₂_map_right_iff, List.forall₂_same] at hnames
  intro g hg hmem
  exact (identifiers_snoc hgroups hentered hf g hg).underscore_not_mem_pascal
    (underscore_mem_of_sameIgnoringCase (hnames g hg) hmem)

end Paths

namespace BindingRequest

/-- A mapping that is keyed by the Go path of a visit is refused if a name on the way is no single word. -/
theorem bind_goKey (r : BindingRequest)
    (hgroups : ∀ path group, Entered r.schema r.target path group → GoDistinct group) {v : Visit}
    (hv : v ∈ r.schema.visits r.target) (hword : ¬∀ f ∈ v.path ++ [v.field], f.IsWord)
    (m : Mapping) : r.bind r.rule (v.goKey, m) = Draft.fail (.unknownTarget v.goKey) := by
  have htarget := target_of_visit hgroups hv
  rw [if_neg hword, Option.map_eq_none_iff] at htarget
  rw [BindingRequest.bind]
  dsimp only
  rw [htarget]

/-- A request with a field of two words, which is bound to a header under some key. -/
def userOf (key : String) : BindingRequest :=
  { schema := {}
    resolve := fun _ => .ok "structs"
    target := [⟨0, "user_id", false, .text, []⟩]
    mappings := Table.empty.insert key ⟨"x-user", true⟩
    readsLiterals := false }

/-- The field is met under its Go name, which is no key for it; the key that it has is written to as it
stands. -/
theorem userOf_unknown :
    GoDistinct (userOf "UserID").target ∧
    ((userOf "UserID").schema.visits (userOf "UserID").target).map
        (fun v => (v.field.name, v.goKey)) = [("user_id", "UserID")] ∧
    (userOf "UserID").run = .failed (.unknownTarget "UserID") ∧
    (userOf "user_id").run = .lines
      ["if key, ok := headers.Get(\"x-user\"); ok \x7b",
        "\tin.user_id = &key",
        "\x7d"] := by
  refine ⟨⟨by decide +kernel, by decide +kernel⟩, ?_⟩
  decide +kernel

end BindingRequest

end RecordBridge

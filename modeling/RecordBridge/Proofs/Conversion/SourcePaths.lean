import RecordBridge.Proofs.Conversion.Sources
import RecordBridge.Proofs.Schema.GoPaths
import RecordBridge.Proofs.Schema.Within

/-!
# Paths of sources

A mapping names its source by a dotted path, each part of which may be a schema name or a Go name in any
case; of several fields with such a name the first one is taken. Where Go names differ up to case
(`GoDistinct`), no field is hidden by one before it: a schema name that spells the Go name of another
field would have that Go name itself (`GoDistinct.findSource?_goName`).

So the path that a walk tells for a field finds that field, in whatever case it is spelled, and what is
found is told by its path in Go names, from which it is found again (`found_by_goPath`).
-/

namespace RecordBridge

open Text

/-- A field is found by its Go name in any case, wherever it stands in its group. -/
theorem GoDistinct.findSource?_goName {group : List Field} {f : Field} (h : GoDistinct group)
    (hf : f ∈ group) {name : String} (hname : sameIgnoringCase name (pascal f.name) = true) :
    findSource? group name = some f := by
  rw [findSource?]
  cases hfind : group.find? fun g =>
      sameIgnoringCase g.name name || sameIgnoringCase (pascal g.name) name with
  | some g =>
    have hg := List.mem_of_find?_eq_some hfind
    have hname' := List.find?_some hfind
    rcases Bool.or_eq_true_iff.mp hname' with hraw | hgo
    -- The name may be taken for a schema name, but then it is that of the same field.
    · rw [(h.eq_of_goName hf hg (sameIgnoringCase_trans hraw hname)).1]
    · rw [h.eq_of_name hg hf (sameIgnoringCase_trans hgo hname)]
  | none =>
    have hmiss := List.find?_eq_none.mp hfind f hf
    rw [sameIgnoringCase_comm] at hname
    simp [hname] at hmiss

/-- The path to a field in Go names: those of the fields on the way, and its own. -/
def goPathTo (path : List Field) (f : Field) : Path :=
  (goNamesOf (path ++ [f])).map .field

theorem goPathTo_cons (g : Field) (path : List Field) (f : Field) :
    goPathTo (g :: path) f = .field (pascal g.name) :: goPathTo path f :=
  rfl

/-- Names that spell the Go names of fields up to case. -/
def SpellsGoNames (path : List Field) (names : List String) : Prop :=
  List.Forall₂ (fun g name => sameIgnoringCase name (pascal g.name) = true) path names

section Paths

variable {s : Schema} {fields path group : List Field} {f : Field} {before found : Path}
  {names : List String}

variable (hgroups : ∀ path group, Entered s fields path group → GoDistinct group)

include hgroups

/-- The groups that are entered by a field. -/
theorem Entered.distinct_beneath {g : Field} {ref : RecordRef} (hg : g ∈ fields)
    (href : g.type.record? = some ref) :
    ∀ path group, Entered s (s.fields ref) path group → GoDistinct group :=
  fun path group h => hgroups (g :: path) group (h.cons hg href)

/-- The Go name of a field is one step of a path. -/
theorem Entered.select_pascal (before : Path) (hf : f ∈ fields) :
    before.select (pascal f.name) = before ++ [.field (pascal f.name)] :=
  (((hgroups _ _ .start).identifiers f hf).pascal).select before

/-- The names of a field and of those on the way lead to it, if they are Go names up to case. -/
theorem followSource_spelled (h : Entered s fields path group) (hf : f ∈ group)
    (hnames : SpellsGoNames (path ++ [f]) names) :
    followSource s before fields names = some (before ++ goPathTo path f, f) := by
  induction path generalizing fields before names with
  | nil =>
    obtain rfl := h.eq_start
    cases hnames with
    | cons hname hrest =>
      cases hrest
      refine followSource_cons.mpr
        ⟨f, (hgroups _ _ .start).findSource?_goName hf hname, .inl ⟨rfl, ?_⟩⟩
      rw [Entered.select_pascal hgroups before hf]
      rfl
  | cons g path ih =>
    -- A name for the field itself is left, so the first name leads into a record.
    obtain ⟨hg, ref, href, hpath⟩ := h.uncons
    cases hnames with
    | @cons _ name _ rest hname hrest =>
      have hmore : rest ≠ [] := by
        rintro rfl
        exact absurd (List.forall₂_nil_right_iff.mp hrest) (by simp)
      refine followSource_cons.mpr
        ⟨g, (hgroups _ _ .start).findSource?_goName hg hname, .inr ⟨hmore, ref, href, ?_⟩⟩
      rw [ih (Entered.distinct_beneath hgroups hg href) hpath hrest,
        Entered.select_pascal hgroups before hg, goPathTo_cons, List.append_assoc,
        List.singleton_append]

/-- What names lead to is a field in a group that is entered, and it is told by its path in Go names. -/
theorem exists_of_followSource (h : followSource s before fields names = some (found, f)) :
    ∃ path group, Entered s fields path group ∧ f ∈ group ∧ found = before ++ goPathTo path f := by
  induction names generalizing fields before with
  | nil => cases h
  | cons name rest ih =>
    obtain ⟨g, hfind, hrest⟩ := followSource_cons.mp h
    have hg : g ∈ fields := List.mem_of_find?_eq_some hfind
    rw [Entered.select_pascal hgroups before hg] at hrest
    rcases hrest with ⟨-, heq⟩ | ⟨-, ref, href, hmore⟩
    · cases heq
      exact ⟨[], fields, .start, hg, rfl⟩
    · obtain ⟨path, group, hpath, hf, rfl⟩ := ih (Entered.distinct_beneath hgroups hg href) hmore
      refine ⟨g :: path, group, hpath.cons hg href, hf, ?_⟩
      rw [goPathTo_cons, List.append_assoc, List.singleton_append]

/-- The path of a field in Go names finds the field, and tells the same path. -/
theorem sourceAt?_spelled (h : Entered s fields path group) (hf : f ∈ group) {key : String}
    (hkey : sameIgnoringCase key (goPathTo path f).bare = true) :
    s.sourceAt? fields key = some (goPathTo path f, f) := by
  have hne : path ++ [f] ≠ [] := List.append_ne_nil_of_right_ne_nil _ (List.cons_ne_nil _ _)
  have hbare : (goPathTo path f).bare = String.intercalate "." (goNamesOf (path ++ [f])) :=
    Path.bare_fields (by simp [goNamesOf])
  have hpieces := split_sameIgnoringCase hkey
  rw [hbare, split_goNamesOf hne (identifiers_snoc hgroups h hf), goNamesOf,
    List.forall₂_map_right_iff] at hpieces
  exact followSource_spelled hgroups h hf hpieces.flip

/-- **Go paths are found again.** The path that a walk tells for a field, spelled in any case, finds that
very field and gives back the path; and from the path that any lookup gives, the same path and the same
field are found. -/
theorem found_by_goPath :
    (∀ v ∈ s.visits fields, ∀ key, sameIgnoringCase key v.goKey = true →
      ∃ path, s.sourceAt? fields key = some (path, v.field) ∧ path.bare = v.goKey) ∧
    ∀ key path f, s.sourceAt? fields key = some (path, f) →
      s.sourceAt? fields path.bare = some (path, f) := by
  constructor
  · intro v hv key hkey
    obtain ⟨group, hentered, hfield⟩ := entered_of_mem_visits hv
    have hbare : (goPathTo v.path v.field).bare = v.goKey :=
      Path.bare_fields (by simp [goNamesOf])
    exact ⟨goPathTo v.path v.field, sourceAt?_spelled hgroups hentered hfield (hbare ▸ hkey), hbare⟩
  · intro key path f h
    obtain ⟨fieldsPassed, group, hentered, hf, rfl⟩ := exists_of_followSource hgroups h
    exact sourceAt?_spelled hgroups hentered hf (beq_self_eq_true _)

end Paths

/-- Every group that is entered is the first one or that of a record. -/
theorem Entered.distinct_of_records {s : Schema} {fields : List Field} (hfields : GoDistinct fields)
    (hrecords : ∀ entry ∈ s.records, GoDistinct entry.2) :
    ∀ path group, Entered s fields path group → GoDistinct group := by
  intro path group h
  cases h with
  | start => exact hfields
  | into =>
    exact s.fields_of_records ⟨fun _ hf => absurd hf List.not_mem_nil, .nil⟩ hrecords _

namespace Link

/-- Whom a link belongs to. -/
def userId : Field :=
  ⟨0, "user_id", true, .text, []⟩

/-- The link after it. -/
def nextLink : Field :=
  ⟨1, "next_link", false, .record ⟨0, "Link", "links"⟩, []⟩

/-- Links that are chained. -/
def schema : Schema :=
  ⟨[(0, [userId, nextLink])]⟩

/-- The user of the next link is found by its Go path in small letters, though the record is entered
within itself. -/
theorem found_in_small_letters :
    (∀ path group, Entered schema [userId, nextLink] path group → GoDistinct group) ∧
      ∃ path, schema.sourceAt? [userId, nextLink] "nextlink.userid" = some (path, userId) ∧
        path.bare = "NextLink.UserID" := by
  have hlink : GoDistinct [userId, nextLink] := ⟨by decide +kernel, by decide +kernel⟩
  have hgroups := Entered.distinct_of_records (s := schema) hlink (by simpa [schema] using hlink)
  refine ⟨hgroups, ?_⟩
  exact (found_by_goPath hgroups).1 ⟨[nextLink], userId⟩ (by decide +kernel) "nextlink.userid"
    (by decide +kernel)

end Link

end RecordBridge

import Mathlib.Data.List.Induction
import Mathlib.Data.List.Pairwise
import RecordBridge.Proofs.Naming
import RecordBridge.Schema.Walk

/-!
# Go paths

The Go names of nested fields, joined by dots, are the path by which a walk tells a field. Where names are
identifiers that differ in each group (`GoDistinct`), such a path is cut into its names again
(`split_goKey`), and each name tells its field in the group that the names before it lead into
(`Entered`).
-/

namespace RecordBridge

open Text

/-! ## Groups that are entered -/

/-- The fields passed on the way from a group of fields into the record of another group. -/
inductive Entered (s : Schema) (fields : List Field) : (path group : List Field) → Prop where
  | start : Entered s fields [] fields
  | into {path group : List Field} {f : Field} {ref : RecordRef} (h : Entered s fields path group)
    (hf : f ∈ group) (href : f.type.record? = some ref) :
    Entered s fields (path ++ [f]) (s.fields ref)

/-- The Go names of fields. -/
def goNamesOf (path : List Field) : List String :=
  path.map fun f => pascal f.name

namespace Entered

variable {s : Schema} {fields path group group' : List Field} {f : Field}

theorem last (h : Entered s fields (path ++ [f]) group') :
    ∃ group ref, Entered s fields path group ∧ f ∈ group ∧ f.type.record? = some ref ∧
      group' = s.fields ref := by
  generalize hpath : path ++ [f] = whole at h
  cases h with
  | start => exact absurd hpath (List.append_ne_nil_of_right_ne_nil _ (List.cons_ne_nil _ _))
  | into h hf href =>
    obtain ⟨rfl, heq⟩ := List.append_inj' hpath rfl
    cases heq
    exact ⟨_, _, h, hf, href, rfl⟩

theorem left {more : List Field} (h : Entered s fields (path ++ more) group') :
    ∃ group, Entered s fields path group := by
  induction more using List.reverseRecOn generalizing group' with
  | nil => exact ⟨group', by rwa [List.append_nil] at h⟩
  | append_singleton more f ih =>
    rw [← List.append_assoc] at h
    obtain ⟨group, _, hmore, -⟩ := h.last
    exact ih hmore

end Entered

section

variable {s : Schema} {fields path group : List Field} {f : Field}

/-- A field before those that are entered from its record. -/
theorem Entered.cons {ref : RecordRef} (hf : f ∈ fields) (href : f.type.record? = some ref)
    (h : Entered s (s.fields ref) path group) : Entered s fields (f :: path) group := by
  induction h with
  | start => exact .into .start hf href
  | into _ hg hrecord ih => exact .into ih hg hrecord

/-- Without a field passed, it is the group itself that is entered. -/
theorem Entered.eq_start (h : Entered s fields [] group) : group = fields := by
  generalize hpath : [] = path at h
  cases h with
  | start => rfl
  | into => exact absurd hpath.symm (List.append_ne_nil_of_right_ne_nil _ (List.cons_ne_nil _ _))

/-- The first field that is passed, and the fields that it leads to. -/
theorem Entered.uncons {g : Field} (h : Entered s fields (g :: path) group) :
    g ∈ fields ∧ ∃ ref, g.type.record? = some ref ∧ Entered s (s.fields ref) path group := by
  generalize hpath : g :: path = whole at h
  induction h generalizing path with
  | start => cases hpath
  | @into before group f ref h hf href ih =>
    cases before with
    | nil =>
      cases hpath
      obtain rfl := h.eq_start
      exact ⟨hf, ref, href, .start⟩
    | cons first before =>
      obtain ⟨rfl, rfl⟩ := List.cons.inj hpath
      obtain ⟨hfirst, inner, hinner, hbefore⟩ := ih rfl
      exact ⟨hfirst, inner, hinner, hbefore.into hf href⟩

/-- A visit is of a field in a group that its path enters. -/
theorem entered_of_mem_visitsBelow {depth : Nat} {here : List Field} {v : Visit}
    (h : Entered s fields path group) (hhere : ∀ f ∈ here, f ∈ group)
    (hv : v ∈ s.visitsBelow depth path here) :
    ∃ group, Entered s fields v.path group ∧ v.field ∈ group := by
  induction depth generalizing path group here with
  | zero => exact absurd hv List.not_mem_nil
  | succ depth ih =>
    rw [Schema.visitsBelow] at hv
    obtain ⟨f, hf, hv⟩ := List.mem_flatMap.mp hv
    split at hv
    · exact absurd hv List.not_mem_nil
    · rcases List.mem_cons.mp hv with rfl | hv
      · exact ⟨group, h, hhere f hf⟩
      · split at hv
        · rename_i ref href
          exact ih (h.into (hhere f hf) href) (fun _ hg => hg) hv
        · exact absurd hv List.not_mem_nil

theorem entered_of_mem_visits {v : Visit} (hv : v ∈ s.visits fields) :
    ∃ group, Entered s fields v.path group ∧ v.field ∈ group :=
  entered_of_mem_visitsBelow .start (fun _ hf => hf) hv

end

/-! ## Names that differ -/

/-- The name of a field is a single word: it holds no underscore. -/
def Field.IsWord (f : Field) : Prop :=
  '_' ∉ f.name.toList

instance (f : Field) : Decidable f.IsWord :=
  inferInstanceAs (Decidable (_ ∉ _))

/-- The names of fields are identifiers, and their Go names differ even if the case of ASCII letters does
not count. -/
structure GoDistinct (fields : List Field) : Prop where
  identifiers : ∀ f ∈ fields, IsIdentifier f.name
  distinct : fields.Pairwise fun f g => sameIgnoringCase (pascal f.name) (pascal g.name) = false

namespace GoDistinct

variable {group : List Field} {f g : Field}

/-- Fields whose Go names agree up to case are the same. -/
theorem eq_of_name (h : GoDistinct group) (hf : f ∈ group) (hg : g ∈ group)
    (hname : sameIgnoringCase (pascal f.name) (pascal g.name) = true) : f = g := by
  have : Std.Symm fun f g : Field => sameIgnoringCase (pascal f.name) (pascal g.name) = false :=
    ⟨fun _ _ hfg => sameIgnoringCase_comm.trans hfg⟩
  by_contra hne
  rw [h.distinct.forall hf hg hne] at hname
  cases hname

/-- A field whose schema name is the Go name of another one, up to case, is that one, and its name is a
single word. -/
theorem eq_of_goName (h : GoDistinct group) (hf : f ∈ group) (hg : g ∈ group)
    (hname : sameIgnoringCase g.name (pascal f.name) = true) : g = f ∧ f.IsWord := by
  have hfree := (h.identifiers f hf).underscore_not_mem_pascal
  have hword : g.IsWord := fun hmem => hfree (underscore_mem_of_sameIgnoringCase hname hmem)
  have hpascal := (h.identifiers g hg).sameIgnoringCase_pascal hword
  rw [sameIgnoringCase_comm] at hpascal
  obtain rfl := h.eq_of_name hg hf (sameIgnoringCase_trans hpascal hname)
  exact ⟨rfl, hword⟩

end GoDistinct

/-! ## Paths and their names -/

/-- The path of a visit as the key of a mapping: its Go names with a dot between them. -/
def Visit.goKey (v : Visit) : String :=
  String.intercalate "." v.goNames

/-- Texts with a dot before each, from the texts joined by dots. -/
theorem dot_intercalate {names : List String} (h : names ≠ []) :
    "." ++ String.intercalate "." names = String.join (names.map ("." ++ ·)) := by
  induction names with
  | nil => exact absurd rfl h
  | cons name rest ih =>
    cases rest with
    | nil => simp
    | cons next rest =>
      rw [String.intercalate_cons_cons, List.map_cons, String.join_cons,
        ← ih (List.cons_ne_nil _ _), String.append_assoc, String.append_assoc]

/-- The key of a visit is what the walk tells: the path above in Go names and that of the field, without
the dot before it. -/
theorem Visit.dot_goKey (v : Visit) : "." ++ v.goKey = v.goPath ++ "." ++ pascal v.field.name := by
  rw [goKey, dot_intercalate (by simp [goNames]), goNames, goPath]
  simp [Function.comp_def, String.join_append, String.append_assoc]

theorem Path.text_fields {names : List String} (h : names ≠ []) :
    Path.text (names.map .field) = "." ++ String.intercalate "." names := by
  rw [dot_intercalate h, text, List.map_map]
  rfl

/-- Selectors are spelled by their names with a dot between them. -/
theorem Path.bare_fields {names : List String} (h : names ≠ []) :
    Path.bare (names.map .field) = String.intercalate "." names := by
  rw [bare, text_fields h, String.toList_append]
  exact String.ofList_toList

/-- A name is selected by the pieces between its dots, which are spelled as it is. -/
theorem Path.text_select (p : Path) (name : String) :
    (p.select name).text = p.text ++ ("." ++ name) := by
  have hpieces : split '.' name ≠ [] := by
    simpa [split] using splitWhere_ne_nil _ _
  have hjoined : String.intercalate "." (split '.' name) = name := by
    refine String.toList_injective ?_
    rw [split, String.toList_intercalate, List.map_map]
    have hjoin : ['.'].intercalate (splitWhere (· == '.') name.toList) = name.toList :=
      intercalate_splitWhere name.toList
    simpa using hjoin
  rw [select, text_append, text_fields hpieces, hjoined]

/-- The Go names of identifiers, joined by dots, are cut into these again. -/
theorem split_goNamesOf {path : List Field} (hpath : path ≠ [])
    (h : ∀ g ∈ path, IsIdentifier g.name) :
    split '.' (String.intercalate "." (goNamesOf path)) = goNamesOf path := by
  have hdots : ∀ g ∈ path, '.' ∉ (pascal g.name).toList := fun g hg hdot =>
    absurd ((h g hg).pascal _ hdot) (by decide)
  have hnames : ∀ name ∈ (goNamesOf path).map String.toList, '.' ∉ name :=
    List.forall_mem_map.mpr (List.forall_mem_map.mpr hdots)
  have hjoined : (String.intercalate "." (goNamesOf path)).toList =
      List.intercalate ['.'] ((goNamesOf path).map String.toList) :=
    String.toList_intercalate
  rw [split, hjoined, splitWhere_intercalate (by simpa [goNamesOf] using hpath) hnames]
  simp

section Names

variable {s : Schema} {fields path group : List Field} {f : Field}
  (hgroups : ∀ path group, Entered s fields path group → GoDistinct group)

include hgroups

/-- The fields on the way into a group have identifiers for names. -/
theorem identifiers_of_entered (h : Entered s fields path group) :
    ∀ g ∈ path, IsIdentifier g.name := by
  induction h with
  | start => exact fun _ hg => absurd hg List.not_mem_nil
  | into h hf _ ih =>
    exact List.forall_mem_append.mpr
      ⟨ih, List.forall_mem_singleton.mpr ((hgroups _ _ h).identifiers _ hf)⟩

theorem identifiers_snoc (h : Entered s fields path group) (hf : f ∈ group) :
    ∀ g ∈ path ++ [f], IsIdentifier g.name :=
  List.forall_mem_append.mpr ⟨identifiers_of_entered hgroups h,
    List.forall_mem_singleton.mpr ((hgroups _ _ h).identifiers f hf)⟩

/-- The key of a visit is cut into its Go names. -/
theorem split_goKey {v : Visit} (hv : v ∈ s.visits fields) : split '.' v.goKey = v.goNames := by
  obtain ⟨group, hentered, hfield⟩ := entered_of_mem_visits hv
  exact split_goNamesOf (List.append_ne_nil_of_right_ne_nil _ (List.cons_ne_nil _ _))
    (identifiers_snoc hgroups hentered hfield)

end Names

end RecordBridge

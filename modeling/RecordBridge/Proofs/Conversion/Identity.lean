import RecordBridge.Proofs.Conversion.Unfailing

/-!
# Conversions of records into themselves

A group of fields is converted into itself without mappings, whatever types its fields have
(`ConversionRequest.identity_converts`). Three things are asked of it and of every group that occurs
beneath it: siblings are told apart by their names even if case does not count, names hold no line feed,
and the keys of maps are text. As records may occur within themselves, the groups that occur are told by
an inductive predicate, and the records that are converted into themselves by the relation that it gives.
-/

namespace RecordBridge

/-! ## What is asked of a group -/

namespace FieldType

/-- No name in a type holds a line feed, and the keys of its maps are text. -/
def IsPlain : FieldType → Prop
  | .enum name _ => IsSingle name
  | .alias name _ target => IsSingle name ∧ target.IsPlain
  | .record ref => IsSingle ref.name
  | .list element | .set element _ => element.IsPlain
  | .map key value => key.isText = true ∧ key.IsPlain ∧ value.IsPlain
  | .bool | .int8 | .int16 | .int32 | .int64 | .double | .text | .binary => True

/-- Whether a type is plain can be told. -/
def decidableIsPlain : (t : FieldType) → Decidable t.IsPlain
  | .enum name _ => inferInstanceAs (Decidable (IsSingle name))
  | .alias name _ target =>
    have := decidableIsPlain target
    inferInstanceAs (Decidable (IsSingle name ∧ target.IsPlain))
  | .record ref => inferInstanceAs (Decidable (IsSingle ref.name))
  | .list element | .set element _ => decidableIsPlain element
  | .map key value =>
    have := decidableIsPlain key
    have := decidableIsPlain value
    inferInstanceAs (Decidable (key.isText = true ∧ key.IsPlain ∧ value.IsPlain))
  | .bool | .int8 | .int16 | .int32 | .int64 | .double | .text | .binary =>
    inferInstanceAs (Decidable True)

instance : DecidablePred IsPlain :=
  decidableIsPlain

variable {t u : FieldType} {resolve : Resolver} {known : RecordRef → Prop}
  (hresolve : ∀ file, ∃ package, resolve file = .ok package ∧ IsSingle package)

theorem IsPlain.isSingle_name (h : t.IsPlain) {ref : RecordRef} (href : ref ∈ t.mentions) :
    IsSingle ref.name := by
  induction t with
  | record target => exact List.mem_singleton.mp href ▸ h
  | «alias» _ _ _ ih => exact ih h.2 href
  | list _ ih | set _ _ ih => exact ih h href
  | map key value ihkey ihvalue =>
    rcases List.mem_append.mp href with href | href
    · exact ihkey h.2.1 href
    · exact ihvalue h.2.2 href
  | _ => exact absurd href List.not_mem_nil

include hresolve in
/-- A resolver that never fails resolves all plain types whose records are known. -/
theorem IsPlain.resolved (h : t.IsPlain) (hknown : ∀ ref ∈ t.mentions, known ref) :
    t.Resolved resolve known := by
  induction t with
  | enum name file => exact ⟨h, hresolve file⟩
  | «alias» name file target ih => exact ⟨⟨h.1, hresolve file⟩, ih h.2 hknown⟩
  | record ref => exact ⟨⟨h, hresolve ref.file⟩, hknown ref (List.mem_singleton_self ref)⟩
  | list _ ih | set _ _ ih => exact ih h hknown
  | map key value ihkey ihvalue =>
    obtain ⟨hkey, hvalue⟩ := List.forall_mem_append.mp hknown
    exact ⟨ihkey h.2.1 hkey, ihvalue h.2.2 hvalue⟩
  | _ => trivial

/-- A plain type can be converted to itself if the records in it can be. Aliases on the source do not
matter, so that those on the target can be taken off one by one. -/
theorem IsPlain.convertible {R : (target source : RecordRef) → Prop} (h : t.IsPlain)
    (hrefl : ∀ ref ∈ t.mentions, R ref ref) (hroot : u.root = t.root) : t.Convertible R u := by
  induction t generalizing u with
  | «alias» _ _ _ ih => exact ih h.2 hrefl hroot
  | record ref => exact ⟨ref, hroot, hrefl ref (List.mem_singleton_self ref)⟩
  | list element ih => exact ⟨element, hroot, ih h hrefl rfl⟩
  | set element form ih =>
    refine ⟨element, form, hroot, ?_⟩
    -- The elements of a keyed set are copied, and they are hashable because the set is keyed.
    split
    · rename_i hkeyed
      rw [Bool.or_self, isKeyed, Bool.and_eq_true_iff] at hkeyed
      exact hkeyed.2
    · exact ih h hrefl rfl
  | map key value _ ih =>
    exact ⟨h.1, key, value, hroot, ih h.2.2 (List.forall_mem_append.mp hrefl).2 rfl⟩
  | _ => trivial

end FieldType

/-- The names of siblings differ even if the case of ASCII letters does not count, and no name holds a
line feed. The keys of maps are text. -/
structure IsPlainGroup (fields : List Field) : Prop where
  distinct : fields.Pairwise fun f g => Text.sameIgnoringCase f.name g.name = false
  names : ∀ f ∈ fields, IsSingle f.name
  types : ∀ f ∈ fields, f.type.IsPlain

/-- A field is the first one of its own name if siblings are told apart. -/
theorem find?_sameIgnoringCase_of_mem {f : Field} : ∀ {fields : List Field},
    (fields.Pairwise fun g h => Text.sameIgnoringCase g.name h.name = false) → f ∈ fields →
      (fields.find? fun g => Text.sameIgnoringCase g.name f.name) = some f
  | g :: fields, hdistinct, hf => by
    obtain ⟨hfirst, hrest⟩ := List.pairwise_cons.mp hdistinct
    rcases List.mem_cons.mp hf with rfl | hf
    · exact List.find?_cons_of_pos (beq_self_eq_true _)
    · rw [List.find?_cons_of_neg (by simp [hfirst f hf])]
      exact find?_sameIgnoringCase_of_mem hrest hf

namespace ConversionRequest

variable {s : Schema} {resolve : Resolver} {fields : List Field}

/-- The conversion of some fields into themselves, without mappings. -/
def identity (s : Schema) (resolve : Resolver) (fields : List Field) (optional : List String) :
    ConversionRequest :=
  { schema := s, resolve, source := fields, target := fields, mappings := .empty, optional }

/-- A record that occurs is converted into itself, and into no other one. -/
def IntoItself (s : Schema) (start : List Field) (target source : RecordRef) : Prop :=
  target = source ∧ s.MentionedBelow start target

section Groups

variable (hresolve : ∀ file, ∃ package, resolve file = .ok package ∧ IsSingle package)
  (hgroups : ∀ group, s.Occurs fields group → IsPlainGroup group) {group : List Field}

include hresolve hgroups

/-- What a group that occurs mentions occurs as well. -/
theorem resolved_of_occurs (hgroup : s.Occurs fields group) {f : Field} (hf : f ∈ group) :
    f.Resolved resolve (s.MentionedBelow fields) :=
  ⟨(hgroups group hgroup).names f hf, ((hgroups group hgroup).types f hf).resolved hresolve
    fun _ href => ⟨group, hgroup, f, hf, href⟩⟩

/-- In a group that occurs each field can be filled from itself. -/
theorem filledFrom_of_occurs (hgroup : s.Occurs fields group) {f : Field} (hf : f ∈ group) :
    f.FilledFrom resolve (s.MentionedBelow fields) (IntoItself s fields) group where
  type := (resolved_of_occurs hresolve hgroups hgroup hf).type
  source := by
    have hplain := hgroups group hgroup
    rw [find?_sameIgnoringCase_of_mem hplain.distinct hf]
    exact (hplain.types f hf).convertible (fun _ href => ⟨rfl, group, hgroup, f, hf, href⟩) rfl

/-- **A group of fields can be converted into itself**: if every group that occurs beneath it is plain
and all packages are known, the conversion without mappings gives lines. It fails for no field and at no
depth. -/
theorem identity_converts (optional : List String) :
    ∃ text, (identity s resolve fields optional).run = .lines text := by
  have hresolved : (identity s resolve fields optional).Resolved (s.MentionedBelow fields) :=
    { schema := fun _ href _ hf => resolved_of_occurs hresolve hgroups href.occurs hf
      source := fun _ hf => resolved_of_occurs hresolve hgroups .start hf
      target := fun _ hf => resolved_of_occurs hresolve hgroups .start hf }
  refine exists_lines_of_filledFrom (R := IntoItself s fields) hresolved rfl ⟨?_, ?_⟩
    fun f hf => filledFrom_of_occurs hresolve hgroups .start hf
  · rintro ref _ ⟨rfl, group, hgroup, f, hf, href⟩
    have hname := ((hgroups group hgroup).types f hf).isSingle_name href
    exact ⟨⟨hname, hresolve _⟩, hname, hresolve _⟩
  · rintro ref _ ⟨rfl, hbelow⟩ f hf
    exact filledFrom_of_occurs hresolve hgroups hbelow.occurs hf

end Groups

/-- The fields of a record that holds itself as such, in a list, in a set, and in a map. -/
def nodeFields : List Field :=
  let node : FieldType := .record ⟨0, "Node", "nodes.thrift"⟩
  [⟨0, "name", true, .text, []⟩, ⟨1, "level", true, .int8, []⟩, ⟨2, "next", false, node, []⟩,
    ⟨3, "children", true, .alias "Nodes" "nodes.thrift" (.list node), []⟩,
    ⟨4, "friends", false, .set node .keyed, []⟩, ⟨5, "tags", true, .set .text .keyed, []⟩,
    ⟨6, "index", false, .map (.alias "Key" "nodes.thrift" .text) (.list node), []⟩,
    ⟨7, "color", false, .enum "Color" "nodes.thrift", []⟩]

theorem nodeFields_convert :
    (∀ file, ∃ package, (fun _ => .ok "structs" : Resolver) file = .ok package ∧ IsSingle package) ∧
      (∀ group, Schema.Occurs ⟨[(0, nodeFields)]⟩ nodeFields group → IsPlainGroup group) ∧
        ∃ text, (identity ⟨[(0, nodeFields)]⟩ (fun _ => .ok "structs") nodeFields []).run =
          .lines text := by
  have hresolve : ∀ file : String, ∃ package,
      (fun _ => .ok "structs" : Resolver) file = .ok package ∧ IsSingle package :=
    fun _ => ⟨"structs", rfl, by decide⟩
  have hmentioned : ∀ f ∈ nodeFields, ∀ ref ∈ f.type.mentions, ref.id = 0 := by decide
  have honly : ∀ group, Schema.Occurs ⟨[(0, nodeFields)]⟩ nodeFields group → group = nodeFields := by
    intro group hgroup
    induction hgroup with
    | start => rfl
    | beneath _ hf href ih =>
      subst ih
      rw [Schema.fields, hmentioned _ hf _ href]
      rfl
  have hplain : IsPlainGroup nodeFields := ⟨by decide, by decide, by decide⟩
  have hgroups : ∀ group, Schema.Occurs ⟨[(0, nodeFields)]⟩ nodeFields group → IsPlainGroup group :=
    fun group hgroup => honly group hgroup ▸ hplain
  exact ⟨hresolve, hgroups, identity_converts hresolve hgroups []⟩

end ConversionRequest

end RecordBridge

import RecordBridge.Proofs.Schema.Reach

/-!
# Types within a set of records

A type lies within a set of records if the set holds all records that the type mentions. Nothing
that a conversion takes from a type leads out of such a set: the type behind aliases, elements,
keys and values, and the fields of a record where the set is closed. The groups of fields that occur
beneath some fields at any depth are told by an inductive predicate.
-/

namespace RecordBridge

namespace FieldType

/-- The set holds all records that the type mentions. -/
def Within (known : List Nat) (t : FieldType) : Prop :=
  ∀ ref ∈ t.mentions, ref.id ∈ known

theorem mentions_root (t : FieldType) : t.root.mentions = t.mentions := by
  induction t with
  | «alias» _ _ _ ih => exact ih
  | _ => rfl

/-- The type behind aliases mentions nothing else. -/
theorem Within.of_root {known : List Nat} {t u : FieldType} (h : t.Within known)
    (hroot : t.root = u) : u.Within known := by
  intro ref href
  exact h ref (by rwa [← mentions_root, hroot])

/-- The record behind a type is mentioned by it. -/
theorem record?_mem_mentions {t : FieldType} {ref : RecordRef} (h : t.record? = some ref) :
    ref ∈ t.mentions := by
  rw [record?] at h
  rw [← mentions_root]
  split at h
  · rename_i heq
    cases h
    rw [heq]
    exact List.mem_singleton_self _
  · cases h

end FieldType

namespace Schema

theorem mem_mentioned {fields : List Field} {ref : RecordRef} :
    ref ∈ mentioned fields ↔ ∃ f ∈ fields, ref ∈ f.type.mentions :=
  List.mem_flatMap

/-- The fields of a record are listed in the schema, unless there are none. -/
theorem fields_eq_nil_or (s : Schema) (ref : RecordRef) :
    s.fields ref = [] ∨ ∃ entry ∈ s.records, s.fields ref = entry.2 := by
  rw [fields]
  cases hlookup : s.records.lookup ref.id with
  | none => exact .inl rfl
  | some fields =>
    obtain ⟨l₁, l₂, heq, -⟩ := List.lookup_eq_some_iff.mp hlookup
    exact .inr ⟨(ref.id, fields), by simp [heq], rfl⟩

/-- What holds of the fields that the schema lists for records holds of those of each record. -/
theorem fields_of_records {P : List Field → Prop} {s : Schema} (hnil : P [])
    (hrecords : ∀ entry ∈ s.records, P entry.2) (ref : RecordRef) : P (s.fields ref) := by
  rcases s.fields_eq_nil_or ref with heq | ⟨entry, hentry, heq⟩
  · rw [heq]
    exact hnil
  · rw [heq]
    exact hrecords entry hentry

/-- The fields of a record mention what the record mentions. -/
theorem mentions_of_mem_fields {s : Schema} {a b : RecordRef} {f : Field} (hf : f ∈ s.fields a)
    (hb : b ∈ f.type.mentions) : s.Mentions a.id b.id :=
  List.mem_map_of_mem (mem_mentioned.mpr ⟨f, hf, hb⟩)

/-- The set holds all records that the fields mention. -/
def Within (known : List Nat) (fields : List Field) : Prop :=
  ∀ f ∈ fields, f.type.Within known

theorem within_fields {s : Schema} {known : List Nat}
    (hclosed : ∀ a ∈ known, ∀ b, s.Mentions a b → b ∈ known) {ref : RecordRef}
    (href : ref.id ∈ known) : Within known (s.fields ref) :=
  fun _ hf _ hb => hclosed _ href _ (mentions_of_mem_fields hf hb)

/-- The reachable records are closed under mentions. -/
theorem within_reachable (s : Schema) (fields : List Field) :
    Within (s.reachable ((mentioned fields).map (·.id))) fields :=
  fun f hf _ hb => (s.reachable_closed _).1 _ (List.mem_map_of_mem (mem_mentioned.mpr ⟨f, hf, hb⟩))

/-! ## What occurs in a group -/

/-- The groups of fields at any depth beneath some fields: these themselves, and the fields of each
record that is mentioned in a group. -/
inductive Occurs (s : Schema) (start : List Field) : List Field → Prop
  | start : s.Occurs start start
  | beneath {fields : List Field} {f : Field} {ref : RecordRef} (h : s.Occurs start fields)
    (hf : f ∈ fields) (href : ref ∈ f.type.mentions) : s.Occurs start (s.fields ref)

/-- The records that are mentioned at any depth beneath some fields. -/
def MentionedBelow (s : Schema) (start : List Field) (ref : RecordRef) : Prop :=
  ∃ fields, s.Occurs start fields ∧ ∃ f ∈ fields, ref ∈ f.type.mentions

/-- The fields of a record that is mentioned are a group that occurs. -/
theorem MentionedBelow.occurs {s : Schema} {start : List Field} {ref : RecordRef} :
    s.MentionedBelow start ref → s.Occurs start (s.fields ref)
  | ⟨_, hoccurs, _, hf, href⟩ => .beneath hoccurs hf href

/-- What holds of the first fields and of those that the schema lists for records holds of all groups that
occur. -/
theorem Occurs.of_records {P : List Field → Prop} {s : Schema} {start fields : List Field}
    (h : s.Occurs start fields) (hstart : P start) (hnil : P [])
    (hrecords : ∀ entry ∈ s.records, P entry.2) : P fields := by
  cases h with
  | start => exact hstart
  | beneath => exact fields_of_records hnil hrecords _

end Schema

end RecordBridge

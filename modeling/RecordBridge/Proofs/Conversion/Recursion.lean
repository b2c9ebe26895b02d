import RecordBridge.Proofs.Conversion.Nesting
import RecordBridge.Proofs.Schema.Cycles

/-!
# When records can be converted in place

A conversion uses local functions if its source or its target leads to a cycle. Then there is no end to
writing records out in place (`Schema.inlinesWithin`), and otherwise there is one: each record that is
written out reaches fewer records than the fields that it stands in (`inlineLeft`), so records nest no
deeper than there are records.
-/

namespace RecordBridge

namespace Schema

/-- Whether the records in some fields, written out in place with the records in their own fields, nest
less than `depth` deep. -/
def inlinesWithin (s : Schema) : (depth : Nat) → List Field → Bool
  | 0, _ => false
  | depth + 1, fields => (mentioned fields).all fun ref => s.inlinesWithin depth (s.fields ref)

variable {s : Schema} {fields : List Field}

/-- Without cycles, records nest no deeper than there are records to reach. -/
theorem inlinesWithin_of_acyclic {known : List Nat} {depth : Nat}
    (hclosed : ∀ a ∈ known, ∀ b, s.Mentions a b → b ∈ known)
    (hacyclic : ∀ a ∈ known, s.isCyclic a = false) (hfields : Within known fields)
    (hdepth : inlineLeft s known fields < depth) : s.inlinesWithin depth fields = true := by
  induction depth generalizing fields with
  | zero => omega
  | succ depth ih =>
    rw [inlinesWithin, List.all_eq_true]
    intro ref href
    obtain ⟨f, hf, hmentions⟩ := mem_mentioned.mp href
    have hknown : ref.id ∈ known := hfields f hf ref hmentions
    have hless := inlineLeft_fields_lt fields hknown href (hacyclic _ hknown)
    exact ih (within_fields hclosed hknown) (by omega)

/-- Where records nest to some depth only, none of them lies on a cycle. -/
theorem acyclic_of_inlinesWithin {depth : Nat} (h : s.inlinesWithin depth fields = true) {id : Nat}
    (hbeneath : s.Beneath fields id) : ¬Relation.TransGen s.Edge id id := by
  induction depth generalizing fields with
  | zero => cases h
  | succ depth ih =>
    intro hcycle
    obtain ⟨f, hf, ref, href, hreach⟩ := hbeneath
    have hmentioned : ref ∈ mentioned fields :=
      mem_mentioned.mpr ⟨f, hf, FieldType.mem_mentions_iff.mpr href⟩
    have hinner := List.all_eq_true.mp h ref hmentioned
    -- The cycle leads on from any record that it is reached from, so it is met one level down.
    have hon := Relation.TransGen.trans_right hreach hcycle
    obtain ⟨next, ⟨g, hg, other, hother, rfl⟩, hrest⟩ := Relation.TransGen.head'_iff.mp hon
    exact ih hinner ⟨g, hg, other, hother, hrest⟩ hcycle

/-- A group of fields has no cycle exactly if its records nest no deeper than there are records beneath
it. -/
theorem hasCycle_eq_false_iff :
    s.hasCycle fields = false ↔
      s.inlinesWithin ((s.reachable ((mentioned fields).map (·.id))).length + 1) fields = true := by
  constructor
  · intro hfree
    refine inlinesWithin_of_acyclic (s.reachable_closed _).2 (fun id hid => ?_)
      (s.within_reachable fields) (Nat.lt_succ_of_le (inlineLeft_le _ _ _))
    refine Bool.eq_false_iff.mpr fun hcyclic => Bool.eq_false_iff.mp hfree ?_
    rw [isCyclic_iff, mentions_eq_edge] at hcyclic
    exact hasCycle_iff.mpr ⟨id, s.beneath_iff.mpr (s.mem_reachable_iff.mp hid), hcyclic⟩
  · intro hinlines
    refine Bool.eq_false_iff.mpr fun hcycle => ?_
    obtain ⟨id, hbeneath, hcycle⟩ := hasCycle_iff.mp hcycle
    exact acyclic_of_inlinesWithin hinlines hbeneath hcycle

theorem hasCycle_append {more : List Field} :
    s.hasCycle (fields ++ more) = (s.hasCycle fields || s.hasCycle more) := by
  rw [Bool.eq_iff_iff, Bool.or_eq_true]
  simp only [hasCycle_iff, Beneath, List.mem_append, or_and_right, exists_or]

end Schema

namespace ConversionRequest

variable (r : ConversionRequest) (mapped : List (String × MappedField))

/-- A conversion uses local functions exactly if its source and its target, taken together, have a
cycle. -/
theorem isRecursive_eq_hasCycle :
    (r.settings mapped).isRecursive = r.schema.hasCycle (r.source ++ r.target) := by
  have hcyclic : (r.settings mapped).isRecursive = true ↔
      ∃ id ∈ r.records, r.schema.isCyclic id = true := by
    simp [Settings.isRecursive, settings]
  rw [Bool.eq_iff_iff, hcyclic, Schema.hasCycle_iff]
  refine exists_congr fun id => ?_
  rw [records, Schema.mem_reachable_iff, ← Schema.beneath_iff, Schema.isCyclic_iff,
    Schema.mentions_eq_edge]

/-- **The recursion flag is exact.** A record is cyclic exactly if a path of at least one edge leads from
it back to it, and a search in depth tells the same as the one in breadth. A group of fields has a cycle
exactly if some record beneath it is cyclic. A conversion uses local functions exactly if its source or its
target has a cycle; and exactly if it uses none, all records beneath these can be written out in place, as
they nest no deeper than there are records. -/
theorem recursion_exact :
    (∀ id, (r.schema.isCyclic id = true ↔ Relation.TransGen r.schema.Edge id id) ∧
      r.schema.meetsItself id = r.schema.isCyclic id) ∧
    (∀ fields, r.schema.hasCycle fields = true ↔
      ∃ id, r.schema.Beneath fields id ∧ Relation.TransGen r.schema.Edge id id) ∧
    (r.settings mapped).isRecursive = (r.schema.hasCycle r.source || r.schema.hasCycle r.target) ∧
    ((r.settings mapped).isRecursive = false ↔
      r.schema.inlinesWithin (r.records.length + 1) (r.source ++ r.target) = true) := by
  refine ⟨fun id => ⟨?_, Schema.meetsItself_eq_isCyclic⟩, fun fields => Schema.hasCycle_iff, ?_, ?_⟩
  · rw [Schema.isCyclic_iff, Schema.mentions_eq_edge]
  · rw [isRecursive_eq_hasCycle, Schema.hasCycle_append]
  · rw [isRecursive_eq_hasCycle, Schema.hasCycle_eq_false_iff, records]

end ConversionRequest

end RecordBridge

import RecordBridge.Proofs.Conversion.Chunks
import RecordBridge.Proofs.Conversion.Scope

/-!
# Copies of leaves

Without mappings a leaf is copied from the source field of its name, by one statement (`Emits.copied`). The
statement needs no test, since it stands in blocks that have tested the records on the way. It is tested
again where the copy is not taken for one (`Retests`): this is told by the spelling of the two paths, while
names are matched up to their case, and elements are reached by keys of another type or through the
variables of loops. `ConversionRequest.run_copies` says this of every leaf that a conversion fills; in
`ConversionRequest.aliasedKeys_run` a record is tested twice for one copy.
-/

namespace RecordBridge

/-! ## Nothing is deferred -/

theorem Deferred.defer_ne_empty (d : Deferred) (path : Path) (type : GoType) :
    d.defer path type ≠ .empty := by
  intro h
  have hmem : (path.text, path, type) ∈ (d.defer path type).entries :=
    Table.mem_place_self path.text (path, type) d.entries
  rw [h] at hmem
  cases hmem

section Undeferred

variable {c : Settings} {whole part : Passage}

/-- Without mappings no part of what is emitted starts with deferred records if the whole does not. -/
theorem Part.undeferred (hunmapped : c.mapped = []) (h : Part c whole part) (hwhole : whole.Emitted c)
    (hempty : whole.before.deferred = .empty) : part.before.deferred = .empty := by
  cases h with
  | otherFields hfirst _ => exact (hfirst.later hunmapped).deferred.trans hempty
  | otherElement hprimary _ => exact (hprimary.later hunmapped).deferred.trans hempty
  | deferred hfields =>
    -- What is deferred here would still be at the end of the whole.
    have hpart := (hfields.later hunmapped).deferred
    have hend := (hwhole.emits.later hunmapped).deferred
    exact absurd (hpart.symm.trans (hend.trans hempty)) (Deferred.defer_ne_empty _ _ _)
  | firstField | record | container | allocated | inline | define | element | recordElement
  | primaryElement | containerElement => exact hempty

theorem Passage.Emitted.undeferred (hunmapped : c.mapped = []) (hwhole : whole.Emitted c)
    (hempty : whole.before.deferred = .empty) (h : Relation.ReflTransGen (Part c) whole part) :
    part.before.deferred = .empty := by
  induction h with
  | refl => exact hempty
  | tail hparts hpart ih => exact hpart.undeferred hunmapped (hwhole.part hparts) ih

end Undeferred

/-! ## Tests of copies -/

/-- The copy of a leaf tests the records on the way to its source again: there are some, and the path of
the source in `in` is not spelled as that of the target in `out`. -/
def Retests (source : Place) (target : Path) : Prop :=
  source.selections.dropLast ≠ [] ∧ ¬(source.root = .input ∧ source.path.text = target.text)

instance (source : Place) (target : Path) : Decidable (Retests source target) :=
  inferInstanceAs (Decidable (_ ∧ _))

/-- The statement that copies a leaf, under the test that it brings along. -/
def copyCode (source : Place) (target : Path) (cast : Cast) : Code :=
  let copy := .step (.assign ⟨.output, target⟩ (.convert cast source)) .done
  if Retests source target then .nest (.ifSet source.selections.dropLast) copy .done else copy

/-- An assignment between fields that are both required or both optional is a copy of a leaf. -/
theorem Assignment.code_eq_copyCode {a : Assignment} (hsame : a.sourceRequired = a.targetRequired)
    (hplain : a.onlyIfSet = false) : a.code .done = copyCode a.source a.target a.cast := by
  -- Nothing is loaded where both sides have one presence, so only the way to the source is tested.
  have hneeds : a.needsSource = false := by
    rw [needsSource, hsame, Bool.not_and_self, Bool.false_and]
  have htested : a.tested = if a.isCopy then [] else a.source.selections.dropLast := by
    simp [tested, hplain, hneeds]
  have hcopy : a.isCopy = true ↔ a.source.root = .input ∧ a.source.path.text = a.target.text := by
    rw [isCopy, Bool.and_eq_true, decide_eq_true_eq, decide_eq_true_eq]
  by_cases h : Retests a.source a.target
  · rw [if_neg (mt hcopy.mp h.2)] at htested
    have htest : a.isTested = true := by
      simp [isTested, htested, h.1]
    rw [code, copyCode, if_pos htest, if_pos h, htested]
    rfl
  · -- Either the source has no way to it, or its text is that of the target.
    have hnone : a.tested = [] := by
      rw [htested]
      split
      · rfl
      · rename_i hother
        by_contra hway
        exact h ⟨hway, mt hcopy.mpr hother⟩
    have htest : a.isTested = false := by
      simp [isTested, hplain, hnone]
    rw [code, copyCode, htest, if_neg h]
    rfl

section Derivation

variable {c : Settings} {pos : Position} {f : Field} {p q : Progress} {b : Code} {source : Source}

/-- **A leaf is copied by one statement**, under a test only if it tests the records on its way again. -/
theorem Emits.copied (hunmapped : c.mapped = []) (hempty : p.deferred = .empty)
    (h : Emits c (.field pos f) p b q) (hdirect : directSource pos f = some source)
    (hleaf : f.type.root.isLeaf = true) (hsame : source.field.required = f.required) :
    ∃ type, f.type.goType c.resolve = .ok type ∧
      b = copyCode source.place (pos.path f) (leafCast f type f.required) := by
  have hsources : sourcesOf c pos f (pos.key f) = (some source, none) := by
    rw [sourcesOf_of_unmapped hunmapped, hdirect]
  cases h with
  | @leaf _ _ _ _ _ type hsources' _ htype =>
    -- The direct source is the only one, so there is one assignment, outside the guards.
    obtain ⟨hprimary, hnone⟩ := Prod.mk.inj (hsources'.symm.trans hsources)
    obtain rfl := Option.some.inj hprimary
    obtain rfl := hnone
    refine ⟨type, htype, ?_⟩
    rw [hempty, ← hsame]
    exact Assignment.code_eq_copyCode (a := leafAssignment pos f type _ false) hsame rfl
  | recordField _ hroot =>
    rw [hroot] at hleaf
    cases hleaf
  | containerField _ hroot =>
    rw [FieldType.isLeaf_of_isContainer hroot] at hleaf
    cases hleaf
  | allocated hnone | deferred hnone | unset hnone =>
    rw [hsources] at hnone
    cases hnone

/-- A leaf in a container is converted by one statement in the loop. -/
theorem Emits.copied_element {field : String} {type : FieldType} {slot : Slot}
    (h : Emits c (.element pos field type slot) p b q) (hleaf : type.root.isLeaf = true) :
    ∃ go, type.goType c.resolve = .ok go ∧
      b = .step (.assign ⟨.output, slot.path⟩ (.convert (.plain go) (.ofVar slot.value))) .done := by
  cases h with
  | leafElement _ htype => exact ⟨_, htype, rfl⟩
  | recordElement hroot | eitherElement hroot =>
    rw [hroot] at hleaf
    cases hleaf
  | containerElement hroot =>
    rw [FieldType.isLeaf_of_isContainer hroot] at hleaf
    cases hleaf

end Derivation

namespace ConversionRequest

/-- **Copies of leaves.** Wherever a conversion without mappings that finishes fills a leaf from the field
of its name, and both are required or both optional, it does so by one statement. It is tested exactly if
there are records on the way to the source, whose path in `in` is not spelled as that of the target in
`out`. Leaves in containers are converted by one statement without a test. -/
theorem run_copies {r : ConversionRequest} (hmappings : r.mappings.entries = []) {text : List String}
    (hrun : r.run = .lines text) :
    ∃ body last, text = body.lines.map Line.indented ∧
      Emits (r.settings []) (.fields r.start r.target) {} body last ∧
      (∀ pos f p b q source,
        Relation.ReflTransGen (Part (r.settings [])) ⟨.fields r.start r.target, {}, body, last⟩
          ⟨.field pos f, p, b, q⟩ →
        directSource pos f = some source → f.type.root.isLeaf = true →
        source.field.required = f.required →
        ∃ type, f.type.goType r.resolve = .ok type ∧
          b = copyCode source.place (pos.path f) (leafCast f type f.required)) ∧
      ∀ pos field type slot p b q,
        Relation.ReflTransGen (Part (r.settings [])) ⟨.fields r.start r.target, {}, body, last⟩
          ⟨.element pos field type slot, p, b, q⟩ →
        type.root.isLeaf = true →
        ∃ go, type.goType r.resolve = .ok go ∧
          b = .step (.assign ⟨.output, slot.path⟩ (.convert (.plain go) (.ofVar slot.value))) .done := by
  obtain ⟨b, last, hdraft, rfl⟩ := draft_of_run hrun
  obtain ⟨mapped, body, hmapped, rfl, hemits⟩ := emits_of_draft hdraft
  rw [hmappings] at hmapped
  cases hmapped
  have hbegin : Passage.Emitted (r.settings []) ⟨.fields r.start r.target, {}, body, last⟩ :=
    ⟨hemits, .empty⟩
  refine ⟨body, last, ?_, hemits, ?_, ?_⟩
  · have hpreamble : preamble (r.settings []) = .done := by
      rw [preamble, if_neg]
      simp [settings]
    rw [hpreamble, Block.done_append]
  · intro pos f p b q source hpart hdirect hleaf hsame
    exact (hbegin.part hpart).emits.copied rfl (hbegin.undeferred rfl rfl hpart) hdirect hleaf hsame
  · intro pos field type slot p b q hpart hleaf
    exact (hbegin.part hpart).emits.copied_element hleaf

/-! ### Keys of another type -/

/-- A conversion of a map of records to one whose keys go by an alias. -/
def aliasedKeys : ConversionRequest :=
  let item : FieldType := .record ⟨0, "Foo", "structs.thrift"⟩
  { schema := ⟨[(0, [⟨0, "inner", false, .record ⟨1, "Inner", "structs.thrift"⟩, []⟩]),
      (1, [⟨1, "name", false, .text, []⟩])]⟩
    resolve := fun _ => .ok "structs"
    source := [⟨2, "one", false, .map .text item, []⟩]
    target := [⟨3, "one", false, .map (.alias "Key" "structs.thrift" .text) item, []⟩]
    mappings := .empty
    optional := [] }

/-- The copy of a name is tested, right after a test of the record that holds it. -/
theorem aliasedKeys_run :
    let source : Place := ⟨.input, [.field "One", .index (.key 1), .field "Inner", .field "Name"]⟩
    let target : Path :=
      [.field "One", .keyAs (.named "structs" "Key") (.key 1), .field "Inner", .field "Name"]
    Retests source target ∧ aliasedKeys.run = .lines
      ["out.One = make(map[structs.Key]*structs.Foo, len(in.One))",
        "for key1, value2 := range in.One \x7b",
        "\tif value2 != nil \x7b",
        "\t\tout.One[structs.Key(key1)] = &structs.Foo\x7b\x7d",
        "\t\tif in.One[key1].Inner != nil \x7b",
        "\t\t\tout.One[structs.Key(key1)].Inner = &structs.Inner\x7b\x7d",
        "\t\t\tif in.One[key1].Inner != nil \x7b",
        "\t\t\t\tout.One[structs.Key(key1)].Inner.Name = (*string)(in.One[key1].Inner.Name)",
        "\t\t\t\x7d",
        "\t\t\x7d else \x7b",
        "\t\t\tout.One[structs.Key(key1)].Inner = nil",
        "\t\t\x7d",
        "\t\x7d else \x7b",
        "\t\tout.One[structs.Key(key1)] = nil",
        "\t\x7d",
        "\x7d"] := by
  decide +kernel

end ConversionRequest

end RecordBridge

import RecordBridge.Proofs.Conversion.Scoping
import RecordBridge.Proofs.Conversion.TargetSafety
import RecordBridge.Proofs.Conversion.Termination

/-!
# Names of local variables

What holds of the variables in the statements of every conversion that finishes (`run_wellNamed`): they
are named differently, and each of them is read at least once. The whole records are kept exactly if
there are mappings and records that occur within themselves, and are mentioned only if they are kept. A
local function is declared only where none for the same two records is in scope.

Each variable is also in scope wherever it is mentioned, if no name in the target holds an opening bracket
and no type of its keys a closing one. Guards are chosen by the spelling of paths: a field named
`Rows[index1].Label.Text` is guarded by the record at the label of a row, beneath an index that is out of
scope (`bracketed_outOfScope`), and so are entries with keys of a type named `Key(key1)].Tag.Key`, without
such a bracket in any name (`rekeyed_outOfScope`).
-/

namespace RecordBridge

open Code

/-! ## Followed mappings -/

namespace ConversionRequest

variable {r : ConversionRequest} {mapped : List (String × MappedField)}

/-! ## What is assumed of the schema -/

/-- The names in the target and in the records that occur in it hold no brackets. -/
def Plain (r : ConversionRequest) : Prop :=
  ∀ group, r.schema.Occurs r.target group → ∀ f ∈ group, f.Plain r.resolve

/-- It is enough to look at the records that the schema lists. -/
theorem Plain.of_records (htop : ∀ f ∈ r.target, f.Plain r.resolve)
    (hrecords : ∀ entry ∈ r.schema.records, ∀ f ∈ entry.2, f.Plain r.resolve) : r.Plain :=
  fun _ hgroup => hgroup.of_records (P := fun fields => ∀ f ∈ fields, f.Plain r.resolve)
    htop (fun _ hf => nomatch hf) hrecords

/-- A conversion of the trees of a forest, which another list overrides. The trees hold themselves and
tables by name. -/
def forest : ConversionRequest :=
  let tree : FieldType := .record ⟨0, "Tree", "forest"⟩
  let trees : Field := ⟨0, "trees", false, .list tree, []⟩
  { schema := ⟨[(0, [trees, ⟨1, "names", false, .map .text .int32, []⟩])]⟩
    resolve := fun file => .ok file
    source := [trees, ⟨1, "others", false, .list tree, []⟩]
    target := [trees]
    mappings := Table.empty.insert "Trees" ⟨"others", true⟩
    optional := [] }

/-- The lines of a conversion and a property of its statements are checked on one draft. -/
theorem run_of_draft {P : Code → Prop} [DecidablePred P] {text : List String}
    (h : (match r.draft {} with
      | .ok (_, b, _) => decide (b.lines.map Line.indented = text ∧ P b)
      | .error _ => false) = true) :
    r.run = .lines text ∧ ∀ b q, r.draft {} = .ok ((), b, q) → P b := by
  cases hdraft : r.draft {} with
  | error stop =>
    rw [hdraft] at h
    cases h
  | ok result =>
    obtain ⟨_, b, q⟩ := result
    rw [hdraft] at h
    obtain ⟨hlines, hP⟩ := of_decide_eq_true h
    refine ⟨?_, fun b' q' heq => ?_⟩
    · rw [run, Draft.outcome, hdraft]
      exact congrArg Outcome.lines hlines
    · cases heq
      exact hP

/-- A conversion of rows by their keys, into two fields with one Go name. The tag of the first is mapped, and
the keys of the second have a type that is named like the rest of the path to it. -/
def rekeyed : ConversionRequest :=
  let keyed (id : Nat) (name key : String) : Field :=
    ⟨id, name, false, .map (.alias key "dto" .text) (.record ⟨0, "Row", "dto"⟩), []⟩
  { schema := ⟨[
      (0, [⟨0, "tag", false, .record ⟨1, "Tag", "dto"⟩, []⟩]),
      (1, [⟨0, "text", false, .text, []⟩]),
      (2, [])]⟩
    resolve := fun _ => .ok "dto"
    source := [⟨0, "rows", false, .map .text (.record ⟨2, "Blank", "dto"⟩), []⟩,
      ⟨1, "title", false, .text, []⟩]
    target := [keyed 0 "rows" "Key", keyed 1 "Rows" "Key(key1)].Tag.Key"]
    mappings := Table.empty.insert "Rows[dto.Key(key1)].Tag.Text" ⟨"Title", false⟩
    optional := [] }

/-- The tag is deferred in the first loop, and a guard for it stands in the second one, where the key of the
first is out of scope. -/
theorem rekeyed_outOfScope :
    rekeyed.run = .lines [
      "out.Rows = make(map[dto.Key]*dto.Row, len(in.Rows))",
      "for key1, value2 := range in.Rows \x7b",
      "\tif value2 != nil \x7b",
      "\t\tout.Rows[dto.Key(key1)] = &dto.Row\x7b\x7d",
      "\t\tif out.Rows[dto.Key(key1)].Tag == nil \x7b",
      "\t\t\tout.Rows[dto.Key(key1)].Tag = &dto.Tag\x7b\x7d",
      "\t\t\x7d",
      "\t\tout.Rows[dto.Key(key1)].Tag.Text = (*string)(in.Title)",
      "\t\x7d else \x7b",
      "\t\tout.Rows[dto.Key(key1)] = nil",
      "\t\x7d",
      "\x7d",
      "out.Rows = make(map[dto.Key(key1)].Tag.Key]*dto.Row, len(in.Rows))",
      "for key3, value4 := range in.Rows \x7b",
      "\tif value4 != nil \x7b",
      "\t\tif out.Rows[dto.Key(key1)].Tag == nil \x7b",
      "\t\t\tout.Rows[dto.Key(key1)].Tag = &dto.Tag\x7b\x7d",
      "\t\t\x7d",
      "\t\tout.Rows[dto.Key(key1)].Tag.Key(key3)] = &dto.Row\x7b\x7d",
      "\t\x7d",
      "\x7d"] ∧
    ∀ b q, rekeyed.draft {} = .ok ((), b, q) → ¬Scoped [.input, .output] b :=
  run_of_draft (by decide +kernel)

end ConversionRequest

end RecordBridge

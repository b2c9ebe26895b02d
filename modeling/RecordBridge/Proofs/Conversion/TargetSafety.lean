import RecordBridge.Proofs.Conversion.Allocation
import RecordBridge.Proofs.Conversion.Correctness

/-!
# Writes below the target are safe

A conversion between schemas in which no record occurs within itself is written without local
functions. Its statements allocate what lies above each write before it, and records that are
optional and have no source are allocated only under a guard before a write beneath them
(`run_grounded`). So no run of them goes through a nil value below `out`. With local functions
the same is true below the `out` of each of them, but not around them: a guard within two of them
goes through the whole target, which does not hold yet what the outer one fills
(`waitingLink_nilBelow`).
-/

namespace RecordBridge

namespace ConversionRequest

variable {r : ConversionRequest}

/-! ## What is assumed of the schemas -/

/-- The Go names of the target fields are plain and differ from each other, and so do those of the
fields of each record that occurs in the target. -/
structure TargetNamed (r : ConversionRequest) : Prop where
  top : Named r.target
  record : ∀ start ∈ Schema.mentioned r.target, ∀ ref : RecordRef,
    Relation.ReflTransGen r.schema.Mentions start.id ref.id → Named (r.schema.fields ref)

/-- It is enough to look at the records that the schema lists. -/
theorem TargetNamed.of_records (htop : Named r.target)
    (hrecords : ∀ entry ∈ r.schema.records, Named entry.2) : r.TargetNamed where
  top := htop
  record _ _ ref _ := Schema.fields_of_records ⟨nofun, .nil⟩ hrecords ref

/-- The types that paths lead to mention only records that occur in the target. -/
theorem within_of_leads {mapped : List (String × MappedField)} {path : Path} {t : FieldType}
    (h : Leads (r.settings mapped) r.target path t) :
    t.Within (r.schema.reachable ((Schema.mentioned r.target).map (·.id))) := by
  have hclosed := (r.schema.reachable_closed ((Schema.mentioned r.target).map (·.id))).2
  induction h with
  | top hf => exact Schema.within_reachable r.schema r.target _ hf
  | step _ hs ih =>
    cases hs with
    | field ht hf =>
      have href := ih.of_root ht _ (List.mem_singleton_self _)
      exact Schema.within_fields hclosed href _ hf
    | list ht | set ht => exact fun ref href => ih.of_root ht ref href
    | key ht | keyAs ht => exact fun ref href => ih.of_root ht ref (List.mem_append_right _ href)

theorem TargetNamed.names (h : r.TargetNamed) (mapped : List (String × MappedField)) :
    (r.settings mapped).Names r.target where
  top := h.top
  record {_ _ ref} hleads hroot := by
    have hmem : ref.id ∈ r.schema.reachable ((Schema.mentioned r.target).map (·.id)) :=
      (within_of_leads hleads).of_root hroot ref (List.mem_singleton_self _)
    obtain ⟨a, ha, hreach⟩ := r.schema.mem_reachable_iff.mp hmem
    obtain ⟨start, hstart, rfl⟩ := List.mem_map.mp ha
    exact h.record start hstart ref hreach

/-- A conversion of the items of a parcel, whose label goes to a tag on a box. Neither the tag nor the
box has a source of its own. -/
def parcel : ConversionRequest :=
  let items : Field := ⟨1, "items", false, .list (.record ⟨2, "Item", "parcel"⟩), []⟩
  { schema := ⟨[
      (0, [⟨0, "tag", false, .record ⟨1, "Tag", "parcel"⟩, []⟩]),
      (1, [⟨0, "text", true, .text, []⟩]),
      (2, [⟨0, "count", true, .int32, []⟩])]⟩
    resolve := fun file => .ok file
    source := [⟨0, "label", true, .text, []⟩, items]
    target := [⟨0, "box", false, .record ⟨0, "Box", "parcel"⟩, []⟩, items]
    mappings := Table.empty.insert "Box.Tag.Text" ⟨"label", false⟩
    optional := [] }

theorem parcel_run : ∃ text, parcel.run = .lines text := by
  decide +kernel

/-- A conversion of a chain to one with a further record in each link. The record has no source and
waits for what is written below it, which a local function within that of the chain converts. -/
def waitingLink : ConversionRequest :=
  let chain (id : Nat) (name : String) : List Field :=
    [⟨0, "name", false, .text, []⟩, ⟨1, "next", false, .record ⟨id, name, "structs"⟩, []⟩]
  let foo : FieldType := .record ⟨0, "Foo", "structs"⟩
  { schema := ⟨[
      (0, chain 0 "Foo"),
      (1, chain 1 "Bar" ++ [⟨2, "extra", false, .record ⟨2, "Extra", "structs"⟩, []⟩]),
      (2, [⟨0, "baz", false, .record ⟨3, "Baz", "structs"⟩, []⟩]),
      (3, chain 3 "Baz")]⟩
    resolve := fun _ => .ok "structs"
    source := [⟨0, "first", false, foo, []⟩, ⟨1, "second", false, foo, []⟩]
    target := [⟨0, "first", false, .record ⟨1, "Bar", "structs"⟩, []⟩]
    mappings := Table.empty.insert "First.Extra.Baz" ⟨"Second", false⟩
    optional := [] }

/-- The statements of that conversion. The guard of the record stands in both local functions. -/
def waitingLinkCode : Code :=
  let foo : GoType := .named "structs" "Foo"
  let bar : HelperSignature := ⟨.helper "Bar" 1, foo, .named "structs" "Bar"⟩
  let baz : HelperSignature := ⟨.helper "Baz" 2, foo, .named "structs" "Baz"⟩
  let name : Statement :=
    .assign ⟨.output, [.field "Name"]⟩ (.convert (.pointer .string) ⟨.input, [.field "Name"]⟩)
  let next (helper : HelperSignature) : Statement :=
    .assign ⟨.output, [.field "Next"]⟩ (.call helper.name ⟨.input, [.field "Next"]⟩)
  let guarded (p : Place) (s : Statement) : Code :=
    .nest (.ifUnset p) (.ofList [.assign p (.newRecord (.named "structs" "Extra"))]) (.ofList [s])
  let waiting : Place := ⟨.wholeOutput, [.field "First", .field "Extra"]⟩
  .ofList [.keep .wholeInput .input, .keep .wholeOutput .output] ++
    helperCode bar (.ofList [name, next bar] ++
      helperCode baz (guarded waiting name ++ guarded waiting (next baz)) ++
      guarded ⟨.output, [.field "Extra"]⟩
        (.assign ⟨.output, [.field "Extra", .field "Baz"]⟩
          (.call baz.name ⟨.wholeInput, [.field "Second"]⟩))) ++
    .ofList [.assign ⟨.output, [.field "First"]⟩ (.call bar.name ⟨.input, [.field "First"]⟩)]

/-- Two links with nothing in them. -/
def emptyLinks : GoValue :=
  .record (Function.update (Function.update (fun _ => .absent) "First" .fresh) "Second" .fresh)

/-- The guard of the record goes through the whole target, which holds the link only after the local
function of the chain returns. -/
theorem waitingLink_nilBelow :
    waitingLink.run = .lines (waitingLinkCode.lines.map Line.indented) ∧
      ∀ order depth, RecordBridge.run order (depth + 3) waitingLinkCode (.start emptyLinks) =
        .error (.nilBelow .wholeOutput) :=
  ⟨by decide +kernel, fun order depth => by with_unfolding_all rfl⟩

end ConversionRequest

end RecordBridge

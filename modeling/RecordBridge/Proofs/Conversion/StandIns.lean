import RecordBridge.Proofs.Conversion.Chunks
import RecordBridge.Proofs.Conversion.Convertible
import RecordBridge.Proofs.Conversion.LocalFunctions

/-!
# What stands in for a container

Where another source stands in for that of a container, one loop runs over whichever of the two is there.
Both have the shape of the target, and nothing else is asked of what stands in: with any other type of this
shape it leads to the same statements (`Emits.withStandIn`). Only records that are converted in place have
statements of their own for each source (`Code.Branches`).

So a set that is a slice may stand in for one that is the keys of a map, and the loop over both takes the
indices of the one for elements (`ConversionRequest.mixedSets_run`).
-/

namespace RecordBridge

/-! ## Shapes -/

namespace FieldType

variable {x : Operand} {element key value : FieldType} {form : SetForm}

theorem SameShape.listElements (h : (list element).SameShape x.type) :
    ∃ part, x.listElements? = some part := by
  obtain ⟨part, hroot⟩ := h
  exact ⟨part, by rw [Operand.listElements?, hroot]⟩

theorem SameShape.setElements (h : (set element form).SameShape x.type) :
    ∃ part, x.setElements? = some part := by
  obtain ⟨part, partForm, hroot⟩ := h
  exact ⟨(part, partForm), by rw [Operand.setElements?, hroot]⟩

theorem SameShape.mapValues (h : (map key value).SameShape x.type) :
    ∃ part, x.mapValues? = some part := by
  obtain ⟨_, part, hroot⟩ := h
  exact ⟨part, by rw [Operand.mapValues?, hroot]⟩

end FieldType

/-! ## Another type for what stands in -/

/-- The job with another operand that stands in. -/
def ContainerJob.withStandIn (job : ContainerJob) (y : Operand) : ContainerJob :=
  { job with standIn := some y }

section Derivation

variable {c : Settings} {pos : Position} {type : FieldType} {job : ContainerJob} {x y : Operand}
  {p q : Progress} {b : Code}

theorem ContainerJob.standInPart_withStandIn {α : Type} {part? : Operand → Option α} {part : α}
    (h : part? y = some part) : standInPart part? (job.withStandIn y).standIn = some (some part) := by
  rw [withStandIn, standInPart, h]
  rfl

/-- A loop is the same with another operand that stands in, but for the type of its elements. -/
theorem Loop.Converts.withStandIn {loop : Loop} (h : loop.Converts c job type)
    (hshape : type.SameShape y.type) :
    ∃ standIn, Loop.Converts c (job.withStandIn y) type { loop with standIn } := by
  cases h with
  | list hprimary _ htype =>
    obtain ⟨_, hpart⟩ := hshape.listElements
    exact ⟨_, .list hprimary (job.standInPart_withStandIn hpart) htype⟩
  | set hprimary _ hkeyed hprimaryKeyed htype =>
    obtain ⟨_, hpart⟩ := hshape.setElements
    exact ⟨_, .set hprimary (job.standInPart_withStandIn hpart) hkeyed hprimaryKeyed htype⟩
  | map htext hkey hprimary _ htype =>
    obtain ⟨_, hpart⟩ := hshape.mapValues
    exact ⟨_, .map htext hkey hprimary (job.standInPart_withStandIn hpart) htype⟩

/-- What stands in for the source of an element is of the type of the elements there. -/
theorem Loop.standIn_of_slot {loop : Loop} {flag : Option Var} {n : Nat} {other : Operand}
    (h : (loop.slot job flag n).standIn = some other) : loop.standIn = some other.type := by
  rw [Loop.slot] at h
  split at h
  · cases h
    assumption
  · cases h

/-- Without a flag, an element is converted from its primary source, whatever stands in. -/
theorem Emits.element_withStandIn {field : String} {slot : Slot}
    (h : Emits c (.element pos field type slot) p b q) (hflag : slot.selector = none)
    (standIn : Option Operand) : Emits c (.element pos field type { slot with standIn }) p b q := by
  cases h with
  | leafElement hleaf htype => exact .leafElement hleaf htype
  | recordElement hroot _ horigin hrecord => exact .recordElement hroot (.inl hflag) horigin hrecord
  | eitherElement _ hsome =>
    rw [hflag] at hsome
    cases hsome
  | containerElement hroot hcontainer => exact .containerElement hroot hcontainer

/-- Statements that convert a record in place from either of two sources, of the types `primary` and
`other`: a flag tells from which one, and there are statements of their own for each. -/
inductive Code.Branches (c : Settings) (pos : Position) (type primary other : FieldType) : Code → Prop where
  | intro {target origin origin' : RecordRef} {path : Path} {flag value : Var} {base base' : Place}
      {p q r : Progress} {b₁ b₂ : Code} (hroot : type.root = .record target)
      (horigin : primary.record? = some origin) (horigin' : other.record? = some origin')
      (hneeds : c.needsHelper target origin = false)
      (hprimary : Emits c (.record pos ⟨target, origin, path⟩ type (.ofVar value) base false) p b₁ q)
      (hother : Emits c (.record pos ⟨target, origin', path⟩ type (.ofVar value) base' false) q b₂ r) :
      Branches c pos type primary other (.fork (.ifFlag flag) b₁ b₂ .done)

/-- With a flag, an element is converted in place from either of its sources. -/
theorem Emits.branches {field : String} {slot : Slot} {other : Operand}
    (h : Emits c (.element pos field type slot) p b q)
    (hflagged : (Task.element pos field type slot).Flagged c) (hflag : slot.selector ≠ none)
    (hother : slot.standIn = some other) : Code.Branches c pos type slot.primary.type other.type b := by
  have hrecord : ∃ ref, type.root = .record ref := by
    by_contra hno
    exact hflag (hflagged.selector_eq_none fun ref hroot => hno ⟨ref, hroot⟩)
  obtain ⟨ref, href⟩ := hrecord
  cases h with
  | leafElement hleaf =>
    rw [href] at hleaf
    cases hleaf
  | containerElement hroot =>
    rw [href] at hroot
    cases hroot
  | recordElement _ hone => exact absurd (hflagged.selector_eq_none_of_one hone) hflag
  | eitherElement hroot hsome hstandIn horigin horigin' hprimary hbranch =>
    obtain rfl := Option.some.inj (hother.symm.trans hstandIn)
    exact .intro hroot horigin horigin' (hflagged.needsHelper hsome hroot horigin) hprimary hbranch

/-- The statements for a container are a loop that converts records in place from either of its sources. -/
def ContainerJob.Branches (c : Settings) (pos : Position) (type : FieldType) (job : ContainerJob)
    (b : Code) : Prop :=
  ∃ (loop : Loop) (guards : Code) (chosen : Selection) (inner : Code) (other : FieldType),
    loop.Converts c job type ∧ b = loop.code guards job chosen inner ∧ loop.standIn = some other ∧
      Code.Branches c pos loop.element loop.primary other inner

/-- **What stands in is looked at no further than its shape.** With any other type of this shape it leads
to the same statements, unless a loop converts records in place from either of the sources. -/
theorem Emits.withStandIn (h : Emits c (.container pos type job) p b q) (hjob : job.standIn = some x) :
    job.Branches c pos type b ∨
      ∀ y : Operand, y.place = x.place → type.SameShape y.type →
        Emits c (.container pos type (job.withStandIn y)) p b q := by
  cases h with
  | @keys _ _ _ _ _ _ _ _ _ chosen hprimary _ hkeyed hhashable htype hchosen =>
    refine .inr fun y hplace hshape => ?_
    obtain ⟨_, hpart⟩ := hshape.setElements
    refine .keys hprimary (job.standInPart_withStandIn hpart) hkeyed hhashable htype ?_
    rw [hchosen, hjob, ContainerJob.withStandIn, Option.map_some, Option.map_some, hplace]
  | @loop _ _ _ _ q inner loop chosen hloop hchosen hinner =>
    have hflagged := hloop.flagged pos p.counter chosen.counter
    rw [← hchosen] at hflagged
    -- Without a flag the type of the stand-in goes into no statement: only its place does.
    by_cases hflag : chosen.flag = none
    · refine .inr fun y hplace hshape => ?_
      obtain ⟨standIn, hloop'⟩ := hloop.withStandIn hshape
      have hchosen' : chosen = Loop.selection { loop with standIn } c (job.withStandIn y) p.counter := by
        rw [hchosen, Loop.selection, Loop.selection, hjob, ContainerJob.withStandIn, Option.map_some,
          Option.map_some, hplace]
      exact @Emits.loop c pos type (job.withStandIn y) p q inner { loop with standIn } chosen hloop'
        hchosen' (hinner.element_withStandIn hflag _)
    · -- With a flag, the element of the stand-in is converted in a branch of its own.
      obtain ⟨other, hother⟩ :=
        Option.isSome_iff_exists.mp (hflagged (Option.isSome_iff_ne_none.mpr hflag)).2
      exact .inl ⟨loop, _, chosen, inner, other.type, hloop, rfl, Loop.standIn_of_slot hother,
        hinner.branches hflagged hflag hother⟩

end Derivation

namespace ConversionRequest

/-- **What stands in for a container.** Wherever a conversion that finishes converts a container for which
something stands in, that has the shape of the target. Either a loop converts records in place, with
statements of their own for each of the two sources; or nothing but the shape matters, so that any other
type of it leads to the same statements. -/
theorem run_withStandIn {r : ConversionRequest} {text : List String} (hrun : r.run = .lines text) :
    ∃ mapped body last, r.schema.followMappings r.source r.mappings.entries = .ok mapped ∧
      text = (preamble (r.settings mapped) ++ body).lines.map Line.indented ∧
      Emits (r.settings mapped) (.fields r.start r.target) {} body last ∧
      ∀ pos type job p b q x,
        Relation.ReflTransGen (Part (r.settings mapped)) ⟨.fields r.start r.target, {}, body, last⟩
          ⟨.container pos type job, p, b, q⟩ →
        job.standIn = some x →
        type.SameShape x.type ∧
          (job.Branches (r.settings mapped) pos type b ∨
            ∀ y : Operand, y.place = x.place → type.SameShape y.type →
              Emits (r.settings mapped) (.container pos type (job.withStandIn y)) p b q) := by
  obtain ⟨b, last, hdraft, rfl⟩ := draft_of_run hrun
  obtain ⟨mapped, body, hmapped, rfl, hemits⟩ := emits_of_draft hdraft
  refine ⟨mapped, body, last, hmapped, rfl, hemits, ?_⟩
  intro pos type job p b q x hpart hjob
  have hemits' := (Passage.Emitted.part ⟨hemits, .empty⟩ hpart).emits
  obtain ⟨_, hcovers⟩ := hemits'.converts (R := fun _ _ => True) fun _ _ _ _ _ _ => trivial
  exact ⟨hcovers.converts.2 x hjob, hemits'.withStandIn hjob⟩

/-! ### Sets of two forms -/

/-- A conversion of a set that is the keys of a map, for which a set that is a slice stands in. -/
def mixedSets : ConversionRequest :=
  { schema := {}
    resolve := fun _ => .ok "structs"
    source := [⟨0, "one", false, .set .text .keyed, []⟩, ⟨1, "two", false, .set .text .slice, []⟩]
    target := [⟨0, "one", false, .set .text .keyed, []⟩]
    mappings := Table.empty.insert "One" ⟨"Two", false⟩
    optional := [] }

/-- One variable holds either of them, and the indices of the slice are converted for its elements. -/
theorem mixedSets_run :
    mixedSets.source.map (·.type.goType mixedSets.resolve) = [.ok (.keySet .string), .ok (.slice .string)] ∧
      mixedSets.run = .lines
        ["sourceList1 := in.Two",
          "if in.One != nil \x7b",
          "\tsourceList1 = in.One",
          "\x7d",
          "out.One = make(map[string]struct\x7b\x7d, len(sourceList1))",
          "for value2 := range sourceList1 \x7b",
          "\tout.One[string(value2)] = struct\x7b\x7d\x7b\x7d",
          "\x7d"] := by
  decide +kernel

end ConversionRequest

end RecordBridge

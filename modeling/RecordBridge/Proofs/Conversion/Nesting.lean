import Mathlib.Data.List.ProdSigma
import Mathlib.Data.List.Basic
import RecordBridge.Conversion.Request
import RecordBridge.Proofs.Draft
import RecordBridge.Proofs.Place
import RecordBridge.Proofs.Schema.Within

/-!
# Conversions come to an end

How deep records are nested in the statements of a conversion is bounded, also for records that
occur within themselves, on either side. Every level takes one of three steps, and each uses up
something:

- a record that is converted in place does not occur within itself, so fewer records can be reached
  from its own fields (`inlineLeft`);
- a local function stays in scope within its own body, so each pair of records gets at most one on
  the way down (`pairsLeft`). That it goes out of scope behind a block does no harm: what is lost
  there was gained within the block;
- a record without a source leads towards a mapped path, and its own path grows (`pathLeft`).

The second and the third step start the first count anew. `room` combines the three.
-/

namespace RecordBridge

/-- What is known of the records of a conversion. `known` is closed under mentions and holds the
records of mapped fields; those of it that occur within themselves are settled as such; mapped paths
are no longer than `longest`. -/
structure Settings.Covered (c : Settings) (known : List Nat) (longest : Nat) : Prop where
  closed : ∀ a ∈ known, ∀ b, c.schema.Mentions a b → b ∈ known
  cyclic : ∀ a ∈ known, c.schema.isCyclic a = true → a ∈ c.cyclic
  mapped : ∀ e ∈ c.mapped, e.2.field.type.Within known
  short : ∀ e ∈ c.mapped, e.1.length ≤ longest

/-- The fields that a position takes its sources from lie within a set of records. -/
def Position.Within (known : List Nat) (pos : Position) : Prop :=
  ∀ place fields, pos.source = some (place, fields) → Schema.Within known fields

/-! ## What is left -/

/-- The pairs of records that have no local function in scope. -/
def pairsLeft (known : List Nat) (helpers : List Helper) : Nat :=
  ((known.product known).filter fun pair =>
    !helpers.any fun h => h.target == pair.1 && h.source == pair.2).length

/-- The records that can be reached from some fields. -/
def inlineLeft (s : Schema) (known : List Nat) (fields : List Field) : Nat :=
  (known.filter fun id => id ∈ s.reachable ((Schema.mentioned fields).map (·.id))).length

/-- How much longer a path can get before it is longer than all mapped paths. -/
def pathLeft (longest : Nat) (pos : Position) : Nat :=
  longest - (Path.text (pos.scope ++ pos.target)).length

/-- How many levels can still follow. -/
def room (s : Schema) (known : List Nat) (longest : Nat) (pos : Position) (fields : List Field)
    (helpers : List Helper) : Nat :=
  (pairsLeft known helpers + pathLeft longest pos) * (known.length + 2) +
    inlineLeft s known fields + 1

theorem pairsLeft_le (known : List Nat) (helpers : List Helper) :
    pairsLeft known helpers ≤ known.length * known.length := by
  rw [← List.length_product]
  exact List.length_filter_le ..

theorem inlineLeft_le (s : Schema) (known : List Nat) (fields : List Field) :
    inlineLeft s known fields ≤ known.length :=
  List.length_filter_le ..

/-- More local functions in scope leave fewer pairs. -/
theorem pairsLeft_anti (known : List Nat) {helpers helpers' : List Helper}
    (h : helpers ⊆ helpers') : pairsLeft known helpers' ≤ pairsLeft known helpers := by
  refine (List.monotone_filter_right _ fun pair hpair => ?_).length_le
  simp only [Bool.not_eq_true', List.any_eq_false] at hpair ⊢
  exact fun helper hmem => hpair helper (h hmem)

/-- A new local function uses up its pair. -/
theorem pairsLeft_cons_lt {known : List Nat} {helpers : List Helper} {target source : Nat}
    (name : Var) (htarget : target ∈ known) (hsource : source ∈ known)
    (hnew : ∀ h ∈ helpers, ¬(h.target = target ∧ h.source = source)) :
    pairsLeft known (⟨target, source, name⟩ :: helpers) < pairsLeft known helpers := by
  refine length_filter_lt (a := (target, source))
    (List.mem_product.mpr ⟨htarget, hsource⟩) ?_ (by simp) fun pair hpair => by simp_all
  simpa using hnew

/-- The fields of a record that does not occur within itself reach fewer records than fields that
mention it. -/
theorem inlineLeft_fields_lt {s : Schema} {known : List Nat} (fields : List Field)
    {ref : RecordRef} (hknown : ref.id ∈ known) (hmem : ref ∈ Schema.mentioned fields)
    (hacyclic : s.isCyclic ref.id = false) :
    inlineLeft s known (s.fields ref) < inlineLeft s known fields := by
  have hstart : ref.id ∈ (Schema.mentioned fields).map (·.id) := List.mem_map_of_mem hmem
  refine length_filter_lt (a := ref.id) hknown
    (decide_eq_true ((s.reachable_closed _).1 _ hstart)) hacyclic fun id hid => ?_
  obtain ⟨a, ha, hreach⟩ := s.mem_reachable_iff.mp (of_decide_eq_true hid)
  have hfirst : s.Mentions ref.id a := ha
  exact decide_eq_true (s.mem_reachable_iff.mpr ⟨ref.id, hstart, hreach.head hfirst⟩)

section Steps

variable (s : Schema) {known : List Nat} {longest : Nat} {pos pos' : Position}
  (fields fields' : List Field) {helpers helpers' : List Helper}

theorem room_anti (h : helpers ⊆ helpers') :
    room s known longest pos fields helpers' ≤ room s known longest pos fields helpers := by
  have := Nat.mul_le_mul_right (known.length + 2)
    (Nat.add_le_add_right (pairsLeft_anti known h) (pathLeft longest pos))
  unfold room
  omega

/-- A step that keeps the pairs and the path, and reaches fewer records, leaves less room. -/
theorem room_lt_of_inline (hhelpers : helpers ⊆ helpers')
    (hpath : pathLeft longest pos' ≤ pathLeft longest pos)
    (hinline : inlineLeft s known fields' < inlineLeft s known fields) :
    room s known longest pos' fields' helpers' < room s known longest pos fields helpers := by
  have := Nat.mul_le_mul_right (known.length + 2)
    (Nat.add_le_add (pairsLeft_anti known hhelpers) hpath)
  unfold room
  omega

/-- A step that uses up a pair, or that makes the path longer, leaves less room, whatever records
are reached from there. -/
theorem room_lt_of_restart
    (h : pairsLeft known helpers' + pathLeft longest pos' <
      pairsLeft known helpers + pathLeft longest pos) :
    room s known longest pos' fields' helpers' < room s known longest pos fields helpers := by
  have hmul := Nat.mul_le_mul_right (known.length + 2) (Nat.succ_le_of_lt h)
  have hle := inlineLeft_le s known fields'
  rw [Nat.succ_mul] at hmul
  unfold room
  omega

end Steps

end RecordBridge

import RecordBridge.Proofs.Execution.Value

/-!
# Fields at run time

Where code only selects fields, a value is read and changed at the end of some names. `follow` and
`fill` do so without faults: names lead to nothing below what is no record, and a write makes records
on its way. They agree with `GoValue.get` and `GoValue.put` where there is a record at each name but
the last one (`Solid.get`, `Solid.put`).

The lemmas on `fill` say what a write leaves as it was: all that is neither above nor below it
(`follow_fill_of_apart`), and above it records stay records (`isRecord_follow_fill`).
-/

namespace RecordBridge

namespace GoValue

/-- The field of a record; what is no record has none. -/
def select : GoValue → String → GoValue
  | .record fields, name => fields name
  | _, _ => .absent

/-- What is held at the end of some names. -/
def follow (v : GoValue) : List String → GoValue
  | [] => v
  | name :: rest => (v.select name).follow rest

/-- The value with another one at the end of some names, in records all the way. -/
def fill (v : GoValue) : List String → (new : GoValue) → GoValue
  | [], new => new
  | name :: rest, new =>
    .record (Function.update v.select name ((v.select name).fill rest new))

/-- Whether a value is a record. -/
def isRecord : GoValue → Bool
  | .record _ => true
  | _ => false

/-- Whether a value is a record or nil, where there could be one. -/
def isRoom : GoValue → Bool
  | .absent | .record _ => true
  | _ => false

/-- The value with a record at the end of some names, a fresh one if there is none. -/
def allocated (v : GoValue) (names : List String) : GoValue :=
  if (v.follow names).isSet then v else v.fill names .fresh

/-- There is a record, or room for one, at each name but the last. -/
def Open (v : GoValue) : List String → Prop
  | [] => True
  | name :: rest => v.isRoom = true ∧ (v.select name).Open rest

/-- There is a record at each name but the last. -/
def Solid (v : GoValue) : List String → Prop
  | [] => True
  | name :: rest => v.isRecord = true ∧ (v.select name).Solid rest

variable {v x y : GoValue} {p q : List String} {name other : String} {root : Var}

@[simp] theorem follow_cons : v.follow (name :: p) = (v.select name).follow p :=
  rfl

@[simp] theorem select_fill_self :
    (v.fill (name :: p) x).select name = (v.select name).fill p x :=
  Function.update_self ..

@[simp] theorem select_fill_of_ne (h : other ≠ name) :
    (v.fill (name :: p) x).select other = v.select other :=
  Function.update_of_ne h ..

theorem eq_record (h : v.isRecord = true) : v = .record v.select := by
  cases v with
  | record fields => rfl
  | _ => cases h

theorem isRoom_of_isRecord (h : v.isRecord = true) : v.isRoom = true := by
  rw [eq_record h]
  rfl

/-- What is room for a record is one once it is set. -/
theorem isRecord_of_isRoom (h : v.isRoom = true) (hset : v.isSet = true) : v.isRecord = true := by
  cases v with
  | absent => cases hset
  | record fields => rfl
  | _ => cases h

/-! ## Names -/

@[simp] theorem follow_absent : absent.follow p = .absent := by
  induction p with
  | nil => rfl
  | cons name rest ih => exact ih

theorem follow_append : v.follow (p ++ q) = (v.follow p).follow q := by
  induction p generalizing v with
  | nil => rfl
  | cons name rest ih => exact ih

theorem Solid.append (h : v.Solid p) (hfollow : (v.follow p).Solid q) : v.Solid (p ++ q) := by
  induction p generalizing v with
  | nil => exact hfollow
  | cons name rest ih => exact ⟨h.1, ih h.2 hfollow⟩

theorem Open.follow (h : v.Open (p ++ q)) : (v.follow p).Open q := by
  induction p generalizing v with
  | nil => exact h
  | cons name rest ih => exact ih h.2

theorem open_absent : absent.Open p := by
  induction p with
  | nil => trivial
  | cons name rest ih => exact ⟨rfl, ih⟩

/-- Records above some names, all of them, are records at each name but the last. -/
theorem solid_of_records (h : ∀ q, q <+: p → q ≠ p → (v.follow q).isRecord = true) : v.Solid p := by
  induction p generalizing v with
  | nil => trivial
  | cons name rest ih =>
    refine ⟨h [] List.nil_prefix (List.cons_ne_nil _ _).symm, ih fun q hq hne => ?_⟩
    refine h (name :: q) (List.cons_prefix_cons.mpr ⟨rfl, hq⟩) fun heq => hne ?_
    exact (List.cons.inj heq).2

/-! ## Access -/

/-- A field is read from records. -/
theorem Solid.get (h : v.Solid p) : v.get root (p.map .field) = .ok (v.follow p) := by
  induction p generalizing v with
  | nil => rfl
  | cons name rest ih =>
    refine get_cons_ok.mpr ⟨v.select name, ?_, ih h.2⟩
    rw [eq_record h.1]
    rfl

/-- A field is written to records. -/
theorem Solid.put (h : v.Solid p) : v.put root (p.map .field) x = .ok (v.fill p x) := by
  induction p generalizing v with
  | nil => rfl
  | cons name rest ih =>
    refine put_cons_ok.mpr ⟨v.select name, _, ?_, ih h.2, ?_⟩
    · rw [eq_record h.1]
      rfl
    · rw [eq_record h.1]
      rfl

/-! ## Writes -/

theorem fill_append : v.fill (p ++ q) x = v.fill p ((v.follow p).fill q x) := by
  induction p generalizing v with
  | nil => rfl
  | cons name rest ih => rw [List.cons_append, fill, fill, ih, follow_cons]

theorem fill_fill : (v.fill p x).fill p y = v.fill p y := by
  induction p generalizing v with
  | nil => rfl
  | cons name rest ih =>
    rw [fill, select_fill_self, ih]
    show record (Function.update (Function.update _ name _) name _) = record _
    rw [Function.update_idem]

/-- Writing what is there changes nothing. -/
theorem Solid.fill_follow (h : v.Solid p) : v.fill p (v.follow p) = v := by
  induction p generalizing v with
  | nil => rfl
  | cons name rest ih =>
    rw [fill, follow_cons, ih h.2, Function.update_eq_self]
    exact (eq_record h.1).symm

/-- A write below a fresh record is one below nil. -/
theorem fill_fresh (hp : p ≠ []) : fresh.fill p x = absent.fill p x := by
  cases p with
  | nil => exact absurd rfl hp
  | cons name rest => rfl

theorem follow_fill_append : (v.fill p x).follow (p ++ q) = x.follow q := by
  induction p generalizing v with
  | nil => rfl
  | cons name rest ih => rw [List.cons_append, follow_cons, select_fill_self, ih]

@[simp] theorem follow_fill : (v.fill p x).follow p = x := by
  have h : (v.fill p x).follow (p ++ []) = x.follow [] := follow_fill_append
  rwa [List.append_nil] at h

/-- A write makes a record of all above it. -/
theorem solid_fill : (v.fill p x).Solid p := by
  induction p generalizing v with
  | nil => trivial
  | cons name rest ih =>
    refine ⟨rfl, ?_⟩
    rw [select_fill_self]
    exact ih

theorem isRecord_follow_fill (h : q <+: p) (hne : q ≠ p) :
    ((v.fill p x).follow q).isRecord = true := by
  obtain ⟨rest, rfl⟩ := h
  rw [fill_append, follow_fill]
  cases rest with
  | nil => exact absurd (List.append_nil q).symm hne
  | cons name rest => rfl

/-- A write leaves what is neither above nor below it. -/
theorem follow_fill_of_apart (hp : ¬p <+: q) (hq : ¬q <+: p) :
    (v.fill p x).follow q = v.follow q := by
  induction p generalizing v q with
  | nil => exact absurd List.nil_prefix hp
  | cons name rest ih =>
    cases q with
    | nil => exact absurd List.nil_prefix hq
    | cons other more =>
      rw [follow_cons, follow_cons]
      by_cases hname : other = name
      · subst hname
        rw [select_fill_self]
        refine ih (fun h => hp ?_) fun h => hq ?_
        · exact List.cons_prefix_cons.mpr ⟨rfl, h⟩
        · exact List.cons_prefix_cons.mpr ⟨rfl, h⟩
      · rw [select_fill_of_ne hname]

/-- A write that is not above some names leaves room at these. -/
theorem Open.fill (h : v.Open q) (hp : ¬p <+: q) : (v.fill p x).Open q := by
  induction p generalizing v q with
  | nil => exact absurd List.nil_prefix hp
  | cons name rest ih =>
    cases q with
    | nil => trivial
    | cons other more =>
      refine ⟨rfl, ?_⟩
      by_cases hname : other = name
      · subst hname
        rw [select_fill_self]
        exact ih h.2 fun hrest => hp (List.cons_prefix_cons.mpr ⟨rfl, hrest⟩)
      · rw [select_fill_of_ne hname]
        exact h.2

/-! ## Allocation -/

/-- Where there is room for a record, there is one after it is allocated. -/
theorem isRecord_follow_allocated (hroom : (v.follow p).isRoom = true) :
    ((v.allocated p).follow p).isRecord = true := by
  rw [allocated]
  split
  · rename_i hset
    exact isRecord_of_isRoom hroom hset
  · rw [follow_fill]
    rfl

theorem solid_allocated (h : v.Solid p) : (v.allocated p).Solid p := by
  rw [allocated]
  split
  · exact h
  · exact solid_fill

/-- A fresh record has nothing below it, as nil has. -/
theorem follow_allocated_append (hq : q ≠ []) :
    (v.allocated p).follow (p ++ q) = v.follow (p ++ q) := by
  rw [allocated]
  split
  · rfl
  · rename_i hset
    have habsent := eq_absent hset
    rw [follow_fill_append, follow_append, habsent, follow_absent]
    cases q with
    | nil => exact absurd rfl hq
    | cons name rest => exact follow_absent

/-- A write below a record makes it if it is not there. -/
theorem fill_allocated_append (hq : q ≠ []) :
    (v.allocated p).fill (p ++ q) x = v.fill (p ++ q) x := by
  rw [allocated]
  split
  · rfl
  · rename_i hset
    have habsent := eq_absent hset
    rw [fill_append, fill_fill, follow_fill, fill_fresh hq, fill_append, habsent]

theorem Open.allocated (h : (v.follow p).Open q) : ((v.allocated p).follow p).Open q := by
  rw [GoValue.allocated]
  split
  · exact h
  · rw [follow_fill]
    cases q with
    | nil => trivial
    | cons name rest => exact ⟨rfl, open_absent⟩

/-! ## Records that stay -/

/-- At the names in `Q`, records are still records in `w`, and there is room where there was. -/
structure Extends (Q : List String → Prop) (v w : GoValue) : Prop where
  record : ∀ q, Q q → (v.follow q).isRecord = true → (w.follow q).isRecord = true
  room : ∀ q, Q q → (v.follow q).isRoom = true → (w.follow q).isRoom = true

namespace Extends

variable {Q : List String → Prop} {w : GoValue}

theorem refl : Extends Q v v :=
  ⟨fun _ _ h => h, fun _ _ h => h⟩

theorem trans (h : Extends Q v w) (h' : Extends Q w x) : Extends Q v x :=
  ⟨fun q hq hv => h'.record q hq (h.record q hq hv), fun q hq hv => h'.room q hq (h.room q hq hv)⟩

/-- A write keeps records and room at names that it is not above. -/
theorem fill (h : ∀ q, Q q → ¬p <+: q) : Extends Q v (v.fill p x) := by
  have hcases : ∀ q, Q q →
      ((v.fill p x).follow q).isRecord = true ∨ (v.fill p x).follow q = v.follow q := by
    intro q hq
    by_cases habove : q <+: p
    · exact .inl (isRecord_follow_fill habove fun heq => h q hq (heq ▸ List.prefix_rfl))
    · exact .inr (follow_fill_of_apart (h q hq) habove)
  constructor
  · intro q hq hv
    rcases hcases q hq with hrecord | hsame
    · exact hrecord
    · rwa [hsame]
  · intro q hq hv
    rcases hcases q hq with hrecord | hsame
    · exact isRoom_of_isRecord hrecord
    · rwa [hsame]

/-- Allocating a record keeps all records and all room. -/
theorem allocated : Extends Q v (v.allocated p) := by
  rw [GoValue.allocated]
  split
  · exact refl
  · rename_i hset
    have habsent := eq_absent hset
    constructor
    · intro q _ hv
      by_cases hbelow : p <+: q
      · -- Nothing was below the nil value.
        obtain ⟨rest, rfl⟩ := hbelow
        rw [follow_append, habsent, follow_absent] at hv
        cases hv
      · by_cases habove : q <+: p
        · exact isRecord_follow_fill habove fun heq => hbelow (heq ▸ List.prefix_rfl)
        · rwa [follow_fill_of_apart hbelow habove]
    · intro q _ hv
      by_cases hbelow : p <+: q
      · obtain ⟨rest, rfl⟩ := hbelow
        rw [follow_fill_append]
        cases rest with
        | nil => rfl
        | cons name rest =>
          rw [follow_cons]
          show (absent.follow rest).isRoom = true
          rw [follow_absent]
          rfl
      · by_cases habove : q <+: p
        · have hne : q ≠ p := fun heq => hbelow (heq ▸ List.prefix_rfl)
          exact isRoom_of_isRecord (isRecord_follow_fill habove hne)
        · rwa [follow_fill_of_apart hbelow habove]

end Extends

end GoValue

end RecordBridge

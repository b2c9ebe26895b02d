import RecordBridge.Place
import Mathlib.Logic.Function.Basic
import Mathlib.Logic.Relation

/-!
# Values at run time

What the variables of a conversion hold while it runs. Records are held by pointer, so an absent
record is a nil pointer; lists and tables may be nil, too. A fresh record has all fields absent,
which also stands for the zero value of a leaf. Nothing is shared: a conversion makes every record
and every container of its target itself, and never writes to its source.

The data of leaves are opaque. They are told apart by their type and their spelling, and no cast
changes them.
-/

namespace RecordBridge

/-- Data that can be an index or the key of a map. -/
inductive Datum where
  /-- The data of a leaf of a root type. -/
  | leaf (type : FieldType) (spelling : String)
  | index (n : Nat)
  | flag (on : Bool)
  /-- The mark of a key that is in a set. -/
  | mark
  deriving DecidableEq, Repr

/-- What a variable, a field or an element holds. -/
inductive GoValue where
  /-- Nil, or the zero value of a leaf. -/
  | absent
  | plain (d : Datum)
  /-- A pointer to the data of a leaf. -/
  | pointer (d : Datum)
  /-- A pointer to a record. -/
  | record (fields : String → GoValue)
  | list (length : Nat) (item : Nat → GoValue)
  | table (keys : List Datum) (entry : Datum → GoValue)

/-- Why a run stops with a panic, or cannot go on. -/
inductive Fault where
  /-- A nil value below a variable is dereferenced. -/
  | nilBelow (root : Var)
  | outOfRange
  /-- Values are not of the types that the code expects. -/
  | illTyped
  /-- A local function is called where it is not in scope. -/
  | undefined (helper : Var)
  /-- Local functions are called more deeply than allowed. -/
  | exhausted
  deriving DecidableEq, Repr

namespace GoValue

/-- A record without any data. -/
def fresh : GoValue :=
  .record fun _ => .absent

/-- The datum of an index or a key. -/
def datum : GoValue → Datum
  | .plain d => d
  | _ => .mark

/-- Whether a value is not nil. -/
def isSet : GoValue → Bool
  | .absent => false
  | _ => true

theorem eq_absent {v : GoValue} (h : ¬v.isSet = true) : v = .absent := by
  cases v with
  | absent => rfl
  | _ => exact absurd rfl h

/-- A direct part of a value. -/
inductive Part : GoValue → GoValue → Prop where
  | field (fields : String → GoValue) (name : String) : Part (fields name) (.record fields)
  | element (length : Nat) (item : Nat → GoValue) (i : Nat) :
    Part (item i) (.list length item)
  | entry (keys : List Datum) (entry : Datum → GoValue) (k : Datum) :
    Part (entry k) (.table keys entry)

/-- Values are built up from their parts. -/
theorem wellFounded_part : WellFounded Part := by
  refine ⟨fun v => ?_⟩
  induction v with
  | absent => exact ⟨_, nofun⟩
  | plain d => exact ⟨_, nofun⟩
  | pointer d => exact ⟨_, nofun⟩
  | record fields ih =>
    refine ⟨_, fun u h => ?_⟩
    cases h
    exact ih _
  | list length item ih =>
    refine ⟨_, fun u h => ?_⟩
    cases h
    exact ih _
  | table keys entry ih =>
    refine ⟨_, fun u h => ?_⟩
    cases h
    exact ih _

end GoValue

/-! ## Access -/

/-- A step from a value to one of its parts. -/
inductive Access where
  | field (name : String)
  | element (key : Datum)
  deriving DecidableEq, Repr

namespace Access

/-- The part that a step leads to. A key that is not in a table leads to nothing. -/
def read (root : Var) : Access → GoValue → Except Fault GoValue
  | .field name, .record fields => .ok (fields name)
  | .element k, .list length item =>
    match k with
    | .index i => if i < length then .ok (item i) else .error .outOfRange
    | _ => .error .illTyped
  | .element k, .table keys entry => .ok (if k ∈ keys then entry k else .absent)
  | _, .absent => .error (.nilBelow root)
  | _, _ => .error .illTyped

/-- The value with another part at a step that leads somewhere. -/
def write (new : GoValue) : Access → GoValue → GoValue
  | .field name, .record fields => .record (Function.update fields name new)
  | .element k, .list length item =>
    match k with
    | .index i => .list length (Function.update item i new)
    | _ => .list length item
  | .element k, .table keys entry =>
    .table (if k ∈ keys then keys else keys ++ [k]) (Function.update entry k new)
  | _, v => v

section Equations

variable {root : Var} {name : String} {fields : String → GoValue} {length i : Nat}
  {item : Nat → GoValue} {keys : List Datum} {entry : Datum → GoValue} {k : Datum} {x : GoValue}

@[simp] theorem read_field :
    (Access.field name).read root (.record fields) = .ok (fields name) :=
  rfl

@[simp] theorem read_item : (Access.element (.index i)).read root (.list length item) =
    if i < length then .ok (item i) else .error .outOfRange :=
  rfl

@[simp] theorem read_entry : (Access.element k).read root (.table keys entry) =
    .ok (if k ∈ keys then entry k else .absent) :=
  rfl

@[simp] theorem write_field :
    (Access.field name).write x (.record fields) = .record (Function.update fields name x) :=
  rfl

@[simp] theorem write_item : (Access.element (.index i)).write x (.list length item) =
    .list length (Function.update item i x) :=
  rfl

@[simp] theorem write_entry : (Access.element k).write x (.table keys entry) =
    .table (if k ∈ keys then keys else keys ++ [k]) (Function.update entry k x) :=
  rfl

end Equations

/-- The keys of a table after a write. -/
theorem mem_keys_write (k : Datum) (keys : List Datum) :
    k ∈ if k ∈ keys then keys else keys ++ [k] := by
  split
  · assumption
  · exact List.mem_append_right _ (List.mem_singleton_self k)

variable {root : Var} {a : Access} {u v x y : GoValue}

theorem read_write (h : a.read root v = .ok u) : a.read root (a.write x v) = .ok x := by
  cases a with
  | field name =>
    cases v with
    | record fields => simp
    | _ => cases h
  | element k =>
    cases v with
    | list length item =>
      cases k with
      | index i =>
        by_cases hlt : i < length
        · simp [hlt]
        · rw [read_item, if_neg hlt] at h
          cases h
      | _ => cases h
    | table keys entry => simp [mem_keys_write]
    | _ => cases h

theorem write_write : a.write y (a.write x v) = a.write y v := by
  cases a with
  | field name =>
    cases v with
    | record fields => simp
    | _ => rfl
  | element k =>
    cases v with
    | list length item =>
      cases k with
      | index i => simp
      | _ => rfl
    | table keys entry => simp [mem_keys_write]
    | _ => rfl

/-- A part that is written back changes nothing. -/
theorem write_self (h : a.read root v = .ok u) (hset : u.isSet = true) : a.write u v = v := by
  cases a with
  | field name =>
    cases v with
    | record fields =>
      cases h
      simp
    | _ => cases h
  | element k =>
    cases v with
    | list length item =>
      cases k with
      | index i =>
        rw [read_item] at h
        split at h <;> cases h
        simp
      | _ => cases h
    | table keys entry =>
      rw [read_entry] at h
      split at h <;> cases h
      · rename_i hmem
        simp [hmem]
      · -- A key that is missing reads as absent, which is not set.
        cases hset
    | _ => cases h

/-- Only a value that is not nil has parts. -/
theorem isSet_of_read (h : a.read root v = .ok u) : v.isSet = true := by
  cases v with
  | absent => cases a <;> cases h
  | _ => rfl

end Access

namespace GoValue

/-- The value at the end of some steps. -/
def get (root : Var) : List Access → GoValue → Except Fault GoValue
  | [], v => .ok v
  | a :: rest, v => do
    let inner ← a.read root v
    inner.get root rest

/-- The value with another one at the end of some steps. -/
def put (root : Var) : GoValue → List Access → (new : GoValue) → Except Fault GoValue
  | _, [], new => .ok new
  | v, a :: rest, new => do
    let inner ← a.read root v
    let changed ← inner.put root rest new
    .ok (a.write changed v)

variable {root : Var} {path more : List Access} {u v w x y : GoValue}

@[simp] theorem get_nil : v.get root [] = .ok v :=
  rfl

@[simp] theorem put_nil : v.put root [] x = .ok x :=
  rfl

theorem get_cons_ok {a : Access} :
    v.get root (a :: path) = .ok u ↔ ∃ inner, a.read root v = .ok inner ∧
      inner.get root path = .ok u := by
  show (a.read root v >>= fun inner => inner.get root path) = _ ↔ _
  cases a.read root v with
  | error fault => exact ⟨nofun, fun ⟨_, h, _⟩ => nomatch h⟩
  | ok inner => exact ⟨fun h => ⟨inner, rfl, h⟩, fun ⟨_, h, hget⟩ => by cases h; exact hget⟩

theorem put_cons_ok {a : Access} :
    v.put root (a :: path) x = .ok w ↔ ∃ inner changed, a.read root v = .ok inner ∧
      inner.put root path x = .ok changed ∧ w = a.write changed v := by
  show (a.read root v >>= fun inner => inner.put root path x >>= fun changed =>
    Except.ok (a.write changed v)) = _ ↔ _
  -- The three steps are taken in order, and each may be the one that fails.
  cases a.read root v with
  | error fault => exact ⟨nofun, fun ⟨_, _, h, _⟩ => nomatch h⟩
  | ok inner =>
    show (inner.put root path x >>= fun changed => Except.ok (a.write changed v)) = _ ↔ _
    cases hput : inner.put root path x with
    | error fault =>
      exact ⟨nofun, fun ⟨_, _, h, h', _⟩ => by cases h; rw [hput] at h'; cases h'⟩
    | ok changed =>
      constructor
      · intro h
        cases h
        exact ⟨inner, changed, rfl, hput, rfl⟩
      · rintro ⟨inner', changed', h, h', rfl⟩
        cases h
        rw [hput] at h'
        cases h'
        rfl

/-- Steps after steps. -/
theorem get_append (h : v.get root path = .ok u) :
    v.get root (path ++ more) = u.get root more := by
  induction path generalizing v with
  | nil =>
    cases h
    rfl
  | cons a path ih =>
    obtain ⟨inner, hread, hget⟩ := get_cons_ok.mp h
    show (a.read root v >>= fun inner => inner.get root (path ++ more)) = _
    rw [hread]
    exact ih hget

theorem get_prefix {w : GoValue} (h : v.get root (path ++ more) = .ok w) :
    ∃ u, v.get root path = .ok u ∧ u.get root more = .ok w := by
  induction path generalizing v with
  | nil => exact ⟨v, rfl, h⟩
  | cons a path ih =>
    obtain ⟨inner, hread, hget⟩ := get_cons_ok.mp h
    obtain ⟨u, hu, hw⟩ := ih hget
    exact ⟨u, get_cons_ok.mpr ⟨inner, hread, hu⟩, hw⟩

/-- A value that has a part is not nil. -/
theorem isSet_of_get_cons {a : Access} (h : v.get root (a :: path) = .ok u) : v.isSet = true := by
  obtain ⟨inner, hread, -⟩ := get_cons_ok.mp h
  exact Access.isSet_of_read hread

/-- A value can be replaced where one can be read. -/
theorem put_of_get (h : v.get root path = .ok u) (x : GoValue) :
    ∃ w, v.put root path x = .ok w := by
  induction path generalizing v with
  | nil => exact ⟨x, rfl⟩
  | cons a path ih =>
    obtain ⟨inner, hread, hget⟩ := get_cons_ok.mp h
    obtain ⟨changed, hput⟩ := ih hget
    exact ⟨_, put_cons_ok.mpr ⟨inner, changed, hread, hput, rfl⟩⟩

/-- A value that is put back changes nothing. -/
theorem put_self (h : v.get root path = .ok u) (hset : u.isSet = true) :
    v.put root path u = .ok v := by
  induction path generalizing v with
  | nil =>
    cases h
    rfl
  | cons a path ih =>
    obtain ⟨inner, hread, hget⟩ := get_cons_ok.mp h
    refine put_cons_ok.mpr ⟨inner, inner, hread, ih hget, (Access.write_self hread ?_).symm⟩
    cases path with
    | nil =>
      cases hget
      exact hset
    | cons b path => exact isSet_of_get_cons hget

/-- What is put somewhere is found there. -/
theorem get_put (h : v.put root path x = .ok w) : w.get root path = .ok x := by
  induction path generalizing v w with
  | nil =>
    cases h
    rfl
  | cons a path ih =>
    obtain ⟨inner, changed, hread, hput, rfl⟩ := put_cons_ok.mp h
    exact get_cons_ok.mpr ⟨changed, Access.read_write hread, ih hput⟩

/-- The second of two values put in one place stays there. -/
theorem put_put (h : v.put root path x = .ok w) : w.put root path y = v.put root path y := by
  induction path generalizing v w with
  | nil => rfl
  | cons a path ih =>
    obtain ⟨inner, changed, hread, hput, rfl⟩ := put_cons_ok.mp h
    show (a.read root (a.write changed v) >>= fun inner =>
        inner.put root path y >>= fun u => Except.ok (a.write u (a.write changed v))) =
      (a.read root v >>= fun inner => inner.put root path y >>= fun u => Except.ok (a.write u v))
    rw [Access.read_write hread, hread]
    simp only [Access.write_write]
    show (changed.put root path y >>= _) = (inner.put root path y >>= _)
    rw [ih hput]

/-- Putting a value below a place changes what is there. -/
theorem put_append (h : v.get root path = .ok u) (hchange : u.put root more x = .ok y) :
    v.put root (path ++ more) x = v.put root path y := by
  induction path generalizing v with
  | nil =>
    cases h
    exact hchange
  | cons a path ih =>
    obtain ⟨inner, hread, hget⟩ := get_cons_ok.mp h
    show (a.read root v >>= fun inner =>
        inner.put root (path ++ more) x >>= fun w => Except.ok (a.write w v)) =
      (a.read root v >>= fun inner => inner.put root path y >>= fun w => Except.ok (a.write w v))
    rw [hread]
    show (inner.put root (path ++ more) x >>= _) = (inner.put root path y >>= _)
    rw [ih hget]

end GoValue

end RecordBridge

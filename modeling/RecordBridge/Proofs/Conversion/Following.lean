import RecordBridge.Proofs.Conversion.Reference
import RecordBridge.Proofs.Execution.Frame

/-!
# Following names through records

A mapping leads to a source through the fields of records, each of which may be nil. `GoValue.given?` is
what is found at the end of the way, if nothing on it is nil. The tests of all fields on the way tell
whether that is so.
-/

namespace RecordBridge

/-- The names of fields are identifiers. -/
def Identified (fields : List Field) : Prop :=
  ∀ f ∈ fields, IsIdentifier f.name

instance (fields : List Field) : Decidable (Identified fields) :=
  inferInstanceAs (Decidable (∀ f ∈ fields, IsIdentifier f.name))

namespace GoValue

/-- The value at the end of some fields, if neither it nor anything on the way is nil. -/
def given? : Path → GoValue → Option GoValue
  | [], v => if v.isSet then some v else none
  | .field name :: rest, .record vs => (vs name).given? rest
  | _, _ => none

/-- There are records on the way through some fields, or nil, and the last one holds a value of a field
at a name. -/
def Leads (s : Schema) (f : Field) (name : String) : List String → GoValue → Prop
  | _, .absent => True
  | [], .record vs => Fits s (!f.required) f.type (vs name)
  | next :: names, .record vs => (vs next).Leads s f name names
  | _, _ => False

theorem given?_absent (path : Path) : GoValue.absent.given? path = none := by
  cases path with
  | nil => rfl
  | cons s path => cases s <;> rfl

theorem leads_absent {s : Schema} {f : Field} {name : String} {names : List String} :
    GoValue.absent.Leads s f name names := by
  cases names <;> trivial

end GoValue

section Following

variable {s : Schema}

/-- Names are followed through fields, whose names are identifiers. Values of the schema have records
there. -/
theorem followSource_spec (hrecord : ∀ ref, Identified (s.fields ref)) {pieces : List String}
    {before : Path} {fields : List Field} {found : Path × Field} (hfields : Identified fields)
    (h : followSource s before fields pieces = some found) :
    ∃ (names : List String) (name : String), (∀ n ∈ names, IsIdentifier n) ∧
      IsIdentifier name ∧ found.1 = before ++ names.map .field ++ [.field name] ∧
      ∀ vs, FieldsFit s fields vs → (GoValue.record vs).Leads s found.2 name names := by
  induction pieces generalizing before fields with
  | nil => cases h
  | cons piece rest ih =>
    obtain ⟨g, hfind, hrest⟩ := followSource_cons.mp h
    have hmem : g ∈ fields := List.mem_of_find?_eq_some hfind
    have hname := (hfields g hmem).pascal
    have hhere := hname.select before
    rcases hrest with ⟨-, rfl⟩ | ⟨-, ref, href, hmore⟩
    · exact ⟨[], pascal g.name, nofun, hname, by simpa using hhere, fun vs hvs => hvs g hmem⟩
    · obtain ⟨names, name, hnames, hlast, hpath, hleads⟩ := ih (hrecord ref) hmore
      refine ⟨pascal g.name :: names, name, ?_, hlast, ?_, fun vs hvs => ?_⟩
      · intro n hn
        rcases List.mem_cons.mp hn with rfl | hn
        · exact hname
        · exact hnames n hn
      · rw [hpath, hhere]
        simp
      · -- The field holds nil, or a record with values for its fields.
        show (vs (pascal g.name)).Leads s found.2 name names
        by_cases hset : (vs (pascal g.name)).isSet = true
        · obtain ⟨ws, hws, hfits⟩ :=
            (hvs g hmem).exists_record (FieldType.root_of_record href) hset
          rw [hws]
          exact hleads ws hfits
        · rw [GoValue.eq_absent hset]
          exact GoValue.leads_absent

end Following

/-! ## Tests on the way -/

section Selections

variable {σ : State} {root : Var} {names : List String} {name : String}

/-- The fields that are selected one by one. -/
theorem Path.selections_field (hname : IsIdentifier name) (before : Path) (names : List String) :
    Path.selections before (.field name :: names.map .field) =
      (before ++ [.field name]) :: Path.selections (before ++ [.field name]) (names.map .field) := by
  have hnext : startsIndexed (names.map Step.field) = false := by
    cases names <;> rfl
  simp [selections, hname.takesElement, hnext]

theorem Path.selections_concat (hnames : ∀ m ∈ names, IsIdentifier m) (hname : IsIdentifier name)
    (before : Path) : Path.selections before (names.map .field ++ [.field name]) =
      Path.selections before (names.map .field) ++ [before ++ names.map .field ++ [.field name]] := by
  induction names generalizing before with
  | nil => simpa [selections] using Path.selections_field hname before []
  | cons m names ih =>
    have hm := hnames m List.mem_cons_self
    have hrest := ih (fun n hn => hnames n (List.mem_cons_of_mem _ hn)) (before ++ [.field m])
    have hmore := Path.selections_field hm before (names ++ [name])
    rw [List.map_append, List.map_singleton] at hmore
    rw [List.map_cons, List.cons_append, hmore, hrest, Path.selections_field hm]
    simp

theorem Place.selections_concat (root : Var) (hnames : ∀ m ∈ names, IsIdentifier m)
    (hname : IsIdentifier name) :
    (Place.select ⟨root, names.map .field⟩ name).selections =
      Place.selections ⟨root, names.map .field⟩ ++
        [Place.select ⟨root, names.map .field⟩ name] := by
  have hpath : Place.select ⟨root, names.map .field⟩ name =
      ⟨root, names.map .field ++ [.field name]⟩ := by rw [select, hname.select]
  rw [hpath, selections, Path.selections_concat hnames hname, List.map_append]
  rfl

/-- The tests of all fields on the way tell whether they lead to a value. If so, it is a record. -/
theorem State.allSet_selections {s : Schema} {f : Field} {last : String} {before : Path} {u : GoValue}
    (hnames : ∀ m ∈ names, IsIdentifier m) (hread : σ.read ⟨root, before⟩ = .ok u)
    (hset : u.isSet = true) (hleads : u.Leads s f last names) :
    σ.allSet ((Path.selections before (names.map .field)).map (Place.mk root)) =
        .ok (u.given? (names.map .field)).isSome ∧
      ∀ v, u.given? (names.map .field) = some v →
        σ.read ⟨root, before ++ names.map .field⟩ = .ok v ∧
          ∃ vs, v = .record vs ∧ Fits s (!f.required) f.type (vs last) := by
  induction names generalizing before u with
  | nil =>
    have hgiven : u.given? [] = some u := if_pos hset
    rw [List.map_nil, hgiven]
    refine ⟨rfl, fun v hv => ?_⟩
    cases hv
    rw [List.append_nil]
    refine ⟨hread, ?_⟩
    cases u with
    | absent => cases hset
    | record vs => exact ⟨vs, rfl, hleads⟩
    | _ => exact hleads.elim
  | cons m names ih =>
    have hm := hnames m List.mem_cons_self
    cases u with
    | absent => cases hset
    | record vs =>
      change (vs m).Leads s f last names at hleads
      have hnext : σ.read ⟨root, before ++ [.field m]⟩ = .ok (vs m) := by
        rw [State.read, List.map_append]
        exact GoValue.get_append hread
      -- The step to the next record is read, as the one above it is set; it is tested before the others.
      rw [List.map_cons, Path.selections_field hm, List.map_cons, State.allSet, hnext]
      show (if (vs m).isSet then _ else _) = Except.ok ((vs m).given? (names.map .field)).isSome ∧
        ∀ v, (vs m).given? (names.map .field) = some v → _
      by_cases hset' : (vs m).isSet = true
      · rw [if_pos hset']
        have hrest := ih (fun n hn => hnames n (List.mem_cons_of_mem _ hn)) hnext hset' hleads
        rwa [List.append_assoc] at hrest
      · -- The tests end at the first record that is nil, and nothing is given beneath it.
        rw [if_neg hset', GoValue.eq_absent hset', GoValue.given?_absent]
        exact ⟨rfl, fun _ h => absurd h.symm (Option.some_ne_none _)⟩
    | _ => exact hleads.elim

end Selections

end RecordBridge

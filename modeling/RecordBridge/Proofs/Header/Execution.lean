import RecordBridge.Header.Form
import RecordBridge.Proofs.Draft
import RecordBridge.Proofs.Execution.Fields

/-!
# Runs of statements that use headers

What statements that bind or read headers do, read as Go. A run goes from state to state or stops at a
fault. It is open which headers there are, which texts spell literals and what conversions between
types yield: a `HeaderSource` tells. Variables that a block declares are out of scope after it; a use
of a variable that is not in scope is a fault, too.

Two pieces of code recur. A guard allocates a record where there is none (`exec_guard`), and the
statements of a `HeaderForm` write the datum that a text is in this form (`HeaderForm.exec_store`).
Both run where all above their place are records.
-/

namespace RecordBridge

/-- Where the values of headers come from. -/
structure HeaderSource where
  /-- The text of a header, if it is there. -/
  text : (header : String) → Option String
  /-- The datum that a text spells, if it spells one. -/
  read : Literal → (text : String) → Option Datum
  /-- A datum in another type. -/
  cast : GoType → Datum → Datum

/-- The state of a run. -/
structure HeaderState where
  vars : Var → GoValue
  /-- The values of the header variables in scope. -/
  values : HeaderVar → Option Datum := fun _ => none
  /-- Whether the header of a variable was there, where this was kept. -/
  found : HeaderVar → Option Bool := fun _ => none

/-- What a step selects. No element is taken where headers are used. -/
def Step.access : Step → Access
  | .field name => .field name
  | .index _ | .keyAs _ _ => .element .mark

namespace HeaderState

/-- The value at a place. -/
def read (σ : HeaderState) (p : Place) : Except Fault GoValue :=
  (σ.vars p.root).get p.root (p.path.map Step.access)

/-- The state with another value of a variable. -/
def set (σ : HeaderState) (v : Var) (x : GoValue) : HeaderState :=
  { σ with vars := Function.update σ.vars v x }

/-- The state with another value at a place. -/
def assign (σ : HeaderState) (p : Place) (x : GoValue) : Except Fault HeaderState := do
  let changed ← (σ.vars p.root).put p.root (p.path.map Step.access) x
  .ok (σ.set p.root changed)

/-- The state with a header variable in scope. -/
def bind (σ : HeaderState) (v : HeaderVar) (d : Datum) : HeaderState :=
  { σ with values := Function.update σ.values v (some d) }

/-- The state in which it is kept whether the header of a variable was there. -/
def keep (σ : HeaderState) (v : HeaderVar) (there : Bool) : HeaderState :=
  { σ with found := Function.update σ.found v (some there) }

/-- The value of a header variable in scope. -/
def value (σ : HeaderState) (v : HeaderVar) : Except Fault Datum :=
  match σ.values v with
  | some d => .ok d
  | none => .error .illTyped

/-- The state after a block that has ended in the state `τ`. -/
def afterBlock (σ τ : HeaderState) : HeaderState :=
  { σ with vars := τ.vars }

end HeaderState

/-- The text that a datum is, if it is one. -/
def Datum.text : Datum → Except Fault String
  | .leaf .text s => .ok s
  | _ => .error .illTyped

/-- Whether a value is a text other than the empty one. -/
def GoValue.isNotEmpty : GoValue → Bool
  | .plain (.leaf _ spelling) => spelling ≠ ""
  | _ => false

/-- A datum as a field holds it: by pointer unless it is required. -/
def GoValue.holding (required : Bool) (d : Datum) : GoValue :=
  if required then .plain d else .pointer d

variable (src : HeaderSource)

/-- What a simple statement does. -/
def HeaderStatement.exec (σ : HeaderState) : HeaderStatement → Except Fault HeaderState
  | .allocate place _ => σ.assign place .fresh
  | .store place v byAddress => do
    let d ← σ.value v
    σ.assign place (.holding (!byAddress) d)
  | .storeAs place type v => do
    let d ← σ.value v
    σ.assign place (.plain (src.cast type d))
  | .convert type v => do
    let d ← σ.value v
    .ok (σ.bind .converted (src.cast type d))
  | .fetch v header => .ok (σ.bind v (.leaf .text ((src.text header).getD "")))
  | .fetchTested v header =>
    .ok ((σ.bind v (.leaf .text ((src.text header).getD ""))).keep v (src.text header).isSome)

/-- The state in which the block of a head starts, if it runs. -/
def HeaderHead.enter (σ : HeaderState) : HeaderHead → Except Fault (Option HeaderState)
  | .ifHeader header => .ok ((src.text header).map fun t => σ.bind .text (.leaf .text t))
  | .ifUnset place => do
    let v ← σ.read place
    .ok (if v.isSet then none else some σ)
  | .ifNotEmpty place => do
    let v ← σ.read place
    .ok (if v.isNotEmpty then some σ else none)
  | .ifExists v =>
    match σ.found v with
    | some there => .ok (if there then some σ else none)
    | none => .error .illTyped
  | .ifParsed l v => do
    let d ← σ.value v
    let t ← d.text
    .ok ((src.read l t).map (σ.bind .parsed))

/-- Runs a block. -/
def HeaderCode.exec : HeaderCode → HeaderState → Except Fault HeaderState
  | .done, σ => .ok σ
  | .step s rest, σ => do
    let τ ← s.exec src σ
    HeaderCode.exec rest τ
  | .nest head body rest, σ => do
    match ← head.enter src σ with
    | none => HeaderCode.exec rest σ
    | some inner =>
      let τ ← HeaderCode.exec body inner
      HeaderCode.exec rest (σ.afterBlock τ)
  | .fork head yes no rest, σ => do
    let τ ← match ← head.enter src σ with
      | none => HeaderCode.exec no σ
      | some inner => HeaderCode.exec yes inner
    HeaderCode.exec rest (σ.afterBlock τ)

namespace HeaderCode

variable {src} {σ τ : HeaderState} {a b body rest : HeaderCode} {head : HeaderHead}

@[simp] theorem exec_done : exec src .done σ = .ok σ :=
  rfl

@[simp] theorem exec_step {s : HeaderStatement} :
    exec src (.step s rest) σ = (do
      let τ ← s.exec src σ
      exec src rest τ) :=
  rfl

/-- A block that is passed over. -/
theorem exec_nest_none (h : head.enter src σ = .ok none) :
    exec src (.nest head body rest) σ = exec src rest σ := by
  rw [exec, h]
  rfl

/-- A block that runs. -/
theorem exec_nest_some {inner : HeaderState} (h : head.enter src σ = .ok (some inner)) :
    exec src (.nest head body rest) σ = (do
      let τ ← exec src body inner
      exec src rest (σ.afterBlock τ)) := by
  rw [exec, h]
  rfl

theorem exec_append (a b : HeaderCode) (σ : HeaderState) :
    exec src (a ++ b) σ = (do
      let τ ← exec src a σ
      exec src b τ) := by
  induction a generalizing σ with
  | done => rfl
  | step s rest ih =>
    show (s.exec src σ >>= fun τ => exec src (rest ++ b) τ) = _
    rw [exec_step, bind_assoc]
    exact congrArg _ (funext fun τ => ih τ)
  | nest head body rest _ ih =>
    rw [Block.nest_append, exec, exec, bind_assoc]
    refine congrArg _ (funext fun entered => ?_)
    -- If the block is not entered the state stays, else what it declared is dropped.
    cases entered with
    | none => exact ih σ
    | some inner =>
      show (exec src body inner >>= fun τ => exec src (rest ++ b) (σ.afterBlock τ)) = _
      simp only [ih, bind_assoc]
  | fork head yes no rest _ _ ih =>
    rw [Block.fork_append, exec, exec, bind_assoc]
    refine congrArg _ (funext fun entered => ?_)
    cases entered <;> simp only [ih, bind_assoc]

/-- What runs after code that has run. -/
theorem exec_append_of (h : exec src a σ = .ok τ) : exec src (a ++ b) σ = exec src b τ := by
  rw [exec_append, h]
  rfl

end HeaderCode

/-! ## Places of fields -/

namespace HeaderState

variable {σ τ : HeaderState} {root : Var} {names : List String} {x y : GoValue}

theorem values_bind {v : HeaderVar} {d : Datum} : (σ.bind v d).values v = some d := by
  simp [HeaderState.bind]

/-- The block of a header that was looked up runs if it was there. -/
theorem enter_ifExists {src : HeaderSource} {v : HeaderVar} {there : Bool} :
    (HeaderHead.ifExists v).enter src (σ.keep v there) =
      .ok (if there then some (σ.keep v there) else none) := by
  simp [HeaderHead.enter, keep]

@[simp] theorem vars_bind {v : HeaderVar} {d : Datum} : (σ.bind v d).vars = σ.vars :=
  rfl

@[simp] theorem values_set : (σ.set root x).values = σ.values :=
  rfl

@[simp] theorem vars_set : (σ.set root x).vars root = x := by
  simp [set]

@[simp] theorem set_set : (σ.set root x).set root y = σ.set root y := by
  simp [set]

@[simp] theorem set_self : σ.set root (σ.vars root) = σ := by
  simp [set]

/-- What a block leaves of a state in which it has set a variable alone. -/
theorem afterBlock_of_vars (h : τ.vars = (σ.set root x).vars) : σ.afterBlock τ = σ.set root x := by
  rw [afterBlock, h]
  rfl

theorem map_access (names : List String) :
    (names.map Step.field).map Step.access = names.map Access.field := by
  rw [List.map_map]
  rfl

theorem read_of_solid (h : (σ.vars root).Solid names) :
    σ.read ⟨root, names.map .field⟩ = .ok ((σ.vars root).follow names) := by
  rw [read, map_access]
  exact h.get

theorem assign_of_solid (h : (σ.vars root).Solid names) :
    σ.assign ⟨root, names.map .field⟩ x = .ok (σ.set root ((σ.vars root).fill names x)) := by
  rw [assign, map_access, h.put]
  rfl

end HeaderState

/-! ## Tests of fields -/

namespace HeaderHead

variable {σ : HeaderState} {root : Var} {names : List String}

/-- A test of a field in records lets its block run if nothing is there. -/
theorem enter_ifUnset (h : (σ.vars root).Solid names) :
    (ifUnset ⟨root, names.map .field⟩).enter src σ =
      .ok (if ((σ.vars root).follow names).isSet then none else some σ) := by
  rw [enter, HeaderState.read_of_solid h]
  rfl

/-- A test of a field in records lets its block run if a text is there. -/
theorem enter_ifNotEmpty (h : (σ.vars root).Solid names) :
    (ifNotEmpty ⟨root, names.map .field⟩).enter src σ =
      .ok (if ((σ.vars root).follow names).isNotEmpty then some σ else none) := by
  rw [enter, HeaderState.read_of_solid h]
  rfl

end HeaderHead

/-! ## Guards -/

/-- Code that allocates a record where there is none. -/
abbrev HeaderCode.guard (place : Place) (type : GoType) (rest : HeaderCode) : HeaderCode :=
  .nest (.ifUnset place) (.ofList [.allocate place type]) rest

section Guards

variable {src} {σ : HeaderState} {root : Var} {names : List String} {type : GoType}
  {rest : HeaderCode}

/-- A guard for a record below records allocates it. -/
theorem HeaderCode.exec_guard (h : (σ.vars root).Solid names) :
    exec src (.guard ⟨root, names.map .field⟩ type rest) σ =
      exec src rest (σ.set root ((σ.vars root).allocated names)) := by
  have henter := HeaderHead.enter_ifUnset src h
  -- The test is on what is there before: a record that is set is left, and its block passed over.
  by_cases hset : ((σ.vars root).follow names).isSet = true
  · rw [if_pos hset] at henter
    rw [exec_nest_none henter, GoValue.allocated, if_pos hset, HeaderState.set_self]
  · rw [if_neg hset] at henter
    rw [exec_nest_some henter, Block.ofList, exec_step, HeaderStatement.exec,
      HeaderState.assign_of_solid h, GoValue.allocated, if_neg hset]
    rfl

end Guards

/-! ## Requests -/

/-- Wherever the schema has a record, there is one or nil. Other fields may hold anything. -/
inductive HoldsRecords (s : Schema) : FieldType → GoValue → Prop where
  | nothing {t : FieldType} : HoldsRecords s t .absent
  | record {t : FieldType} {ref : RecordRef} {fields : String → GoValue} (ht : t.record? = some ref)
    (hfields : ∀ f ∈ s.fields ref, HoldsRecords s f.type (fields (pascal f.name))) :
    HoldsRecords s t (.record fields)
  | other {t : FieldType} {v : GoValue} (ht : t.record? = none) : HoldsRecords s t v

namespace HoldsRecords

variable {s : Schema} {t : FieldType} {ref : RecordRef} {v : GoValue}

theorem isRoom (h : HoldsRecords s t v) (ht : t.record? = some ref) : v.isRoom = true := by
  cases h with
  | nothing | record _ _ => rfl
  | other hother =>
    rw [ht] at hother
    cases hother

theorem select (h : HoldsRecords s t v) (ht : t.record? = some ref) {f : Field}
    (hf : f ∈ s.fields ref) : HoldsRecords s f.type (v.select (pascal f.name)) := by
  cases h with
  | nothing => exact .nothing
  | record hrecord hfields =>
    rw [ht] at hrecord
    cases hrecord
    exact hfields f hf
  | other hother =>
    rw [ht] at hother
    cases hother

end HoldsRecords

/-- A request record with some fields: its records are records or nil. -/
structure IsRequest (s : Schema) (fields : List Field) (v : GoValue) : Prop where
  isRecord : v.isRecord = true
  holds : ∀ f ∈ fields, HoldsRecords s f.type (v.select (pascal f.name))

/-! ## Values in a form -/

/-- The type to which a literal is narrowed after it is read. -/
def Literal.narrowed? : Literal → Option GoType
  | .int 16 => some .int16
  | .int 32 => some .int32
  | _ => none

/-- The datum that a text is in a form. -/
def HeaderForm.parse (form : HeaderForm) (t : String) : Option Datum :=
  match form with
  | .plain => some (.leaf .text t)
  | .named type => some (src.cast type (.leaf .text t))
  | .literal l =>
    (src.read l t).map fun d => match l.narrowed? with
      | some type => src.cast type d
      | none => d

/-- The value after a text was written to a field, if it is anything in a form. -/
def HeaderForm.stored (form : HeaderForm) (names : List String) (t : String) (required : Bool)
    (v : GoValue) : GoValue :=
  match form.parse src t with
  | some d => v.fill names (.holding required d)
  | none => v

namespace HeaderForm

variable {src} {σ : HeaderState} {root : Var} {names : List String} {v : HeaderVar} {t : String}
  {d : Datum} {type : GoType}

/-- The statement that writes a variable as a field holds it. -/
theorem exec_hold (required : Bool) (hv : σ.values v = some d) (h : (σ.vars root).Solid names) :
    HeaderCode.exec src (.ofList [.store ⟨root, names.map .field⟩ v (!required)]) σ =
      .ok (σ.set root ((σ.vars root).fill names (.holding required d))) := by
  rw [Block.ofList, HeaderCode.exec_step, HeaderStatement.exec, HeaderState.value, hv]
  show (σ.assign _ _ >>= _) = _
  rw [HeaderState.assign_of_solid h, Bool.not_not]
  rfl

/-- The statements that convert a variable and write what it is converted to. -/
theorem exec_convert (required : Bool) (hv : σ.values v = some d)
    (h : (σ.vars root).Solid names) :
    HeaderCode.exec src
        (.ofList [.convert type v, .store ⟨root, names.map .field⟩ .converted (!required)]) σ =
      .ok ((σ.bind .converted (src.cast type d)).set root
        ((σ.vars root).fill names (.holding required (src.cast type d)))) := by
  rw [Block.ofList, HeaderCode.exec_step, HeaderStatement.exec, HeaderState.value, hv]
  exact exec_hold required HeaderState.values_bind h

/-- A literal is read, narrowed and written. -/
theorem store_literal (l : Literal) (place : Place) (v : HeaderVar) (required : Bool) :
    (HeaderForm.literal l).store place v required =
      .nest (.ifParsed l v)
        (match l.narrowed? with
          | some type => .ofList [.convert type .parsed, .store place .converted (!required)]
          | none => .ofList [.store place .parsed (!required)])
        .done := by
  fun_cases Literal.narrowed? l with
  | case1 | case2 => rfl
  | case3 h16 h32 => rw [store] <;> assumption

/-- The statements of a form write what a text is in it, if it is anything. -/
theorem exec_store (src : HeaderSource) (form : HeaderForm) (required : Bool)
    (hv : σ.values v = some (.leaf .text t)) (h : (σ.vars root).Solid names) :
    ∃ τ, HeaderCode.exec src (form.store ⟨root, names.map .field⟩ v required) σ = .ok τ ∧
      τ.vars = (σ.set root (form.stored src names t required (σ.vars root))).vars := by
  cases form with
  | plain => exact ⟨_, exec_hold required hv h, rfl⟩
  | named type =>
    cases required with
    | false => exact ⟨_, exec_convert false hv h, rfl⟩
    | true =>
      refine ⟨σ.set root _, ?_, rfl⟩
      show HeaderCode.exec src (.ofList [.storeAs _ type v]) σ = _
      rw [Block.ofList, HeaderCode.exec_step, HeaderStatement.exec, HeaderState.value, hv]
      show (σ.assign _ _ >>= _) = _
      rw [HeaderState.assign_of_solid h]
      rfl
  | literal l =>
    -- The text is parsed before anything is stored; what cannot be parsed stores nothing.
    have henter : (HeaderHead.ifParsed l v).enter src σ =
        .ok ((src.read l t).map (σ.bind .parsed)) := by
      rw [HeaderHead.enter, HeaderState.value, hv]
      rfl
    rw [store_literal, stored, parse]
    cases hread : src.read l t with
    | none =>
      rw [hread] at henter
      exact ⟨σ, HeaderCode.exec_nest_none henter,
        congrArg HeaderState.vars HeaderState.set_self.symm⟩
    | some d =>
      rw [hread] at henter
      have hparsed : (σ.bind .parsed d).values .parsed = some d := HeaderState.values_bind
      rw [HeaderCode.exec_nest_some henter]
      cases hnarrowed : l.narrowed? with
      | none =>
        rw [exec_hold required hparsed h]
        exact ⟨_, rfl, rfl⟩
      | some type =>
        rw [exec_convert required hparsed h]
        exact ⟨_, rfl, rfl⟩

end HeaderForm

/-! ## Values in a type -/

/-- The datum that a header text is in a type, if it is one. Numbers and truth values are read, small
numbers as large ones first; enumerations and aliases of text are conversions of the text. -/
def FieldType.headerValue (src : HeaderSource) (resolve : Resolver) (t : FieldType) (text : String) :
    Option Datum :=
  let named (name file : String) := (namedType resolve name file).toOption.map fun type =>
    src.cast type (.leaf .text text)
  match t with
  | .text => some (.leaf .text text)
  | .bool => src.read .bool text
  | .int16 => (src.read (.int 16) text).map (src.cast .int16)
  | .int32 => (src.read (.int 32) text).map (src.cast .int32)
  | .int64 => src.read (.int 64) text
  | .double => src.read .float text
  | .enum name file => named name file
  | .alias name file _ => if t.isText then named name file else none
  | _ => none

/-- A type that is text is no record. -/
theorem FieldType.record?_of_isText {t : FieldType} (h : t.isText = true) : t.record? = none := by
  rw [FieldType.isText] at h
  rw [FieldType.record?]
  split at h
  · rename_i hroot
    rw [hroot]
  · cases h

/-- The form of a named type converts the text of a header to it. -/
theorem namedForm_ok {σ : Type} {resolve : Resolver} {name file : String} {form : HeaderForm}
    {b : HeaderCode} {p q : σ}
    (h : (do return some (.named (← Draft.ofExcept (namedType resolve name file))) :
      HeaderWriting σ (Option HeaderForm)) p = .ok (some form, b, q)) :
    b = .done ∧ q = p ∧ ∀ src text, form.parse src text =
      (namedType resolve name file).toOption.map fun type => src.cast type (.leaf .text text) := by
  obtain ⟨type, _, _, _, htype, hpure, rfl⟩ := Draft.bind_ok.mp h
  obtain ⟨hok, rfl, rfl⟩ := Draft.ofExcept_ok.mp htype
  obtain ⟨heq, rfl, rfl⟩ := Draft.pure_ok.mp hpure
  cases heq
  refine ⟨rfl, rfl, fun src text => ?_⟩
  rw [hok]
  rfl

/-- The form for a type yields the values of headers in it. -/
theorem headerForm_ok {σ : Type} {resolve : Resolver} {t : FieldType} {form : HeaderForm}
    {b : HeaderCode} {p q : σ} (h : headerForm resolve t p = .ok (some form, b, q)) :
    b = .done ∧ q = p ∧ t.record? = none ∧
      ∀ src text, form.parse src text = t.headerValue src resolve text := by
  cases t with
  | text | bool | int16 | int32 | int64 | double =>
    cases h
    refine ⟨rfl, rfl, rfl, fun src text => ?_⟩
    -- Forms that narrow or do nothing are those of the type; the others map by the identity.
    first
      | rfl
      | exact Option.map_id'
  | int8 | binary | record | list | set | map => cases h
  | enum name file =>
    obtain ⟨hdone, hstate, hparse⟩ := namedForm_ok h
    exact ⟨hdone, hstate, rfl, hparse⟩
  | «alias» name file target =>
    rw [headerForm] at h
    by_cases htext : (FieldType.alias name file target).isText = true
    · rw [if_pos htext] at h
      obtain ⟨hdone, hstate, hparse⟩ := namedForm_ok h
      refine ⟨hdone, hstate, FieldType.record?_of_isText htext, fun src text => ?_⟩
      rw [hparse, FieldType.headerValue, if_pos htext]
    · rw [if_neg htext] at h
      cases h

/-- A field that must be able to hold headers has a form, or the draft stops. -/
theorem formFor_ok {σ : Type} {resolve : Resolver} {header : String} {field : Field}
    {form : HeaderForm} {b : HeaderCode} {p q : σ}
    (h : formFor resolve header field p = .ok (form, b, q)) :
    b = .done ∧ q = p ∧ field.type.record? = none ∧
      ∀ src text, form.parse src text = field.type.headerValue src resolve text := by
  obtain ⟨form?, _, _, _, hform, hrest, rfl⟩ := Draft.bind_ok.mp h
  cases form? with
  | none => cases hrest
  | some form' =>
    obtain ⟨rfl, rfl, rfl⟩ := Draft.pure_ok.mp hrest
    obtain ⟨rfl, rfl, hleaf, hparse⟩ := headerForm_ok hform
    exact ⟨rfl, rfl, hleaf, hparse⟩

end RecordBridge

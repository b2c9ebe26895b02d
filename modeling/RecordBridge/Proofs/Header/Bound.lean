import RecordBridge.Header.Reading
import RecordBridge.Proofs.Header.Execution
import RecordBridge.Proofs.Schema.GoPaths

/-!
# Which headers are read

The walk is followed visit by visit. What a visit writes beside allocations and conversions are the
statements that use its header: it is looked up, and then written once (`IsRead`). Visits of records and
of fields that are bound to no header write none (`visit_cases`).

So the lines of a run read the headers of the bound fields one after the other, in the order of the walk
(`run_uses`).
-/

namespace RecordBridge

/-! ## Statements in their blocks -/

namespace Block

variable {S H : Type}

/-- The simple statements of a block in order. Each comes with the heads of the blocks that it is in,
the outermost first, and with whether it is in the first block of the head. -/
def located (around : List (H × Bool)) : Block S H → List (List (H × Bool) × S)
  | .done => []
  | .step s rest => (around, s) :: rest.located around
  | .nest head body rest => body.located (around ++ [(head, true)]) ++ rest.located around
  | .fork head yes no rest =>
    yes.located (around ++ [(head, true)]) ++
      (no.located (around ++ [(head, false)]) ++ rest.located around)

@[simp] theorem located_append (around : List (H × Bool)) (a b : Block S H) :
    (a ++ b).located around = a.located around ++ b.located around := by
  show (a.append b).located around = _
  induction a generalizing around with
  | done => rfl
  | step s rest ih => simp [append, located, ih]
  | nest head body rest _ ih => simp [append, located, ih]
  | fork head yes no rest _ _ ih => simp [append, located, ih]

end Block

/-- A simple statement, with the heads of the blocks that it is in. -/
abbrev HeaderUse := List (HeaderHead × Bool) × HeaderStatement

namespace HeaderStatement

/-- Whether a statement looks a header up or writes one. -/
def usesHeader : HeaderStatement → Bool
  | .allocate .. | .convert .. => false
  | .store .. | .storeAs .. | .fetch .. | .fetchTested .. => true

/-- The place to which a statement writes a header, and the variable of which it writes the value or
the address. -/
def written? : HeaderStatement → Option (Place × HeaderVar)
  | .store place v _ | .storeAs place _ v => some (place, v)
  | .allocate .. | .convert .. | .fetch .. | .fetchTested .. => none

end HeaderStatement

/-- The statements that look headers up or write them. -/
def HeaderCode.uses (around : List (HeaderHead × Bool)) (code : HeaderCode) : List HeaderUse :=
  (code.located around).filter (·.2.usesHeader)

section Uses

variable {around : List (HeaderHead × Bool)} {code more : HeaderCode}

@[simp] theorem HeaderCode.uses_done : HeaderCode.uses around .done = [] :=
  rfl

@[simp] theorem HeaderCode.uses_append :
    HeaderCode.uses around (code ++ more) = code.uses around ++ more.uses around := by
  rw [uses, Block.located_append, List.filter_append]
  rfl

theorem HeaderCode.uses_nest {head : HeaderHead} :
    HeaderCode.uses around (.nest head code .done) = code.uses (around ++ [(head, true)]) := by
  rw [uses, Block.located, Block.located, List.append_nil]
  rfl

end Uses

/-! ## Bound fields -/

/-- What a header has to spell for a field of a type. -/
def FieldType.literal? : FieldType → Option Literal
  | .bool => some .bool
  | .int16 => some (.int 16)
  | .int32 => some (.int 32)
  | .int64 => some (.int 64)
  | .double => some .float
  | _ => none

/-- The variable that is written to a field when `var` holds the text of its header. -/
def Field.heldIn (f : Field) (var : HeaderVar) : HeaderVar :=
  match f.type with
  | .text => var
  | .bool | .int64 | .double => .parsed
  | .int16 | .int32 => .converted
  | _ => if f.required then var else .converted

/-- The tests under which a field is written when `var` holds the text of its header: an optional one
must be there, and must spell what the type of the field asks for. -/
def Field.tests (f : Field) (var : HeaderVar) : List (HeaderHead × Bool) :=
  (if f.required then [] else [(.ifExists var, true)]) ++
    (f.type.literal?.map fun l => (HeaderHead.ifParsed l var, true)).toList

/-- The statement that looks up the header of a field. -/
def Field.fetch (f : Field) (header : String) (var : HeaderVar) : HeaderStatement :=
  if f.required then .fetch var header else .fetchTested var header

/-- The name of the variable for a header, from its name in camel case and the number of headers of that
name that were met before. -/
def headerVariable (name : String) (before : Nat) : String :=
  if before = 0 then name ++ "Value" else name ++ "No" ++ toString before ++ "Value"

/-- A visit of a field that is bound to a header. -/
structure BoundVisit where
  visit : Visit
  header : String
  deriving DecidableEq, Repr

namespace BoundVisit

/-- The header is looked up and then written once to the place of the field, under its tests. -/
def IsRead (b : BoundVisit) (var : HeaderVar) (uses : List HeaderUse) : Prop :=
  ∃ write place,
    uses = [([], b.visit.field.fetch b.header var), (b.visit.field.tests var, write)] ∧
      write.written? = some (place, b.visit.field.heldIn var) ∧
      place.text = "requestBody" ++ b.visit.goPath ++ "." ++ pascal b.visit.field.name

/-- The variable for a header when some headers whose names in camel case are the same were met
before. -/
def var (b : BoundVisit) (before : Nat) : HeaderVar :=
  .named (headerVariable (camel b.header) before)

/-- Bound visits, each with the number of those before it whose headers have the same name in camel
case. Some names may have been met before all of them. -/
def numbered (met : List String) : List BoundVisit → List (BoundVisit × Nat)
  | [] => []
  | b :: rest => (b, met.count (camel b.header)) :: numbered (camel b.header :: met) rest

theorem map_fst_numbered (met : List String) (l : List BoundVisit) :
    (numbered met l).map (·.1) = l := by
  induction l generalizing met with
  | nil => rfl
  | cons b rest ih => rw [numbered, List.map_cons, ih]

end BoundVisit

namespace ReadingRequest

/-- What a visit is if its field is no record and is bound to a header. -/
def bound? (r : ReadingRequest) (v : Visit) : Option BoundVisit :=
  match v.field.type.record? with
  | some _ => none
  | none => (r.boundHeader? v.field).map (⟨v, ·⟩)

/-- The visits of bound fields, in the order of the walk. -/
def bound (r : ReadingRequest) : List BoundVisit :=
  (r.schema.visits r.fields).filterMap r.bound?

/-- The package of a named type is not known. -/
def unresolved? (resolve : Resolver) (name file : String) : Option GenerationError :=
  match resolve file with
  | .ok _ => none
  | .error reason => some (.unresolvedPackage name reason)

/-- Why a field that is bound to a header cannot be filled from it: the package of its type is not known,
or its type holds no headers. -/
def boundFault? (resolve : Resolver) (header : String) (f : Field) : Option GenerationError :=
  match f.type with
  | .text | .bool | .int8 | .int16 | .int32 | .int64 | .double => none
  | .enum name file => unresolved? resolve name file
  | .alias name file target =>
    if target.isText then unresolved? resolve name file else some (.headerTarget header f.name)
  | _ => some (.headerTarget header f.name)

/-- Why a visit ends the reading, if it does. -/
def fault? (r : ReadingRequest) (v : Visit) : Option GenerationError :=
  match v.field.type.record? with
  | some ref => unresolved? r.resolve ref.name ref.file
  | none => (r.boundHeader? v.field).bind fun header => boundFault? r.resolve header v.field

theorem unresolved?_of_ok {resolve : Resolver} {name file : String} {go : GoType}
    (h : namedType resolve name file = .ok go) : unresolved? resolve name file = none := by
  cases hpackage : resolve file with
  | ok package => rw [unresolved?, hpackage]
  | error reason =>
    rw [namedType, hpackage] at h
    cases h

theorem unresolved?_of_error {resolve : Resolver} {name file : String} {cause : GenerationError}
    (h : namedType resolve name file = .error cause) :
    unresolved? resolve name file = some cause := by
  cases hpackage : resolve file with
  | ok package =>
    rw [namedType, hpackage] at h
    cases h
  | error reason =>
    rw [namedType, hpackage] at h
    cases h
    rw [unresolved?, hpackage]

/-! ## Places of visits -/

/-- The place of a visited field is spelled by the path of the walk and the name of the field. -/
theorem text_placeOf (v : Visit) :
    (placeOf v).text = "requestBody" ++ v.goPath ++ "." ++ pascal v.field.name := by
  have hpath : ∀ names : List String,
      Path.text (names.flatMap (Path.select [])) = String.join (names.map ("." ++ ·)) := by
    intro names
    induction names with
    | nil => rfl
    | cons name names ih =>
      rw [List.flatMap_cons, Path.text_append, Path.text_select, ih, List.map_cons,
        String.join_cons, Path.text_nil, String.empty_append]
  rw [Place.text, placeOf, hpath, Visit.goNames, Visit.goPath]
  simp [Var.text, Function.comp_def, String.join_append, String.append_assoc]

/-! ## The choice of a form -/

end ReadingRequest

namespace HeaderForm

/-- What a header has to spell in a form. -/
def literal? : HeaderForm → Option Literal
  | .literal l => some l
  | _ => none

/-- The variable that is written in a form when `var` holds the text of the header. -/
def heldIn (form : HeaderForm) (required : Bool) (var : HeaderVar) : HeaderVar :=
  match form with
  | .plain => var
  | .named _ => if required then var else .converted
  | .literal l => if l.narrowed?.isSome then .converted else .parsed

/-- A form is that of a field: it reads the same literals, and the named type is that of the field. -/
structure Fits (resolve : Resolver) (f : Field) (form : HeaderForm) : Prop where
  literal : form.literal? = f.type.literal?
  held : ∀ var, form.heldIn f.required var = f.heldIn var
  named : ∀ go, form = .named go →
    ∃ file, f.type.file? = some file ∧ namedType resolve f.type.name file = .ok go

/-- A form writes once, under the test of its literal. -/
theorem uses_store (form : HeaderForm) (around : List (HeaderHead × Bool)) (place : Place)
    (var : HeaderVar) (required : Bool) : ∃ write,
      HeaderCode.uses around (form.store place var required) =
          [(around ++ (form.literal?.map fun l => (HeaderHead.ifParsed l var, true)).toList, write)] ∧
        write.written? = some (place, form.heldIn required var) := by
  cases form with
  | plain =>
    show ∃ write, _ = [(around ++ [], write)] ∧ _
    rw [List.append_nil]
    exact ⟨_, rfl, rfl⟩
  | named go =>
    show ∃ write, _ = [(around ++ [], write)] ∧ _
    rw [List.append_nil]
    cases required with
    | true => exact ⟨_, rfl, rfl⟩
    | false => exact ⟨_, rfl, rfl⟩
  | literal l =>
    rw [store_literal, HeaderCode.uses_nest, heldIn]
    cases l.narrowed? with
    | none => exact ⟨_, rfl, rfl⟩
    | some go => exact ⟨_, rfl, rfl⟩

end HeaderForm

namespace ReadingRequest

section Choice

variable {σ : Type} {resolve : Resolver} {header : String} {f : Field}

/-- The choice of a form fails for the fault of the field, or gives the form of the field. -/
def Chooses (σ : Type) (resolve : Resolver) (header : String) (f : Field) : Prop :=
  (∃ cause, boundFault? resolve header f = some cause ∧
    (formFor resolve header f : HeaderWriting σ HeaderForm) = Draft.fail cause) ∨
  (boundFault? resolve header f = none ∧ ∃ form, HeaderForm.Fits resolve f form ∧
    (formFor resolve header f : HeaderWriting σ HeaderForm) = pure form)

/-- A field whose headers are converted to its named type. -/
theorem chooses_of_named {file : String} (hfile : f.type.file? = some file)
    (hform : (headerForm resolve f.type : HeaderWriting σ (Option HeaderForm)) =
      do return some (.named (← Draft.ofExcept (namedType resolve f.type.name file))))
    (hfault : boundFault? resolve header f = unresolved? resolve f.type.name file)
    (hliteral : f.type.literal? = none)
    (hheld : ∀ var, f.heldIn var = if f.required then var else .converted) :
    Chooses σ resolve header f := by
  rw [Chooses, hfault, formFor, hform]
  cases hgo : namedType resolve f.type.name file with
  | error cause => exact .inl ⟨cause, unresolved?_of_error hgo, rfl⟩
  | ok go =>
    have hfits : (HeaderForm.named go).Fits resolve f :=
      ⟨hliteral.symm, fun var => (hheld var).symm, by rintro _ ⟨⟩; exact ⟨file, hfile, hgo⟩⟩
    exact .inr ⟨unresolved?_of_ok hgo, .named go, hfits, rfl⟩

/-- For a single byte the choice breaks off instead. -/
theorem chooses (hbyte : f.type ≠ .int8) : Chooses σ resolve header f := by
  obtain ⟨id, fieldName, required, type, annotations⟩ := f
  cases type with
  | int8 => exact absurd rfl hbyte
  | text => exact .inr ⟨rfl, .plain, ⟨rfl, fun _ => rfl, nofun⟩, rfl⟩
  | bool | int16 | int32 | int64 | double =>
    exact .inr ⟨rfl, .literal _, ⟨rfl, fun _ => rfl, nofun⟩, rfl⟩
  | binary | record | list | set | map => exact .inl ⟨_, rfl, rfl⟩
  | enum name file => exact chooses_of_named rfl rfl rfl rfl fun _ => rfl
  | «alias» name file target =>
    by_cases htext : target.isText = true
    · have hform : (headerForm resolve (.alias name file target) : HeaderWriting σ _) = _ :=
        if_pos htext
      exact chooses_of_named rfl hform (if_pos htext) rfl fun _ => rfl
    · have hform : (headerForm resolve (.alias name file target) : HeaderWriting σ _) = _ :=
        if_neg htext
      refine .inl ⟨.headerTarget header fieldName, if_neg htext, ?_⟩
      rw [formFor, hform, pure_bind]

/-- A form that is chosen is that of the field, which has no fault. -/
theorem formFor_chosen {form : HeaderForm} {b : HeaderCode} {p q : σ}
    (h : formFor resolve header f p = .ok (form, b, q)) :
    b = .done ∧ q = p ∧ boundFault? resolve header f = none ∧ HeaderForm.Fits resolve f form := by
  by_cases hbyte : f.type = .int8
  · rw [formFor, hbyte] at h
    cases h
  · rcases chooses (σ := σ) hbyte with ⟨cause, -, hfail⟩ | ⟨hfault, form', hfits, hpure⟩
    · rw [hfail] at h
      exact absurd h Draft.not_stop_ok
    · rw [hpure] at h
      obtain ⟨rfl, rfl, rfl⟩ := Draft.pure_ok.mp h
      exact ⟨rfl, rfl, hfault, hfits⟩

/-- The choice of a form fails for the fault of the field. -/
theorem formFor_error (hbyte : f.type ≠ .int8) {p : σ} {halt : Halt σ}
    (h : formFor resolve header f p = .error halt) :
    ∃ cause, boundFault? resolve header f = some cause ∧ halt.stop = .failed cause := by
  rcases chooses (σ := σ) hbyte with ⟨cause, hfault, hfail⟩ | ⟨-, form, -, hpure⟩
  · rw [hfail] at h
    cases h
    exact ⟨cause, hfault, rfl⟩
  · rw [hpure] at h
    cases h

end Choice

/-! ## What a visit writes -/

variable {r : ReadingRequest} {v : Visit} {p q : Progress} {code : HeaderCode}

/-- Allocations use no header. -/
theorem uses_allocations {above : List (Path × GoType)} {place : Place}
    (h : (above.forM fun parent =>
      Draft.write (allocate { place with path := parent.1 } parent.2) : Reading PUnit) p =
        .ok (⟨⟩, code, q)) : q = p ∧ ∀ around, HeaderCode.uses around code = [] := by
  induction above generalizing p code with
  | nil =>
    cases h
    exact ⟨rfl, fun _ => rfl⟩
  | cons parent above ih =>
    obtain ⟨_, _, _, more, hwrite, hmore, rfl⟩ := Draft.bind_ok.mp h
    obtain ⟨rfl, rfl⟩ := Draft.write_ok hwrite
    obtain ⟨rfl, hnone⟩ := ih hmore
    exact ⟨rfl, fun around => by rw [HeaderCode.uses_append, hnone]; rfl⟩

/-- A write to a field uses its header as the form does. -/
theorem store_ok {var : HeaderVar} {form : HeaderForm} (h : store v var form p = .ok ((), code, q)) :
    q = p ∧ ∀ around, HeaderCode.uses around code =
      HeaderCode.uses around (form.store (placeOf v) var v.field.required) := by
  obtain ⟨_, _, _, _, hstate, hrest, rfl⟩ := Draft.bind_ok.mp h
  obtain ⟨rfl, rfl, rfl⟩ := Draft.state_ok.mp hstate
  obtain ⟨_, guards, _, _, hguards, hwrite, rfl⟩ := Draft.bind_ok.mp hrest
  obtain ⟨rfl, rfl⟩ := Draft.write_ok hwrite
  obtain ⟨rfl, hnone⟩ := uses_allocations hguards
  refine ⟨rfl, fun around => ?_⟩
  rw [HeaderCode.uses_append, HeaderCode.uses_append, hnone]
  rfl

/-- How often a variable was made for a header of a name in camel case. -/
def Progress.count (p : Progress) (name : String) : Nat :=
  (p.counts.lookup name).getD 0

/-- No variable is made before the first visit. -/
theorem Progress.count_start (name : String) :
    ({} : Progress).count name = ([] : List String).count name :=
  rfl

/-- The variable for a header is the next one for its name. -/
theorem nextVariable_made {b : BoundVisit} {var : HeaderVar}
    (h : nextVariable (camel b.header) p = .ok (var, code, q)) :
    code = .done ∧ var = b.var (p.count (camel b.header)) ∧
      q = { p with counts := (camel b.header, p.count (camel b.header) + 1) :: p.counts } := by
  obtain ⟨_, _, now, _, hstate, hrest, rfl⟩ := Draft.bind_ok.mp h
  obtain ⟨rfl, rfl, rfl⟩ := Draft.state_ok.mp hstate
  obtain ⟨_, _, _, _, hupdate, hrest, rfl⟩ := Draft.bind_ok.mp hrest
  obtain ⟨rfl, rfl⟩ := Draft.update_ok.mp hupdate
  change (if now.count (camel b.header) = 0 then _ else _ : Reading HeaderVar) _ = _ at hrest
  rw [BoundVisit.var, headerVariable]
  split at hrest
  · rename_i hfirst
    obtain ⟨rfl, rfl, rfl⟩ := Draft.pure_ok.mp hrest
    exact ⟨rfl, by rw [if_pos hfirst], rfl⟩
  · rename_i hlater
    obtain ⟨rfl, rfl, rfl⟩ := Draft.pure_ok.mp hrest
    exact ⟨rfl, by rw [if_neg hlater]; rfl, rfl⟩

/-- The statements for a bound field, once the form of its header is chosen. -/
def readInto (b : BoundVisit) (form : HeaderForm) : Reading Unit := do
  let var ← nextVariable (camel b.header)
  if b.visit.field.required then
    Draft.write (.ofList [.fetch var b.header])
    store b.visit var form
  else
    Draft.write (.ofList [.fetchTested var b.header])
    Draft.nest (.ifExists var) (store b.visit var form)
  Draft.update fun p => { p with anyHeader := true }

/-- A header is read in two steps: its form is chosen, and then it is read into the field. -/
theorem readHeader_eq (v : Visit) (header : String) :
    r.readHeader v header = formFor r.resolve header v.field >>= readInto ⟨v, header⟩ :=
  rfl

/-- A bound field is filled by reading its header into the next variable for its name. -/
theorem readInto_ok {b : BoundVisit} {form : HeaderForm}
    (hfits : HeaderForm.Fits r.resolve b.visit.field form)
    (h : readInto b form p = .ok ((), code, q)) :
    b.IsRead (b.var (p.count (camel b.header))) (HeaderCode.uses [] code) ∧
      q = { p with
        counts := (camel b.header, p.count (camel b.header) + 1) :: p.counts
        anyHeader := true } := by
  obtain ⟨var, _, _, _, hvar, hcases, rfl⟩ := Draft.bind_ok.mp h
  obtain ⟨rfl, rfl, rfl⟩ := nextVariable_made hvar
  dsimp only at hcases
  rw [BoundVisit.IsRead, Field.fetch, Field.tests]
  split at hcases
  · -- A required header is fetched and stored in one block.
    rename_i hrequired
    obtain ⟨_, _, _, _, hfetch, hrest, rfl⟩ := Draft.bind_ok.mp hcases
    obtain ⟨rfl, rfl⟩ := Draft.write_ok hfetch
    obtain ⟨_, _, _, _, hstore, hupdate, rfl⟩ := Draft.bind_ok.mp hrest
    obtain ⟨rfl, rfl⟩ := Draft.update_ok.mp hupdate
    obtain ⟨rfl, huses⟩ := store_ok hstore
    obtain ⟨write, hwrite, hwritten⟩ := form.uses_store [] (placeOf b.visit)
      (b.var (p.count (camel b.header))) b.visit.field.required
    refine ⟨⟨write, placeOf b.visit, ?_, ?_, text_placeOf b.visit⟩, rfl⟩
    · rw [if_pos hrequired, if_pos hrequired, ← hfits.literal]
      simp only [HeaderCode.uses_append, huses, hwrite]
      rfl
    · rw [hwritten, hfits.held]
  · -- An optional one is stored under the test of its companion.
    rename_i hoptional
    obtain ⟨_, _, _, _, hfetch, hrest, rfl⟩ := Draft.bind_ok.mp hcases
    obtain ⟨rfl, rfl⟩ := Draft.write_ok hfetch
    obtain ⟨_, _, _, _, hnest, hupdate, rfl⟩ := Draft.bind_ok.mp hrest
    obtain ⟨rfl, rfl⟩ := Draft.update_ok.mp hupdate
    obtain ⟨body, hstore, rfl⟩ := Draft.nest_ok hnest
    obtain ⟨rfl, huses⟩ := store_ok hstore
    obtain ⟨write, hwrite, hwritten⟩ := form.uses_store
      [(.ifExists (b.var (p.count (camel b.header))), true)] (placeOf b.visit)
      (b.var (p.count (camel b.header))) b.visit.field.required
    refine ⟨⟨write, placeOf b.visit, ?_, ?_, text_placeOf b.visit⟩, rfl⟩
    · rw [if_neg hoptional, if_neg hoptional, ← hfits.literal]
      simp only [HeaderCode.uses_append, HeaderCode.uses_nest, List.nil_append, huses, hwrite]
      rfl
    · rw [hwritten, hfits.held]

/-- A visit that ends has no fault. It uses no header and leaves the state as it is, but for an optional
record that waits from then on; or it reads the header of a bound field. -/
theorem visit_cases (h : r.visit v p = .ok ((), code, q)) : r.fault? v = none ∧
    ((r.bound? v = none ∧ HeaderCode.uses [] code = [] ∧ (q = p ∨ ∃ ref type,
        v.field.type.record? = some ref ∧ namedType r.resolve ref.name ref.file = .ok type ∧
          q = { p with optional := p.optional.defer (placeOf v).path type })) ∨
      ∃ b, r.bound? v = some b ∧
        b.IsRead (b.var (p.count (camel b.header))) (HeaderCode.uses [] code) ∧
        q = { p with
          counts := (camel b.header, p.count (camel b.header) + 1) :: p.counts
          anyHeader := true }) := by
  rw [visit] at h
  rw [fault?, bound?]
  cases href : v.field.type.record? with
  | some ref =>
    rw [href] at h
    obtain ⟨type, _, now, _, htype, hcases, rfl⟩ := Draft.bind_ok.mp h
    obtain ⟨hnamed, rfl, rfl⟩ := Draft.ofExcept_ok.mp htype
    refine ⟨unresolved?_of_ok hnamed, .inl ⟨rfl, ?_⟩⟩
    split at hcases
    · -- A required record is allocated on the spot, and no header is used for that.
      obtain ⟨rfl, rfl⟩ := Draft.write_ok hcases
      exact ⟨rfl, .inl rfl⟩
    · obtain ⟨rfl, rfl⟩ := Draft.update_ok.mp hcases
      exact ⟨rfl, .inr ⟨ref, type, rfl, hnamed, rfl⟩⟩
  | none =>
    rw [href] at h
    cases hheader : r.boundHeader? v.field with
    | none =>
      rw [hheader] at h
      obtain ⟨-, rfl, rfl⟩ := Draft.pure_ok.mp h
      exact ⟨rfl, .inl ⟨rfl, rfl, .inl rfl⟩⟩
    | some header =>
      rw [hheader] at h
      dsimp only at h
      rw [readHeader_eq] at h
      -- The form is chosen first: a fault of the type comes before a variable is counted.
      obtain ⟨form, _, now, _, hform, hread, rfl⟩ := Draft.bind_ok.mp h
      obtain ⟨rfl, rfl, hfault, hfits⟩ := formFor_chosen hform
      exact ⟨hfault, .inr ⟨_, rfl, readInto_ok hfits hread⟩⟩

/-- Visits that end have no faults, and read the headers of those that are bound, one after the other. -/
theorem visits_ok {visits : List Visit} {met : List String}
    (hmet : ∀ name, p.count name = met.count name)
    (h : visits.forM r.visit p = .ok ((), code, q)) :
    visits.findSome? r.fault? = none ∧
      q.anyHeader = (p.anyHeader || !(visits.filterMap r.bound?).isEmpty) ∧
      ∃ chunks, HeaderCode.uses [] code = chunks.flatten ∧
        List.Forall₂ (fun b uses => b.1.IsRead (b.1.var b.2) uses)
          (BoundVisit.numbered met (visits.filterMap r.bound?)) chunks := by
  induction visits generalizing p code met with
  | nil =>
    cases h
    exact ⟨rfl, (Bool.or_false _).symm, [], rfl, .nil⟩
  | cons v rest ih =>
    obtain ⟨_, first, now, more, hfirst, hrest, rfl⟩ := Draft.bind_ok.mp h
    obtain ⟨hfault, hcases⟩ := visit_cases hfirst
    rw [List.findSome?_cons, hfault, List.filterMap_cons]
    rcases hcases with ⟨hbound, hnone, hstate⟩ | ⟨b, hbound, hread, rfl⟩
    · -- No name is met, and whether a header was read does not change.
      have hkept : now.counts = p.counts ∧ now.anyHeader = p.anyHeader := by
        rcases hstate with rfl | ⟨_, _, _, _, rfl⟩ <;> exact ⟨rfl, rfl⟩
      have hnow : ∀ name, now.count name = met.count name := fun name => by
        rw [Progress.count, hkept.1]
        exact hmet name
      obtain ⟨hfaults, hany, chunks, huses, hreads⟩ := ih hnow hrest
      rw [hbound, HeaderCode.uses_append, hnone]
      exact ⟨hfaults, by rw [hany, hkept.2], chunks, huses, hreads⟩
    · have hnow : ∀ name, Progress.count { p with
          counts := (camel b.header, p.count (camel b.header) + 1) :: p.counts
          anyHeader := true } name = (camel b.header :: met).count name := by
        intro name
        rw [Progress.count, List.lookup_cons, List.count_cons, ← hmet name]
        by_cases hname : name = camel b.header
        · subst hname
          simp
        · rw [beq_false_of_ne hname, beq_false_of_ne (Ne.symm hname)]
          rfl
      obtain ⟨hfaults, hany, chunks, huses, hreads⟩ := ih hnow hrest
      rw [hbound, HeaderCode.uses_append, huses]
      refine ⟨hfaults, by rw [hany]; simp, _ :: chunks, rfl, ?_⟩
      rw [hmet] at hread
      exact .cons hread hreads

/-! ## Runs -/

/-- A run that gives lines has ended all visits. Its lines are theirs, or none if no header was read. -/
theorem exists_of_run {text : List String} (h : r.run = .lines text) :
    ∃ (code : HeaderCode) (q : Progress),
      (r.schema.visits r.fields).forM r.visit {} = .ok ((), code, q) ∧
        text = if q.anyHeader then code.lines.map Line.indented else [] := by
  rw [run] at h
  split at h
  · rename_i anyHeader code _ hdraft
    cases h
    obtain ⟨_, walked, _, _, hwalk, hend, rfl⟩ := Draft.bind_ok.mp hdraft
    obtain ⟨_, _, _, _, hstate, hpure, rfl⟩ := Draft.bind_ok.mp hend
    obtain ⟨rfl, rfl, rfl⟩ := Draft.state_ok.mp hstate
    obtain ⟨rfl, rfl, rfl⟩ := Draft.pure_ok.mp hpure
    rw [Schema.forVisits_eq_forM] at hwalk
    exact ⟨walked, _, hwalk, by rw [Block.append_done, Block.append_done]⟩
  · exact absurd h (Halt.outcome_ne_lines _)

/-- Lines that read headers do so one after the other, each into the next variable for its name. There
are none if no field is bound. -/
theorem run_uses {text : List String} (h : r.run = .lines text) :
    ∃ code : HeaderCode, text = code.lines.map Line.indented ∧ (r.bound = [] → text = []) ∧
      ∃ chunks, HeaderCode.uses [] code = chunks.flatten ∧
        List.Forall₂ (fun b uses => b.1.IsRead (b.1.var b.2) uses)
          (BoundVisit.numbered [] r.bound) chunks := by
  obtain ⟨code, q, hwalk, rfl⟩ := exists_of_run h
  obtain ⟨-, hany, chunks, huses, hreads⟩ := visits_ok Progress.count_start hwalk
  rw [← bound] at hany hreads
  cases hbound : r.bound with
  | nil =>
    rw [hbound] at hany
    rw [show q.anyHeader = false from hany]
    exact ⟨.done, rfl, fun _ => rfl, [], rfl, .nil⟩
  | cons b rest =>
    rw [hbound] at hany hreads
    rw [show q.anyHeader = true from hany]
    exact ⟨code, rfl, nofun, chunks, huses, hreads⟩

end ReadingRequest

end RecordBridge

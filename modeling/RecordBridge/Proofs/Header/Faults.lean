import RecordBridge.Proofs.Header.Bound
import RecordBridge.Proofs.Header.Clean
import RecordBridge.Proofs.Unfailing

/-!
# Why reading headers stops

A visit stops for its fault and for nothing else (`visit_error`): what follows the choice of a form
writes single lines (`clean_readInto`) and never fails (`unfailing_readInto`). So the first visit with a
fault is the end of a run, and a run without one gives lines that read each bound field once
(`run_bound`).
-/

namespace RecordBridge

namespace ReadingRequest

variable {r : ReadingRequest} {v : Visit} {p q : Progress} {code : HeaderCode}

/-! ## Why a visit stops -/

/-- Nothing that is spelled for a visit holds a line feed, and it binds no single byte. -/
structure Spellable (r : ReadingRequest) (v : Visit) : Prop where
  path : ∀ f ∈ v.path ++ [v.field], IsSingle f.name
  type : ∀ file ∈ v.field.type.file?, IsSingle v.field.type.name
  record : ∀ ref ∈ v.field.type.record?, IsSingle ref.name
  header : ∀ header ∈ r.boundHeader? v.field, IsSingle header
  unbound : v.field.type = .int8 → r.boundHeader? v.field = none

instance (r : ReadingRequest) (v : Visit) : Decidable (r.Spellable v) :=
  decidable_of_iff ((∀ f ∈ v.path ++ [v.field], IsSingle f.name) ∧
      (∀ file ∈ v.field.type.file?, IsSingle v.field.type.name) ∧
      (∀ ref ∈ v.field.type.record?, IsSingle ref.name) ∧
      (∀ header ∈ r.boundHeader? v.field, IsSingle header) ∧
      (v.field.type = .int8 → r.boundHeader? v.field = none))
    ⟨fun ⟨path, type, record, header, unbound⟩ => ⟨path, type, record, header, unbound⟩,
      fun h => ⟨h.path, h.type, h.record, h.header, h.unbound⟩⟩

/-- The records that wait are spelled in single lines. -/
def WaitsSingle (p : Progress) : Prop :=
  ∀ e ∈ p.optional.entries, Path.IsSingle e.2.1 ∧ IsSingle e.2.2.text

theorem Spellable.placeOf (h : r.Spellable v) : (placeOf v).IsSingle := by
  refine ⟨Var.isSingle_text nofun, fun s hs => ?_⟩
  obtain ⟨name, hname, hs⟩ := List.mem_flatMap.mp hs
  obtain ⟨f, hf, rfl⟩ := List.mem_map.mp hname
  exact Path.IsSingle.nil.select (h.path f hf).pascal s hs

theorem isSingle_namedType {resolve : Resolver} {name file : String} {go : GoType}
    (hpackages : ∀ file package, resolve file = .ok package → IsSingle package)
    (hname : IsSingle name) (h : namedType resolve name file = .ok go) : IsSingle go.text := by
  rw [namedType] at h
  split at h
  · rename_i package hpackage
    cases h
    exact GoType.isSingle_named.mpr ⟨hpackages _ _ hpackage, hname.pascal⟩
  · cases h

theorem clean_nextVariable (header : String) :
    Draft.Clean False WaitsSingle (fun var => IsSingle var.spelling) (nextVariable (camel header)) := by
  have hcamel : IsSingle (camel header) := isSingle_of_isAlphanum fun c hc => by
    rw [camel, String.toList_ofList] at hc
    exact isAlphanum_of_mem_camelChars _ c hc
  rw [nextVariable]
  refine .bind .state fun now _ => .bind (.update fun _ hp => hp) fun _ _ => ?_
  split
  · exact .pure (isSingle_append.mpr ⟨hcamel, by decide⟩)
  · refine .pure (isSingle_append.mpr ⟨isSingle_append.mpr ⟨?_, isSingle_repr _⟩, by decide⟩)
    exact isSingle_append.mpr ⟨hcamel, by decide⟩

theorem clean_store {var : HeaderVar} {form : HeaderForm} (hplace : (placeOf v).IsSingle)
    (hvar : IsSingle var.spelling) (hform : form.IsSingle) :
    Draft.Clean False WaitsSingle (fun _ => True) (store v var form) := by
  rw [store]
  refine .bind .state fun now hnow => .bind (.forM fun parent hparent => .write ?_) fun _ _ =>
    .write (hform.store hplace hvar _)
  obtain ⟨e, he, rfl⟩ := List.mem_map.mp hparent
  obtain ⟨hpath, htype⟩ := hnow e (List.mem_filter.mp he).1
  have habove : Place.IsSingle { placeOf v with path := e.2.1 } := ⟨hplace.root, hpath⟩
  exact .nest (HeaderHead.isSingle_ifUnset habove)
    (.step (HeaderStatement.isSingle_allocate habove htype) .done) .done

theorem clean_readInto {b : BoundVisit} {form : HeaderForm} (hplace : (placeOf b.visit).IsSingle)
    (hheader : IsSingle b.header) (hform : form.IsSingle) :
    Draft.Clean False WaitsSingle (fun _ => True) (readInto b form) := by
  refine .bind (clean_nextVariable b.header) fun var hvar => ?_
  split
  · exact .bind (.write (.step (HeaderStatement.isSingle_fetch hvar hheader) .done)) fun _ _ =>
      .bind (clean_store hplace hvar hform) fun _ _ => .update fun _ hp => hp
  · exact .bind (.write (.step (HeaderStatement.isSingle_fetchTested hvar hheader) .done)) fun _ _ =>
      .bind (.nest (HeaderHead.isSingle_ifExists hvar) (clean_store hplace hvar hform)) fun _ _ =>
        .update fun _ hp => hp

theorem unfailing_store (v : Visit) (var : HeaderVar) (form : HeaderForm) :
    Draft.Unfailing (fun _ => True) (store v var form) :=
  .bind .state fun _ _ => .bind (.forM fun _ _ => .write) fun _ _ => .write

theorem unfailing_readInto (b : BoundVisit) (form : HeaderForm) :
    Draft.Unfailing (fun _ => True) (readInto b form) := by
  have hvar : Draft.Unfailing (fun _ => True) (nextVariable (camel b.header)) := by
    refine .bind .state fun now _ => .bind .update fun _ _ => ?_
    split <;> exact .pure trivial
  refine .bind hvar fun var _ => ?_
  split
  · exact .bind .write fun _ _ => .bind (unfailing_store _ _ _) fun _ _ => .update
  · exact .bind .write fun _ _ => .bind (.nest (unfailing_store _ _ _)) fun _ _ => .update

/-- Visits keep it that the records that wait are spelled in single lines. -/
theorem WaitsSingle.visit (hp : WaitsSingle p) (hv : r.Spellable v)
    (hpackages : ∀ file package, r.resolve file = .ok package → IsSingle package)
    (h : r.visit v p = .ok ((), code, q)) : WaitsSingle q := by
  rcases (visit_cases h).2 with ⟨-, -, rfl | ⟨ref, type, href, htype, rfl⟩⟩ | ⟨b, -, -, rfl⟩
  · exact hp
  · intro e he
    rcases Table.fst_of_mem_place he with rfl | he
    · exact ⟨hv.placeOf.path, isSingle_namedType hpackages (hv.record ref href) htype⟩
    · exact hp e he
  · exact hp

/-- A visit stops for its fault. -/
theorem visit_error (hp : WaitsSingle p) (hv : r.Spellable v)
    (hpackages : ∀ file package, r.resolve file = .ok package → IsSingle package)
    {halt : Halt Progress} (h : r.visit v p = .error halt) :
    ∃ cause, r.fault? v = some cause ∧ halt.stop = .failed cause := by
  rw [visit] at h
  rw [fault?]
  cases href : v.field.type.record? with
  | some ref =>
    rw [href] at h
    rcases Draft.bind_error h with ⟨inner, htype, hstop⟩ | ⟨type, _, now, inner, htype, hrest, -⟩
    · cases hnamed : namedType r.resolve ref.name ref.file with
      | error cause =>
        rw [hnamed] at htype
        cases htype
        exact ⟨cause, unresolved?_of_error hnamed, hstop⟩
      | ok type =>
        rw [hnamed] at htype
        cases htype
    · -- A record that has a Go type is allocated or waits.
      obtain ⟨hnamed, rfl, rfl⟩ := Draft.ofExcept_ok.mp htype
      have htext := isSingle_namedType hpackages (hv.record ref href) hnamed
      have hallocate : Block.IsSingle (allocate (placeOf v) type) :=
        .nest (HeaderHead.isSingle_ifUnset hv.placeOf)
          (.step (HeaderStatement.isSingle_allocate hv.placeOf htext) .done) .done
      split at hrest
      · rw [Draft.write, checkLines_eq_ok _ hallocate] at hrest
        cases hrest
      · cases hrest
  | none =>
    rw [href] at h
    cases hheader : r.boundHeader? v.field with
    | none =>
      rw [hheader] at h
      cases h
    | some header =>
      rw [hheader] at h
      dsimp only at h
      rw [readHeader_eq] at h
      have hbyte : v.field.type ≠ .int8 := fun hbyte => by
        rw [hv.unbound hbyte] at hheader
        cases hheader
      rcases Draft.bind_error h with
        ⟨inner, hform, hstop⟩ | ⟨form, _, now, inner, hform, hread, -⟩
      · obtain ⟨cause, hfault, hfailed⟩ := formFor_error hbyte hform
        exact ⟨cause, hfault, hstop.trans hfailed⟩
      · -- What follows the choice of a form neither breaks off nor fails.
        obtain ⟨rfl, rfl, -, hfits⟩ := formFor_chosen hform
        have hsingle : form.IsSingle := fun go hgo => by
          obtain ⟨file, hfile, hnamed⟩ := hfits.named go hgo
          exact isSingle_namedType hpackages (hv.type file hfile) hnamed
        have hclean := (clean_readInto (b := ⟨v, header⟩) hv.placeOf (hv.header header hheader)
          hsingle).stops hp hread
        have hfaultless := (unfailing_readInto ⟨v, header⟩ form).stops hread
        cases hstop : inner.stop with
        | failed cause =>
          rw [hstop] at hfaultless
          exact absurd hfaultless id
        | broke fault =>
          rw [hstop] at hclean
          exact absurd hclean id
        | unfinished =>
          rw [hstop] at hclean
          exact absurd hclean id

/-- Visits that stop do so for the first fault among them. -/
theorem visits_error {visits : List Visit} (hp : WaitsSingle p)
    (hvisits : ∀ v ∈ visits, r.Spellable v)
    (hpackages : ∀ file package, r.resolve file = .ok package → IsSingle package)
    {halt : Halt Progress} (h : visits.forM r.visit p = .error halt) :
    ∃ cause, visits.findSome? r.fault? = some cause ∧ halt.stop = .failed cause := by
  induction visits generalizing p halt with
  | nil => cases h
  | cons v rest ih =>
    obtain ⟨hv, hrest⟩ := List.forall_mem_cons.mp hvisits
    rw [List.findSome?_cons]
    rcases Draft.bind_error h with
      ⟨inner, hfirst, hstop⟩ | ⟨_, _, now, inner, hfirst, hmore, hstop⟩
    · obtain ⟨cause, hfault, hfailed⟩ := visit_error hp hv hpackages hfirst
      rw [hfault]
      exact ⟨cause, rfl, hstop.trans hfailed⟩
    · rw [(visit_cases hfirst).1, hstop]
      exact ih (hp.visit hv hpackages hfirst) hrest hmore

/-! ## Runs -/

/-- A run gives lines if no visit has a fault, and fails for the first fault otherwise. -/
theorem run_cases (hvisits : ∀ v ∈ r.schema.visits r.fields, r.Spellable v)
    (hpackages : ∀ file package, r.resolve file = .ok package → IsSingle package) :
    ((r.schema.visits r.fields).findSome? r.fault? = none ∧ ∃ text, r.run = .lines text) ∨
      ∃ cause, (r.schema.visits r.fields).findSome? r.fault? = some cause ∧
        r.run = .failed cause := by
  cases hdraft : r.draft {} with
  | ok result =>
    obtain ⟨anyHeader, code, q⟩ := result
    have hrun : r.run = .lines (if anyHeader then code.lines.map Line.indented else []) := by
      rw [run, hdraft]
    obtain ⟨_, _, hwalk, -⟩ := exists_of_run hrun
    exact .inl ⟨(visits_ok Progress.count_start hwalk).1, _, hrun⟩
  | error halt =>
    have hrun : r.run = halt.outcome := by rw [run, hdraft]
    rcases Draft.bind_error hdraft with ⟨inner, hwalk, hstop⟩ | ⟨_, _, _, _, _, hend, -⟩
    · rw [Schema.forVisits_eq_forM] at hwalk
      have hwaits : WaitsSingle {} := fun e he => absurd he List.not_mem_nil
      obtain ⟨cause, hfault, hfailed⟩ := visits_error hwaits hvisits hpackages hwalk
      refine .inr ⟨cause, hfault, ?_⟩
      rw [hrun, Halt.outcome, hstop, hfailed]
    · cases hend

/-- The lines of a run look up one header for each visit of a bound field, in the order of the walk, and
write it once, to the place of the field and under its tests; there are none if no field is bound. If what
is spelled for the visits holds no line feed, reading gives lines exactly if no visit has a fault, and otherwise fails
for the first one. -/
theorem run_bound (r : ReadingRequest) :
    (∀ text, r.run = .lines text → ∃ code : HeaderCode, text = code.lines.map Line.indented ∧
      (r.bound = [] → text = []) ∧
      ∃ chunks, HeaderCode.uses [] code = chunks.flatten ∧
        List.Forall₂ (fun b uses => ∃ var, b.IsRead var uses) r.bound chunks) ∧
    ((∀ v ∈ r.schema.visits r.fields, r.Spellable v) →
      (∀ file package, r.resolve file = .ok package → IsSingle package) →
      ((∃ text, r.run = .lines text) ↔ (r.schema.visits r.fields).findSome? r.fault? = none) ∧
      ∀ cause, r.run = .failed cause ↔
        (r.schema.visits r.fields).findSome? r.fault? = some cause) := by
  refine ⟨fun text htext => ?_, fun hvisits hpackages => ?_⟩
  · obtain ⟨code, hlines, hnone, chunks, huses, hreads⟩ := run_uses htext
    refine ⟨code, hlines, hnone, chunks, huses, ?_⟩
    -- The variables are numbered as they are read; only that each visit has one is told here.
    rw [← BoundVisit.map_fst_numbered [] r.bound, List.forall₂_map_left_iff]
    exact hreads.imp fun b uses hread => ⟨_, hread⟩
  · rcases run_cases hvisits hpackages with ⟨hfaults, text, htext⟩ | ⟨first, hfault, hfailed⟩
    · rw [hfaults, htext]
      exact ⟨⟨fun _ => rfl, fun _ => ⟨text, rfl⟩⟩, fun cause => by simp⟩
    · rw [hfault, hfailed]
      exact ⟨by simp, fun cause => by rw [Outcome.failed.injEq, Option.some.injEq]⟩

/-- An optional account with a name and a number of retries, both bound to headers. -/
def accountHeaders : ReadingRequest :=
  { schema := ⟨[(0, [⟨1, "name", true, .text, [("gateway.http.ref", "headers.x-name")]⟩,
      ⟨2, "retries", false, .int32, [("gateway.http.ref", "headers.x-retries")]⟩])]⟩
    resolve := fun _ => .ok "structs"
    fields := [⟨0, "account", false, .record ⟨0, "Account", "account.thrift"⟩, []⟩]
    annotationSpace := defaultSpace }

/-- The header of the name is looked up and written, then that of the retries. -/
theorem accountHeaders_run_bound :
    (∀ v ∈ accountHeaders.schema.visits accountHeaders.fields, accountHeaders.Spellable v) ∧
    (∀ file package, accountHeaders.resolve file = .ok package → IsSingle package) ∧
    accountHeaders.bound.map (·.header) = ["x-name", "x-retries"] ∧
    ∃ (code : HeaderCode) (chunks : List (List HeaderUse)),
      accountHeaders.run = .lines (code.lines.map Line.indented) ∧
      HeaderCode.uses [] code = chunks.flatten ∧
      List.Forall₂ (fun b uses => ∃ var, b.IsRead var uses) accountHeaders.bound chunks := by
  have hpackages : ∀ file package, accountHeaders.resolve file = .ok package → IsSingle package := by
    rintro file _ ⟨⟩
    decide
  have hvisits : ∀ v ∈ accountHeaders.schema.visits accountHeaders.fields,
      accountHeaders.Spellable v := by
    decide +kernel
  obtain ⟨hlines, hends⟩ := run_bound accountHeaders
  have hfaults : (accountHeaders.schema.visits accountHeaders.fields).findSome?
      accountHeaders.fault? = none := by
    decide +kernel
  obtain ⟨text, htext⟩ := (hends hvisits hpackages).1.mpr hfaults
  obtain ⟨code, rfl, -, chunks, huses, hreads⟩ := hlines text htext
  exact ⟨hvisits, hpackages, by decide +kernel, code, chunks, htext, huses, hreads⟩

end ReadingRequest

end RecordBridge

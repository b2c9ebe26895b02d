import RecordBridge.Proofs.Conversion.Found
import RecordBridge.Proofs.Conversion.LocalNames

/-!
# Sources are safe

A conversion that maps nothing from within the records of its source but leaves never goes through a
nil value of the source, whatever records may be absent (`run_findsSources`), by induction on the
derivation of its statements and on the depth of calls.

Containers and records within records are not safe to map: they are read without a test of what lies
above them (`namesOfTwo_nilBelow`).
-/

namespace RecordBridge

open Code

/-! ## The induction -/

/-- Local functions are there only for conversions in which they hide the whole source. -/
theorem Settings.mappedRoot_of_needsHelper {c : Settings} {target source : RecordRef}
    (h : c.needsHelper target source = true) : c.mappedRoot = .wholeInput := by
  have hrecursive : c.isRecursive = true := by
    rw [isRecursive]
    cases hcyclic : c.cyclic with
    | nil =>
      rw [needsHelper, hcyclic] at h
      cases h
    | cons id rest => rfl
  rw [mappedRoot, if_pos hrecursive]

section Induction

variable {c : Settings} {order : Order} {call : Code → State → Except Fault State}

/-- A record in a container is found if its slot holds an element of the container that was
chosen. -/
theorem Task.Found.record_of_element {n : Nat} {σ : State} {pos : Position} {t : FieldType}
    {slot : Slot} {target origin : RecordRef} {x : Operand}
    (hvalue : (Place.ofVar slot.value).IsSource n) (hplace : x.place.IsSource n)
    (hread : c.needsHelper target origin = false → σ.read x.place = .ok (σ.locals slot.value)) :
    (Task.record pos ⟨target, origin, slot.path⟩ t (.ofVar slot.value) x.place false).Found c n
      σ := by
  have hlocal : σ.read (.ofVar slot.value) = .ok (σ.locals slot.value) :=
    congrArg Except.ok (State.value_of_isLocal hvalue.isLocal)
  refine ⟨⟨.of_read hlocal, hvalue⟩, hplace, fun hneeds hset => ?_⟩
  obtain ⟨v, hv, hvset⟩ := hset
  rw [hlocal] at hv
  cases hv
  exact ⟨_, hread hneeds, hvset⟩

/-- What is emitted for a task finds its sources, if those of the task are found and the local
functions in scope find theirs. -/
theorem Emits.clean (hc : c.Sheltered) (horder : ∀ n keys, (order n keys).Perm keys)
    (hcall : CallsFind c call) {task : Task} {p q : Progress} {b : Code} (h : Emits c task p b q)
    (hflagged : task.Flagged c) (hscope : task.scope ≠ [] → c.mappedRoot = .wholeInput) :
    ∀ {σ : State}, c.Whole σ → Emitted c σ.functions → task.Found c p.counter σ →
      Clean p.counter (Emitted c) σ (exec order call b σ) := by
  induction h with
  | noFields | unset => exact fun _ hemitted _ => .ok .refl hemitted
  | moreFields hfirst _ ih₁ ih₂ =>
    intro σ hwhole hemitted hfound
    have hle := hfirst.numbered.le
    refine (ih₁ trivial hscope hwhole hemitted hfound).append fun τ _ hτ hemitted' => ?_
    have hlater := (hfound.agree hτ).mono hle
    exact (ih₂ trivial hscope (hwhole.agree hτ) hemitted' hlater).mono hle
  | @leaf pos f p primary standIn _ hsources =>
    intro σ hwhole hemitted hfound
    obtain ⟨hprimary, hstandIn⟩ := Position.Found.sourcesOf hc hwhole hfound hscope f
    rw [hsources] at hprimary hstandIn
    exact Clean.leafCode hemitted (hprimary primary rfl) hstandIn
  | @recordField pos f p q b primary standIn _ origin hsources _ horigin _ ih =>
    intro σ hwhole hemitted hfound
    obtain ⟨hprimary, -⟩ := Position.Found.sourcesOf hc hwhole hfound hscope f
    rw [hsources] at hprimary
    -- A record is no leaf, so the source is not one that its own tests shelter.
    have hleaf : primary.field.type.root.isLeaf = false := by
      rw [FieldType.root_of_record horigin]
      rfl
    have hplace := (Source.found_of_not_isLeaf (hprimary primary rfl) hleaf).place
    exact ih trivial hscope hwhole hemitted ⟨hplace, hplace.isSource, fun _ => id⟩
  | @containerField pos f p q b primary standIn hsources _ hcontainer ih =>
    intro σ hwhole hemitted hfound
    obtain ⟨hprimary, hstandIn⟩ := Position.Found.sourcesOf hc hwhole hfound hscope f
    rw [hsources] at hprimary hstandIn
    obtain ⟨hleaf, hleaf'⟩ := hcontainer.isLeaf_of_container
    have hplace := (Source.found_of_not_isLeaf (hprimary primary rfl) hleaf).place
    refine ih trivial hscope hwhole hemitted ⟨hplace, fun x hx => ?_⟩
    obtain ⟨y, hy, rfl⟩ := Option.map_eq_some_iff.mp hx
    exact (Source.found_of_not_isLeaf (hstandIn y hy) (hleaf' _ hx)).place
  | allocated _ _ _ _ _ _ ih =>
    intro σ hwhole hemitted _
    refine (Clean.guards _ _ _ hemitted).append fun τ _ hτ hemitted' => ?_
    refine Clean.write trivial hemitted' fun υ hυ hemitted'' => ?_
    exact ih trivial hscope ((hwhole.agree hτ).agree hυ) hemitted'' (by rintro _ _ ⟨⟩)
  | deferred _ _ _ _ _ _ ih =>
    exact fun hwhole hemitted _ => ih trivial hscope hwhole hemitted (by rintro _ _ ⟨⟩)
  | @inline pos job _ tested base _ p q b go hneeds _ _ ih =>
    intro σ hwhole hemitted hfound
    obtain ⟨htested, hbase, hfilled⟩ := hfound
    refine Clean.inlineCode hemitted htested fun τ hτ hset hemitted' => ?_
    -- The branch is entered where the source was found set, which is what its fields need.
    refine ih trivial hscope (hwhole.agree hτ) hemitted' ?_
    intro base' gs heq
    cases heq
    exact ⟨(hfilled hneeds hset).agree hτ hbase, hbase, hc.fields job.source⟩
  | call => exact fun _ hemitted hfound => Clean.callCode hcall hemitted hfound.1
  | define hneeds _ _ _ hfields _ =>
    intro σ hwhole hemitted hfound
    refine Clean.append ?_ fun τ _ hτ hemitted' =>
      Clean.callCode hcall hemitted' (hfound.1.agree hτ)
    refine Clean.step (.ok .refl hemitted) fun τ hτ hemitted' => ?_
    -- Declaring a helper runs nothing; its body is clean by the derivation kept with it.
    exact Clean.define (.ok .refl (.cons hneeds hfields rfl (hwhole.agree hτ) hemitted'))
  | loop hloop hchosen _ ih =>
    intro σ hwhole hemitted hfound
    refine Clean.loopCode horder hloop hemitted hfound hchosen fun τ hτ hemitted' hfound' => ?_
    refine ih ?_ hscope (hwhole.agree hτ) hemitted' hfound'
    rw [hchosen]
    exact hloop.flagged _ _ _
  | keys _ _ _ _ _ hchosen =>
    exact fun _ hemitted hfound => Clean.keysCode hemitted hfound hchosen
  | @leafElement pos field t slot p go =>
    intro σ _ hemitted hfound
    obtain ⟨hvalue, -, -, -⟩ := hfound
    have hread : σ.read (.ofVar slot.value) = .ok (σ.locals slot.value) :=
      congrArg Except.ok (State.value_of_isLocal hvalue.isLocal)
    exact Clean.write ⟨.of_read hread, by rintro ⟨⟩⟩ hemitted fun τ _ hemitted' => .ok .refl hemitted'
  | @recordElement pos field t slot p q b target origin hroot hone horigin _ ih =>
    intro σ hwhole hemitted hfound
    obtain ⟨hvalue, hprimary, -, hchosen⟩ := hfound
    -- Without a flag the value in the loop is the element of the primary source.
    rw [Slot.Chosen, hflagged.selector_eq_none_of_one hone] at hchosen
    refine ih trivial hscope hwhole hemitted
      (.record_of_element hvalue hprimary fun hneeds => hchosen ?_)
    rw [choosesPerElement, FieldType.record?, hroot, horigin]
    exact congrArg not hneeds
  | @eitherElement pos field t slot p q r b₁ b₂ target origin origin' flag standIn hroot hflag
      hstandIn horigin horigin' hprimary _ ih₁ ih₂ =>
    intro σ hwhole hemitted hfound
    obtain ⟨hvalue, hplace, hother, hchosen⟩ := hfound
    have hle := hprimary.numbered.le
    rw [Slot.Chosen, hflag] at hchosen
    -- The flag tells which of the two the value in the loop comes from.
    change if (σ.locals flag).datum = .flag true then _ else _ at hchosen
    refine Clean.fork (.ok _) hemitted (fun hon => ?_) (fun hoff => ?_)
      fun τ _ hemitted' => .ok .refl hemitted'
    · have hholds : (σ.locals flag).datum = .flag true := of_decide_eq_true (Except.ok.inj hon)
      refine ih₁ trivial hscope hwhole hemitted (.record_of_element hvalue hplace fun _ => ?_)
      exact (if_pos hholds).mp hchosen
    · have hfails : ¬(σ.locals flag).datum = .flag true := of_decide_eq_false (Except.ok.inj hoff)
      rw [if_neg hfails] at hchosen
      refine (ih₂ trivial hscope hwhole hemitted (.record_of_element (hvalue.mono hle)
        ((hother standIn hstandIn).mono hle) fun _ => hchosen standIn hstandIn)).mono hle
  | @containerElement pos field t slot p q b _ _ ih =>
    intro σ hwhole hemitted hfound
    obtain ⟨hvalue, -, -, -⟩ := hfound
    have hread : σ.read (.ofVar slot.value) = .ok (σ.locals slot.value) :=
      congrArg Except.ok (State.value_of_isLocal hvalue.isLocal)
    exact ih trivial hscope hwhole hemitted ⟨⟨.of_read hread, hvalue⟩, by rintro _ ⟨⟩⟩

/-- A call of a local function finds its sources if the calls in its body do. -/
theorem CallsFind.next (hc : c.Sheltered) (horder : ∀ n keys, (order n keys).Perm keys)
    (hcall : CallsFind c call) : CallsFind c (exec order call) := by
  intro f visible hemitted τ hfunctions hlocals
  obtain ⟨x, hlocals⟩ := hlocals
  have hscope : Emitted c τ.functions := hfunctions ▸ hemitted
  cases hemitted with
  | @cons _ _ pos job p q b go hneeds hemits hbody hwhole hvisible =>
    have hroot := Settings.mappedRoot_of_needsHelper hneeds
    -- Only the input is bound anew, and the mapped sources are those of the whole input.
    have hkept : c.Whole τ := by
      intro hmapped
      have hset := hwhole hmapped
      rw [hroot] at hset ⊢
      rw [hlocals, Function.update_of_ne (by decide)]
      exact hset
    have hinput : ∀ {υ : State}, υ.Reaches (.ofVar .input) := State.Reaches.of_read rfl
    rw [hbody, helperBlock]
    have hclean : Clean p.counter (Emitted c) τ (exec order call (helperBlock go b) τ) := by
      refine Clean.fork (State.findsSources_allSet fun p hp => ?_) hscope (fun htest => ?_)
        (fun _ => Clean.write trivial hscope fun υ _ hυ => .ok .refl hυ)
        fun υ _ hυ => Clean.step (.ok .refl hυ) fun ρ _ hρ => .ok .refl hρ
      · rw [List.mem_singleton.mp hp]
        exact hinput
      · -- In the branch that fills the result the argument was tested.
        have hset := State.isSet_of_allSet htest _ (List.mem_singleton_self _)
        refine Clean.write trivial hscope fun υ hυ hscope' => ?_
        refine hemits.clean hc horder hcall trivial (fun _ => hroot) (hkept.agree hυ) hscope' ?_
        intro base gs heq
        cases heq
        have hsource : (Place.ofVar .input).IsSource p.counter := .ofVar rfl (Nat.zero_le _)
        exact ⟨hset.agree hυ hsource, hsource, hc.fields job.source⟩
    exact hclean.finds

/-- Calls find their sources at every depth. -/
theorem callsFind_run (hc : c.Sheltered) (horder : ∀ n keys, (order n keys).Perm keys) (m : Nat) :
    ∃ call, run order m = exec order call ∧ CallsFind c call := by
  induction m with
  | zero => exact ⟨_, rfl, fun _ _ _ _ _ _ => fun _ _ => nofun⟩
  | succ m ih =>
    obtain ⟨call, hrun, hcall⟩ := ih
    refine ⟨run order m, rfl, ?_⟩
    rw [hrun]
    exact hcall.next hc horder

end Induction

namespace ConversionRequest

variable {r : ConversionRequest}

/-! ## What is assumed of a conversion -/

/-- The source fields, and those of all records, have identifiers for names. What is mapped are
fields of the whole source, or leaves of records in it that are mapped to another path than their own. -/
structure Sheltered (r : ConversionRequest) : Prop where
  top : Identified r.source
  record : ∀ ref, Identified (r.schema.fields ref)
  mapped : ∀ entry ∈ r.mappings.entries, ∀ found ∈ r.schema.sourceAt? r.source entry.2.source,
    found.1.length = 1 ∨ found.2.type.root.isLeaf = true ∧ found.1.bare ≠ entry.1

/-- It is enough to look at the records that the schema lists. -/
theorem Sheltered.of_records (htop : Identified r.source)
    (hrecords : ∀ entry ∈ r.schema.records, Identified entry.2)
    (hmapped : ∀ entry ∈ r.mappings.entries, ∀ found ∈ r.schema.sourceAt? r.source entry.2.source,
      found.1.length = 1 ∨ found.2.type.root.isLeaf = true ∧ found.1.bare ≠ entry.1) :
    r.Sheltered where
  top := htop
  record := Schema.fields_of_records nofun hrecords
  mapped := hmapped

theorem Sheltered.settings {mapped : List (String × MappedField)} (h : r.Sheltered)
    (hmapped : r.schema.followMappings r.source r.mappings.entries = .ok mapped) :
    (r.settings mapped).Sheltered where
  fields := h.record
  mapped entry hentry := by
    obtain ⟨m, hm, hsource⟩ := mem_followMappings hmapped entry hentry
    obtain ⟨names, name, hnames, hname, hpath, -⟩ := followSource_spec h.record h.top hsource
    exact ⟨⟨names, name, hnames, hname, hpath⟩, h.mapped _ hm _ hsource⟩

/-! ## Runs -/

/-- **Sources are found**: the statements of a conversion that maps nothing from within records but
leaves do not go through a nil value of their source, whatever is nil in it. -/
theorem run_findsSources (hsheltered : r.Sheltered) {text : List String}
    (hrun : r.run = .lines text) :
    ∃ b : Code, text = b.lines.map Line.indented ∧
      ∀ order : Order, (∀ n keys, (order n keys).Perm keys) →
        ∀ depth input, input.isSet = true →
          FindsSources (RecordBridge.run order depth b (.start input)) := by
  obtain ⟨b, q, hdraft, rfl⟩ := draft_of_run hrun
  obtain ⟨mapped, body, hmapped, rfl, hemits⟩ := emits_of_draft hdraft
  refine ⟨_, rfl, fun order horder depth input hinput => ?_⟩
  have hc := hsheltered.settings hmapped
  obtain ⟨call, hcall, hfind⟩ := callsFind_run hc horder depth
  obtain ⟨σ, hpreamble, -, hfunctions, hin, hroot⟩ := exec_preamble (r.settings mapped) input
  have hwhole : (r.settings mapped).Whole σ := fun hne => by rwa [hroot hne]
  have hset : σ.IsSet (.ofVar .input) := State.isSet_ofVar rfl (by rwa [hin])
  have hemitted : Emitted (r.settings mapped) σ.functions := by
    rw [hfunctions]
    exact .nil
  -- The whole input is set, and every field of the source is read from it.
  have hfound : (Task.fields r.start r.target).Found (r.settings mapped) 0 σ := by
    intro base gs heq
    cases heq
    exact ⟨hset, .ofVar rfl (Nat.le_refl 0), hsheltered.top⟩
  rw [hcall, exec_append, hpreamble order call]
  exact (hemits.clean hc horder hfind trivial (absurd rfl) hwhole hemitted hfound).finds

/-- A conversion that takes a leaf from a record that may be absent. -/
def signature : ConversionRequest :=
  { schema := ⟨[(0, [⟨0, "name", true, .text, []⟩])]⟩
    resolve := fun _ => .ok "letters"
    source := [⟨0, "author", false, .record ⟨0, "Person", "letters"⟩, []⟩]
    target := [⟨0, "signature", false, .text, []⟩]
    mappings := Table.empty.insert "Signature" ⟨"author.name", false⟩
    optional := [] }

example : signature.Sheltered :=
  .of_records (by decide +kernel) (by decide +kernel) (by decide +kernel)

/-! ### A record above a mapped list -/

/-- A conversion that takes a list from a record that may be absent. -/
def namesOfTwo : ConversionRequest :=
  { schema := ⟨[(0, [⟨0, "names", false, .list .text, []⟩])]⟩
    resolve := fun _ => .ok "structs"
    source := [⟨0, "two", false, .record ⟨0, "Foo", "structs"⟩, []⟩]
    target := [⟨0, "one", false, .list .text, []⟩]
    mappings := Table.empty.insert "One" ⟨"Two.Names", true⟩
    optional := [] }

/-- Nothing is tested above a mapped container: without the record, each run stops at it. -/
theorem namesOfTwo_nilBelow : ∃ b q, namesOfTwo.draft {} = .ok ((), b, q) ∧
    ∀ order depth, RecordBridge.run order depth b (.start .fresh) = .error (.nilBelow .input) := by
  refine ⟨_, _, by with_unfolding_all rfl, fun order depth => ?_⟩
  obtain ⟨call, hcall, -⟩ := exists_run_eq_exec order depth
  rw [hcall]
  with_unfolding_all rfl

end ConversionRequest

end RecordBridge

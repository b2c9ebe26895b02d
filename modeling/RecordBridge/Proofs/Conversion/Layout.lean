import RecordBridge.Proofs.Conversion.Emission
import RecordBridge.Proofs.Conversion.Sources
import RecordBridge.Proofs.Layout
import RecordBridge.Proofs.Schema.Within

/-!
# The layout of conversions

Statements and heads of a conversion start with a letter. Only those that take a value as it is can
end in what the schema names, since they end in the place that they read; such a place ends in the Go
name of a source field or in an index. So the lines of a conversion are in blocks
(`run_isBlockStructured`) unless the name of a source field holds an opening brace.
-/

namespace RecordBridge

/-! ## Spellings -/

namespace Expr

/-- The place whose value an expression takes as it is. -/
def read? : Expr → Option Place
  | .read source => some source
  | _ => none

/-- An expression ends otherwise than in an opening brace, unless it is a place that does. -/
theorem endsPlainly_text {e : Expr} (h : ∀ p ∈ e.read?, EndsPlainly p.text) :
    EndsPlainly e.text := by
  cases e with
  | absent => decide
  | flag on => cases on <;> decide
  | present => decide
  | read source => exact h source rfl
  | newRecord type => exact endsPlainly_append _ (by decide)
  | convert cast source => cases cast <;> exact endsPlainly_append _ (by decide)
  | call helper source => exact endsPlainly_append _ (by decide)
  | make type source => exact endsPlainly_append _ (by decide)
  | makeRoom type source => exact endsPlainly_append _ (by decide)
  | append target type v => exact endsPlainly_append _ (by decide)

/-- What reads no place ends in a fixed word, a variable or a bracket. -/
theorem endsPlainly_text_of_read? {e : Expr} (h : e.read? = none) : EndsPlainly e.text :=
  endsPlainly_text fun p hp => by
    rw [h] at hp
    cases hp

end Expr

namespace Statement

/-- Every statement starts with a word or a variable, never with a brace. -/
theorem startsPlainly_text (s : Statement) : StartsPlainly s.text := by
  cases s with
  | keep name known => exact (((name.startsPlainly_text.append _).append _).append _).append _
  | assign target value => exact (target.startsPlainly_text.append _).append _
  | define v value => exact (v.startsPlainly_text.append _).append _
  | declare helper =>
    have hstart : StartsPlainly "var " := by decide
    exact ((hstart.append _).append _).append _
  | giveBack => decide

/-- A line that keeps a variable ends in the name of one. -/
theorem endsPlainly_keep (name known : Var) : EndsPlainly (keep name known).text :=
  .append (endsPlainly_append _ (by decide)) name.endsPlainly_text

/-- An assignment ends as its value does. -/
theorem endsPlainly_assign {target : Place} {value : Expr} (h : EndsPlainly value.text) :
    EndsPlainly (assign target value).text :=
  .append (endsPlainly_append _ (by decide)) h

/-- The declaration of a local function ends in its result type, a pointer to a named type. -/
theorem endsPlainly_declare (helper : HelperSignature) : EndsPlainly (declare helper).text :=
  .append (endsPlainly_append _ (by decide)) (endsPlainly_append _ (by decide))

/-- So does a definition. -/
theorem endsPlainly_define {v : Var} {value : Expr} (h : EndsPlainly value.text) :
    EndsPlainly (define v value).text :=
  .append (endsPlainly_append _ (by decide)) h

end Statement

/-- A head starts with its own word, or with the local function that it opens. -/
theorem Head.startsPlainly_text (head : Head) : StartsPlainly head.text := by
  -- The rest of the line is appended to that word and does not change how it starts.
  cases head with
  | ifSet places => exact .append (by decide) _
  | ifUnset place =>
    have hstart : StartsPlainly "if " := by decide
    exact (hstart.append _).append _
  | ifFlag v => exact .append (by decide) _
  | each position value source =>
    have hstart : StartsPlainly "for " := by decide
    exact ((((hstart.append _).append _).append _).append _).append _
  | eachKey v source =>
    have hstart : StartsPlainly "for " := by decide
    exact ((hstart.append _).append _).append _
  | eachValue v source =>
    have hstart : StartsPlainly "for _, " := by decide
    exact ((hstart.append _).append _).append _
  | helperBody helper => exact (helper.name.startsPlainly_text.append _).append _

/-! ## Pieces of code -/

/-- No simple statement of a block ends in an opening brace. -/
def Code.EndsPlainly (b : Code) : Prop :=
  ∀ s ∈ b.steps, RecordBridge.EndsPlainly s.text

namespace Code.EndsPlainly

variable {a b guards body : Code} {path : Path} {type : GoType}

theorem done : EndsPlainly .done :=
  fun _ hs => absurd hs List.not_mem_nil

/-- Code after code. -/
theorem append (ha : EndsPlainly a) (hb : EndsPlainly b) : EndsPlainly (a ++ b) := by
  intro s hs
  rw [Block.steps_append] at hs
  exact (List.mem_append.mp hs).elim (ha s) (hb s)

theorem step {s : Statement} (hs : RecordBridge.EndsPlainly s.text) (hb : EndsPlainly b) :
    EndsPlainly (.step s b) :=
  List.forall_mem_cons.mpr ⟨hs, hb⟩

theorem nest {head : Head} (hbody : EndsPlainly body) (hb : EndsPlainly b) :
    EndsPlainly (.nest head body b) := by
  rw [EndsPlainly, Block.steps_nest, List.forall_mem_append]
  exact ⟨hbody, hb⟩

theorem fork {head : Head} {rest : Code} (ha : EndsPlainly a) (hb : EndsPlainly b)
    (hrest : EndsPlainly rest) : EndsPlainly (.fork head a b rest) := by
  rw [EndsPlainly, Block.steps_fork, List.forall_mem_append, List.forall_mem_append]
  exact ⟨ha, hb, hrest⟩

/-- An assignment that does not take a value as it is. -/
theorem assign {target : Place} {e : Expr} (he : e.read? = none) (hb : EndsPlainly b) :
    EndsPlainly (.step (.assign target e) b) :=
  step (Statement.endsPlainly_assign (Expr.endsPlainly_text_of_read? he)) hb

/-- Guards allocate records, and such lines end in the type and a pair of braces on one line. -/
theorem ofGuards (d : Deferred) (scope target : Path) : EndsPlainly (d.guards scope target) := by
  rw [Deferred.guards]
  induction d.waiting ['.', '['] (scope ++ target) with
  | nil => exact done
  | cons e l ih => exact nest (assign rfl done) ih

/-- Guards that are left out end plainly, too. -/
theorem ofGuardsAbove (p : Progress) (pos : Position) (path : Path) (needed : Bool) :
    EndsPlainly (guardsAbove p pos path needed) := by
  cases needed with
  | false => exact done
  | true => exact ofGuards _ _ _

/-- An assignment ends in the bracket of its cast, or in the place that is read. -/
theorem assignment (hg : EndsPlainly guards) (x : Assignment) : EndsPlainly (x.code guards) := by
  rw [Assignment.code]
  split
  · exact nest (hg.append (assign rfl done)) done
  · exact hg.append (assign rfl done)

/-- So do both assignments of a leaf. -/
theorem leafCode (hg : EndsPlainly guards) {pos : Position} {f : Field} {primary : Source}
    {standIn : Option Source} : EndsPlainly (leafCode guards pos f type primary standIn) := by
  cases standIn with
  | none => exact hg.assignment _
  | some x => exact (hg.assignment _).append (hg.assignment _)

/-- A record that is filled in place adds an allocation and a nil. -/
theorem inlineCode (hg : EndsPlainly guards) {tested : Place} (hbody : EndsPlainly body) :
    EndsPlainly (inlineCode guards path type tested body) := by
  have hfilled : EndsPlainly
      (guards ++ .step (.assign ⟨.output, path⟩ (.newRecord type)) body) :=
    hg.append (assign rfl hbody)
  rw [RecordBridge.inlineCode]
  split
  · exact fork hfilled (assign rfl done) done
  · exact nest hfilled done

theorem callCode (hg : EndsPlainly guards) {helper : Var} {argument : Place} :
    EndsPlainly (callCode guards path helper argument) :=
  hg.append (assign rfl done)

/-- A local function adds its declaration and what it gives back. -/
theorem helperCode {helper : HelperSignature} (hbody : EndsPlainly body) :
    EndsPlainly (helperCode helper body) := by
  have hblock : EndsPlainly (helperBlock helper.target body) :=
    fork (assign rfl hbody) (assign rfl done) (step (by decide) done)
  exact step (Statement.endsPlainly_declare helper) (nest hblock done)

/-- The choice of a container takes both as they are. -/
theorem selection {primary : Place} {standIn : Option Place}
    (hprimary : RecordBridge.EndsPlainly primary.text)
    (hstandIn : ∀ p ∈ standIn, RecordBridge.EndsPlainly p.text) (n : Nat) (flagged : Bool) :
    EndsPlainly (Selection.of n primary standIn flagged).code := by
  cases standIn with
  | none => exact done
  | some x =>
    have htake : RecordBridge.EndsPlainly
        (Statement.assign (.ofVar (.sourceList (n + 1))) (.read primary)).text :=
      Statement.endsPlainly_assign hprimary
    have hdefine : RecordBridge.EndsPlainly
        (Statement.define (.sourceList (n + 1)) (.read x)).text :=
      Statement.endsPlainly_define (hstandIn x rfl)
    cases flagged with
    | false => exact step hdefine (nest (step htake done) done)
    | true =>
      exact step hdefine (step (Statement.endsPlainly_define (by decide))
        (nest (step htake (assign rfl done)) done))

/-- Taking over keys adds a loop with one statement. -/
theorem keysCode (hg : EndsPlainly guards) {intoKeys fromKeys : Bool} {chosen : Selection}
    (hchosen : EndsPlainly chosen.code) :
    EndsPlainly (keysCode guards path type intoKeys fromKeys chosen) := by
  refine hchosen.append (hg.append ?_)
  cases intoKeys <;> exact assign rfl (nest (assign rfl done) done)

/-- A loop over elements is as its body is. -/
theorem loopCode (hg : EndsPlainly guards) {loop : Loop} {job : ContainerJob} {chosen : Selection}
    (hchosen : EndsPlainly chosen.code) (hbody : EndsPlainly body) :
    EndsPlainly (loop.code guards job chosen body) :=
  hchosen.append (hg.append (assign rfl (nest hbody done)))

end Code.EndsPlainly

/-! ## The derivation -/

/-- No name holds an opening brace. -/
def Unbraced (fields : List Field) : Prop :=
  ∀ f ∈ fields, '\x7b' ∉ f.name.toList

instance (fields : List Field) : Decidable (Unbraced fields) :=
  inferInstanceAs (Decidable (∀ f ∈ fields, '\x7b' ∉ f.name.toList))

/-- No name of a source field holds an opening brace, and no mapped source ends in one. -/
structure Settings.Unbraced (c : Settings) : Prop where
  records : ∀ ref, RecordBridge.Unbraced (c.schema.fields ref)
  mapped : ∀ e ∈ c.mapped, EndsPlainly (Place.mk c.mappedRoot e.2.path).text

/-- No name of a field of the source record holds an opening brace. -/
def Position.Unbraced (pos : Position) : Prop :=
  ∀ base gs, pos.source = some (base, gs) → RecordBridge.Unbraced gs

/-- The sources that a task starts from do not end in an opening brace. -/
def Task.Unbraced : Task → Prop
  | .fields pos _ | .field pos _ | .record pos _ _ _ _ _ | .element pos _ _ _ => pos.Unbraced
  | .container pos _ job => pos.Unbraced ∧ EndsPlainly job.primary.place.text ∧
      ∀ x ∈ job.standIn, EndsPlainly x.place.text

section Derivation

variable {c : Settings} {pos : Position}

/-- Without a source no name of it is spelled. -/
theorem Position.Unbraced.of_unsourced (h : pos.source = none) : pos.Unbraced := by
  intro base gs hsource
  rw [h] at hsource
  cases hsource

/-- Fields of records of the schema hold no brace. -/
theorem Position.Unbraced.of_fields (hc : c.Unbraced) {base : Place} {ref : RecordRef}
    (h : pos.source = some (base, c.schema.fields ref)) : pos.Unbraced := by
  intro base' gs hsource
  rw [h] at hsource
  cases hsource
  exact hc.records ref

/-- Sources do not end in an opening brace. -/
theorem Position.Unbraced.sourcesOf (h : pos.Unbraced) (hc : c.Unbraced) (f : Field) (path : String) :
    (∀ x, (sourcesOf c pos f path).1 = some x → EndsPlainly x.place.text) ∧
      ∀ x, (sourcesOf c pos f path).2 = some x → EndsPlainly x.place.text := by
  refine sourcesOf_forall (fun x hx => ?_) fun m hm => ?_
  · obtain ⟨base, gs, hsource⟩ := exists_source_of_directSource hx
    obtain ⟨hmem, -, hplace⟩ := directSource_some hsource hx
    rw [hplace]
    exact base.endsPlainly_select (caseless_brace.not_mem_pascal (h base gs hsource _ hmem))
  · exact hc.mapped (path, m) (Settings.mem_of_mapping? hm)

/-- What holds of the place of all that stands in holds of the places that are chosen from. -/
theorem ContainerJob.forall_standIn {job : ContainerJob} {P : Place → Prop}
    (h : ∀ x ∈ job.standIn, P x.place) : ∀ p ∈ job.standIn.map (·.place), P p := by
  intro p hp
  obtain ⟨x, hx, rfl⟩ := Option.map_eq_some_iff.mp hp
  exact h x hx

/-- No statement that is emitted ends in an opening brace. -/
theorem Emits.endsPlainly (hc : c.Unbraced) {task : Task} {p q : Progress} {b : Code}
    (h : Emits c task p b q) (htask : task.Unbraced) : b.EndsPlainly := by
  -- Only the choice of a container takes sources as they are, so only its task tells of them.
  induction h with
  | noFields => exact .done
  | moreFields _ _ ihfirst ihrest => exact (ihfirst htask).append (ihrest htask)
  | leaf => exact .leafCode (.ofGuards _ _ _)
  | recordField _ _ _ _ ih => exact ih htask
  | @containerField pos f _ _ _ primary standIn hsources _ _ ih =>
    have hends := Position.Unbraced.sourcesOf htask hc f (pos.key f)
    rw [hsources] at hends
    refine ih ⟨htask, hends.1 _ rfl, fun x hx => ?_⟩
    obtain ⟨y, rfl, rfl⟩ := Option.map_eq_some_iff.mp hx
    exact hends.2 y rfl
  | allocated _ _ _ _ _ _ ih =>
    -- Beneath a record without a source there is none to select from.
    have hbody := ih (Position.Unbraced.of_unsourced rfl)
    exact .append (.ofGuards _ _ _) (.assign rfl hbody)
  | deferred _ _ _ _ _ _ ih => exact ih (Position.Unbraced.of_unsourced rfl)
  | unset => exact .done
  | inline _ _ _ ih =>
    have hbody := ih (Position.Unbraced.of_fields hc rfl)
    exact .inlineCode (.ofGuards _ _ _) hbody
  | call => exact .callCode (.ofGuardsAbove _ _ _ _)
  | define _ _ _ _ _ ih =>
    have hbody := ih (Position.Unbraced.of_fields hc rfl)
    exact .append (.helperCode hbody) (.callCode (.ofGuardsAbove _ _ _ _))
  | @loop _ _ job _ _ _ _ _ _ hchosen _ ih =>
    obtain ⟨hpos, hprimary, hstandIn⟩ := htask
    rw [hchosen]
    exact .loopCode (.ofGuards _ _ _)
      (.selection hprimary (ContainerJob.forall_standIn hstandIn) _ _) (ih hpos)
  | @keys _ _ _ _ _ job _ _ _ _ _ _ _ _ _ hchosen =>
    obtain ⟨-, hprimary, hstandIn⟩ := htask
    rw [hchosen]
    exact .keysCode (.ofGuards _ _ _)
      (.selection hprimary (ContainerJob.forall_standIn hstandIn) _ _)
  | leafElement => exact .assign rfl .done
  | recordElement _ _ _ _ ih => exact ih htask
  | eitherElement _ _ _ _ _ _ _ ihprimary ihother =>
    exact .fork (ihprimary htask) (ihother htask) .done
  | containerElement _ _ ih =>
    -- An inner container is the value of the loop, and nothing stands in for it.
    refine ih ⟨htask, Place.endsPlainly_ofVar _, fun x hx => ?_⟩
    cases hx

end Derivation

/-! ## Whole conversions -/

/-- What a path of names leads to is a field of the record that it starts at or of one of the schema,
and the place ends in its Go name. -/
theorem followSource_select {s : Schema} {names : List String} {before : Path} {fields : List Field}
    {found : Path × Field} (h : followSource s before fields names = some found) :
    (found.2 ∈ fields ∨ ∃ ref, found.2 ∈ s.fields ref) ∧
      ∃ above : Path, found.1 = above.select (pascal found.2.name) := by
  refine followSource_forall (P := fun _ group => group = fields ∨ ∃ ref, group = s.fields ref)
    (Q := fun path f => (f ∈ fields ∨ ∃ ref, f ∈ s.fields ref) ∧
      ∃ above : Path, path = above.select (pascal f.name)) ?_ ?_ (.inl rfl) h
  · rintro before group f (rfl | ⟨ref, rfl⟩) hf
    · exact ⟨.inl hf, before, rfl⟩
    · exact ⟨.inr ⟨ref, hf⟩, before, rfl⟩
  · exact fun _ _ _ => .inr ⟨_, rfl⟩

namespace ConversionRequest

variable {r : ConversionRequest}

/-- No name of a source field, or of a field that the schema tells, holds an opening brace. -/
def Unbraced (r : ConversionRequest) : Prop :=
  RecordBridge.Unbraced r.source ∧ ∀ record ∈ r.schema.records, RecordBridge.Unbraced record.2

instance (r : ConversionRequest) : Decidable r.Unbraced :=
  inferInstanceAs (Decidable (RecordBridge.Unbraced r.source ∧
    ∀ record ∈ r.schema.records, RecordBridge.Unbraced record.2))

/-- Mappings lead to fields of the source, whose names hold no brace. -/
theorem Unbraced.settings (h : r.Unbraced) {mapped : List (String × MappedField)}
    (hmapped : r.schema.followMappings r.source r.mappings.entries = .ok mapped) :
    (r.settings mapped).Unbraced := by
  have hrecords : ∀ ref, RecordBridge.Unbraced (r.schema.fields ref) :=
    Schema.fields_of_records (fun f hf => absurd hf List.not_mem_nil) h.2
  refine ⟨hrecords, fun e he => ?_⟩
  obtain ⟨m, -, hfound⟩ := mem_followMappings hmapped e he
  obtain ⟨hmem, above, hpath⟩ := followSource_select hfound
  have hname : '\x7b' ∉ e.2.field.name.toList := by
    rcases hmem with hmem | ⟨ref, hmem⟩
    · exact h.1 _ hmem
    · exact hrecords ref _ hmem
  have hplace : Place.mk (r.settings mapped).mappedRoot e.2.path =
      (Place.mk (r.settings mapped).mappedRoot above).select (pascal e.2.field.name) :=
    congrArg (Place.mk _) hpath
  rw [hplace]
  exact Place.endsPlainly_select _ (caseless_brace.not_mem_pascal hname)

/-- The lines before all others are fixed. -/
theorem endsPlainly_preamble (c : Settings) : (preamble c).EndsPlainly := by
  rw [preamble]
  split
  · exact .step (Statement.endsPlainly_keep _ _) (.step (Statement.endsPlainly_keep _ _) .done)
  · exact .done

/-- The lines of a conversion are in blocks. -/
theorem run_isBlockStructured (h : r.Unbraced) {text : List String} (hrun : r.run = .lines text) :
    IsBlockStructured text := by
  obtain ⟨b, q, hdraft, rfl⟩ := draft_of_run hrun
  obtain ⟨mapped, body, hmapped, rfl, hemits⟩ := emits_of_draft hdraft
  have hstart : r.start.Unbraced := by
    intro base gs hsource
    cases hsource
    exact h.1
  have hends : (preamble (r.settings mapped) ++ body).EndsPlainly :=
    (endsPlainly_preamble _).append (hemits.endsPlainly (h.settings hmapped) hstart)
  exact isBlockStructured_lines Head.startsPlainly_text fun s hs => ⟨s.startsPlainly_text, hends s hs⟩

end ConversionRequest

end RecordBridge

import RecordBridge.Header.Binding
import RecordBridge.Header.Reading
import RecordBridge.Proofs.Draft
import RecordBridge.Proofs.Layout

/-!
# The layout of statements that use headers

Statements that use headers start with a place or a variable and end with a variable or a bracket.
The variables have fixed names, but for those that are named after a header; these are made of ASCII
letters and digits, whatever the header is. So the lines that bind or read headers are in blocks, for
every schema and every header.

`Draft.Ensures` tells of the statements that a draft writes and of the value that it yields, with one
rule for each way in which drafts are made.
-/

namespace RecordBridge

/-! ## Spellings -/

/-- A variable whose name neither starts nor ends like a line that starts or ends a block. -/
structure HeaderVar.Plain (v : HeaderVar) : Prop where
  start : StartsPlainly v.spelling
  last : EndsPlainly v.spelling

theorem HeaderVar.plain_text : text.Plain :=
  ⟨by decide, by decide⟩

theorem HeaderVar.plain_parsed : parsed.Plain :=
  ⟨by decide, by decide⟩

theorem HeaderVar.plain_converted : converted.Plain :=
  ⟨by decide, by decide⟩

namespace HeaderStatement

/-- The variable that a statement is about. -/
def var? : HeaderStatement → Option HeaderVar
  | .allocate _ _ => none
  | .store _ v _ | .storeAs _ _ v | .convert _ v | .fetch v _ | .fetchTested v _ => some v

/-- A statement about a variable with a plain name, if it is about one. -/
def Plain (s : HeaderStatement) : Prop :=
  ∀ v ∈ s.var?, v.Plain

/-- A statement that only uses a plain variable is plain. -/
theorem Plain.of_var {s : HeaderStatement} {v : HeaderVar} (h : s.var? = some v) (hv : v.Plain) :
    s.Plain := by
  intro w hw
  rw [h] at hw
  cases hw
  exact hv

/-- An allocation uses no variable. -/
theorem Plain.allocate (place : Place) (type : GoType) : (allocate place type).Plain := by
  intro w hw
  cases hw

/-- A plain statement starts with its place or its variable. -/
theorem Plain.startsPlainly_text {s : HeaderStatement} (h : s.Plain) : StartsPlainly s.text := by
  cases s with
  | allocate place type => exact ((place.startsPlainly_text.append _).append _).append _
  | store place v byAddress => exact ((place.startsPlainly_text.append _).append _).append _
  | storeAs place type v =>
    exact ((((place.startsPlainly_text.append _).append _).append _).append _).append _
  | convert type v =>
    have hstart := HeaderVar.plain_converted.start
    exact ((((hstart.append _).append _).append _).append _).append _
  | fetch v header => exact (((h v rfl).start.append _).append _).append _
  | fetchTested v header =>
    exact (((((h v rfl).start.append _).append _).append _).append _).append _

/-- It ends in a bracket, in a variable or in the braces of a new record. -/
theorem Plain.endsPlainly_text {s : HeaderStatement} (h : s.Plain) : EndsPlainly s.text := by
  cases s with
  | allocate place type => exact endsPlainly_append _ (by decide)
  | store place v byAddress =>
    refine .append ?_ (h v rfl).last
    cases byAddress with
    | false => exact .append (endsPlainly_append _ (by decide)) (by decide)
    | true => exact endsPlainly_append _ (by decide)
  | storeAs place type v => exact endsPlainly_append _ (by decide)
  | convert type v => exact endsPlainly_append _ (by decide)
  | fetch v header => exact endsPlainly_append _ (by decide)
  | fetchTested v header => exact endsPlainly_append _ (by decide)

end HeaderStatement

/-- Every head is a condition. -/
theorem HeaderHead.startsPlainly_text (head : HeaderHead) : StartsPlainly head.text := by
  cases head with
  | ifHeader header =>
    have hstart : StartsPlainly "if key, ok := headers.Get(\"" := by decide
    exact (hstart.append _).append _
  | ifUnset place | ifNotEmpty place =>
    have hstart : StartsPlainly "if " := by decide
    exact (hstart.append _).append _
  | ifExists v => exact .append (by decide) _
  | ifParsed literal v =>
    have hstart : StartsPlainly "if v, err := " := by decide
    exact (hstart.append _).append _

/-! ## What drafts ensure -/

namespace Draft

variable {S H σ α β : Type}

/-- If a draft finishes, its simple statements are all in `P` and its value is in `Q`. -/
def Ensures (P : S → Prop) (Q : α → Prop) (d : Draft S H σ α) : Prop :=
  ∀ p a b q, d p = .ok (a, b, q) → (∀ s ∈ b.steps, P s) ∧ Q a

namespace Ensures

variable {P : S → Prop} {Q : α → Prop} {R : β → Prop}

/-- No statement is there of which anything could be asked. -/
theorem none (s : S) (hs : s ∈ (Block.done : Block S H).steps) : P s :=
  absurd hs List.not_mem_nil

/-- A draft that writes nothing ensures what is asked of statements. -/
theorem value {a : α} (h : Q a) : Ensures P Q (Draft.value a : Draft S H σ α) := by
  intro p a' b q hd
  obtain ⟨rfl, rfl, -⟩ := value_ok.mp hd
  exact ⟨none, h⟩

/-- A draft that stops has no block of which to ask anything. -/
theorem stop (why : Stop) : Ensures P Q (Draft.stop why : Draft S H σ α) :=
  fun _ _ _ _ hd => absurd hd not_stop_ok

theorem fail (cause : GenerationError) : Ensures P Q (Draft.fail cause : Draft S H σ α) :=
  stop _

theorem ofExcept (e : Except GenerationError α) :
    Ensures P (fun _ => True) (Draft.ofExcept e : Draft S H σ α) := by
  intro p a b q hd
  obtain ⟨-, rfl, -⟩ := ofExcept_ok.mp hd
  exact ⟨none, trivial⟩

theorem state : Ensures P (fun _ => True) (Draft.state : Draft S H σ σ) := by
  intro p a b q hd
  obtain ⟨-, rfl, -⟩ := state_ok.mp hd
  exact ⟨none, trivial⟩

theorem update (f : σ → σ) : Ensures P (fun _ => True) (Draft.update f : Draft S H σ Unit) := by
  intro p a b q hd
  obtain ⟨rfl, -⟩ := update_ok.mp hd
  exact ⟨none, trivial⟩

variable [Spelled S] [Spelled H]

theorem pure {a : α} (h : Q a) : Ensures P Q (Pure.pure a : Draft S H σ α) :=
  value h

/-- A block is written whose statements are as they should be. -/
theorem write {b : Block S H} (h : ∀ s ∈ b.steps, P s) :
    Ensures P (fun _ => True) (Draft.write b : Draft S H σ Unit) := by
  intro p a b' q hd
  obtain ⟨rfl, -⟩ := write_ok hd
  exact ⟨h, trivial⟩

/-- Statements of one draft and then of the other. -/
theorem bind {d : Draft S H σ α} {f : α → Draft S H σ β} (hd : Ensures P Q d)
    (hf : ∀ a, Q a → Ensures P R (f a)) : Ensures P R (d >>= f) := by
  intro p a b q h
  obtain ⟨a₁, b₁, p₁, b₂, h₁, h₂, rfl⟩ := bind_ok.mp h
  obtain ⟨hfirst, ha⟩ := hd _ _ _ _ h₁
  obtain ⟨hrest, hvalue⟩ := hf a₁ ha _ _ _ _ h₂
  rw [Block.steps_append, List.forall_mem_append]
  exact ⟨⟨hfirst, hrest⟩, hvalue⟩

omit [Spelled S] in
/-- A head adds no simple statement. -/
theorem nest {head : H} {d : Draft S H σ α} (hd : Ensures P Q d) :
    Ensures P Q (Draft.nest head d) := by
  intro p a b q h
  obtain ⟨body, hbody, rfl⟩ := nest_ok h
  obtain ⟨hsteps, hvalue⟩ := hd _ _ _ _ hbody
  rw [Block.steps_nest, List.forall_mem_append]
  exact ⟨⟨hsteps, none⟩, hvalue⟩

/-- The statements of all members of a list. -/
theorem forM {γ : Type} {f : γ → Draft S H σ PUnit} :
    ∀ (l : List γ), (∀ x ∈ l, Ensures P (fun _ => True) (f x)) →
      Ensures P (fun _ => True) (l.forM f)
  | [], _ => pure trivial
  | x :: l, h => bind (h x List.mem_cons_self) fun _ _ =>
    forM l fun y hy => h y (List.mem_cons_of_mem _ hy)

end Ensures

end Draft

/-! ## Forms -/

section Forms

variable {σ : Type} {resolve : Resolver}

/-- Statements about variables with plain names. -/
abbrev PlainDraft {α : Type} (Q : α → Prop) (d : HeaderWriting σ α) : Prop :=
  Draft.Ensures HeaderStatement.Plain Q d

/-- To choose a form writes nothing. -/
theorem headerForm_plain (type : FieldType) :
    PlainDraft (fun _ => True) (headerForm resolve type : HeaderWriting σ (Option HeaderForm)) := by
  cases type with
  | int8 => exact .stop _
  | enum name file => exact .bind (.ofExcept _) fun _ _ => .pure trivial
  | «alias» name file target =>
    rw [headerForm]
    split
    · exact .bind (.ofExcept _) fun _ _ => .pure trivial
    · exact .pure trivial
  | _ => exact .pure trivial

/-- Nor does it to refuse a field. -/
theorem formFor_plain (header : String) (field : Field) :
    PlainDraft (fun _ => True) (formFor resolve header field : HeaderWriting σ HeaderForm) := by
  refine .bind (headerForm_plain _) fun form _ => ?_
  cases form with
  | none => exact .fail _
  | some form => exact .pure trivial

/-- A header in a variable with a plain name is written by plain statements. -/
theorem HeaderForm.plain_store (form : HeaderForm) (place : Place) {v : HeaderVar} (hv : v.Plain)
    (required : Bool) : ∀ s ∈ (form.store place v required).steps, s.Plain := by
  cases form with
  | plain =>
    rw [store, Block.steps_ofList, List.forall_mem_singleton]
    exact .of_var rfl hv
  | named type =>
    rw [store]
    split
    · rw [Block.steps_ofList, List.forall_mem_singleton]
      exact .of_var rfl hv
    · rw [Block.steps_ofList, List.forall_mem_cons, List.forall_mem_singleton]
      exact ⟨.of_var rfl hv, .of_var rfl HeaderVar.plain_converted⟩
  | literal l =>
    -- All variables besides the one that is given are those with fixed names.
    have hparsed := HeaderVar.plain_parsed
    have hconverted := HeaderVar.plain_converted
    unfold store
    rw [Block.steps_nest, List.forall_mem_append]
    refine ⟨?_, Draft.Ensures.none⟩
    rw [Block.steps_ofList]
    split
    · rw [List.forall_mem_cons, List.forall_mem_singleton]
      exact ⟨.of_var rfl hparsed, .of_var rfl hconverted⟩
    · rw [List.forall_mem_cons, List.forall_mem_singleton]
      exact ⟨.of_var rfl hparsed, .of_var rfl hconverted⟩
    · rw [List.forall_mem_singleton]
      exact .of_var rfl hparsed

/-- A block of statements about variables with plain names is in lines that are in blocks. -/
theorem isBlockStructured_of_plain {code : HeaderCode} (h : ∀ s ∈ code.steps, s.Plain) :
    IsBlockStructured (code.lines.map Line.indented) :=
  isBlockStructured_lines HeaderHead.startsPlainly_text fun s hs =>
    ⟨(h s hs).startsPlainly_text, (h s hs).endsPlainly_text⟩

end Forms

/-! ## Binding -/

namespace BindingRequest

variable {r : BindingRequest}

/-- Records above a field are allocated by plain statements. -/
theorem allocateAbove_plain {resolve : Resolver} :
    ∀ (before : List String) (records : List (String × RecordRef)),
      PlainDraft (fun _ => True) (allocateAbove resolve before records)
  | _, [] => .pure trivial
  | before, (name, ref) :: rest => by
    refine .bind (.ofExcept _) fun type _ => .bind (.write ?_) fun _ _ => allocateAbove_plain _ rest
    rw [Block.steps_nest, Block.steps_ofList, List.forall_mem_append, List.forall_mem_singleton]
    exact ⟨.allocate _ _, Draft.Ensures.none⟩

/-- Neither rule writes anything before its form is chosen. -/
theorem rule_form_plain (header : String) (field : Field) :
    PlainDraft (fun _ => True) (r.rule.form header field) := by
  rw [rule]
  split
  · exact formFor_plain _ _
  · rw [populating]
    dsimp only
    split
    · exact .pure trivial
    · split
      · exact .bind (headerForm_plain _) fun _ _ => .pure trivial
      · exact .fail _
    · exact .fail _

/-- One entry of the map. -/
theorem bind_plain (entry : String × Mapping) :
    PlainDraft (fun _ => True) (r.bind r.rule entry) := by
  rw [BindingRequest.bind]
  split
  · exact .fail _
  · refine .bind (rule_form_plain _ _) fun form _ => .nest ?_
    refine .bind (allocateAbove_plain _ _) fun _ _ => .write ?_
    have hstore := form.plain_store (place (Text.split '.' entry.1)) HeaderVar.plain_text
    unfold storeUnder
    split
    · rw [Block.steps_nest, List.forall_mem_append]
      exact ⟨hstore _, Draft.Ensures.none⟩
    · exact hstore _

/-- The lines that bind headers are in blocks. -/
theorem run_isBlockStructured {text : List String} (hrun : r.run = .lines text) :
    IsBlockStructured text := by
  have hdraft : PlainDraft (fun _ => True) r.draft :=
    .forM _ fun entry _ => bind_plain entry
  obtain ⟨_, code, _, hfinished, rfl⟩ := Draft.exists_of_outcome hrun
  exact isBlockStructured_of_plain (hdraft _ _ _ _ hfinished).1

end BindingRequest

/-! ## Reading -/

/-- A text of letters and digits before one that starts with such a character. -/
theorem StartsPlainly.after {s t : String} (hs : ∀ c ∈ s.toList, c.isAlphanum = true)
    (ht : StartsPlainly t) : StartsPlainly (s ++ t) := by
  rw [StartsPlainly, String.toList_append]
  cases hlist : s.toList with
  | nil => exact ht
  | cons c rest =>
    rw [hlist] at hs
    exact hs c List.mem_cons_self

namespace ReadingRequest

variable {r : ReadingRequest}

/-- Variables that are named after headers have plain names. -/
theorem nextVariable_plain (header : String) :
    PlainDraft HeaderVar.Plain (nextVariable (camel header)) := by
  have hcamel : ∀ c ∈ (camel header).toList, c.isAlphanum = true := by
    rw [camel, String.toList_ofList]
    exact isAlphanum_of_mem_camelChars _
  refine .bind .state fun p _ => .bind (.update _) fun _ _ => ?_
  split
  · exact .pure ⟨.after hcamel (by decide), endsPlainly_append _ (by decide)⟩
  · have hstart : StartsPlainly (camel header ++ "No") := .after hcamel (by decide)
    exact .pure ⟨(hstart.append _).append _, endsPlainly_append _ (by decide)⟩

theorem steps_allocate (place : Place) (type : GoType) :
    ∀ s ∈ (allocate place type).steps, s.Plain := by
  rw [allocate, Block.steps_nest, Block.steps_ofList, List.forall_mem_append,
    List.forall_mem_singleton]
  exact ⟨.allocate _ _, Draft.Ensures.none⟩

/-- What is written for a visit: allocations and a store. -/
theorem store_plain (v : Visit) {var : HeaderVar} (hvar : var.Plain) (form : HeaderForm) :
    PlainDraft (fun _ => True) (store v var form) := by
  refine .bind .state fun p _ => .bind (.forM _ fun parent _ => .write (steps_allocate _ _)) ?_
  intro _ _
  exact .write (form.plain_store _ hvar _)

/-- A look-up and the store that follows it, alone or under a test. -/
theorem readHeader_plain (v : Visit) (header : String) :
    PlainDraft (fun _ => True) (readHeader r v header) := by
  refine .bind (formFor_plain _ _) fun form _ => .bind (nextVariable_plain header) fun var hvar => ?_
  dsimp only
  split
  · refine .bind (.write ?_) fun _ _ => .bind (store_plain v hvar form) fun _ _ => .update _
    rw [Block.steps_ofList, List.forall_mem_singleton]
    exact .of_var rfl hvar
  · refine .bind (.write ?_) fun _ _ => .bind (.nest (store_plain v hvar form)) fun _ _ => .update _
    rw [Block.steps_ofList, List.forall_mem_singleton]
    exact .of_var rfl hvar

/-- A visit of a record, of a bound field or of any other field. -/
theorem visit_plain (v : Visit) : PlainDraft (fun _ => True) (visit r v) := by
  rw [visit]
  split
  · refine .bind (.ofExcept _) fun type _ => ?_
    dsimp only
    split
    · exact .write (steps_allocate _ _)
    · exact .update _
  · split
    · exact readHeader_plain v _
    · exact .pure trivial

/-- The lines that read headers are in blocks. -/
theorem run_isBlockStructured {text : List String} (hrun : r.run = .lines text) :
    IsBlockStructured text := by
  have hdraft : PlainDraft (fun _ => True) r.draft := by
    rw [draft, Schema.forVisits_eq_forM]
    exact .bind (.forM _ fun v _ => visit_plain v) fun _ _ => .bind .state fun _ _ => .pure trivial
  rw [run] at hrun
  split at hrun
  · rename_i anyHeader code _ heq
    cases hrun
    cases anyHeader with
    -- Nothing is given where no field is bound to a header.
    | false => exact rfl
    | true => exact isBlockStructured_of_plain (hdraft _ _ _ _ heq).1
  · exact absurd hrun (Halt.outcome_ne_lines _)

end ReadingRequest

end RecordBridge

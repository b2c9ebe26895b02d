import Mathlib.Data.List.Forall2
import RecordBridge.Header.Binding
import RecordBridge.Proofs.Bytes
import RecordBridge.Proofs.Draft

/-!
# Mappings by themselves

What binding headers comes to is told by what it comes to for each mapping by itself (`run_apart`). A run
carries nothing from one mapping to the next, so it is the runs for the single mappings one after the other
(`run_eq_foldr`); and the mappings come in the order of the bytes of their paths. Where paths overlap, each
mapping tests and allocates the records above its field again.
-/

namespace RecordBridge

/-! ## Runs one after the other -/

namespace Outcome

/-- What a run comes to after another one that has given some lines. -/
def after (text : List String) : Outcome → Outcome
  | .lines more => .lines (text ++ more)
  | .broke fault written => .broke fault (text ++ written)
  | .failed cause => .failed cause
  | .unfinished => .unfinished

/-- What two runs come to one after the other. If the first one stops, the second one is not reached. -/
def andThen : Outcome → Outcome → Outcome
  | .lines text, next => next.after text
  | stopped, _ => stopped

variable {o last : Outcome} {os : List Outcome} {text : List String}

/-- Lines before lines before an outcome. -/
theorem after_after (text more : List String) (o : Outcome) :
    (o.after more).after text = o.after (text ++ more) := by
  cases o <;> simp [after]

theorem andThen_lines_nil (o : Outcome) : o.andThen (.lines []) = o := by
  cases o <;> simp [andThen, after]

/-- What gives no lines ends the run. -/
theorem andThen_of_ne_lines (h : ∀ text, o ≠ .lines text) : o.andThen last = o := by
  cases o with
  | lines text => exact absurd rfl (h text)
  | _ => rfl

/-- Runs that all give lines give them one after the other, before what comes next. -/
theorem foldr_andThen_of_lines {parts : List (List String)}
    (h : List.Forall₂ (fun o part => o = .lines part) os parts) :
    os.foldr andThen last = last.after parts.flatten := by
  induction h with
  | nil => cases last <;> rfl
  | cons ho _ ih => rw [List.foldr_cons, ho, ih, andThen, after_after, List.flatten_cons]

/-- Of some runs either all give lines, or a first one does not. -/
theorem lines_or_first_stop (os : List Outcome) :
    (∃ parts, List.Forall₂ (fun o part => o = .lines part) os parts) ∨
      ∃ before o after parts, os = before ++ o :: after ∧ (∀ text, o ≠ .lines text) ∧
        List.Forall₂ (fun o part => o = .lines part) before parts := by
  induction os with
  | nil => exact .inl ⟨[], .nil⟩
  | cons o os ih =>
    by_cases ho : ∃ text, o = .lines text
    · obtain ⟨text, ho⟩ := ho
      rcases ih with ⟨parts, h⟩ | ⟨before, stopped, after, parts, rfl, hstopped, h⟩
      · exact .inl ⟨text :: parts, .cons ho h⟩
      · exact .inr ⟨o :: before, stopped, after, text :: parts, rfl, hstopped, .cons ho h⟩
    · exact .inr ⟨[], o, os, [], rfl, fun text h => ho ⟨text, h⟩, .nil⟩

end Outcome

namespace Draft

variable {S H α β γ : Type} [Spelled S] [Spelled H]

/-- Without a state, what two drafts come to one after the other is told by what each comes to. -/
theorem outcome_bind (d : Draft S H Unit PUnit) (d' : Draft S H Unit β) :
    (d >>= fun _ => d').outcome () = (d.outcome ()).andThen (d'.outcome ()) := by
  rw [outcome, outcome, outcome, show (d >>= fun _ => d') () = andThen d (fun _ => d') () from rfl,
    andThen]
  cases hd : d () with
  | error halt =>
    exact (Outcome.andThen_of_ne_lines fun _ => halt.outcome_ne_lines).symm
  | ok r =>
    obtain ⟨_, b, _⟩ := r
    dsimp only
    -- The second draft starts as it does alone, since there is one state only.
    cases hd' : d' () with
    | error halt =>
      rcases halt with ⟨written, stop, state⟩
      cases stop <;> simp [after, Outcome.andThen, Outcome.after, Halt.outcome, Halt.after]
    | ok r => simp [after, Outcome.andThen, Outcome.after]

/-- A loop comes to the outcomes of its rounds, one after the other, up to the first that is no
success. -/
theorem outcome_forM (f : γ → Draft S H Unit PUnit) (l : List γ) :
    (l.forM f).outcome () = (l.map fun x => (f x).outcome ()).foldr Outcome.andThen (.lines []) := by
  induction l with
  | nil => rfl
  | cons x l ih =>
    rw [List.map_cons, List.foldr_cons, ← ih]
    exact outcome_bind (f x) (l.forM f)

end Draft

/-! ## Runs without a bound -/

/-- A draft does not stop at a bound, whatever its state. -/
def Draft.Boundless {S H σ α : Type} (d : Draft S H σ α) : Prop :=
  ∀ p halt, d p = .error halt → halt.stop ≠ .unfinished

namespace Draft.Boundless

variable {S H σ α β : Type}

theorem value {a : α} : Boundless (Draft.value a : Draft S H σ α) :=
  fun _ _ h => nomatch h

/-- Any stop but that at a bound. -/
theorem stop {why : Stop} (hwhy : why ≠ .unfinished) : Boundless (Draft.stop why : Draft S H σ α) := by
  intro p halt h
  cases h
  exact hwhy

theorem fail (cause : GenerationError) : Boundless (Draft.fail cause : Draft S H σ α) :=
  stop nofun

theorem ofExcept (e : Except GenerationError α) : Boundless (Draft.ofExcept e : Draft S H σ α) := by
  cases e with
  | ok a => exact value
  | error cause => exact fail cause

variable [Spelled S] [Spelled H]

theorem pure {a : α} : Boundless (Pure.pure a : Draft S H σ α) :=
  value

/-- A block stops at a line feed, if it does. -/
theorem write (b : Block S H) : Boundless (Draft.write b : Draft S H σ Unit) := by
  intro p halt h
  rw [Draft.write] at h
  split at h
  · cases h
  · rename_i hcheck
    cases h
    obtain ⟨line, hline⟩ := exists_of_checkLines hcheck
    rw [hline]
    intro heq
    cases heq

/-- A draft after a draft; neither has a bound. -/
theorem bind {d : Draft S H σ α} {f : α → Draft S H σ β} (hd : Boundless d)
    (hf : ∀ a, Boundless (f a)) : Boundless (d >>= f) := by
  intro p halt h
  rcases bind_error h with ⟨inner, hdp, hstop⟩ | ⟨a, _, q, inner, -, hfq, hstop⟩
  · rw [hstop]
    exact hd p inner hdp
  · rw [hstop]
    exact hf a q inner hfq

omit [Spelled S] in
/-- A stop within a block is seen as the same kind of stop from around it. -/
theorem nest {head : H} {d : Draft S H σ α} (hd : Boundless d) : Boundless (Draft.nest head d) := by
  intro p halt h
  rcases nest_error h with ⟨line, hstop⟩ | ⟨inner, hdp, hstop⟩
  · rw [hstop]
    intro heq
    cases heq
  · have hinner := hd p inner hdp
    rw [hstop]
    cases hwhy : inner.stop with
    | unfinished => exact absurd hwhy hinner
    | _ =>
      intro heq
      cases heq

/-- The members of a list, one after the other. -/
theorem forM {γ : Type} {f : γ → Draft S H σ PUnit} :
    ∀ {l : List γ}, (∀ x ∈ l, Boundless (f x)) → Boundless (l.forM f)
  | [], _ => pure
  | x :: _, h => bind (h x List.mem_cons_self) fun _ =>
    forM fun y hy => h y (List.mem_cons_of_mem _ hy)

/-- So the outcome is never that of a bound. -/
theorem outcome_ne_unfinished {d : Draft S H σ α} (hd : Boundless d) (p : σ) :
    d.outcome p ≠ .unfinished := by
  rw [Draft.outcome]
  cases hdp : d p with
  | ok r =>
    intro heq
    cases heq
  | error halt =>
    have hstop := hd p halt hdp
    dsimp only
    rw [Halt.outcome]
    cases hwhy : halt.stop with
    | unfinished => exact absurd hwhy hstop
    | _ =>
      intro heq
      cases heq

end Draft.Boundless

/-- Forms are chosen by the type alone. -/
theorem headerForm_boundless {σ : Type} (resolve : Resolver) (type : FieldType) :
    Draft.Boundless (headerForm resolve type : HeaderWriting σ _) := by
  cases type with
  | «alias» name file target =>
    rw [headerForm]
    split
    · exact .bind (.ofExcept _) fun _ => .pure
    · exact .pure
  | enum name file => exact .bind (.ofExcept _) fun _ => .pure
  | int8 => exact .stop nofun
  | _ => exact .pure

/-- A refusal is a fault of the inputs. -/
theorem formFor_boundless {σ : Type} (resolve : Resolver) (header : String) (field : Field) :
    Draft.Boundless (formFor resolve header field : HeaderWriting σ _) := by
  refine .bind (headerForm_boundless resolve field.type) fun form => ?_
  cases form with
  | none => exact .fail _
  | some form => exact .pure

namespace BindingRequest

variable (r : BindingRequest)

/-- Neither rule has a bound. -/
theorem rule_form_boundless (header : String) (field : Field) :
    Draft.Boundless (r.rule.form header field) := by
  rw [rule]
  split
  · exact formFor_boundless r.resolve header field
  · rw [populating]
    dsimp only
    split
    · exact .pure
    · split
      · exact .bind (headerForm_boundless r.resolve _) fun _ => .pure
      · exact .fail _
    · exact .fail _

theorem allocateAbove_boundless (resolve : Resolver) :
    ∀ (before : List String) (records : List (String × RecordRef)),
      Draft.Boundless (allocateAbove resolve before records)
  | _, [] => .pure
  | before, (name, _) :: rest => .bind (.ofExcept _) fun _ => .bind (.write _) fun _ =>
    allocateAbove_boundless resolve (before ++ [name]) rest

/-- Nor has the treatment of an entry. -/
theorem bind_boundless (entry : String × Mapping) : Draft.Boundless (r.bind r.rule entry) := by
  rw [BindingRequest.bind]
  split
  · exact .fail _
  · exact .bind (r.rule_form_boundless _ _) fun _ =>
      .nest (.bind (allocateAbove_boundless _ _ _) fun _ => .write _)

/-! ## Single mappings -/

/-- The request with one mapping alone. -/
def only (entry : String × Mapping) : BindingRequest :=
  { r with mappings := Table.empty.insert entry.1 entry.2 }

/-- A run on a single entry is what the entry comes to. -/
theorem run_only (entry : String × Mapping) :
    (r.only entry).run = (r.bind r.rule entry).outcome () := by
  rw [run, draft, Draft.outcome_forM]
  exact Outcome.andThen_lines_nil _

/-- A run is the runs for the single mappings one after the other. -/
theorem run_eq_foldr :
    r.run = (r.mappings.entries.map fun e => (r.only e).run).foldr Outcome.andThen (.lines []) := by
  rw [run, draft, Draft.outcome_forM]
  simp only [run_only]

/-- Either all runs for single mappings give lines, or a first one does not and decides what the whole run
comes to. -/
theorem run_cases_only :
    (∃ parts, List.Forall₂ (fun e part => (r.only e).run = .lines part) r.mappings.entries parts ∧
        r.run = .lines parts.flatten) ∨
      ∃ before e after parts, r.mappings.entries = before ++ e :: after ∧
        (∀ text, (r.only e).run ≠ .lines text) ∧
        List.Forall₂ (fun e part => (r.only e).run = .lines part) before parts ∧
        r.run = (r.only e).run.after parts.flatten := by
  rw [run_eq_foldr]
  rcases Outcome.lines_or_first_stop (r.mappings.entries.map fun e => (r.only e).run) with
    ⟨parts, hparts⟩ | ⟨before, o, after, parts, hsplit, hstop, hparts⟩
  · refine .inl ⟨parts, List.forall₂_map_left_iff.mp hparts, ?_⟩
    rw [Outcome.foldr_andThen_of_lines hparts, Outcome.after, List.append_nil]
  · -- The first run that gives no lines is that for one of the mappings.
    obtain ⟨before, rest, hentries, rfl, hrest⟩ := List.map_eq_append_iff.mp hsplit
    obtain ⟨e, after, rfl, rfl, rfl⟩ := List.map_eq_cons_iff.mp hrest
    refine .inr ⟨before, e, after, parts, hentries, hstop, List.forall₂_map_left_iff.mp hparts, ?_⟩
    rw [hsplit, List.foldr_append, List.foldr_cons, Outcome.andThen_of_ne_lines hstop,
      Outcome.foldr_andThen_of_lines hparts]

variable {r} {before after : List (String × Mapping)} {e : String × Mapping}

/-- The mappings before one are those whose paths have lower bytes. -/
theorem mem_before_iff (h : r.mappings.entries = before ++ e :: after) {e' : String × Mapping} :
    e' ∈ before ↔ e' ∈ r.mappings.entries ∧ Text.bytes e'.1 < Text.bytes e.1 := by
  have hsorted := r.mappings.sorted
  rw [h] at hsorted ⊢
  obtain ⟨-, hrest, hbefore⟩ := List.pairwise_append.mp hsorted
  rw [Text.bytes_lt_iff]
  refine ⟨fun he' => ⟨List.mem_append_left _ he', hbefore e' he' e List.mem_cons_self⟩, ?_⟩
  rintro ⟨he', hlt⟩
  rcases List.mem_append.mp he' with he' | he'
  · exact he'
  · rcases List.mem_cons.mp he' with rfl | he'
    · exact absurd hlt (String.lt_irrefl _)
    · exact absurd hlt (String.lt_asymm ((List.pairwise_cons.mp hrest).1 e' he'))

/-- Each entry of a list gives lines if there is a list of the lines that they give. -/
theorem forall_lines_iff {entries : List (String × Mapping)} :
    (∀ e ∈ entries, ∃ part, (r.only e).run = .lines part) ↔
      ∃ parts, List.Forall₂ (fun e part => (r.only e).run = .lines part) entries parts := by
  induction entries with
  | nil => simp
  | cons e entries ih =>
    rw [List.forall_mem_cons, ih]
    constructor
    · rintro ⟨⟨part, hpart⟩, parts, hparts⟩
      exact ⟨part :: parts, .cons hpart hparts⟩
    · rintro ⟨_, _ | ⟨hpart, hparts⟩⟩
      exact ⟨⟨_, hpart⟩, _, hparts⟩

/-- The run fails for the mapping with the lowest path among those for which the run alone gives no lines,
if that run fails. -/
theorem run_failed_iff {cause : GenerationError} :
    r.run = .failed cause ↔ ∃ e ∈ r.mappings.entries, (r.only e).run = .failed cause ∧
      ∀ e' ∈ r.mappings.entries, Text.bytes e'.1 < Text.bytes e.1 →
        ∃ part, (r.only e').run = .lines part := by
  constructor
  · intro h
    rcases r.run_cases_only with
      ⟨parts, -, hrun⟩ | ⟨before, e, after, parts, hsplit, -, hparts, hrun⟩
    · rw [h] at hrun
      cases hrun
    · refine ⟨e, by simp [hsplit], ?_, fun e' he' hlt => ?_⟩
      · rw [h] at hrun
        cases hone : (r.only e).run with
        | failed cause' =>
          rw [hone] at hrun
          exact hrun.symm
        | _ =>
          rw [hone] at hrun
          cases hrun
      · exact forall_lines_iff.mpr ⟨parts, hparts⟩ e' ((mem_before_iff hsplit).mpr ⟨he', hlt⟩)
  · rintro ⟨e, he, hfailed, hlower⟩
    obtain ⟨before, after, hsplit⟩ := List.append_of_mem he
    -- All mappings before it have lower paths, so none of them ends the run.
    obtain ⟨parts, hparts⟩ := forall_lines_iff.mp fun e' he' =>
      let ⟨hmem, hlt⟩ := (mem_before_iff hsplit).mp he'
      hlower e' hmem hlt
    rw [run_eq_foldr, hsplit, List.map_append, List.map_cons, List.foldr_append, List.foldr_cons,
      hfailed, Outcome.foldr_andThen_of_lines (List.forall₂_map_left_iff.mpr hparts)]
    rfl

/-- A run gives lines if the run on each single entry does, and then it gives those, in order. -/
theorem run_lines_iff {text : List String} :
    r.run = .lines text ↔ ∃ parts, List.Forall₂ (fun e part => (r.only e).run = .lines part)
      r.mappings.entries parts ∧ text = parts.flatten := by
  constructor
  · intro h
    rcases r.run_cases_only with ⟨parts, hparts, hrun⟩ | ⟨_, e, _, parts, -, hstop, -, hrun⟩
    · rw [h, Outcome.lines.injEq] at hrun
      exact ⟨parts, hparts, hrun⟩
    · rw [h] at hrun
      cases hone : (r.only e).run with
      | lines part => exact absurd hone (hstop part)
      | _ =>
        rw [hone] at hrun
        cases hrun
  · rintro ⟨parts, hparts, rfl⟩
    rw [run_eq_foldr, Outcome.foldr_andThen_of_lines (List.forall₂_map_left_iff.mpr hparts),
      Outcome.after, List.append_nil]

/-- **Each mapping is bound by itself.** Mappings come in the order of the bytes of their paths. A run gives
lines exactly if the run for each mapping alone does, and then theirs in that order. It fails for the
mapping with the lowest path whose run alone gives no lines. Else it breaks. -/
theorem run_apart (r : BindingRequest) :
    (r.mappings.entries.map fun e => Text.bytes e.1).Pairwise (· < ·) ∧
    ((∃ text, r.run = .lines text) ↔
      ∀ e ∈ r.mappings.entries, ∃ part, (r.only e).run = .lines part) ∧
    (∀ text, r.run = .lines text ↔
      ∃ parts, List.Forall₂ (fun e part => (r.only e).run = .lines part) r.mappings.entries parts ∧
        text = parts.flatten) ∧
    (∀ cause, r.run = .failed cause ↔
      ∃ e ∈ r.mappings.entries, (r.only e).run = .failed cause ∧
        ∀ e' ∈ r.mappings.entries, Text.bytes e'.1 < Text.bytes e.1 →
          ∃ part, (r.only e').run = .lines part) ∧
    ((∃ text, r.run = .lines text) ∨ (∃ cause, r.run = .failed cause) ∨
      ∃ fault written, r.run = .broke fault written) := by
  refine ⟨?_, ?_, fun text => run_lines_iff, fun cause => run_failed_iff, ?_⟩
  · exact List.pairwise_map.mpr (r.mappings.sorted.imp Text.bytes_lt_iff.mpr)
  · -- That all single runs give lines is that there is a list of what they give.
    rw [forall_lines_iff]
    constructor
    · rintro ⟨text, htext⟩
      obtain ⟨parts, hparts, -⟩ := run_lines_iff.mp htext
      exact ⟨parts, hparts⟩
    · rintro ⟨parts, hparts⟩
      exact ⟨_, run_lines_iff.mpr ⟨parts, hparts, rfl⟩⟩
  · have hbound : r.run ≠ .unfinished :=
      (Draft.Boundless.forM fun e _ => r.bind_boundless e).outcome_ne_unfinished ()
    cases hrun : r.run with
    | lines text => exact .inl ⟨text, rfl⟩
    | failed cause => exact .inr (.inl ⟨cause, rfl⟩)
    | broke fault written => exact .inr (.inr ⟨fault, written, rfl⟩)
    | unfinished => exact absurd hrun hbound

/-- A request that binds two fields of one record. -/
def accountOf : BindingRequest :=
  { schema := ⟨[(0, [⟨0, "id", true, .text, []⟩, ⟨1, "name", true, .text, []⟩])]⟩
    resolve := fun _ => .ok "structs"
    target := [⟨2, "account", false, .record ⟨0, "Account", "account.thrift"⟩, []⟩]
    mappings :=
      (Table.empty.insert "Account.Name" ⟨"x-name", true⟩).insert "Account.Id" ⟨"x-id", true⟩
    readsLiterals := false }

/-- The record is allocated for each of its fields. -/
example :
    let lines (header name : String) : List String :=
      ["if key, ok := headers.Get(\"" ++ header ++ "\"); ok \x7b",
        "\tif in.Account == nil \x7b",
        "\t\tin.Account = &structs.Account\x7b\x7d",
        "\t\x7d",
        "\tin.Account." ++ name ++ " = key",
        "\x7d"]
    accountOf.mappings.entries.map (fun e => (accountOf.only e).run) =
        [.lines (lines "x-id" "Id"), .lines (lines "x-name" "Name")] ∧
      accountOf.run = .lines (lines "x-id" "Id" ++ lines "x-name" "Name") := by
  decide +kernel

end BindingRequest

end RecordBridge

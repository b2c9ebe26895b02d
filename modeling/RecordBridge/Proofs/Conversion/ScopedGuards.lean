import RecordBridge.Proofs.Conversion.Allocation
import RecordBridge.Proofs.Execution.Growth

/-!
# Guards within local functions

A local function fills a record of its own, which lies somewhere in the whole target. The guards before
a write in it name the deferred records above the write: those beneath its record through its own `out`,
and those around it through the whole target. So after the guards all that lies above the write in
`out` is allocated, if it was or is deferred (`settles_guards`), and nothing that was set has been lost.
-/

namespace RecordBridge

/-! ## Where a record is seen from -/

namespace Path

variable {scope inside : Path}

/-- What follows a path is found by the spelling of the path, if it begins with a field. -/
theorem beneath_append {s : Step} {rest : Path} (hs : s.isField = true) :
    Path.beneath? (Path.text scope).toList (scope ++ s :: rest) = some (s :: rest) := by
  induction scope with
  | nil =>
    show (if s.isField then some (s :: rest) else none) = _
    rw [if_pos hs]
  | cons t scope ih =>
    obtain ⟨c, more, htext, -⟩ := t.exists_text_eq
    have hafter : Text.afterStart? t.text.toList (t.text.toList ++ (Path.text scope).toList) =
        some (Path.text scope).toList := Text.afterStart?_eq_some.mpr rfl
    rw [toList_text_cons]
    rw [htext, List.cons_append] at hafter ⊢
    rw [List.cons_append, beneath?, htext, hafter]
    exact ih

/-- Nothing follows a path that is no longer. -/
theorem beneath_of_isPrefix {k : Path} (h : k <+: scope) :
    Path.beneath? (Path.text scope).toList k = none := by
  induction k generalizing scope with
  | nil => rw [beneath?]
  | cons t k ih =>
    obtain ⟨scope, rfl⟩ := h
    obtain ⟨c, more, htext, -⟩ := t.exists_text_eq
    have hafter : Text.afterStart? t.text.toList
        (t.text.toList ++ (Path.text (k ++ scope)).toList) = some (Path.text (k ++ scope)).toList :=
      Text.afterStart?_eq_some.mpr rfl
    rw [List.cons_append, toList_text_cons]
    rw [htext, List.cons_append] at hafter ⊢
    rw [beneath?, htext, hafter]
    exact ih (List.prefix_append _ _)

end Path

section Seen

variable {scope inside k : Path}

/-- A record beneath that of a local function is reached from the `out` of the function. -/
theorem seenFrom_append (h : scope = [] ∨ ∃ s rest, inside = s :: rest ∧ s.isField = true) :
    seenFrom scope (scope ++ inside) = ⟨.output, inside⟩ := by
  rw [seenFrom]
  split
  · rename_i hempty
    rw [List.isEmpty_iff.mp hempty, List.nil_append]
  · rename_i hne
    obtain ⟨s, rest, rfl, hs⟩ := h.resolve_left fun heq => hne (List.isEmpty_iff.mpr heq)
    rw [Path.beneath_append hs]

/-- A record around that of a local function is reached from the whole target. -/
theorem seenFrom_of_isPrefix (hne : scope ≠ []) (h : k <+: scope) :
    seenFrom scope k = ⟨.wholeOutput, k⟩ := by
  rw [seenFrom, if_neg (fun hempty => hne (List.isEmpty_iff.mp hempty)),
    Path.beneath_of_isPrefix h]

/-- Of two paths, one lies at the other one or above it, if both lie above the same path. -/
theorem Path.Above.inside_or {path : Path} (h : k.Above (scope ++ path)) :
    k <+: scope ∨ ∃ inside, k = scope ++ inside ∧ inside ≠ [] ∧ inside.Above path := by
  rcases List.prefix_or_prefix_of_prefix h.isPrefix (List.prefix_append scope path) with hk | hk
  · exact .inl hk
  · obtain ⟨inside, rfl⟩ := hk
    cases inside with
    | nil => exact .inl (by simp)
    | cons s rest =>
      obtain ⟨s', rest', hpath⟩ := h
      rw [List.append_assoc] at hpath
      exact .inr ⟨_, rfl, List.cons_ne_nil _ _, s', rest', List.append_cancel_left hpath⟩

end Seen

/-! ## What a write relies on -/

/-- What lies above a path below `out` is allocated, or it is deferred: `scope` leads from the whole
target to `out`. The record in `out` itself is allocated. -/
def State.Bears (σ : State) (d : Deferred) (scope path : Path) : Prop :=
  ∀ k, k.Above path → σ.Allocated k ∨ k ≠ [] ∧ d.Holds (scope ++ k)

/-- The guards for a path are told by the spelling of the paths in a family. Within a local function
the path begins with a field. -/
structure Deferred.Sees (F : Path → Prop) (d : Deferred) (scope path : Path) : Prop where
  family : Path.Family F
  within : d.Within F
  led : F (scope ++ path)
  field : ∀ s rest, path = s :: rest → scope = [] ∨ s.isField = true

section Guards

variable {F : Path → Prop} {d : Deferred} {scope path : Path} {order : Order}
  {call : Code → State → Except Fault State} {σ : State} {Q : State → Prop} {rest : Code}

/-- With guards for some records above a path, all that lies above it is allocated if each of it was, or
has a guard. The records come outermost first. -/
theorem settles_waiting {l : List (Path × GoType)} (habove : ∀ e ∈ l, e.1.Above (scope ++ path))
    (hsorted : l.Pairwise fun a b => ¬b.1.Above a.1)
    (hfield : ∀ s rest, path = s :: rest → scope = [] ∨ s.isField = true)
    (hbears : ∀ k, k.Above path → σ.Allocated k ∨ k ≠ [] ∧ ∃ e ∈ l, e.1 = scope ++ k) :
    Settles (· = NilTarget) (fun τ => σ.Swells τ ∧ ∀ k, k.Above path → τ.Allocated k)
      (exec order call (l.foldr (fun parent rest => guard (seenFrom scope parent.1) parent.2 ++ rest)
        .done) σ) := by
  induction l generalizing σ with
  | nil =>
    refine .ok ⟨.refl, fun k hk => (hbears k hk).resolve_right ?_⟩
    rintro ⟨-, e, he, -⟩
    cases he
  | cons e l ih =>
    obtain ⟨hfirst, hsorted⟩ := List.pairwise_cons.mp hsorted
    -- The other guards come after that of the first record.
    have hothers : ∀ {τ : State}, σ.Swells τ →
        (∀ k : Path, k.Above path → k ≠ [] → e.1 = scope ++ k → τ.Allocated k) →
        Settles (· = NilTarget) (fun υ => σ.Swells υ ∧ ∀ k, k.Above path → υ.Allocated k)
          (exec order call (l.foldr
            (fun parent rest => guard (seenFrom scope parent.1) parent.2 ++ rest) .done) τ) := by
      intro τ hτ hdone
      refine (ih (fun e' he' => habove e' (List.mem_cons_of_mem _ he')) hsorted fun k hk => ?_).mono
        fun υ hυ => ⟨hτ.trans hυ.1, hυ.2⟩
      rcases hbears k hk with hset | ⟨hne, e', he', heq⟩
      · exact .inl (hτ.allocated hset)
      · rcases List.mem_cons.mp he' with rfl | he'
        · exact .inl (hdone k hk hne heq)
        · exact .inr ⟨hne, e', he', heq⟩
    rcases (habove e List.mem_cons_self).inside_or with hscope | ⟨inside, hinside, hne, hroom⟩
    · -- A guard for a record around that of the local function.
      rcases eq_or_ne scope [] with rfl | hscoped
      · have hnil : e.1 = [] := List.prefix_nil.mp hscope
        have hseen : seenFrom [] e.1 = ⟨.output, []⟩ := by
          rw [hnil]
          rfl
        refine Settles.append (settles_guard (by rw [hseen]; rfl) (by rw [hseen]; exact nofun))
          fun τ _ hτ => hothers hτ.1 fun k _ hk heq => ?_
        exact absurd (heq.symm.trans hnil) hk
      · have hseen := seenFrom_of_isPrefix hscoped hscope
        refine Settles.append (settles_guard (by rw [hseen]; rfl) fun hread => ?_)
          fun τ _ hτ => hothers hτ.1 fun k _ hk heq => ?_
        · rw [hseen] at hread
          cases GoValue.get_eq_nilBelow hread
        · rw [heq] at hscope
          have hlength := hscope.length_le
          rw [List.length_append] at hlength
          exact absurd (List.length_eq_zero_iff.mp (by omega)) hk
    · -- A guard for a record beneath it, above which all is allocated.
      have hbegins : scope = [] ∨ ∃ s rest, inside = s :: rest ∧ s.isField = true := by
        obtain ⟨s, rest, rfl⟩ := List.exists_cons_of_ne_nil hne
        obtain ⟨s', rest', hpath⟩ := hroom
        exact (hfield s _ hpath).imp_right fun hs => ⟨s, rest, rfl, hs⟩
      have hseen : seenFrom scope e.1 = ⟨.output, inside⟩ := by
        rw [hinside]
        exact seenFrom_append hbegins
      have hrooted : inside.Rooted σ.Allocated := by
        intro k hk
        refine (hbears k (hk.trans hroom)).resolve_right ?_
        rintro ⟨-, e', he', heq⟩
        have hlower : (scope ++ k).Above e.1 := by
          obtain ⟨s, rest, rfl⟩ := hk
          exact ⟨s, rest, by rw [hinside, List.append_assoc]⟩
        rcases List.mem_cons.mp he' with rfl | he'
        · exact absurd (heq ▸ hlower).length_lt (Nat.lt_irrefl _)
        · exact hfirst e' he' (heq ▸ hlower)
      refine Settles.append (settles_guard (by rw [hseen]; rfl) ?_) fun τ _ hτ =>
        hothers hτ.1 fun k _ _ heq => ?_
      · rw [hseen]
        exact State.get_rooted_ne (fun _ => id) hrooted
      · cases List.append_cancel_left (hinside.symm.trans heq)
        have hset := hτ.2
        rwa [hseen] at hset

/-- After the guards for a path, all that lies above it is allocated. -/
theorem settles_guards (hsees : d.Sees F scope path) (hbears : σ.Bears d scope path) :
    Settles (· = NilTarget) (fun τ => σ.Swells τ ∧ ∀ k, k.Above path → τ.Allocated k)
      (exec order call (d.guards scope path) σ) := by
  refine settles_waiting (fun e he => Deferred.above_of_mem_waiting hsees.family hsees.within hsees.led he)
    (Deferred.pairwise_waiting hsees.within) hsees.field fun k hk => (hbears k hk).imp_right ?_
  rintro ⟨hne, hholds⟩
  have habove : (scope ++ k).Above (scope ++ path) := by
    obtain ⟨s, rest, rfl⟩ := hk
    exact ⟨s, rest, by rw [List.append_assoc]⟩
  obtain ⟨type, hmem⟩ := Deferred.mem_waiting_of_above hholds habove
  exact ⟨hne, _, hmem, rfl⟩

/-- Statements under guards start where all above their path is allocated. -/
theorem Settles.guarded (hsees : d.Sees F scope path) (hbears : σ.Bears d scope path)
    (hrest : ∀ τ, σ.Swells τ → (∀ k, k.Above path → τ.Allocated k) →
      Settles (· = NilTarget) Q (exec order call rest τ)) :
    Settles (· = NilTarget) Q (exec order call (d.guards scope path ++ rest) σ) :=
  (settles_guards hsees hbears).append fun τ _ hτ => hrest τ hτ.1 hτ.2

end Guards

/-! ## Writes -/

section Writes

variable {n : Nat} {P : List LocalFunction → Prop} {path : Path} {order : Order}
  {call : Code → State → Except Fault State} {σ : State} {Q : State → Prop} {rest : Code} {e : Expr}

/-- The evaluation of an expression does not go through a nil value below `out`, and lets the targets
grow only. -/
def Expr.Grows (call : Code → State → Except Fault State) (σ : State) (e : Expr) : Prop :=
  e.eval call σ ≠ .error NilTarget ∧ ∀ x τ, e.eval call σ = .ok (x, τ) → σ.Swells τ

/-- Without calls, evaluation changes nothing. -/
theorem Expr.ReadsFrom.grows (h : e.ReadsFrom (·.Above path))
    (hall : ∀ k, k.Above path → σ.Allocated k) : e.Grows call σ := by
  refine ⟨Expr.eval_ne h hall, fun x τ heval => ?_⟩
  cases Expr.eval_state h.isCall heval
  exact .refl

/-- A write where all above it is allocated. -/
theorem Settles.write (hall : ∀ k, k.Above path → σ.Allocated k) (he : e.Grows call σ)
    (hP : P σ.functions)
    (hrest : ∀ τ, Kept n (·.Above path) P σ τ → (e.isMade = true → τ.Allocated path) →
      Settles (· = NilTarget) Q (exec order call rest τ)) :
    Settles (· = NilTarget) Q (exec order call (.step (.assign ⟨.output, path⟩ e) rest) σ) := by
  refine Settles.after (fun _ h => ?_) fun τ hexec => ?_
  · subst h
    refine bind_ne_error he.1 fun ⟨x, τ⟩ heval => ?_
    exact State.assign_rooted_ne (fun k hk => (he.2 x τ heval).allocated (hall k hk)) fun _ => id
  · obtain ⟨⟨x, υ⟩, heval, hassign⟩ := bind_eq_ok hexec
    have hgrown := he.2 x υ heval
    have hPυ : P υ.functions := hgrown.functions.symm ▸ hP
    have hkept : Kept n (·.Above path) P υ τ := .of_assign (fun k hk => hk.length_lt) hassign hPυ
    refine hrest τ ((Kept.of_swells hgrown hP).trans hkept (Nat.le_refl n) fun _ => id) fun hmade => ?_
    obtain ⟨o, hput, hτ⟩ := bind_eq_ok hassign
    cases hτ
    exact ⟨x, GoValue.get_put hput, Expr.isSet_of_isMade hmade heval⟩

end Writes

end RecordBridge

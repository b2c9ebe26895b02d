import RecordBridge.Draft

/-!
# What a draft comes to

Two views of a run of a draft, each with one rule for every way in which drafts are made.

- Inversion (`bind_ok`, `nest_ok`, …): a draft that finishes has finished each of its parts, and the
  block that it writes is made up of theirs.
- `Draft.Agree`: two drafts come to the same from a state, and neither stops at a bound. The rules
  carry this from the parts of two drafts to the whole. They are about runs that finish and runs
  that stop alike.
-/

namespace RecordBridge

/-- Why a generator of statements may stop: a fault of the inputs, or a line that holds a line feed.
It never stops at a bound. -/
def Stop.IsFinal : Stop → Prop
  | .failed _ => True
  | .broke (.brokenLine _) => True
  | _ => False

/-- Why a draft stops is of the same kind when it is seen from the block around it. -/
theorem Stop.isFinal_deeper {stop : Stop} (h : stop.IsFinal) : stop.deeper.IsFinal := by
  rcases stop with _ | (_ | _ | _) | _ <;> simp_all [IsFinal, Stop.deeper, Breakdown.deeper]

/-- A check of lines goes up to the first one that holds a line feed, and stops there. -/
theorem checkLines_eq {σ : Type} (state : σ) (lines : List Line) :
    checkLines state lines = match lines.dropWhile Line.isSingle with
      | [] => .ok ()
      | line :: _ => .error ⟨lines.takeWhile Line.isSingle, .broke (.brokenLine line), state⟩ := by
  induction lines with
  | nil => rfl
  | cons line rest ih =>
    rw [checkLines, ih]
    by_cases h : line.isSingle = true
    · rw [if_pos h, List.dropWhile_cons_of_pos h, List.takeWhile_cons_of_pos h]
      cases rest.dropWhile Line.isSingle <;> rfl
    · rw [if_neg h, List.dropWhile_cons_of_neg h, List.takeWhile_cons_of_neg h]

/-- A check of lines stops at a line feed only. -/
theorem exists_of_checkLines {σ : Type} {state : σ} {lines : List Line} {halt : Halt σ}
    (h : checkLines state lines = .error halt) : ∃ line, halt.stop = .broke (.brokenLine line) := by
  rw [checkLines_eq] at h
  split at h
  · cases h
  · cases h
    exact ⟨_, rfl⟩

/-- A check of lines never stops at a bound. -/
theorem isFinal_of_checkLines {σ : Type} {state : σ} {lines : List Line} {halt : Halt σ}
    (h : checkLines state lines = .error halt) : halt.stop.IsFinal := by
  obtain ⟨line, hline⟩ := exists_of_checkLines h
  rw [hline]
  trivial

/-- A stopped draft gives no lines. -/
theorem Halt.outcome_ne_lines {σ : Type} (h : Halt σ) {text : List String} :
    h.outcome ≠ .lines text := by
  rw [outcome]
  cases h.stop <;> simp

/-- Whether a run was finished. -/
instance (o : Outcome) : Decidable (∃ text, o = .lines text) :=
  match o with
  | .lines text => isTrue ⟨text, rfl⟩
  | .failed _ | .broke .. | .unfinished => isFalse nofun

namespace Draft

variable {S H σ α β : Type}

/-! ## Inversion -/

/-- A value comes with no statements and leaves the state. -/
theorem value_ok {a a' : α} {b : Block S H} {p q : σ} :
    (value a : Draft S H σ α) p = .ok (a', b, q) ↔ a' = a ∧ b = .done ∧ q = p := by
  constructor
  · intro h
    cases h
    exact ⟨rfl, rfl, rfl⟩
  · rintro ⟨rfl, rfl, rfl⟩
    rfl

/-- What stops does not finish. -/
theorem not_stop_ok {why : Stop} {a : α} {b : Block S H} {p q : σ} :
    (stop why : Draft S H σ α) p ≠ .ok (a, b, q) :=
  nofun

/-- A computation finishes as a draft if it has a value. -/
theorem ofExcept_ok {e : Except GenerationError α} {a : α} {b : Block S H} {p q : σ} :
    (ofExcept e : Draft S H σ α) p = .ok (a, b, q) ↔ e = .ok a ∧ b = .done ∧ q = p := by
  cases e with
  | ok a' =>
    rw [ofExcept, value_ok, Except.ok.injEq]
    exact and_congr_left fun _ => eq_comm
  | error cause => exact ⟨fun h => absurd h (not_stop_ok (p := p)), fun h => (nomatch h.1)⟩

theorem state_ok {a : σ} {b : Block S H} {p q : σ} :
    (state : Draft S H σ σ) p = .ok (a, b, q) ↔ a = p ∧ b = .done ∧ q = p := by
  constructor
  · intro h
    cases h
    exact ⟨rfl, rfl, rfl⟩
  · rintro ⟨rfl, rfl, rfl⟩
    rfl

/-- A change of the state writes nothing. -/
theorem update_ok {f : σ → σ} {u : Unit} {b : Block S H} {p q : σ} :
    (update f : Draft S H σ Unit) p = .ok (u, b, q) ↔ b = .done ∧ q = f p := by
  constructor
  · intro h
    cases h
    exact ⟨rfl, rfl⟩
  · rintro ⟨rfl, rfl⟩
    rfl

variable [Spelled S] [Spelled H]

theorem pure_ok {a a' : α} {b : Block S H} {p q : σ} :
    (pure a : Draft S H σ α) p = .ok (a', b, q) ↔ a' = a ∧ b = .done ∧ q = p :=
  value_ok

/-- A block that is written is the block that was asked for. -/
theorem write_ok {c : Block S H} {u : Unit} {b : Block S H} {p q : σ}
    (h : (write c : Draft S H σ Unit) p = .ok (u, b, q)) : b = c ∧ q = p := by
  rw [write] at h
  split at h
  · cases h
    exact ⟨rfl, rfl⟩
  · cases h

/-- A sequence finishes if both parts do, and writes the one block after the other. -/
theorem bind_ok {d : Draft S H σ α} {f : α → Draft S H σ β} {a : β} {b : Block S H} {p q : σ} :
    (d >>= f) p = .ok (a, b, q) ↔
      ∃ a₁ b₁ p₁ b₂, d p = .ok (a₁, b₁, p₁) ∧ f a₁ p₁ = .ok (a, b₂, q) ∧ b = b₁ ++ b₂ := by
  show andThen d f p = _ ↔ _
  rw [andThen]
  cases hd : d p with
  | error halt => simp
  | ok r =>
    obtain ⟨a₁, b₁, p₁⟩ := r
    cases hf : f a₁ p₁ with
    | error halt => simp [after, hf]
    | ok r =>
      obtain ⟨a₂, b₂, p₂⟩ := r
      -- Both have finished: the block is that of the first one before that of the second.
      simp only [after, hf, Except.ok.injEq, Prod.mk.injEq]
      constructor
      · rintro ⟨rfl, rfl, rfl⟩
        exact ⟨a₁, b₁, p₁, b₂, ⟨rfl, rfl, rfl⟩, hf, rfl⟩
      · rintro ⟨_, _, _, b', ⟨rfl, rfl, rfl⟩, hf', rfl⟩
        rw [hf] at hf'
        cases hf'
        exact ⟨rfl, rfl, rfl⟩

omit [Spelled S] in
/-- A headed block that is finished has a finished body, which has seen the same state. -/
theorem nest_ok {head : H} {d : Draft S H σ α} {a : α} {b : Block S H} {p q : σ}
    (h : nest head d p = .ok (a, b, q)) :
    ∃ body, d p = .ok (a, body, q) ∧ b = .nest head body .done := by
  rw [nest] at h
  split at h
  · cases h
  · split at h
    · rename_i heq
      cases h
      exact ⟨_, heq, rfl⟩
    · cases h

/-- Of a headed block with an alternative both bodies are finished, the second from where the first one
ended. -/
theorem fork_ok {head : H} {yes no : Draft S H σ Unit} {u : Unit} {b : Block S H} {p q : σ}
    (h : fork head yes no p = .ok (u, b, q)) :
    ∃ b₁ p₁ b₂, yes p = .ok ((), b₁, p₁) ∧ no p₁ = .ok ((), b₂, q) ∧
      b = .fork head b₁ b₂ .done := by
  rw [fork] at h
  split at h
  · cases h
  · split at h
    · cases h
    · rename_i hyes
      split at h
      · rename_i hno
        cases h
        exact ⟨_, _, _, hyes, hno, rfl⟩
      · cases h

/-- A sequence stops where one of its parts does. -/
theorem bind_error {d : Draft S H σ α} {f : α → Draft S H σ β} {p : σ} {halt : Halt σ}
    (h : (d >>= f) p = .error halt) :
    (∃ inner, d p = .error inner ∧ halt.stop = inner.stop) ∨
      ∃ a b q inner, d p = .ok (a, b, q) ∧ f a q = .error inner ∧ halt.stop = inner.stop := by
  change andThen d f p = _ at h
  rw [andThen] at h
  -- Either the first draft has stopped, or it has finished and the second has.
  cases hd : d p with
  | error inner =>
    rw [hd] at h
    cases h
    exact .inl ⟨halt, rfl, rfl⟩
  | ok r =>
    obtain ⟨a, b, q⟩ := r
    rw [hd] at h
    dsimp only at h
    cases hf : f a q with
    | ok r =>
      rw [hf] at h
      cases h
    | error inner =>
      rw [hf] at h
      cases h
      exact .inr ⟨a, b, q, inner, rfl, hf, rfl⟩

omit [Spelled S] in
/-- A headed statement stops at its head, or where its body does. -/
theorem nest_error {head : H} {d : Draft S H σ α} {p : σ} {halt : Halt σ}
    (h : nest head d p = .error halt) :
    (∃ line, halt.stop = .broke (.brokenLine line)) ∨
      ∃ inner, d p = .error inner ∧ halt.stop = inner.stop.deeper := by
  rw [nest] at h
  split at h
  · rename_i hcheck
    cases h
    exact .inl (exists_of_checkLines hcheck)
  · split at h
    · cases h
    · rename_i hd
      cases h
      exact .inr ⟨_, hd, rfl⟩

/-- A statement with two blocks stops at its head, or where one of the blocks does. -/
theorem fork_error {head : H} {yes no : Draft S H σ Unit} {p : σ} {halt : Halt σ}
    (h : fork head yes no p = .error halt) :
    (∃ line, halt.stop = .broke (.brokenLine line)) ∨
      (∃ inner, yes p = .error inner ∧ halt.stop = inner.stop.deeper) ∨
        ∃ b q inner, yes p = .ok ((), b, q) ∧ no q = .error inner ∧
          halt.stop = inner.stop.deeper := by
  -- The head is checked first, then the two bodies are written in order.
  rw [fork] at h
  split at h
  · rename_i hcheck
    cases h
    exact .inl (exists_of_checkLines hcheck)
  · split at h
    · rename_i hyes
      cases h
      exact .inr (.inl ⟨_, hyes, rfl⟩)
    · rename_i hyes
      split at h
      · cases h
      · rename_i hno
        cases h
        exact .inr (.inr ⟨_, _, _, hyes, hno, rfl⟩)

/-- Only a draft that finishes gives lines, and they are those of its block. -/
theorem exists_of_outcome {d : Draft S H σ α} {p : σ} {text : List String}
    (h : d.outcome p = .lines text) :
    ∃ a b q, d p = .ok (a, b, q) ∧ text = b.lines.map Line.indented := by
  rw [outcome] at h
  split at h
  · rename_i heq
    cases h
    exact ⟨_, _, _, heq, rfl⟩
  · exact absurd h (Halt.outcome_ne_lines _)

/-! ## Agreement -/

omit [Spelled S] [Spelled H] in
/-- Two drafts come to the same from a state `p`, without stopping at a bound. If they finish, the
value and the state that they end with satisfy `Q`. -/
structure Agree (d d' : Draft S H σ α) (p : σ) (Q : α → σ → Prop) : Prop where
  same : d p = d' p
  final : ∀ halt, d p = .error halt → halt.stop.IsFinal
  ends : ∀ a b q, d p = .ok (a, b, q) → Q a q

namespace Agree

variable {p : σ}

omit [Spelled S] [Spelled H] in
/-- What holds of the ends of drafts that agree may be weakened. -/
theorem mono {d d' : Draft S H σ α} {Q R : α → σ → Prop} (h : Agree d d' p Q)
    (hQR : ∀ a q, Q a q → R a q) : Agree d d' p R :=
  ⟨h.same, h.final, fun a b q hd => hQR a q (h.ends a b q hd)⟩

omit [Spelled S] [Spelled H] in
/-- A value agrees with itself. -/
theorem value {a : α} {Q : α → σ → Prop} (h : Q a p) :
    Agree (S := S) (H := H) (Draft.value a) (Draft.value a) p Q :=
  ⟨rfl, fun _ hd => (nomatch hd), fun a' b q hd => by
    obtain ⟨rfl, -, rfl⟩ := value_ok.mp hd
    exact h⟩

theorem pure {a : α} {Q : α → σ → Prop} (h : Q a p) :
    Agree (S := S) (H := H) (Pure.pure a) (Pure.pure a) p Q :=
  value h

omit [Spelled S] [Spelled H] in
theorem fail {cause : GenerationError} {Q : α → σ → Prop} :
    Agree (S := S) (H := H) (Draft.fail cause) (Draft.fail cause) p Q :=
  ⟨rfl, fun _ hd => by cases hd; trivial, fun _ _ _ hd => absurd hd not_stop_ok⟩

omit [Spelled S] [Spelled H] in
/-- So does a computation without statements, whether it fails or not. -/
theorem ofExcept {e : Except GenerationError α} {Q : α → σ → Prop} (h : ∀ a, e = .ok a → Q a p) :
    Agree (S := S) (H := H) (Draft.ofExcept e) (Draft.ofExcept e) p Q := by
  cases e with
  | ok a => exact value (h a rfl)
  | error cause => exact fail

omit [Spelled S] [Spelled H] in
theorem state {Q : σ → σ → Prop} (h : Q p p) :
    Agree (S := S) (H := H) Draft.state Draft.state p Q :=
  ⟨rfl, fun _ hd => (nomatch hd), fun a b q hd => by
    obtain ⟨rfl, -, rfl⟩ := state_ok.mp hd
    exact h⟩

omit [Spelled S] [Spelled H] in
theorem update {f : σ → σ} {Q : Unit → σ → Prop} (h : Q () (f p)) :
    Agree (S := S) (H := H) (Draft.update f) (Draft.update f) p Q :=
  ⟨rfl, fun _ hd => (nomatch hd), fun a b q hd => by
    obtain ⟨-, rfl⟩ := update_ok.mp hd
    exact h⟩

/-- Writing one block is the same on both sides, and stops at a line feed at most. -/
theorem write {c : Block S H} {Q : Unit → σ → Prop} (h : Q () p) :
    Agree (Draft.write c) (Draft.write c) p Q := by
  refine ⟨rfl, fun halt hd => ?_, fun a b q hd => ?_⟩
  · rw [Draft.write] at hd
    split at hd
    · cases hd
    · rename_i hcheck
      cases hd
      exact isFinal_of_checkLines hcheck
  · obtain ⟨-, rfl⟩ := write_ok hd
    exact h

/-- Drafts that agree up to the end of a first part, and then go on alike from wherever it ends,
agree. -/
theorem bind {d d' : Draft S H σ α} {f f' : α → Draft S H σ β} {Q : α → σ → Prop}
    {R : β → σ → Prop} (hd : Agree d d' p Q) (hf : ∀ a q, Q a q → Agree (f a) (f' a) q R) :
    Agree (d >>= f) (d' >>= f') p R := by
  refine ⟨?_, fun halt h => ?_, fun a b q h => ?_⟩
  · show andThen d f p = andThen d' f' p
    -- The two runs are the same, as the first parts are and the second parts start from the same end.
    rw [andThen, andThen, ← hd.same]
    cases hdp : d p with
    | error halt => rfl
    | ok r =>
      obtain ⟨a, b, q⟩ := r
      exact congrArg (after b) (hf a q (hd.ends a b q hdp)).same
  · rcases bind_error h with ⟨inner, hdp, hstop⟩ | ⟨a, b, q, inner, hdp, hfq, hstop⟩
    · rw [hstop]
      exact hd.final inner hdp
    · rw [hstop]
      exact (hf a q (hd.ends a b q hdp)).final inner hfq
  · obtain ⟨a₁, b₁, p₁, b₂, hdp, hfp, -⟩ := bind_ok.mp h
    exact (hf a₁ p₁ (hd.ends _ _ _ hdp)).ends _ _ _ hfp

omit [Spelled S] in
/-- Bodies that agree make blocks that do. -/
theorem nest {head : H} {d d' : Draft S H σ α} {Q : α → σ → Prop} (hd : Agree d d' p Q) :
    Agree (Draft.nest head d) (Draft.nest head d') p Q := by
  refine ⟨?_, fun halt h => ?_, fun a b q h => ?_⟩
  · rw [Draft.nest, Draft.nest, hd.same]
  · rcases nest_error h with ⟨line, hstop⟩ | ⟨inner, hdp, hstop⟩
    · rw [hstop]
      trivial
    · rw [hstop]
      exact Stop.isFinal_deeper (hd.final inner hdp)
  · obtain ⟨body, hdp, -⟩ := nest_ok h
    exact hd.ends _ _ _ hdp

/-- Bodies that agree make alternatives that do; the second bodies are compared where the first
ones end. -/
theorem fork {head : H} {yes yes' no no' : Draft S H σ Unit} {Q R : Unit → σ → Prop}
    (hyes : Agree yes yes' p Q) (hno : ∀ q, Q () q → Agree no no' q R) :
    Agree (Draft.fork head yes no) (Draft.fork head yes' no') p R := by
  refine ⟨?_, fun halt h => ?_, fun a b q h => ?_⟩
  · rw [Draft.fork, Draft.fork, ← hyes.same]
    cases hp : yes p with
    | error halt => rfl
    | ok r =>
      obtain ⟨u, b, q⟩ := r
      simp only [(hno q (hyes.ends u b q hp)).same]
  · rcases fork_error h with ⟨line, hstop⟩ | ⟨inner, hyp, hstop⟩ | ⟨b, q, inner, hyp, hnp, hstop⟩
    · rw [hstop]
      trivial
    · rw [hstop]
      exact Stop.isFinal_deeper (hyes.final inner hyp)
    · rw [hstop]
      exact Stop.isFinal_deeper ((hno q (hyes.ends _ _ _ hyp)).final inner hnp)
  · obtain ⟨b₁, p₁, b₂, hyp, hnp, -⟩ := fork_ok h
    exact (hno p₁ (hyes.ends _ _ _ hyp)).ends _ _ _ hnp

/-- Drafts for the members of a list agree one after the other if each keeps an invariant. -/
theorem forM {γ : Type} {f f' : γ → Draft S H σ PUnit} {I : σ → Prop} :
    ∀ {l : List γ} {p : σ}, I p → (∀ x ∈ l, ∀ q, I q → Agree (f x) (f' x) q fun _ => I) →
      Agree (l.forM f) (l.forM f') p fun _ => I
  | [], _, hp, _ => pure hp
  | x :: l, p, hp, h => by
    show Agree (f x >>= fun _ => l.forM f) (f' x >>= fun _ => l.forM f') p fun _ => I
    refine bind (h x List.mem_cons_self p hp) fun _ q hq => ?_
    -- The invariant holds again where the rest of the list starts.
    exact forM hq fun y hy => h y (List.mem_cons_of_mem _ hy)

end Agree

end Draft

end RecordBridge

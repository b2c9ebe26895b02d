import RecordBridge.Proofs.Draft

/-!
# Drafts that never fail

An unfailing draft (`Draft.Unfailing`) does not stop for a fault of its inputs, from any state. It may
still stop at a line that holds a line feed, or at a bound: that it writes single lines is told apart
(`Draft.Clean`). There is one rule for each way in which drafts are made.
-/

namespace RecordBridge

/-- No fault of the inputs. -/
def Stop.IsFaultless : Stop → Prop
  | .failed _ => False
  | .broke _ | .unfinished => True

/-- A stop without a fault is seen without one from the block around it. -/
theorem Stop.IsFaultless.deeper {stop : Stop} (h : stop.IsFaultless) : stop.deeper.IsFaultless := by
  cases stop with
  | failed cause => exact h
  | broke fault => trivial
  | unfinished => trivial

namespace Draft

variable {S H σ α β : Type}

/-- A draft ends with a value in `Q`, or stops without a fault of its inputs. -/
structure Unfailing (Q : α → Prop) (d : Draft S H σ α) : Prop where
  ends : ∀ {p a b q}, d p = .ok (a, b, q) → Q a
  stops : ∀ {p halt}, d p = .error halt → halt.stop.IsFaultless

namespace Unfailing

variable {Q : α → Prop} {R : β → Prop}

/-- A value is there at once. -/
theorem value {a : α} (h : Q a) : Unfailing Q (Draft.value a : Draft S H σ α) where
  ends hd := by
    obtain ⟨rfl, -, -⟩ := value_ok.mp hd
    exact h
  stops hd := nomatch hd

/-- Stopping counts as not failing if the cause is no fault. -/
theorem stop {why : Stop} (h : why.IsFaultless) : Unfailing Q (Draft.stop why : Draft S H σ α) where
  ends hd := absurd hd not_stop_ok
  stops hd := by
    cases hd
    exact h

/-- A computation that may fail is one that does not, with a value that is as it should be. -/
theorem ofExcept {e : Except GenerationError α} (h : ∃ a, e = .ok a ∧ Q a) :
    Unfailing Q (Draft.ofExcept e : Draft S H σ α) := by
  obtain ⟨a, rfl, ha⟩ := h
  exact value ha

theorem state : Unfailing (fun _ => True) (Draft.state : Draft S H σ σ) where
  ends _ := trivial
  stops hd := nomatch hd

theorem update {f : σ → σ} : Unfailing (fun _ => True) (Draft.update f : Draft S H σ Unit) where
  ends _ := trivial
  stops hd := nomatch hd

variable [Spelled S] [Spelled H]

theorem pure {a : α} (h : Q a) : Unfailing Q (Pure.pure a : Draft S H σ α) :=
  value h

/-- Writing a block may stop at a line feed, which is no fault of the inputs. -/
theorem write {b : Block S H} : Unfailing (fun _ => True) (Draft.write b : Draft S H σ Unit) where
  ends _ := trivial
  stops hd := by
    rw [Draft.write] at hd
    split at hd
    · cases hd
    · rename_i hcheck
      cases hd
      obtain ⟨line, hline⟩ := exists_of_checkLines hcheck
      rw [hline]
      trivial

/-- A draft after a draft; what the first one yields is all that the second may rely on. -/
theorem bind {d : Draft S H σ α} {f : α → Draft S H σ β} (hd : Unfailing Q d)
    (hf : ∀ a, Q a → Unfailing R (f a)) : Unfailing R (d >>= f) where
  ends h := by
    obtain ⟨a, _, _, _, hdp, hfp, -⟩ := bind_ok.mp h
    exact (hf a (hd.ends hdp)).ends hfp
  stops h := by
    rcases bind_error h with ⟨inner, hdp, hstop⟩ | ⟨a, b, q, inner, hdp, hfq, hstop⟩
    · rw [hstop]
      exact hd.stops hdp
    · rw [hstop]
      exact (hf a (hd.ends hdp)).stops hfq

omit [Spelled S] in
/-- A block of its own fails only if its body does. -/
theorem nest {head : H} {d : Draft S H σ α} (hd : Unfailing Q d) :
    Unfailing Q (Draft.nest head d) where
  ends h := by
    obtain ⟨body, hdp, -⟩ := nest_ok h
    exact hd.ends hdp
  stops h := by
    rcases nest_error h with ⟨line, hstop⟩ | ⟨inner, hdp, hstop⟩
    · rw [hstop]
      trivial
    · rw [hstop]
      exact Stop.IsFaultless.deeper (hd.stops hdp)

/-- Nor does an alternative add a way to fail. -/
theorem fork {head : H} {yes no : Draft S H σ Unit} (hyes : Unfailing (fun _ => True) yes)
    (hno : Unfailing (fun _ => True) no) :
    Unfailing (fun _ => True) (Draft.fork head yes no) where
  ends _ := trivial
  stops h := by
    rcases fork_error h with ⟨line, hstop⟩ | ⟨inner, hyp, hstop⟩ | ⟨b, q, inner, -, hnp, hstop⟩
    · rw [hstop]
      trivial
    · rw [hstop]
      exact Stop.IsFaultless.deeper (hyes.stops hyp)
    · rw [hstop]
      exact Stop.IsFaultless.deeper (hno.stops hnp)

/-- Drafts for the members of a list, one after the other. -/
theorem forM {γ : Type} {f : γ → Draft S H σ PUnit} :
    ∀ {l : List γ}, (∀ x ∈ l, Unfailing (fun _ => True) (f x)) →
      Unfailing (fun _ => True) (l.forM f)
  | [], _ => pure trivial
  | x :: _, h => bind (h x List.mem_cons_self) fun _ _ =>
    forM fun y hy => h y (List.mem_cons_of_mem _ hy)

/-- An unfailing draft does not come to an error. -/
theorem outcome_ne_failed {d : Draft S H σ α} (hd : Unfailing Q d) (p : σ)
    (cause : GenerationError) : d.outcome p ≠ .failed cause := by
  rw [Draft.outcome]
  cases hdp : d p with
  | ok r =>
    intro heq
    cases heq
  | error halt =>
    -- A stop that is no fault comes to another outcome: a broken line or a bound.
    have hstop := hd.stops hdp
    dsimp only
    rw [Halt.outcome]
    intro heq
    cases hhalt : halt.stop with
    | failed cause' =>
      rw [hhalt] at hstop
      exact hstop
    | broke fault =>
      rw [hhalt] at heq
      cases heq
    | unfinished =>
      rw [hhalt] at heq
      cases heq

end Unfailing

end Draft

end RecordBridge

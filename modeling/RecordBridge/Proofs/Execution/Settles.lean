import RecordBridge.Proofs.Execution.Grounded

/-!
# What a piece of a run comes to

A piece of a run ends in a state or stops at a fault. `Settles` says which faults it does not stop at,
and what holds of the state in which it ends. There is one rule for each way in which statements are
put together. What is followed along a run is left open: a condition may compare the state with the one
in which the piece starts.
-/

namespace RecordBridge

/-- A part of a run stops at none of some faults. -/
def Avoids {α : Type} (bad : Fault → Prop) (d : Except Fault α) : Prop :=
  ∀ fault, bad fault → d ≠ .error fault

/-- A piece of a run stops at none of some faults, and a condition holds where it ends. -/
structure Settles (bad : Fault → Prop) (Q : State → Prop) (d : Except Fault State) : Prop where
  avoids : Avoids bad d
  ends : ∀ τ, d = .ok τ → Q τ

namespace Avoids

variable {α β : Type} {bad : Fault → Prop} {d : Except Fault α} {f : α → Except Fault β}

/-- A run that has ended. -/
theorem ok (a : α) : Avoids bad (.ok a) :=
  fun _ _ => nofun

/-- A part of a run that avoids a fault, and then another one. -/
theorem bind (hd : Avoids bad d) (hf : ∀ a, d = .ok a → Avoids bad (f a)) : Avoids bad (d >>= f) :=
  fun fault hbad => bind_ne_error (hd fault hbad) fun a ha => hf a ha fault hbad

end Avoids

namespace Settles

variable {α : Type} {bad : Fault → Prop} {Q Q' : State → Prop} {σ τ : State}
  {d : Except Fault State} {order : Order} {call : Code → State → Except Fault State}
  {a b body yes no rest : Code} {head : Head}

theorem ok (h : Q τ) : Settles bad Q (.ok τ) where
  avoids := .ok τ
  ends _ heq := by
    cases heq
    exact h

/-- What holds at the end may be weakened. -/
theorem mono (h : Settles bad Q d) (hQ : ∀ τ, Q τ → Q' τ) : Settles bad Q' d :=
  ⟨h.avoids, fun τ hτ => hQ τ (h.ends τ hτ)⟩

/-- What holds after the first part is what the second part starts from. -/
theorem bind {f : State → Except Fault State} (hd : Settles bad Q d)
    (hf : ∀ τ, d = .ok τ → Q τ → Settles bad Q' (f τ)) : Settles bad Q' (d >>= f) where
  avoids := hd.avoids.bind fun τ h => (hf τ h (hd.ends τ h)).avoids
  ends υ h := by
    obtain ⟨τ, hτ, hυ⟩ := bind_eq_ok h
    exact (hf τ hτ (hd.ends τ hτ)).ends υ hυ

/-- After something else is looked up. -/
theorem after {l : Except Fault α} {f : α → Except Fault State} (hl : Avoids bad l)
    (hf : ∀ x, l = .ok x → Settles bad Q (f x)) : Settles bad Q (l >>= f) where
  avoids := hl.bind fun x hx => (hf x hx).avoids
  ends υ h := by
    obtain ⟨x, hx, hυ⟩ := bind_eq_ok h
    exact (hf x hx).ends υ hυ

/-- A simple statement, and what follows it. -/
theorem step {s : Statement} (hs : Settles bad Q (s.exec call σ))
    (hrest : ∀ τ, Q τ → Settles bad Q' (exec order call rest τ)) :
    Settles bad Q' (exec order call (.step s rest) σ) :=
  hs.bind fun τ _ => hrest τ

/-- Code after code. -/
theorem append (ha : Settles bad Q (exec order call a σ))
    (hb : ∀ τ, exec order call a σ = .ok τ → Q τ → Settles bad Q' (exec order call b τ)) :
    Settles bad Q' (exec order call (a ++ b) σ) := by
  rw [exec_append]
  exact ha.bind hb

/-- A block under a test. Its local functions are out of scope after it. -/
theorem test (hhead : head.isTest = true) (htest : Avoids bad (head.test σ))
    (hbody : head.test σ = .ok true → Settles bad Q (exec order call body σ))
    (hskip : head.test σ = .ok false → Q σ)
    (hrest : ∀ τ, Q τ → Settles bad Q' (exec order call rest (σ.afterBlock τ))) :
    Settles bad Q' (exec order call (.nest head body rest) σ) := by
  rw [exec_test hhead]
  refine after htest fun holds hholds => ?_
  have hblock : Settles bad Q (if holds then exec order call body σ else .ok σ) := by
    cases holds with
    | true => exact hbody hholds
    | false => exact ok (hskip hholds)
  exact hblock.bind fun τ _ => hrest τ

/-- Of two blocks the one runs that the test tells. -/
theorem fork (htest : Avoids bad (head.test σ))
    (hyes : head.test σ = .ok true → Settles bad Q (exec order call yes σ))
    (hno : head.test σ = .ok false → Settles bad Q (exec order call no σ))
    (hrest : ∀ τ, Q τ → Settles bad Q' (exec order call rest (σ.afterBlock τ))) :
    Settles bad Q' (exec order call (.fork head yes no rest) σ) := by
  rw [exec_fork]
  refine after htest fun holds hholds => ?_
  have hblock : Settles bad Q (if holds then exec order call yes σ else exec order call no σ) := by
    cases holds with
    | true => exact hyes hholds
    | false => exact hno hholds
  exact hblock.bind fun τ _ => hrest τ

/-- The rounds of a loop, by induction on the elements that are left. The condition holds before each
round. -/
theorem rounds {entries : List (Datum × GoValue)}
    (hbody : ∀ τ, Q τ → ∀ e ∈ entries,
      Settles bad (fun υ => Q (τ.afterBlock υ)) (exec order call body (head.bind τ e))) :
    ∀ {τ : State}, Q τ → Settles bad Q (entries.foldlM (fun σ e => do
      let τ ← exec order call body (head.bind σ e)
      .ok (σ.afterBlock τ)) τ) := by
  induction entries with
  | nil => exact fun hτ => ok hτ
  | cons e entries ih =>
    intro τ hτ
    rw [List.foldlM_cons]
    have hround : Settles bad Q (exec order call body (head.bind τ e) >>= fun υ =>
        .ok (τ.afterBlock υ)) :=
      (hbody τ hτ e List.mem_cons_self).bind fun υ _ hυ => .ok hυ
    exact hround.bind fun υ _ hυ =>
      ih (fun ρ hρ e' he' => hbody ρ hρ e' (List.mem_cons_of_mem _ he')) hυ

/-- A loop over a container. -/
theorem loop {source : Place} (hhead : head.source? = some source)
    (hsource : Avoids bad (σ.read source))
    (hentries : ∀ v, σ.read source = .ok v → Avoids bad (v.entries order σ.loops))
    (hstart : Q { σ with loops := σ.loops + 1 })
    (hbody : ∀ v entries, σ.read source = .ok v → v.entries order σ.loops = .ok entries →
      ∀ τ, Q τ → ∀ e ∈ entries,
        Settles bad (fun υ => Q (τ.afterBlock υ)) (exec order call body (head.bind τ e)))
    (hrest : ∀ τ, Q τ → Settles bad Q' (exec order call rest τ)) :
    Settles bad Q' (exec order call (.nest head body rest) σ) := by
  rw [exec_loop hhead]
  refine after hsource fun v hv => after (hentries v hv) fun entries hent => ?_
  exact (rounds (hbody v entries hv hent) hstart).bind fun τ _ => hrest τ

end Settles

end RecordBridge

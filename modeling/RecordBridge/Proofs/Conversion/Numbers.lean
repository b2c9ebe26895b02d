import RecordBridge.Proofs.Conversion.Derivation
import RecordBridge.Proofs.Execution.Grounded

/-!
# Numbers in generated names

The variables that a conversion declares are numbered in order, so those of a loop or a choice are
not among the variables that were there before.
-/

namespace RecordBridge

/-- A variable with a new number is not in a path. -/
theorem Path.Known.ignores {k : Path} {n : Nat} {v : Var} (h : k.Known n)
    (hlocal : v.isLocal = true) (hlt : n < v.number) : k.Ignores v := by
  refine ⟨hlocal, ?_⟩
  rintro ⟨s, hs, hvar⟩
  have hle := h s hs
  cases s with
  | field name => cases hvar
  | index v' | keyAs _ v' =>
    cases hvar
    exact absurd hlt (Nat.not_lt.mpr hle)

/-- Choosing a container only takes numbers. -/
theorem Selection.le_counter (n : Nat) (primary : Place) (standIn : Option Place)
    (flagged : Bool) : n ≤ (Selection.of n primary standIn flagged).counter := by
  cases standIn with
  | none => exact Nat.le_refl _
  | some standIn => cases flagged <;> exact Nat.le_add_right _ _

namespace Loop.Converts

variable {c : Settings} {job : ContainerJob} {type : FieldType} {loop : Loop}

theorem number_step (h : loop.Converts c job type) (x : Var) :
    (loop.step x).number = x.number := by
  cases h with
  | list | set => rfl
  | map htext =>
    show (if _ then Step.index x else _ : Step).number = _
    split <;> rfl

/-- The variable of the index or key is a local one with its number, and not that of the value. -/
theorem position_spec (h : loop.Converts c job type) (n m : Nat) :
    (loop.position n).isLocal = true ∧ (loop.position n).number = n ∧
      loop.position n ≠ .value m := by
  cases h <;> exact ⟨rfl, rfl, nofun⟩

/-- The step into a slot holds no number after that of the index or key. -/
theorem known_step (h : loop.Converts c job type) (n : Nat) :
    Path.Known n [loop.step (loop.position n)] := by
  obtain ⟨-, hnumber, -⟩ := h.position_spec n 0
  refine .singleton (Nat.le_of_eq ?_)
  rw [h.number_step, hnumber]

/-- The variables of a loop are local ones with new numbers. -/
theorem newer_bound (h : loop.Converts c job type) (n : Nat) (source : Place) :
    ∀ v ∈ (Head.each (loop.position (n + 1)) (.value (n + 2)) source).bound,
      v.isLocal = true ∧ n < v.number := by
  intro v hv
  obtain ⟨hlocal, hnumber, -⟩ := h.position_spec (n + 1) 0
  rcases List.mem_cons.mp hv with rfl | hv
  · exact ⟨hlocal, by rw [hnumber]; exact Nat.lt_succ_self _⟩
  · rw [List.mem_singleton.mp hv]
    exact ⟨rfl, Nat.lt_add_of_pos_right (by decide)⟩

end Loop.Converts

end RecordBridge

import RecordBridge.Proofs.Conversion.Numbers
import RecordBridge.Proofs.Indices

/-!
# Declarations in generated code

Which variables each piece of generated code declares, and in which order. Numbers are given out one
by one, and a variable is declared when its number is given out, so the numbers of the variables that
a conversion declares increase through its lines (`Emits.numbered`).
-/

namespace RecordBridge

open Code

/-! ## Pieces of code -/

section Pieces

variable {guards body : Code} {path : Path} {type : GoType}

/-- Assignments declare nothing, under guards that declare nothing. -/
theorem Assignment.declared_code (a : Assignment) (h : declared guards = []) :
    declared (a.code guards) = [] := by
  have hwrite : declared (guards ++ .step (.assign ⟨.output, a.target⟩ (.convert a.cast a.source))
      .done) = [] := by
    rw [declared_append, h]
    rfl
  rw [code]
  split
  · show [] ++ (declared _ ++ []) = []
    rw [hwrite]
    rfl
  · exact hwrite

/-- Leaves declare nothing, and nor do guards. -/
theorem declared_leafCode {pos : Position} {f : Field} {primary : Source} {standIn : Option Source}
    (h : declared guards = []) : declared (leafCode guards pos f type primary standIn) = [] := by
  cases standIn with
  | none => exact (leafAssignment pos f type primary false).declared_code h
  | some x =>
    rw [leafCode, declared_append, Assignment.declared_code _ h, Assignment.declared_code _ h]
    rfl

/-- A record that is filled in place declares what its fields do. -/
theorem declared_inlineCode {tested : Place} (h : declared guards = []) :
    declared (inlineCode guards path type tested body) = declared body := by
  have hfilled : declared (guards ++ .step (.assign ⟨.output, path⟩ (.newRecord type)) body) =
      declared body := by
    rw [declared_append, h]
    rfl
  rw [inlineCode]
  split
  · show [] ++ (declared _ ++ ([] ++ [])) = _
    rw [hfilled, List.nil_append, List.append_nil]
    exact List.append_nil _
  · show [] ++ (declared _ ++ []) = _
    rw [hfilled, List.nil_append, List.append_nil]

theorem declared_callCode {helper : Var} {argument : Place} (h : declared guards = []) :
    declared (callCode guards path helper argument) = [] := by
  rw [callCode, declared_append, h]
  rfl

/-- A local function is declared before what its body declares. -/
theorem declared_helperCode {helper : HelperSignature} :
    declared (helperCode helper body) = helper.name :: declared body := by
  show [helper.name] ++ ([] ++ (([] ++ (([] ++ declared body) ++ (([] ++ []) ++ ([] ++ [])))) ++ []))
    = _
  simp

/-- The variables of the choice between two containers. -/
def Selection.locals (counter : Nat) (standIn : Option Place) (flagged : Bool) : List Var :=
  match standIn, flagged with
  | none, _ => []
  | some _, false => [.sourceList (counter + 1)]
  | some _, true => [.sourceList (counter + 1), .overridden (counter + 2)]

/-- A choice between sources declares the variables that it needs. -/
theorem Selection.declared_code {n : Nat} {primary : Place} {standIn : Option Place}
    {flagged : Bool} : declared (Selection.of n primary standIn flagged).code =
      locals n standIn flagged := by
  cases standIn with
  | none => rfl
  | some x => cases flagged <;> rfl

/-- A loop declares its two variables after those of the choice. -/
theorem Loop.declared_code {loop : Loop} {job : ContainerJob} {chosen : Selection}
    (h : declared guards = []) : declared (loop.code guards job chosen body) =
      declared chosen.code ++
        (loop.position (chosen.counter + 1) :: .value (chosen.counter + 2) :: declared body) := by
  rw [Loop.code, declared_append, declared_append, h]
  show declared chosen.code ++ ([] ++ ([] ++ ([_, _] ++ (declared body ++ [])))) = _
  simp

/-- A loop over keys declares one. -/
theorem declared_keysCode {intoKeys fromKeys : Bool} {chosen : Selection}
    (h : declared guards = []) :
    declared (keysCode guards path type intoKeys fromKeys chosen) =
      declared chosen.code ++ [.value (chosen.counter + 1)] := by
  rw [keysCode, declared_append, declared_append, h]
  cases intoKeys <;> cases fromKeys <;> rfl

end Pieces

/-! ## Numbers in order -/

/-- Variables that are numbered in increasing order, after `n` and up to `m`. -/
structure Numbered (n m : Nat) (l : List Var) : Prop where
  le : n ≤ m
  increasing : l.Pairwise fun v w => v.number < w.number
  after : ∀ v ∈ l, n < v.number
  upTo : ∀ v ∈ l, v.number ≤ m

namespace Numbered

variable {n m k : Nat} {l l' : List Var} {v : Var}

theorem nil (h : n ≤ m) : Numbered n m [] :=
  ⟨h, .nil, nofun, nofun⟩

/-- Numbers in order, and then more of them in order. -/
theorem append (h : Numbered n m l) (h' : Numbered m k l') : Numbered n k (l ++ l') where
  le := Nat.le_trans h.le h'.le
  increasing := by
    refine List.pairwise_append.mpr ⟨h.increasing, h'.increasing, fun v hv w hw => ?_⟩
    exact Nat.lt_of_le_of_lt (h.upTo v hv) (h'.after w hw)
  after v hv := by
    rcases List.mem_append.mp hv with hv | hv
    · exact h.after v hv
    · exact Nat.lt_of_le_of_lt h.le (h'.after v hv)
  upTo v hv := by
    rcases List.mem_append.mp hv with hv | hv
    · exact Nat.le_trans (h.upTo v hv) h'.le
    · exact h'.upTo v hv

/-- The next number goes to one variable. -/
theorem cons (hv : v.number = n + 1) (h : Numbered (n + 1) m l) : Numbered n m (v :: l) where
  le := Nat.le_trans (Nat.le_succ n) h.le
  increasing := List.pairwise_cons.mpr ⟨fun w hw => hv ▸ h.after w hw, h.increasing⟩
  after w hw := by
    rcases List.mem_cons.mp hw with rfl | hw
    · omega
    · exact Nat.lt_trans (Nat.lt_succ_self n) (h.after w hw)
  upTo w hw := by
    rcases List.mem_cons.mp hw with rfl | hw
    · exact hv ▸ h.le
    · exact h.upTo w hw

/-- No number is given out twice, and 0 is given to none. -/
theorem pos (h : Numbered n m l) : ∀ v ∈ l, 0 < v.number :=
  fun v hv => Nat.lt_of_le_of_lt (Nat.zero_le n) (h.after v hv)

end Numbered

/-- Choosing a container numbers its variables. -/
theorem Selection.numbered (n : Nat) (primary : Place) (standIn : Option Place) (flagged : Bool) :
    Numbered n (Selection.of n primary standIn flagged).counter
      (declared (Selection.of n primary standIn flagged).code) := by
  rw [Selection.declared_code]
  have hend : ∀ m, Numbered m m [] := fun m => .nil (Nat.le_refl m)
  cases standIn with
  | none => exact hend n
  | some x =>
    cases flagged with
    | false => exact .cons (v := .sourceList (n + 1)) rfl (hend _)
    | true => exact .cons (v := .sourceList (n + 1)) rfl (.cons (v := .overridden (n + 2)) rfl (hend _))

/-- **Numbers increase**: the variables that are declared by what is emitted for a task are numbered
in order, from the number that was given out last. -/
theorem Emits.numbered {c : Settings} {task : Task} {p q : Progress} {b : Code}
    (h : Emits c task p b q) : Numbered p.counter q.counter (declared b) := by
  have hnone : ∀ {p : Progress} {pos : Position} {path : Path} {needed : Bool},
      declared (guardsAbove p pos path needed) = [] := by
    intro p pos path needed
    cases needed with
    | false => rfl
    | true => exact Deferred.declared_guards
  -- Every rule declares its own variables before those of its parts, and takes their numbers first.
  induction h with
  | noFields | unset | leafElement => exact .nil (Nat.le_refl _)
  | moreFields _ _ ih₁ ih₂ =>
    rw [declared_append]
    exact ih₁.append ih₂
  | leaf =>
    rw [declared_leafCode Deferred.declared_guards]
    exact .nil (Nat.le_refl _)
  | recordField _ _ _ _ ih | containerField _ _ _ ih | deferred _ _ _ _ _ _ ih
  | recordElement _ _ _ _ ih | containerElement _ _ ih => exact ih
  | allocated _ _ _ _ _ _ ih =>
    rw [declared_append, Deferred.declared_guards]
    exact ih
  | inline _ _ _ ih =>
    rw [declared_inlineCode Deferred.declared_guards]
    exact ih
  | call =>
    rw [declared_callCode hnone]
    exact .nil (Nat.le_refl _)
  | define _ _ _ _ _ ih =>
    rw [declared_append, declared_helperCode, declared_callCode hnone, List.append_nil]
    exact .cons rfl ih
  | @loop pos type job p q b loop chosen hloop hchosen _ ih =>
    subst hchosen
    rw [Loop.declared_code Deferred.declared_guards]
    refine (Selection.numbered _ _ _ _).append (.cons ?_ (.cons rfl ih))
    exact (hloop.position_spec _ 0).2.1
  | keys _ _ _ _ _ hchosen =>
    subst hchosen
    rw [declared_keysCode Deferred.declared_guards]
    exact (Selection.numbered _ _ _ _).append (.cons rfl (.nil (Nat.le_refl _)))
  | eitherElement _ _ _ _ _ _ _ ih₁ ih₂ =>
    show Numbered _ _ ([] ++ (declared _ ++ (declared _ ++ [])))
    rw [List.nil_append, List.append_nil]
    exact ih₁.append ih₂

end RecordBridge

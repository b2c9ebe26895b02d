import Mathlib.Data.List.Basic
import RecordBridge.Proofs.Execution.Grounded

/-!
# Variables and their scopes

Which variables the statements of a conversion declare, which ones they mention, and which ones they
read. Scopes follow the blocks: what a statement declares is in scope in the rest of its block, and
what a head binds is in scope in the block under it. The two variables of a local function, `in` and
`out`, hide those around it and are in scope everywhere.

- `Code.Scoped`: every variable is mentioned where it is in scope;
- `Code.Used`: every variable that is declared is read in its scope.
-/

namespace RecordBridge

/-! ## What is mentioned, declared and read -/

/-- The variables in the indices of a path. -/
def Path.vars (path : Path) : List Var :=
  path.filterMap Step.var?

/-- The variables of a place: that at its root and those in its indices. -/
def Place.vars (p : Place) : List Var :=
  p.root :: p.path.vars

namespace Expr

/-- The variables that an expression reads. -/
def vars : Expr → List Var
  | .absent | .flag _ | .present | .newRecord _ => []
  | .read source | .convert _ source | .make _ source | .makeRoom _ source => source.vars
  | .call helper source => helper :: source.vars
  | .append target _ v => v :: target.vars

end Expr

namespace Statement

/-- The variables that a statement declares for the rest of its block. -/
def declared : Statement → List Var
  | .keep name _ => [name]
  | .define v _ => [v]
  | .declare helper => [helper.name]
  | .assign _ _ | .giveBack => []

/-- The variables that have to be in scope before a statement. -/
def vars : Statement → List Var
  | .keep _ known => [known]
  | .assign target e => target.vars ++ e.vars
  | .define _ e => e.vars
  | .declare _ | .giveBack => []

/-- The variables that a statement reads. To assign a new value to a variable does not read it, but
to assign a part of one does. -/
def reads : Statement → List Var
  | .keep name known => [name, known]
  | .assign target e => if target.path = [] then e.vars else target.vars ++ e.vars
  | .define _ e => e.vars
  | .declare _ | .giveBack => []

end Statement

namespace Head

/-- The variables that a head reads. -/
def reads : Head → List Var
  | .ifSet places => places.flatMap Place.vars
  | .ifUnset place => place.vars
  | .ifFlag v => [v]
  | .each _ _ source | .eachKey _ source | .eachValue _ source => source.vars
  | .helperBody _ => []

/-- The variables that have to be in scope before a head. The body of a local function is assigned
to its name. -/
def vars : Head → List Var
  | .helperBody helper => [helper.name]
  | head => head.reads

end Head

namespace Code

/-- The variables that are declared anywhere in a block, in order. -/
def declared (b : Code) : List Var :=
  b.gather Statement.declared Head.bound

/-- The variables that are mentioned in a block, apart from their declarations. -/
def mentioned (b : Code) : List Var :=
  b.gather Statement.vars Head.vars

/-- The variables that are read in a block. -/
def reads (b : Code) : List Var :=
  b.gather Statement.reads Head.reads

/-! ## Scopes -/

/-- The variables in scope after the statements of a block. -/
def after : List Var → Code → List Var
  | Γ, .done => Γ
  | Γ, .step s rest => after (s.declared ++ Γ) rest
  | Γ, .nest _ _ rest | Γ, .fork _ _ _ rest => after Γ rest

/-- Every variable is mentioned where it is in scope, if those of `Γ` are in scope at the start. -/
def Scoped : List Var → Code → Prop
  | _, .done => True
  | Γ, .step s rest => s.vars ⊆ Γ ∧ Scoped (s.declared ++ Γ) rest
  | Γ, .nest head body rest => head.vars ⊆ Γ ∧ Scoped (head.bound ++ Γ) body ∧ Scoped Γ rest
  | Γ, .fork head yes no rest => head.vars ⊆ Γ ∧ Scoped Γ yes ∧ Scoped Γ no ∧ Scoped Γ rest

/-- Whether every variable is mentioned where it is in scope can be told. -/
def decidableScoped : (Γ : List Var) → (b : Code) → Decidable (Scoped Γ b)
  | _, .done => inferInstanceAs (Decidable True)
  | Γ, .step s rest =>
    have := decidableScoped (s.declared ++ Γ) rest
    inferInstanceAs (Decidable (s.vars ⊆ Γ ∧ Scoped (s.declared ++ Γ) rest))
  | Γ, .nest head body rest =>
    have := decidableScoped (head.bound ++ Γ) body
    have := decidableScoped Γ rest
    inferInstanceAs (Decidable (head.vars ⊆ Γ ∧ Scoped (head.bound ++ Γ) body ∧ Scoped Γ rest))
  | Γ, .fork head yes no rest =>
    have := decidableScoped Γ yes
    have := decidableScoped Γ no
    have := decidableScoped Γ rest
    inferInstanceAs (Decidable (head.vars ⊆ Γ ∧ Scoped Γ yes ∧ Scoped Γ no ∧ Scoped Γ rest))

instance (Γ : List Var) (b : Code) : Decidable (Scoped Γ b) :=
  decidableScoped Γ b

/-- Every variable is read in the scope of its declaration. -/
def Used : Code → Prop
  | .done => True
  | .step s rest => s.declared ⊆ s.reads ++ reads rest ∧ Used rest
  | .nest head body rest => head.bound ⊆ reads body ∧ Used body ∧ Used rest
  | .fork _ yes no rest => Used yes ∧ Used no ∧ Used rest

section Append

variable {Γ : List Var} {a b : Code}

@[simp] theorem declared_append : declared (a ++ b) = declared a ++ declared b :=
  Block.gather_append _ _ a b

@[simp] theorem mentioned_append : mentioned (a ++ b) = mentioned a ++ mentioned b :=
  Block.gather_append _ _ a b

@[simp] theorem reads_append : reads (a ++ b) = reads a ++ reads b :=
  Block.gather_append _ _ a b

@[simp] theorem after_append : after Γ (a ++ b) = after (after Γ a) b := by
  induction a generalizing Γ with
  | done => rfl
  | step s rest ih => exact ih
  | nest head body rest _ ih => exact ih
  | fork head yes no rest _ _ ih => exact ih

/-- What is in scope stays in scope to the end of the block. -/
theorem subset_after : Γ ⊆ after Γ a := by
  induction a generalizing Γ with
  | done => exact List.Subset.refl _
  | step s rest ih => exact List.Subset.trans (List.subset_append_right _ _) ih
  | nest head body rest _ ih => exact ih
  | fork head yes no rest _ _ ih => exact ih

theorem scoped_append : Scoped Γ (a ++ b) ↔ Scoped Γ a ∧ Scoped (after Γ a) b := by
  induction a generalizing Γ with
  | done => simp [Scoped, after]
  | step s rest ih => simp [Scoped, after, ih, and_assoc]
  | nest head body rest _ ih => simp [Scoped, after, ih, and_assoc]
  | fork head yes no rest _ _ ih => simp [Scoped, after, ih, and_assoc]

theorem Used.append (ha : Used a) (hb : Used b) : Used (a ++ b) := by
  induction a with
  | done => exact hb
  | step s rest ih =>
    obtain ⟨hread, hrest⟩ := ha
    refine ⟨fun v hv => ?_, ih hrest⟩
    show v ∈ s.reads ++ reads (rest ++ b)
    rw [reads_append, ← List.append_assoc]
    exact List.mem_append_left _ (hread hv)
  | nest head body rest _ ih => exact ⟨ha.1, ha.2.1, ih ha.2.2⟩
  | fork head yes no rest _ _ ih => exact ⟨ha.1, ha.2.1, ih ha.2.2⟩

/-- Where nothing is declared, the scope stays the same. -/
theorem after_of_declared_eq_nil (h : declared a = []) : after Γ a = Γ := by
  induction a generalizing Γ with
  | done => rfl
  | step s rest ih =>
    obtain ⟨hs, hrest⟩ := List.append_eq_nil_iff.mp h
    rw [after, hs]
    exact ih hrest
  | nest head body rest _ ih =>
    exact ih (List.append_eq_nil_iff.mp (List.append_eq_nil_iff.mp h).2).2
  | fork head yes no rest _ _ ih =>
    exact ih (List.append_eq_nil_iff.mp
      (List.append_eq_nil_iff.mp (List.append_eq_nil_iff.mp h).2).2).2

/-- Where nothing is declared, nothing has to be read. -/
theorem used_of_declared_eq_nil (h : declared a = []) : Used a := by
  induction a with
  | done => trivial
  | step s rest ih =>
    obtain ⟨hs, hrest⟩ := List.append_eq_nil_iff.mp h
    exact ⟨by rw [hs]; exact List.nil_subset _, ih hrest⟩
  | nest head body rest ihbody ihrest =>
    obtain ⟨hhead, h⟩ := List.append_eq_nil_iff.mp h
    obtain ⟨hbody, hrest⟩ := List.append_eq_nil_iff.mp h
    exact ⟨by rw [hhead]; exact List.nil_subset _, ihbody hbody, ihrest hrest⟩
  | fork head yes no rest ihyes ihno ihrest =>
    obtain ⟨-, h⟩ := List.append_eq_nil_iff.mp h
    obtain ⟨hyes, h⟩ := List.append_eq_nil_iff.mp h
    obtain ⟨hno, hrest⟩ := List.append_eq_nil_iff.mp h
    exact ⟨ihyes hyes, ihno hno, ihrest hrest⟩

end Append

end Code

end RecordBridge

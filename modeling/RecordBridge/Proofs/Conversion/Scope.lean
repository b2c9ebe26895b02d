import RecordBridge.Proofs.Conversion.Emission
import RecordBridge.Proofs.Conversion.Numbers
import RecordBridge.Proofs.Conversion.Reference

/-!
# Conversions without mappings

What holds while a conversion without mappings is written and run: the fields of both sides are
paired by their names, nothing is deferred, and the local functions that the generator takes to be in
scope are in scope at run time, with the bodies that were written for them.
-/

namespace RecordBridge

/-! ## What is assumed of the fields -/

/-- The fields of a target record and those of its source. Types that belong together are related
by `M`. -/
structure Pairing (M : FieldType → FieldType → Prop) (targets sources : List Field) : Prop where
  targetNames : ∀ f ∈ targets, IsIdentifier f.name
  sourceNames : ∀ g ∈ sources, IsIdentifier g.name
  distinct : targets.Pairwise fun f g => pascal f.name ≠ pascal g.name
  related : ∀ f ∈ targets, ∀ g ∈ sources, f.MatchedBy g → M f.type g.type

namespace Pairing

variable {M : FieldType → FieldType → Prop} {f : Field} {fs gs : List Field}

theorem head (h : Pairing M (f :: fs) gs) : Pairing M [f] gs := by
  refine ⟨?_, h.sourceNames, List.pairwise_singleton _ _, ?_⟩
  · intro f' hf
    rw [List.mem_singleton.mp hf]
    exact h.targetNames f List.mem_cons_self
  · intro f' hf
    rw [List.mem_singleton.mp hf]
    exact h.related f List.mem_cons_self

theorem tail (h : Pairing M (f :: fs) gs) : Pairing M fs gs :=
  ⟨fun f' hf => h.targetNames f' (List.mem_cons_of_mem _ hf), h.sourceNames,
    (List.pairwise_cons.mp h.distinct).2, fun f' hf => h.related f' (List.mem_cons_of_mem _ hf)⟩

/-- The names of the other fields are not that of the first one. -/
theorem ne_of_mem (h : Pairing M (f :: fs) gs) {f' : Field} (hf : f' ∈ fs) :
    pascal f.name ≠ pascal f'.name :=
  (List.pairwise_cons.mp h.distinct).1 f' hf

end Pairing

/-- Settings without mappings, and the types that meet: their records are paired, their elements
meet, and a leaf meets one of the same type. -/
structure Matching (c : Settings) (M : FieldType → FieldType → Prop) : Prop where
  unmapped : c.mapped = []
  record : ∀ {t u : FieldType} {target source : RecordRef}, M t u → t.root = .record target →
    u.root = .record source → Pairing M (c.schema.fields target) (c.schema.fields source)
  list : ∀ {t u element source : FieldType}, M t u → t.root = .list element →
    u.root = .list source → M element source
  set : ∀ {t u element source : FieldType} {form form' : SetForm}, M t u →
    t.root = .set element form → u.root = .set source form' → M element source
  map : ∀ {t u key value key' value' : FieldType}, M t u → t.root = .map key value →
    u.root = .map key' value' → M value value'
  leaf : ∀ {t u : FieldType}, M t u → t.root.isLeaf = true → u.root = t.root

/-! ## Local functions in scope -/

/-- The functions in scope at run time are those that the generator took to be in scope. Each one
has the body that was emitted for its records, where it was itself in scope. -/
inductive InScope (c : Settings) : List Helper → List LocalFunction → Prop where
  | nil : InScope c [] []
  | cons {h : Helper} {hs : List Helper} {f : LocalFunction} {fs : List LocalFunction}
    {pos : Position} {job : RecordJob} {go : GoType} {p q : Progress} {b : Code}
    (hrest : InScope c hs fs) (hname : f.name = h.name) (hnew : ∀ g ∈ fs, g.name ≠ h.name)
    (htarget : h.target = job.target.id) (hsource : h.source = job.source.id)
    (hbody : f.body = helperBlock go b)
    (hemits : Emits c (.fields (pos.inHelper c job) (c.schema.fields job.target)) p b q)
    (hhelpers : p.helpers = h :: hs) (hdeferred : p.deferred = .empty)
    (hnumbers : ∀ g ∈ f :: fs, g.name.number ≤ p.counter) : InScope c (h :: hs) (f :: fs)

/-- The function for a record is found in scope. -/
theorem InScope.find {c : Settings} {hs : List Helper} {fs : List LocalFunction} {helper : Helper}
    {P : Helper → Bool} (hscope : InScope c hs fs) (h : hs.find? P = some helper) :
    ∃ hs' f fs', InScope c (helper :: hs') (f :: fs') ∧
      fs.dropWhile (·.name ≠ helper.name) = f :: fs' := by
  induction hscope with
  | nil => cases h
  | @cons h' hs f fs _ _ _ _ _ _ hrest hname hnew htarget hsource hbody hemits hhelpers hdeferred
      hnumbers ih =>
    by_cases hP : P h' = true
    · rw [List.find?_cons_of_pos hP] at h
      cases h
      refine ⟨hs, f, fs, .cons hrest hname hnew htarget hsource hbody hemits hhelpers hdeferred
        hnumbers, ?_⟩
      rw [List.dropWhile_cons_of_neg (by simp [hname])]
    · rw [List.find?_cons_of_neg hP] at h
      obtain ⟨hs', f', fs', hscope', hdrop⟩ := ih h
      refine ⟨hs', f', fs', hscope', ?_⟩
      have hmem : f' ∈ fs := (List.dropWhile_sublist _).subset (hdrop ▸ List.mem_cons_self)
      -- The helper that is found is further down, and names in scope do not repeat.
      have hne : f.name ≠ helper.name := by
        have hname' : f'.name = helper.name := by
          cases hscope' with
          | cons _ hname' => exact hname'
        rw [hname, ← hname']
        exact fun heq => hnew f' hmem heq.symm
      rw [List.dropWhile_cons_of_pos (by simpa using hne)]
      exact hdrop

/-- A state in which statements that were emitted from a progress can run. -/
structure Ready (c : Settings) (p : Progress) (σ : State) : Prop where
  deferred : p.deferred = .empty
  scope : InScope c p.helpers σ.functions
  numbers : ∀ f ∈ σ.functions, f.name.number ≤ p.counter

/-- Nothing is deferred, so no guards are needed. -/
theorem Ready.guards {c : Settings} {p : Progress} {σ : State} (h : Ready c p σ)
    (scope path : Path) : p.deferred.guards scope path = .done := by
  rw [h.deferred]
  rfl

/-- A progress after another one: numbers only grow, and nothing is deferred in between. -/
structure Progress.Later (p q : Progress) : Prop where
  counter : p.counter ≤ q.counter
  deferred : q.deferred = p.deferred

namespace Progress.Later

variable {p q r : Progress}

theorem refl : Progress.Later p p :=
  ⟨Nat.le_refl _, rfl⟩

theorem trans (h : p.Later q) (h' : q.Later r) : p.Later r :=
  ⟨Nat.le_trans h.counter h'.counter, h'.deferred.trans h.deferred⟩

end Progress.Later

/-- After a block its local functions are out of scope. -/
theorem Ready.afterBlock {c : Settings} {p q : Progress} {σ : State} (h : Ready c p σ)
    (hlater : p.Later q) (τ : State) :
    Ready c { q with helpers := p.helpers } (σ.afterBlock τ) :=
  ⟨hlater.deferred.trans h.deferred, h.scope,
    fun f hf => Nat.le_trans (h.numbers f hf) hlater.counter⟩

/-- Statements are emitted up to a later progress if nothing is mapped. -/
theorem Emits.later {c : Settings} (hunmapped : c.mapped = []) {task : Task} {p q : Progress}
    {b : Code} (h : Emits c task p b q) : p.Later q := by
  induction h with
  | noFields | leaf | unset | call | leafElement => exact .refl
  | moreFields _ _ ih₁ ih₂ => exact ih₁.trans ih₂
  | eitherElement _ _ _ _ _ _ _ ih₁ ih₂ => exact ih₁.trans ih₂
  | allocated _ _ hmaps | deferred _ _ hmaps =>
    rw [Settings.mapsBelow_of_unmapped hunmapped] at hmaps
    cases hmaps
  | recordField _ _ _ _ ih | containerField _ _ _ ih | recordElement _ _ _ _ ih
  | containerElement _ _ ih => exact ih
  | inline _ _ _ ih => exact ⟨ih.counter, ih.deferred⟩
  | define _ _ _ _ _ ih => exact ⟨Nat.le_trans (Nat.le_succ _) ih.counter, ih.deferred⟩
  | loop _ hchosen _ ih =>
    subst hchosen
    exact ⟨Nat.le_trans (Nat.le_trans (Selection.le_counter _ _ _ _) (Nat.le_add_right _ 2))
      ih.counter, ih.deferred⟩
  | keys _ _ _ _ _ hchosen =>
    subst hchosen
    exact ⟨Nat.le_trans (Selection.le_counter _ _ _ _) (Nat.le_succ _), rfl⟩

end RecordBridge

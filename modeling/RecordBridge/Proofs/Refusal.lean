import RecordBridge.Proofs.Draft

/-!
# Drafts that refuse less

A draft follows another one (`Draft.FollowsUnless`) if the two do the same, from every state, as long as
the first does not fail for one of some causes. Such a failure ends the first one, and up to there the
two are one. There is one rule for each way in which drafts are made.
-/

namespace RecordBridge

/-- A failure within a block is the same failure. -/
theorem Halt.stop_deeper {σ : Type} (halt : Halt σ) {cause : GenerationError}
    (h : halt.stop = .failed cause) : halt.deeper.stop = .failed cause := by
  rw [Halt.deeper, h]
  rfl

namespace Draft

variable {S H σ α : Type}

/-- From every state, `d'` comes to what `d` comes to, unless `d` fails for a cause in `refused`. -/
def FollowsUnless (refused : GenerationError → Prop) (d d' : Draft S H σ α) : Prop :=
  ∀ p, d' p = d p ∨ ∃ halt cause, d p = .error halt ∧ halt.stop = .failed cause ∧ refused cause

namespace FollowsUnless

variable {refused : GenerationError → Prop}

theorem refl (d : Draft S H σ α) : FollowsUnless refused d d :=
  fun _ => .inl rfl

/-- Any draft follows one that is refused. -/
theorem fail {cause : GenerationError} (h : refused cause) (d' : Draft S H σ α) :
    FollowsUnless refused (Draft.fail cause) d' :=
  fun p => .inr ⟨⟨[], .failed cause, p⟩, cause, rfl, rfl, h⟩

/-- A choice between two drafts. -/
theorem ite {test : Prop} [Decidable test] {yes no yes' no' : Draft S H σ α}
    (hyes : FollowsUnless refused yes yes') (hno : FollowsUnless refused no no') :
    FollowsUnless refused (if test then yes else no) (if test then yes' else no') := by
  split
  · exact hyes
  · exact hno

variable [Spelled S] [Spelled H]

/-- A sequence follows another if each part does. -/
theorem bind {β : Type} {d d' : Draft S H σ α} {f f' : α → Draft S H σ β}
    (hd : FollowsUnless refused d d') (hf : ∀ a, FollowsUnless refused (f a) (f' a)) :
    FollowsUnless refused (d >>= f) (d' >>= f') := by
  intro p
  show andThen d' f' p = andThen d f p ∨ ∃ halt cause, andThen d f p = .error halt ∧ _
  rw [andThen, andThen]
  rcases hd p with hsame | ⟨halt, cause, herror, hrefused⟩
  · rw [hsame]
    cases hdp : d p with
    | error halt => exact .inl rfl
    | ok r =>
      obtain ⟨a, b, q⟩ := r
      rcases hf a q with hsame | ⟨halt, cause, herror, hstop, hrefused⟩
      · exact .inl (congrArg (after b) hsame)
      · -- The lines written before do not change why the rest stops.
        refine .inr ⟨halt.after b.lines, cause, ?_, hstop, hrefused⟩
        simp only [herror, after]
  · rw [herror]
    exact .inr ⟨halt, cause, rfl, hrefused⟩

omit [Spelled S] in
/-- The body of a block. -/
theorem nest {head : H} {d d' : Draft S H σ α} (h : FollowsUnless refused d d') :
    FollowsUnless refused (Draft.nest head d) (Draft.nest head d') := by
  intro p
  rw [Draft.nest, Draft.nest]
  cases checkLines p [Block.opening head] with
  | error halt => exact .inl rfl
  | ok _ =>
    rcases h p with hsame | ⟨halt, cause, herror, hstop, hrefused⟩
    · left
      simp only [hsame]
    · right
      refine ⟨halt.deeper.after [Block.opening head], cause, ?_, halt.stop_deeper hstop, hrefused⟩
      simp only [herror]

/-- The two blocks of a head. The second one runs only if the first one was not refused. -/
theorem fork {head : H} {yes no yes' no' : Draft S H σ Unit} (hyes : FollowsUnless refused yes yes')
    (hno : FollowsUnless refused no no') :
    FollowsUnless refused (Draft.fork head yes no) (Draft.fork head yes' no') := by
  intro p
  rw [Draft.fork, Draft.fork]
  cases checkLines p [Block.opening head] with
  | error halt => exact .inl rfl
  | ok _ =>
    rcases hyes p with hsame | ⟨halt, cause, herror, hstop, hrefused⟩
    · -- The first bodies do the same, so the second ones start from the same state.
      rw [hsame]
      cases hyp : yes p with
      | error halt => exact .inl rfl
      | ok r =>
        obtain ⟨_, b, q⟩ := r
        rcases hno q with hsame | ⟨halt, cause, herror, hstop, hrefused⟩
        · left
          simp only [hsame]
        · right
          refine ⟨halt.deeper.after (Block.opening head :: b.lines.map Line.deeper ++
            [Block.otherwise]), cause, ?_, halt.stop_deeper hstop, hrefused⟩
          simp only [herror]
    · right
      refine ⟨halt.deeper.after [Block.opening head], cause, ?_, halt.stop_deeper hstop, hrefused⟩
      simp only [herror]

/-- Drafts for the members of a list follow each other if each does. -/
theorem forM {γ : Type} {f f' : γ → Draft S H σ PUnit}
    (h : ∀ x, FollowsUnless refused (f x) (f' x)) (l : List γ) :
    FollowsUnless refused (l.forM f) (l.forM f') := by
  induction l with
  | nil => exact refl _
  | cons x l ih => exact bind (h x) fun _ => ih

/-- What the drafts come to. -/
theorem outcome {d d' : Draft S H σ α} (h : FollowsUnless refused d d') (state : σ) :
    d'.outcome state = d.outcome state ∨
      ∃ cause, d.outcome state = .failed cause ∧ refused cause := by
  rcases h state with hsame | ⟨halt, cause, herror, hstop, hrefused⟩
  · left
    rw [Draft.outcome, Draft.outcome, hsame]
  · right
    refine ⟨cause, ?_, hrefused⟩
    rw [Draft.outcome, herror]
    simp only [Halt.outcome, hstop]

end FollowsUnless

end Draft

end RecordBridge

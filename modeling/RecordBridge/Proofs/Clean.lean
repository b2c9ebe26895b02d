import Mathlib.Data.List.TakeWhile
import RecordBridge.Proofs.Draft
import RecordBridge.Proofs.SingleLine

/-!
# Drafts that write single lines

A clean draft (`Draft.Clean`) writes no line that holds a line feed and never breaks; where it stops,
it is for a fault of the inputs other than a package that is not known. There is one rule for each way
in which drafts are made. Rules are about all states that satisfy an invariant, which clean drafts keep.
-/

namespace RecordBridge

/-! ## Blocks -/

section Blocks

variable {S H : Type} [Spelled S] [Spelled H]

/-- No line of a block holds a line feed. -/
def Block.IsSingle (b : Block S H) : Prop :=
  ∀ l ∈ b.lines, RecordBridge.IsSingle l.text

namespace Block

variable {a b : Block S H} {head : H} {s : S}

/-- Lines are not changed when their block is set deeper, but for the depth. -/
theorem isSingle_deeper {lines : List Line} (h : ∀ l ∈ lines, RecordBridge.IsSingle l.text) :
    ∀ l ∈ lines.map Line.deeper, RecordBridge.IsSingle l.text := by
  intro l hl
  obtain ⟨l', hl', rfl⟩ := List.mem_map.mp hl
  exact h l' hl'

/-- The line that opens a block is the text of its head. -/
theorem isSingle_opening (h : RecordBridge.IsSingle (Spelled.text head)) :
    RecordBridge.IsSingle (opening head).text := by
  simpa +decide [opening] using h

namespace IsSingle

theorem done : IsSingle (done : Block S H) :=
  fun _ h => absurd h List.not_mem_nil

/-- A block after a block. -/
theorem append (ha : a.IsSingle) (hb : b.IsSingle) : (a ++ b).IsSingle := by
  rw [IsSingle, lines_append, List.forall_mem_append]
  exact ⟨ha, hb⟩

theorem step (hs : RecordBridge.IsSingle (Spelled.text s)) (hb : b.IsSingle) :
    (Block.step s b).IsSingle :=
  List.forall_mem_cons.mpr ⟨hs, hb⟩

/-- A headed block adds the lines of its head, its body and a brace. -/
theorem nest (hhead : RecordBridge.IsSingle (Spelled.text head)) (ha : a.IsSingle)
    (hb : b.IsSingle) : (Block.nest head a b).IsSingle := by
  refine List.forall_mem_cons.mpr ⟨isSingle_opening hhead, ?_⟩
  refine List.forall_mem_append.mpr ⟨isSingle_deeper ha, ?_⟩
  exact List.forall_mem_cons.mpr ⟨by decide, hb⟩

/-- A headed block with an alternative has lines for both, with a line between them. -/
theorem fork {rest : Block S H} (hhead : RecordBridge.IsSingle (Spelled.text head))
    (ha : a.IsSingle) (hb : b.IsSingle) (hrest : rest.IsSingle) :
    (Block.fork head a b rest).IsSingle := by
  rw [IsSingle, lines]
  simp only [List.cons_append, List.append_assoc, List.forall_mem_cons, List.forall_mem_append]
  exact ⟨isSingle_opening hhead, isSingle_deeper ha, by decide, isSingle_deeper hb, by decide, hrest⟩

/-- Simple statements in a row. -/
theorem ofList {l : List S} (h : ∀ s ∈ l, RecordBridge.IsSingle (Spelled.text s)) :
    (Block.ofList l : Block S H).IsSingle := by
  induction l with
  | nil => exact done
  | cons s l ih =>
    exact step (h s List.mem_cons_self) (ih fun t ht => h t (List.mem_cons_of_mem _ ht))

end IsSingle

end Block

end Blocks

/-- A line is indented by tabs alone. -/
theorem Line.isSingle_indented (l : Line) (h : RecordBridge.IsSingle l.text) :
    RecordBridge.IsSingle l.indented := by
  refine isSingle_append.mpr ⟨isSingle_ofList.mpr fun hmem => ?_, h⟩
  exact absurd (List.eq_of_mem_replicate hmem) (by decide)

/-! ## Drafts -/

/-- Single lines pass the check. -/
theorem checkLines_eq_ok {σ : Type} (state : σ) {lines : List Line}
    (h : ∀ l ∈ lines, IsSingle l.text) : checkLines state lines = .ok () := by
  have hall : lines.dropWhile Line.isSingle = [] := List.dropWhile_eq_nil_iff.mpr fun l hl => by
    simpa [Line.isSingle, IsSingle] using h l hl
  rw [checkLines_eq, hall]

/-- A stop for a fault of the inputs that is no unknown package. A stop at a bound counts if bounds
do. -/
def Stop.IsClean (bounded : Prop) : Stop → Prop
  | .failed (.unresolvedPackage _ _) => False
  | .failed _ => True
  | .broke _ => False
  | .unfinished => bounded

/-- A stop is seen as the same kind of stop from the block around it. -/
theorem Stop.IsClean.deeper {bounded : Prop} {stop : Stop} (h : stop.IsClean bounded) :
    stop.deeper.IsClean bounded := by
  cases stop with
  | broke fault => exact absurd h id
  | _ => exact h

namespace Draft

variable {S H σ α β : Type} [Spelled S] [Spelled H]

/-- From states in `I` a draft writes single lines, and ends with a value in `Q` and a state in `I`, or
stops cleanly. -/
structure Clean (bounded : Prop) (I : σ → Prop) (Q : α → Prop) (d : Draft S H σ α) : Prop where
  ends : ∀ {p a b q}, I p → d p = .ok (a, b, q) → Q a ∧ I q ∧ b.IsSingle
  stops : ∀ {p halt}, I p → d p = .error halt → halt.stop.IsClean bounded

namespace Clean

variable {bounded : Prop} {I : σ → Prop} {Q : α → Prop} {R : β → Prop}

theorem value {a : α} (h : Q a) : Clean bounded I Q (Draft.value a : Draft S H σ α) where
  ends hp hd := by
    obtain ⟨rfl, rfl, rfl⟩ := value_ok.mp hd
    exact ⟨h, hp, .done⟩
  stops _ hd := nomatch hd

theorem pure {a : α} (h : Q a) : Clean bounded I Q (Pure.pure a : Draft S H σ α) :=
  value h

theorem stop {why : Stop} (h : why.IsClean bounded) :
    Clean bounded I Q (Draft.stop why : Draft S H σ α) where
  ends _ hd := absurd hd not_stop_ok
  stops _ hd := by
    cases hd
    exact h

theorem fail {cause : GenerationError} (h : (Stop.failed cause).IsClean bounded) :
    Clean bounded I Q (Draft.fail cause : Draft S H σ α) :=
  stop h

theorem ofExcept {e : Except GenerationError α} (h : ∃ a, e = .ok a ∧ Q a) :
    Clean bounded I Q (Draft.ofExcept e : Draft S H σ α) := by
  obtain ⟨a, rfl, ha⟩ := h
  exact value ha

theorem state : Clean bounded I I (Draft.state : Draft S H σ σ) where
  ends hp hd := by
    obtain ⟨rfl, rfl, rfl⟩ := state_ok.mp hd
    exact ⟨hp, hp, .done⟩
  stops _ hd := nomatch hd

theorem update {f : σ → σ} (h : ∀ p, I p → I (f p)) :
    Clean bounded I (fun _ => True) (Draft.update f : Draft S H σ Unit) where
  ends hp hd := by
    obtain ⟨rfl, rfl⟩ := update_ok.mp hd
    exact ⟨trivial, h _ hp, .done⟩
  stops _ hd := nomatch hd

/-- Writing single lines leaves the state as it is and does not stop. -/
theorem write {b : Block S H} (h : b.IsSingle) :
    Clean bounded I (fun _ => True) (Draft.write b : Draft S H σ Unit) where
  ends hp hd := by
    obtain ⟨rfl, rfl⟩ := write_ok hd
    exact ⟨trivial, hp, h⟩
  stops hp hd := by
    rw [Draft.write, checkLines_eq_ok _ h] at hd
    cases hd

/-- A draft after a draft: the second may count on what the first one yields, and finds the invariant
kept. -/
theorem bind {d : Draft S H σ α} {f : α → Draft S H σ β} (hd : Clean bounded I Q d)
    (hf : ∀ a, Q a → Clean bounded I R (f a)) : Clean bounded I R (d >>= f) where
  ends hp h := by
    obtain ⟨a₁, b₁, p₁, b₂, h₁, h₂, rfl⟩ := bind_ok.mp h
    obtain ⟨ha, hp₁, hb₁⟩ := hd.ends hp h₁
    obtain ⟨hb, hq, hb₂⟩ := (hf a₁ ha).ends hp₁ h₂
    exact ⟨hb, hq, hb₁.append hb₂⟩
  stops hp h := by
    rcases bind_error h with ⟨inner, hdp, hstop⟩ | ⟨a, b, q, inner, hdp, hfq, hstop⟩
    · rw [hstop]
      exact hd.stops hp hdp
    · obtain ⟨ha, hq, -⟩ := hd.ends hp hdp
      rw [hstop]
      exact (hf a ha).stops hq hfq

/-- The head of a block is checked before the body is written. -/
theorem nest {head : H} {d : Draft S H σ α} (hhead : IsSingle (Spelled.text head))
    (hd : Clean bounded I Q d) : Clean bounded I Q (Draft.nest head d) where
  ends hp h := by
    obtain ⟨body, hbody, rfl⟩ := nest_ok h
    obtain ⟨ha, hq, hsingle⟩ := hd.ends hp hbody
    exact ⟨ha, hq, .nest hhead hsingle .done⟩
  stops hp h := by
    rw [Draft.nest, checkLines_eq_ok _ (by simpa using Block.isSingle_opening hhead)] at h
    dsimp only at h
    split at h
    · cases h
    · rename_i hdp
      cases h
      exact Stop.IsClean.deeper (hd.stops hp hdp)

/-- The second block starts in the state in which the first one ends. -/
theorem fork {head : H} {yes no : Draft S H σ Unit} (hhead : IsSingle (Spelled.text head))
    (hyes : Clean bounded I (fun _ => True) yes) (hno : Clean bounded I (fun _ => True) no) :
    Clean bounded I (fun _ => True) (Draft.fork head yes no) where
  ends hp h := by
    obtain ⟨b₁, p₁, b₂, h₁, h₂, rfl⟩ := fork_ok h
    obtain ⟨-, hp₁, hb₁⟩ := hyes.ends hp h₁
    obtain ⟨-, hq, hb₂⟩ := hno.ends hp₁ h₂
    exact ⟨trivial, hq, .fork hhead hb₁ hb₂ .done⟩
  -- A stop is one within the first block, or within the second after the first has ended.
  stops hp h := by
    rw [Draft.fork, checkLines_eq_ok _ (by simpa using Block.isSingle_opening hhead)] at h
    dsimp only at h
    split at h
    · rename_i hyp
      cases h
      exact Stop.IsClean.deeper (hyes.stops hp hyp)
    · rename_i hyp
      split at h
      · cases h
      · rename_i hnp
        cases h
        exact Stop.IsClean.deeper (hno.stops (hyes.ends hp hyp).2.1 hnp)

/-- Drafts for the members of a list, one after the other. -/
theorem forM {γ : Type} {f : γ → Draft S H σ PUnit} :
    ∀ {l : List γ}, (∀ x ∈ l, Clean bounded I (fun _ => True) (f x)) →
      Clean bounded I (fun _ => True) (l.forM f)
  | [], _ => pure trivial
  | x :: _, h => bind (h x List.mem_cons_self) fun _ _ =>
    forM fun y hy => h y (List.mem_cons_of_mem _ hy)

/-- A clean draft comes to single lines, or to an error that is no unknown package, or is not
finished. -/
theorem outcome {d : Draft S H σ α} (hd : Clean bounded I Q d) {p : σ} (hp : I p) :
    (∃ lines, d.outcome p = .lines lines ∧ ∀ line ∈ lines, IsSingle line) ∨
      (∃ cause, d.outcome p = .failed cause ∧ ∀ name reason, cause ≠ .unresolvedPackage name reason) ∨
        bounded ∧ d.outcome p = .unfinished := by
  rw [Draft.outcome]
  cases hdp : d p with
  | ok r =>
    obtain ⟨a, b, q⟩ := r
    refine .inl ⟨_, rfl, fun line hline => ?_⟩
    obtain ⟨l, hl, rfl⟩ := List.mem_map.mp hline
    exact l.isSingle_indented ((hd.ends hp hdp).2.2 l hl)
  | error halt =>
    -- A clean draft stops for a fault of the inputs or at a bound, so the outcome is read off why it
    -- stops.
    have hclean := hd.stops hp hdp
    dsimp only
    rw [Halt.outcome]
    cases hstop : halt.stop with
    | failed cause =>
      rw [hstop] at hclean
      refine .inr (.inl ⟨cause, rfl, ?_⟩)
      rintro name reason rfl
      exact hclean
    | broke fault =>
      rw [hstop] at hclean
      exact absurd hclean id
    | unfinished =>
      rw [hstop] at hclean
      exact .inr (.inr ⟨hclean, rfl⟩)

end Clean

end Draft

end RecordBridge

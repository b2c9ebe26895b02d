import Mathlib.Data.List.Basic
import Mathlib.Logic.Relation
import RecordBridge.Schema.Reach

/-!
# What a search reaches

The breadth first search of `Schema.reachable` is exact: it finds the records that can be reached by
following mentions, and no others. Its step count never runs out, because each step takes one record
off the list of those that wait, and each record adds what it mentions to that list only once.

- `mem_reachable_iff`: the search finds exactly what mentions lead to;
- `isCyclic_iff`: a record is cyclic exactly if a path of at least one mention leads back to it.
-/

namespace RecordBridge

/-- A filter that lets a member of a list pass, and all that another one lets pass, keeps more of the
list than that one if that one holds the member back. -/
theorem length_filter_lt {α : Type} {l : List α} {f g : α → Bool} {a : α} (ha : a ∈ l)
    (hg : g a = true) (hf : f a = false) (hle : ∀ b, f b = true → g b = true) :
    (l.filter f).length < (l.filter g).length := by
  have hsub := l.monotone_filter_right hle
  refine Nat.lt_of_le_of_ne hsub.length_le fun heq => ?_
  have hmem : a ∈ l.filter g := List.mem_filter.mpr ⟨ha, hg⟩
  rw [← hsub.eq_of_length heq] at hmem
  exact Bool.eq_false_iff.mp hf (List.mem_filter.mp hmem).2

namespace Schema

/-- One record mentions another one in the types of its fields. -/
def Mentions (s : Schema) (a b : Nat) : Prop :=
  b ∈ s.successors a

/-- How many mentions wait behind the records that have not been seen. -/
def pending (s : Schema) (seen : List Nat) : Nat :=
  ((s.records.filter fun r => r.1 ∉ seen).flatMap fun r => mentioned r.2).length

theorem pending_nil (s : Schema) : s.pending [] = s.occurrences := by
  have hall : (s.records.filter fun r => decide (r.1 ∉ ([] : List Nat))) = s.records :=
    List.filter_eq_self.mpr fun r _ => by simp
  rw [pending, hall, occurrences]

/-- Seeing one more record leaves no more mentions pending. -/
theorem pending_cons_le (s : Schema) (id : Nat) (seen : List Nat) :
    s.pending (id :: seen) ≤ s.pending seen := by
  obtain ⟨records⟩ := s
  induction records with
  | nil => exact Nat.le_refl _
  | cons r l ih =>
    simp only [pending] at ih ⊢
    by_cases hseen : r.1 ∈ seen
    · simpa [hseen] using ih
    · by_cases hid : r.1 = id
      · subst hid
        simp [hseen] at ih ⊢
        omega
      · simpa [hseen, hid] using ih

/-- Entering a record takes its mentions off those that are pending. Further entries for the record
behind the first one are never looked up; they only add to the right. -/
theorem pending_cons_add_le (s : Schema) {id : Nat} {seen : List Nat} (h : id ∉ seen) :
    s.pending (id :: seen) + (s.successors id).length ≤ s.pending seen := by
  obtain ⟨records⟩ := s
  induction records with
  | nil => exact Nat.le_refl _
  | cons r l ih =>
    obtain ⟨rid, fields⟩ := r
    have hmono := pending_cons_le ⟨l⟩ id seen
    simp only [pending, successors, List.length_map] at ih hmono ⊢
    by_cases hid : rid = id
    · subst hid
      simp [h] at hmono ⊢
      omega
    · have hne : (id == rid) = false := by simpa using fun heq => hid heq.symm
      by_cases hseen : rid ∈ seen
      · simpa [hseen, hid, List.lookup_cons, hne] using ih
      · simp [hseen, hid, List.lookup_cons, hne] at ih ⊢
        omega

/-- Whatever a search finds was seen before or is reached from what waits. -/
theorem reaches_of_mem_search (s : Schema) :
    ∀ {steps : Nat} {seen waiting : List Nat} {id : Nat}, id ∈ s.search steps seen waiting →
      id ∈ seen ∨ ∃ a ∈ waiting, Relation.ReflTransGen s.Mentions a id
  | 0, _, _, _, h => .inl h
  | _ + 1, _, [], _, h => .inl h
  | steps + 1, seen, a :: waiting, id, h => by
    rw [search] at h
    split at h
    · rcases reaches_of_mem_search s h with h | ⟨b, hb, hreach⟩
      · exact .inl h
      · exact .inr ⟨b, List.mem_cons_of_mem _ hb, hreach⟩
    · rcases reaches_of_mem_search s h with h | ⟨b, hb, hreach⟩
      · rcases List.mem_cons.mp h with rfl | h
        · exact .inr ⟨id, List.mem_cons_self, .refl⟩
        · exact .inl h
      · rcases List.mem_append.mp hb with hb | hb
        · exact .inr ⟨b, List.mem_cons_of_mem _ hb, hreach⟩
        · exact .inr ⟨a, List.mem_cons_self, hreach.head hb⟩

/-- A search with enough steps keeps what was seen, enters what waits, and ends with a set that
mentions do not leave. The steps are enough if they cover what waits and what is pending. -/
theorem search_closed (s : Schema) :
    ∀ (steps : Nat) (seen waiting : List Nat), waiting.length + s.pending seen ≤ steps →
      (∀ a ∈ seen, ∀ b, s.Mentions a b → b ∈ seen ∨ b ∈ waiting) →
      (∀ a ∈ seen, a ∈ s.search steps seen waiting) ∧
        (∀ a ∈ waiting, a ∈ s.search steps seen waiting) ∧
        ∀ a ∈ s.search steps seen waiting, ∀ b, s.Mentions a b →
          b ∈ s.search steps seen waiting
  | 0, seen, waiting, hsteps, hseen => by
    have hnil : waiting = [] := List.eq_nil_of_length_eq_zero (by omega)
    subst hnil
    refine ⟨fun a ha => ha, fun a ha => absurd ha List.not_mem_nil, fun a ha b hb => ?_⟩
    exact (hseen a ha b hb).resolve_right List.not_mem_nil
  | _ + 1, seen, [], _, hseen => by
    refine ⟨fun a ha => ha, fun a ha => absurd ha List.not_mem_nil, fun a ha b hb => ?_⟩
    exact (hseen a ha b hb).resolve_right List.not_mem_nil
  | steps + 1, seen, id :: waiting, hsteps, hseen => by
    rw [search]
    split
    · -- A record seen before is passed over, and one record less is waiting.
      rename_i hid
      obtain ⟨hkeep, henter, hclosed⟩ := search_closed s steps seen waiting
        (by simp at hsteps; omega) (by
          intro a ha b hb
          rcases hseen a ha b hb with h | h
          · exact .inl h
          · rcases List.mem_cons.mp h with rfl | h
            · exact .inl hid
            · exact .inr h)
      refine ⟨hkeep, fun a ha => ?_, hclosed⟩
      rcases List.mem_cons.mp ha with rfl | ha
      · exact hkeep a hid
      · exact henter a ha
    · rename_i hid
      -- A new one is seen from here on, which pays for the successors that come to wait.
      have hpending := s.pending_cons_add_le hid
      obtain ⟨hkeep, henter, hclosed⟩ := search_closed s steps (id :: seen)
        (waiting ++ s.successors id)
        (by simp at hsteps ⊢; omega) (by
          intro a ha b hb
          rcases List.mem_cons.mp ha with rfl | ha
          · exact .inr (List.mem_append_right _ hb)
          · rcases hseen a ha b hb with h | h
            · exact .inl (List.mem_cons_of_mem _ h)
            · rcases List.mem_cons.mp h with rfl | h
              · exact .inl List.mem_cons_self
              · exact .inr (List.mem_append_left _ h))
      refine ⟨fun a ha => hkeep a (List.mem_cons_of_mem _ ha), fun a ha => ?_, hclosed⟩
      rcases List.mem_cons.mp ha with rfl | ha
      · exact hkeep a List.mem_cons_self
      · exact henter a (List.mem_append_left _ ha)

/-- The reachable records are closed: they hold the start, and all that they mention. -/
theorem reachable_closed (s : Schema) (start : List Nat) :
    (∀ a ∈ start, a ∈ s.reachable start) ∧
      ∀ a ∈ s.reachable start, ∀ b, s.Mentions a b → b ∈ s.reachable start := by
  have hroom : start.length + s.pending [] ≤ start.length + s.occurrences :=
    Nat.le_of_eq (congrArg _ s.pending_nil)
  have h := s.search_closed (start.length + s.occurrences) [] start hroom
    fun a ha => absurd ha List.not_mem_nil
  exact h.2

/-- **Exactness of the search**: a record is found exactly if mentions lead to it from one of the
records at the start. -/
theorem mem_reachable_iff (s : Schema) {start : List Nat} {id : Nat} :
    id ∈ s.reachable start ↔ ∃ a ∈ start, Relation.ReflTransGen s.Mentions a id := by
  constructor
  · intro h
    exact (s.reaches_of_mem_search h).resolve_left List.not_mem_nil
  · rintro ⟨a, ha, hreach⟩
    obtain ⟨hstart, hclosed⟩ := s.reachable_closed start
    induction hreach with
    | refl => exact hstart a ha
    | tail _ hstep ih => exact hclosed _ ih _ hstep

/-- A record is cyclic exactly if at least one mention leads from it back to it. -/
theorem isCyclic_iff (s : Schema) {id : Nat} :
    s.isCyclic id = true ↔ Relation.TransGen s.Mentions id id := by
  rw [isCyclic, decide_eq_true_iff, mem_reachable_iff, Relation.TransGen.head'_iff]
  rfl

end Schema

end RecordBridge

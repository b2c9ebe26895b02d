import RecordBridge.Table
import Mathlib.Data.List.Basic

/-!
# Tables as partial functions

A table is told by the values at its keys (`eq_of_get?`). A value that is put at a key is found there, and
nothing else changes; so values at different keys can be put in any order.
-/

namespace RecordBridge.Table

variable {α : Type}

/-- A value in a sorted list is found at its key. -/
theorem lookup_eq_some_iff_mem {l : List (String × α)} (h : l.Pairwise fun a b => a.1 < b.1)
    {key : String} {value : α} : l.lookup key = some value ↔ (key, value) ∈ l := by
  induction l with
  | nil => simp
  | cons entry rest ih =>
    obtain ⟨hentry, hrest⟩ := List.pairwise_cons.mp h
    by_cases heq : key = entry.1
    · -- No later entry has the key of the first one.
      have hnot : (key, value) ∉ rest := fun hmem => String.lt_irrefl key (by
        simpa [← heq] using hentry _ hmem)
      rw [List.lookup_cons, heq, beq_self_eq_true]
      rw [heq] at hnot
      simp [hnot, Prod.ext_iff, eq_comm]
    · rw [List.lookup_cons, beq_false_of_ne heq, List.mem_cons]
      simp [ih hrest, Prod.ext_iff, heq]

/-- Whether a value is at a key of a list after it has been placed there, or was before at another. -/
theorem mem_place_iff {key : String} {value : α} {l : List (String × α)}
    (h : l.Pairwise fun a b => a.1 < b.1) {e : String × α} :
    e ∈ place key value l ↔ e = (key, value) ∨ e.1 ≠ key ∧ e ∈ l := by
  induction l with
  | nil => simp [place]
  | cons entry rest ih =>
    obtain ⟨hentry, hrest⟩ := List.pairwise_cons.mp h
    rw [place]
    split
    · rename_i hlt
      -- The key comes before all others.
      have hne : ∀ e ∈ entry :: rest, e.1 ≠ key := by
        rintro e he rfl
        rcases List.mem_cons.mp he with rfl | he
        · exact String.lt_irrefl _ hlt
        · exact String.lt_irrefl _ (String.lt_trans hlt (hentry e he))
      rw [List.mem_cons]
      exact or_congr_right ⟨fun he => ⟨hne e he, he⟩, And.right⟩
    · split
      · rename_i hgt
        have hne : entry.1 ≠ key := fun heq => String.lt_irrefl key (heq ▸ hgt)
        rw [List.mem_cons, ih hrest, List.mem_cons]
        grind
      · rename_i hlt hgt
        have hsame : key = entry.1 :=
          String.le_antisymm (String.not_lt.mp hgt) (String.not_lt.mp hlt)
        have hne : ∀ e ∈ rest, e.1 ≠ key := fun e he heq =>
          String.lt_irrefl _ (hsame ▸ heq ▸ hentry e he)
        rw [List.mem_cons, List.mem_cons]
        grind

variable {t u : Table α} {key other : String} {value : α}

theorem get?_eq_some_iff : t.get? key = some value ↔ (key, value) ∈ t.entries :=
  lookup_eq_some_iff_mem t.sorted

/-- A key is listed if there is a value at it. -/
theorem mem_keys_iff : key ∈ t.keys ↔ ∃ value, t.get? key = some value := by
  simp [keys, get?_eq_some_iff]

/-- What is put at a key is found there, and all else as before. -/
theorem get?_insert :
    (t.insert key value).get? other = if other = key then some value else t.get? other := by
  refine Option.ext fun x => ?_
  rw [get?_eq_some_iff]
  show (other, x) ∈ place key value t.entries ↔ _
  rw [mem_place_iff t.sorted, Prod.mk.injEq]
  by_cases heq : other = key
  · simp [heq, eq_comm]
  · simp [heq, get?_eq_some_iff]

/-- Tables with the same values at all keys are the same. -/
theorem eq_of_get? (h : ∀ key, t.get? key = u.get? key) : t = u := by
  have hnodup (x : Table α) : x.entries.Nodup :=
    List.Pairwise.imp (S := (· ≠ ·)) (fun {a b} hlt heq => String.lt_irrefl _ (heq ▸ hlt)) x.sorted
  have hperm : t.entries.Perm u.entries := by
    refine (List.perm_ext_iff_of_nodup (hnodup t) (hnodup u)).mpr fun e => ?_
    rw [← get?_eq_some_iff (t := t), ← get?_eq_some_iff (t := u), h]
  have hentries : t.entries = u.entries :=
    hperm.eq_of_pairwise (fun _ _ _ _ hab hba => absurd hab (String.lt_asymm hba)) t.sorted u.sorted
  cases t
  cases u
  congr

/-- Values at different keys can be put in any order. -/
theorem insert_comm (h : key ≠ other) (x y : α) :
    (t.insert key x).insert other y = (t.insert other y).insert key x := by
  refine eq_of_get? fun k => ?_
  simp only [get?_insert]
  by_cases hk : k = key
  · rw [if_pos hk, if_pos hk, if_neg (hk ▸ h)]
  · rw [if_neg hk, if_neg hk]

end RecordBridge.Table

import RecordBridge.Text.Split
import Mathlib.Data.List.Basic

/-!
# Cutting texts and joining them

Cutting at a character and joining with it are inverse to each other: the pieces of a text give the
text again (`intercalate_splitWhere`), and texts that do not hold the character are the pieces of what
they are joined to (`splitWhere_intercalate`).
-/

namespace RecordBridge

open Text

/-! ## Pieces -/

/-- What is cut from a text was in it. -/
theorem mem_of_mem_splitWhere (isSeparator : Char → Bool) {s piece : List Char} {c : Char}
    (hpiece : piece ∈ splitWhere isSeparator s) (hc : c ∈ piece) : c ∈ s := by
  induction s generalizing piece with
  | nil =>
    rw [splitWhere, List.mem_singleton] at hpiece
    exact hpiece ▸ hc
  | cons d rest ih =>
    rw [splitWhere] at hpiece
    split at hpiece
    · rcases List.mem_cons.mp hpiece with rfl | hpiece
      · cases hc
      · exact List.mem_cons_of_mem _ (ih hpiece hc)
    · split at hpiece
      · rw [List.mem_singleton] at hpiece
        exact List.mem_cons.mpr (.inl (List.mem_singleton.mp (hpiece ▸ hc)))
      · rename_i first pieces heq
        rcases List.mem_cons.mp hpiece with rfl | hpiece
        · rcases List.mem_cons.mp hc with rfl | hc
          · exact List.mem_cons_self
          · exact List.mem_cons_of_mem _ (ih (heq ▸ List.mem_cons_self) hc)
        · exact List.mem_cons_of_mem _ (ih (heq ▸ List.mem_cons_of_mem _ hpiece) hc)

/-- Pieces hold no separator. -/
theorem isSeparator_of_mem_splitWhere (isSeparator : Char → Bool) {s piece : List Char} {c : Char}
    (hpiece : piece ∈ splitWhere isSeparator s) (hc : c ∈ piece) : isSeparator c = false := by
  induction s generalizing piece with
  | nil =>
    rw [splitWhere, List.mem_singleton] at hpiece
    rw [hpiece] at hc
    cases hc
  | cons d rest ih =>
    rw [splitWhere] at hpiece
    split at hpiece
    · rcases List.mem_cons.mp hpiece with rfl | hpiece
      · cases hc
      · exact ih hpiece hc
    · -- This character is no separator, so it goes to the first of the pieces of the rest.
      rename_i hd
      split at hpiece
      · rw [List.mem_singleton] at hpiece
        rw [hpiece, List.mem_singleton] at hc
        rw [hc]
        exact Bool.eq_false_iff.mpr hd
      · rename_i first pieces heq
        rcases List.mem_cons.mp hpiece with rfl | hpiece
        · rcases List.mem_cons.mp hc with rfl | hc
          · exact Bool.eq_false_iff.mpr hd
          · exact ih (heq ▸ List.mem_cons_self) hc
        · exact ih (heq ▸ List.mem_cons_of_mem _ hpiece) hc

/-- A text without a separator is one piece. -/
theorem splitWhere_of_not_mem {isSeparator : Char → Bool} :
    ∀ {s : List Char}, (∀ c ∈ s, isSeparator c = false) → splitWhere isSeparator s = [s]
  | [], _ => rfl
  | c :: rest, h => by
    rw [splitWhere, if_neg (by simp [h c List.mem_cons_self]),
      splitWhere_of_not_mem fun d hd => h d (List.mem_cons_of_mem _ hd)]

/-- A change of characters that leaves the mark alone, and makes no other one, commutes with cutting. -/
theorem splitWhere_map {change : Char → Char} {mark : Char} (h : ∀ c, change c = mark ↔ c = mark)
    (s : List Char) :
    splitWhere (· == mark) (s.map change) = (splitWhere (· == mark) s).map (List.map change) := by
  induction s with
  | nil => rfl
  | cons c rest ih =>
    have hmark : (change c == mark) = (c == mark) := by
      rw [Bool.eq_iff_iff, beq_iff_eq, beq_iff_eq, h c]
    rw [List.map_cons, splitWhere, splitWhere, hmark, ih]
    split
    · rfl
    · cases splitWhere (· == mark) rest <;> rfl

/-- A text without a dot is one piece. -/
theorem split_of_not_mem {name : String} (h : '.' ∉ name.toList) :
    Text.split '.' name = [name] := by
  rw [Text.split, splitWhere_of_not_mem]
  · simp
  · intro c hc
    refine Bool.eq_false_iff.mpr fun hdot => h ?_
    rw [← eq_of_beq hdot]
    exact hc

/-! ## Joining -/

namespace Text

variable {mark : Char}

/-- A text is cut into one piece at least. -/
theorem splitWhere_ne_nil (isSeparator : Char → Bool) (s : List Char) :
    splitWhere isSeparator s ≠ [] := by
  cases s with
  | nil => exact List.cons_ne_nil _ _
  | cons c rest =>
    rw [splitWhere]
    split
    · exact List.cons_ne_nil _ _
    · split <;> exact List.cons_ne_nil _ _

/-- The pieces of a text, without anything between them, are the text without its separators. -/
theorem flatten_splitWhere (isSeparator : Char → Bool) (s : List Char) :
    (splitWhere isSeparator s).flatten = s.filter (!isSeparator ·) := by
  induction s with
  | nil => rfl
  | cons c rest ih =>
    obtain ⟨first, pieces, hrest⟩ := List.exists_cons_of_ne_nil (splitWhere_ne_nil isSeparator rest)
    rw [splitWhere]
    split
    · rename_i hc
      rw [List.flatten_cons, List.nil_append, ih, List.filter_cons_of_neg (by simp [hc])]
    · rename_i hc
      rw [hrest] at ih ⊢
      rw [List.flatten_cons] at ih
      rw [List.flatten_cons, List.cons_append, ih, List.filter_cons_of_pos (by simp [hc])]

/-- The pieces of a text, joined again, are the text. -/
theorem intercalate_splitWhere (s : List Char) :
    List.intercalate [mark] (splitWhere (· == mark) s) = s := by
  induction s with
  | nil => rfl
  | cons c rest ih =>
    obtain ⟨first, pieces, hrest⟩ := List.exists_cons_of_ne_nil
      (splitWhere_ne_nil (· == mark) rest)
    rw [hrest] at ih
    by_cases hc : c = mark
    · subst hc
      rw [splitWhere, if_pos (beq_self_eq_true c), hrest, List.intercalate_cons_cons, ih]
      rfl
    · rw [splitWhere, if_neg (by simpa using hc), hrest]
      cases pieces with
      | nil =>
        rw [List.intercalate_singleton] at ih ⊢
        rw [ih]
      | cons second pieces =>
        rw [List.intercalate_cons_cons] at ih ⊢
        rw [← ih]
        rfl

/-- A text without the mark stands before the first cut. -/
theorem splitWhere_append_mark {piece : List Char} (h : mark ∉ piece) (rest : List Char) :
    splitWhere (· == mark) (piece ++ mark :: rest) = piece :: splitWhere (· == mark) rest := by
  induction piece with
  | nil => rw [List.nil_append, splitWhere, if_pos (beq_self_eq_true mark)]
  | cons c piece ih =>
    have hc : ¬(c == mark) = true := fun heq => h (eq_of_beq heq ▸ List.mem_cons_self)
    rw [List.cons_append, splitWhere, if_neg hc, ih fun hmem => h (List.mem_cons_of_mem _ hmem)]

/-- Texts without the mark, joined by it, are cut into these again. -/
theorem splitWhere_intercalate :
    ∀ {pieces : List (List Char)}, pieces ≠ [] → (∀ piece ∈ pieces, mark ∉ piece) →
      splitWhere (· == mark) (List.intercalate [mark] pieces) = pieces
  | [], h, _ => absurd rfl h
  | [piece], _, h => by
    rw [List.intercalate_singleton, splitWhere_of_not_mem]
    intro c hc
    exact beq_false_of_ne fun heq => h _ List.mem_cons_self (heq ▸ hc)
  | piece :: second :: pieces, _, h => by
    rw [List.intercalate_cons_cons, List.append_assoc, List.singleton_append,
      splitWhere_append_mark (h _ List.mem_cons_self),
      splitWhere_intercalate (List.cons_ne_nil _ _) fun p hp => h p (List.mem_cons_of_mem _ hp)]

/-- A mark at the end of texts joined by it stands before one more text, the empty one. -/
theorem intercalate_append_mark {pieces : List (List Char)} (h : pieces ≠ []) :
    List.intercalate [mark] pieces ++ [mark] = List.intercalate [mark] (pieces ++ [[]]) := by
  induction pieces with
  | nil => exact absurd rfl h
  | cons piece pieces ih =>
    cases pieces with
    | nil => simp [List.intercalate_cons_cons]
    | cons second pieces =>
      have hrest := ih (List.cons_ne_nil _ _)
      rw [List.cons_append] at hrest
      rw [List.cons_append, List.cons_append, List.intercalate_cons_cons, List.append_assoc, hrest,
        List.intercalate_cons_cons]

/-- Texts with the same pieces are the same. -/
theorem eq_of_split_eq {s t : String} (h : split mark s = split mark t) : s = t := by
  have hpieces : splitWhere (· == mark) s.toList = splitWhere (· == mark) t.toList :=
    List.map_injective_iff.mpr (fun _ _ => String.ofList_injective) h
  have hjoined : List.intercalate [mark] (splitWhere (· == mark) s.toList) =
      List.intercalate [mark] (splitWhere (· == mark) t.toList) := by rw [hpieces]
  rw [intercalate_splitWhere, intercalate_splitWhere] at hjoined
  exact String.toList_injective hjoined

/-! ## Beginnings and ends -/

theorem afterStart?_eq_some {start s rest : List Char} :
    Text.afterStart? start s = some rest ↔ s = start ++ rest := by
  induction start generalizing s with
  | nil =>
    rw [afterStart?, Option.some.injEq]
    rfl
  | cons p start ih =>
    cases s with
    | nil => exact ⟨nofun, nofun⟩
    | cons c s =>
      rw [afterStart?]
      split
      · rename_i hp
        subst hp
        rw [ih, List.cons_append, List.cons.injEq]
        exact ⟨fun h => ⟨rfl, h⟩, And.right⟩
      · rename_i hp
        refine ⟨nofun, fun h => ?_⟩
        exact absurd (List.cons.inj h).1.symm hp

/-- A text ends in another one if it is joined of the rest and that one. -/
theorem dropEnd?_eq_some_iff {ending s rest : String} :
    dropEnd? ending s = some rest ↔ s = rest ++ ending := by
  rw [dropEnd?, Option.map_eq_some_iff]
  constructor
  · rintro ⟨chars, hchars, rfl⟩
    have hreverse := congrArg List.reverse (afterStart?_eq_some.mp hchars)
    rw [List.reverse_append, List.reverse_reverse, List.reverse_reverse] at hreverse
    exact String.toList_injective (by rw [hreverse, String.toList_append, String.toList_ofList])
  · rintro rfl
    refine ⟨rest.toList.reverse, afterStart?_eq_some.mpr ?_, by simp⟩
    rw [String.toList_append, List.reverse_append]

/-- The first mark has none before it. -/
theorem cutFirst_eq_some_iff {s before after : List Char} :
    cutFirst mark s = some (before, after) ↔ mark ∉ before ∧ s = before ++ mark :: after := by
  induction s generalizing before with
  | nil => simp [cutFirst]
  | cons c rest ih =>
    rw [cutFirst]
    split
    · rename_i hc
      subst hc
      -- The mark comes first: the text is cut here, with nothing before.
      cases before with
      | nil => simp
      | cons d before =>
        simp only [Option.some.injEq, Prod.mk.injEq, List.nil_eq, reduceCtorEq, false_and, false_iff]
        rintro ⟨hmark, heq⟩
        exact hmark ((List.cons.inj heq).1 ▸ List.mem_cons_self)
    · rename_i hc
      -- Another character stays on the first side of the cut of the rest.
      rw [Option.map_eq_some_iff]
      constructor
      · rintro ⟨⟨first, last⟩, hrest, heq⟩
        obtain ⟨rfl, rfl⟩ := Prod.mk.inj heq
        obtain ⟨hmark, rfl⟩ := ih.mp hrest
        exact ⟨by simpa [hmark, eq_comm] using hc, rfl⟩
      · rintro ⟨hmark, heq⟩
        cases before with
        | nil => exact absurd (List.cons.inj heq).1 hc
        | cons d before =>
          obtain ⟨rfl, htail⟩ := List.cons.inj heq
          exact ⟨(before, after), ih.mpr ⟨fun h => hmark (List.mem_cons_of_mem _ h), htail⟩, rfl⟩

theorem cutFirst_eq_none_iff {s : List Char} : cutFirst mark s = none ↔ mark ∉ s := by
  induction s with
  | nil => simp [cutFirst]
  | cons c rest ih =>
    rw [cutFirst]
    split
    · rename_i hc
      simp [hc]
    · rename_i hc
      rw [Option.map_eq_none_iff, ih, List.mem_cons, not_or]
      exact ⟨fun h => ⟨fun heq => hc heq.symm, h⟩, And.right⟩

end Text

end RecordBridge

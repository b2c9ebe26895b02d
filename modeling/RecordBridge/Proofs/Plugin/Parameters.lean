import RecordBridge.Plugin.Parameters
import RecordBridge.Proofs.SingleLine

/-!
# Parameters without line feeds

What is read from a parameter that holds no line feed holds none.
-/

namespace RecordBridge

/-! ## Pieces of texts -/

namespace Text

theorem cutFirst_subset {mark : Char} {s : List Char} {sides : List Char × List Char}
    (h : cutFirst mark s = some sides) : sides.1 ⊆ s ∧ sides.2 ⊆ s := by
  obtain ⟨-, rfl⟩ := cutFirst_eq_some_iff.mp h
  exact ⟨List.subset_append_left _ _, fun c hc => by simp [hc]⟩

/-- Trimming drops characters at both ends. -/
theorem trim_subset (s : List Char) : trim s ⊆ s := by
  intro c hc
  rw [trim, List.mem_reverse] at hc
  have hc := (List.dropWhile_sublist _).subset hc
  rw [List.mem_reverse] at hc
  exact (List.dropWhile_sublist _).subset hc

theorem isSingle_of_dropEnd? {ending s rest : String} (hs : IsSingle s)
    (h : dropEnd? ending s = some rest) : IsSingle rest := by
  obtain ⟨chars, hchars, rfl⟩ := Option.map_eq_some_iff.mp h
  refine hs.ofList fun c hc => ?_
  have hmem := Path.IsSingle.afterStart hchars (List.mem_reverse.mp hc)
  exact List.mem_reverse.mp hmem

end Text

/-! ## Reading one by one -/

section OneByOne

variable {α β ε : Type} {f : α → Except ε β}

/-- What is read one by one is read from each. -/
theorem mapM_eq_ok_iff {l : List α} {out : List β} :
    l.mapM f = .ok out ↔ List.Forall₂ (fun a b => f a = .ok b) l out := by
  induction l generalizing out with
  | nil =>
    rw [List.forall₂_nil_left_iff]
    exact ⟨fun h => by cases h; rfl, fun h => by rw [h]; rfl⟩
  | cons a l ih =>
    -- The first is read, and then the rest; the two relations are compared at the same split.
    rw [List.mapM_cons, List.forall₂_cons_left_iff]
    cases hfirst : f a with
    | error e => exact ⟨nofun, fun ⟨_, _, h, _⟩ => nomatch h⟩
    | ok first =>
      cases hrest : l.mapM f with
      | error e =>
        refine ⟨nofun, fun ⟨_, rest, _, h, _⟩ => ?_⟩
        rw [ih.mpr h] at hrest
        cases hrest
      | ok rest =>
        constructor
        · intro h
          cases h
          exact ⟨first, rest, rfl, ih.mp hrest, rfl⟩
        · rintro ⟨first', rest', h, hrest', rfl⟩
          cases h
          rw [ih.mpr hrest'] at hrest
          cases hrest
          rfl

/-- Reading one by one fails as the first one does that cannot be read. -/
theorem mapM_eq_error_iff {l : List α} {e : ε} : l.mapM f = .error e ↔
    ∃ before a after, l = before ++ a :: after ∧ (∀ x ∈ before, ∃ b, f x = .ok b) ∧
      f a = .error e := by
  induction l with
  | nil => exact ⟨nofun, fun ⟨before, _, _, h, _⟩ => by cases before <;> cases h⟩
  | cons a l ih =>
    rw [List.mapM_cons]
    cases hfirst : f a with
    | error e' =>
      constructor
      · intro h
        cases h
        exact ⟨[], a, l, rfl, nofun, hfirst⟩
      · rintro ⟨before, a', after, heq, hbefore, herror⟩
        cases before with
        | nil =>
          obtain ⟨rfl, -⟩ := List.cons.inj heq
          exact (Except.error.inj (hfirst.symm.trans herror)) ▸ rfl
        | cons x before =>
          obtain ⟨rfl, -⟩ := List.cons.inj heq
          obtain ⟨b, hb⟩ := hbefore a List.mem_cons_self
          rw [hfirst] at hb
          cases hb
    | ok first =>
      -- The first can be read, so the failure is one of the rest.
      have hstep : (Except.ok first >>= fun b => l.mapM f >>= fun bs => pure (b :: bs)) =
          .error e ↔ l.mapM f = .error e := by
        cases l.mapM f with
        | error e' => exact ⟨fun h => by cases h; rfl, fun h => by cases h; rfl⟩
        | ok rest => exact ⟨nofun, nofun⟩
      rw [hstep, ih]
      constructor
      · rintro ⟨before, a', after, rfl, hbefore, herror⟩
        refine ⟨a :: before, a', after, rfl, fun x hx => ?_, herror⟩
        rcases List.mem_cons.mp hx with rfl | hx
        · exact ⟨first, hfirst⟩
        · exact hbefore x hx
      · -- The one that fails cannot be the first.
        rintro ⟨before, a', after, heq, hbefore, herror⟩
        cases before with
        | nil =>
          obtain ⟨rfl, -⟩ := List.cons.inj heq
          rw [hfirst] at herror
          cases herror
        | cons x before =>
          obtain ⟨rfl, rfl⟩ := List.cons.inj heq
          exact ⟨before, a', after, rfl, fun y hy => hbefore y (List.mem_cons_of_mem _ hy), herror⟩

/-- What is read one by one holds of all that has been read. -/
theorem forall_of_mapM {P : β → Prop} {l : List α} {out : List β}
    (hread : ∀ a ∈ l, ∀ b, f a = .ok b → P b) (h : l.mapM f = .ok out) : ∀ b ∈ out, P b := by
  have hall := mapM_eq_ok_iff.mp h
  induction hall with
  | nil => exact nofun
  | @cons a b l out hfirst hrest ih =>
    obtain ⟨ha, hl⟩ := List.forall_mem_cons.mp hread
    exact List.forall_mem_cons.mpr ⟨ha b hfirst, ih hl (mapM_eq_ok_iff.mpr hrest)⟩

end OneByOne

/-! ## Parameters -/

/-- The paths of a mapping hold no line feed. -/
def Piece.IsSingle : Piece → Prop
  | .map path m => RecordBridge.IsSingle path ∧ RecordBridge.IsSingle m.source
  | _ => True

namespace Piece

variable {s : String}

theorem sides_isSingle (hs : RecordBridge.IsSingle s) {key value : String}
    (h : sides? s = some (key, value)) :
    RecordBridge.IsSingle key ∧ RecordBridge.IsSingle value := by
  obtain ⟨sides, hsides, heq⟩ := Option.map_eq_some_iff.mp h
  obtain ⟨hbefore, hafter⟩ := Text.cutFirst_subset hsides
  obtain ⟨rfl, rfl⟩ := Prod.mk.inj heq
  exact ⟨hs.ofList hbefore, hs.ofList hafter⟩

/-- A mapping names a source path, without the mark that overrides. -/
theorem mapping_isSingle (hs : RecordBridge.IsSingle s) :
    RecordBridge.IsSingle (mapping s).source := by
  rw [mapping]
  split
  · rename_i rest hrest
    exact Text.isSingle_of_dropEnd? hs hrest
  · exact hs

/-- What is read from a piece are parts of it. -/
theorem isSingle_of_read (hs : RecordBridge.IsSingle s) {piece : Piece}
    (h : read s = .ok piece) : piece.IsSingle := by
  unfold read at h
  split at h
  · cases h
  · split at h
    · cases h
      trivial
    · cases h
  · cases h
    trivial
  · cases h
    trivial
  · cases h
    trivial
  · -- Only a map has a value with two sides of its own; the other values are taken as they are.
    rename_i value hvalue
    split at h
    · rename_i path name hsides
      cases h
      obtain ⟨hpath, hname⟩ := sides_isSingle (sides_isSingle hs hvalue).2 hsides
      exact ⟨hpath, mapping_isSingle hname⟩
    · cases h
  · cases h
    trivial
  · cases h

end Piece

namespace Parameters

/-- The paths and headers of the mappings hold no line feed. -/
def IsSingle (p : Parameters) : Prop :=
  ∀ e ∈ p.mappings.entries, RecordBridge.IsSingle e.1 ∧ RecordBridge.IsSingle e.2.source

theorem IsSingle.set {p : Parameters} (hp : p.IsSingle) {piece : Piece} (h : piece.IsSingle) :
    (p.set piece).IsSingle := by
  cases piece with
  | map path m =>
    intro e he
    rcases Table.fst_of_mem_place he with rfl | he
    · exact h
    · exact hp e he
  | _ => exact hp

/-- Pieces set parameters one after the other. -/
theorem IsSingle.foldl_set {p : Parameters} (hp : p.IsSingle) {ps : List Piece}
    (h : ∀ piece ∈ ps, piece.IsSingle) : (ps.foldl Parameters.set p).IsSingle := by
  induction ps generalizing p with
  | nil => exact hp
  | cons piece ps ih =>
    obtain ⟨hpiece, hps⟩ := List.forall_mem_cons.mp h
    exact ih (hp.set hpiece) hps

/-- Pieces are cut out of the parameter and trimmed. -/
theorem isSingle_of_mem_pieces {s piece : String} (hs : RecordBridge.IsSingle s)
    (h : piece ∈ pieces s) : RecordBridge.IsSingle piece := by
  obtain ⟨chars, hchars, hpiece⟩ := List.mem_filterMap.mp h
  obtain ⟨cut, hcut, rfl⟩ := List.mem_map.mp hchars
  split at hpiece
  · cases hpiece
  · cases hpiece
    exact hs.ofList fun c hc => mem_of_mem_splitWhere _ hcut (Text.trim_subset _ hc)

/-- The mappings of a parameter without line feeds have none. -/
theorem isSingle_of_read {s : String} (hs : RecordBridge.IsSingle s) {p : Parameters}
    (h : read s = .ok p) : p.IsSingle := by
  rw [read] at h
  cases hpieces : (pieces s).mapM Piece.read with
  | error e =>
    rw [hpieces] at h
    cases h
  | ok ps =>
    rw [hpieces] at h
    cases h
    have hall : ∀ piece ∈ ps, piece.IsSingle :=
      forall_of_mapM (fun a ha b hb => Piece.isSingle_of_read (isSingle_of_mem_pieces hs ha) hb)
        hpieces
    exact IsSingle.foldl_set (fun _ he => absurd he List.not_mem_nil) hall

end Parameters

end RecordBridge

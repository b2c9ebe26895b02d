import RecordBridge.Conversion.Guard
import RecordBridge.Proofs.Deferred
import RecordBridge.Proofs.Variables

/-!
# Variables told by their spelling

Generated names end in their number, so names with different numbers are spelled differently. The
variables in the indices of a path can be read off its spelling, if no name in it holds a bracket
that could be taken for an index. So the guards before a write, chosen by spelling, mention
no variables but those in the path of the write.
-/

namespace RecordBridge

/-! ## Numbered names -/

/-- A name with a number ends in it, after something that is no digit. -/
theorem Var.exists_text_eq {v : Var} (h : 0 < v.number) : ∃ start c,
    v.text.toList = start ++ c :: (toString v.number).toList ∧ c.isDigit = false := by
  cases v with
  | input | wholeInput | output | wholeOutput | requestBody => exact absurd h (Nat.lt_irrefl 0)
  | index n => exact ⟨"inde".toList, 'x', by simp [text, number], rfl⟩
  | key n => exact ⟨"ke".toList, 'y', by simp [text, number], rfl⟩
  | value n => exact ⟨"valu".toList, 'e', by simp [text, number], rfl⟩
  | sourceList n => exact ⟨"sourceLis".toList, 't', by simp [text, number], rfl⟩
  | overridden n => exact ⟨"isOverridde".toList, 'n', by simp [text, number], rfl⟩
  | helper record n =>
    exact ⟨"convert".toList ++ record.toList ++ "Helpe".toList, 'r', by simp [text, number], rfl⟩

/-- The index or the key of a loop. -/
inductive Var.IsPosition : Var → Prop where
  | index (n : Nat) : IsPosition (.index n)
  | key (n : Nat) : IsPosition (.key n)

/-- A step by whose spelling a reader can tell where it ends and which variable it holds. -/
def Step.Plain : Step → Prop
  | .field name => IsPlainName name
  | .index v => v.IsPosition
  | .keyAs type v => ']' ∉ type.text.toList ∧ v.IsPosition

/-- A path of such steps. -/
def Path.Plain (path : Path) : Prop :=
  ∀ s ∈ path, s.Plain

namespace Var.IsPosition

variable {v w : Var}

/-- The name of a position holds letters and digits only. -/
theorem isAlphanum_of_mem_text (h : v.IsPosition) : ∀ c ∈ v.text.toList, c.isAlphanum = true := by
  have hword : ∀ c ∈ "index".toList ++ "key".toList, c.isAlphanum = true :=
    List.all_eq_true.mp (by decide)
  intro c hc
  cases h with
  | index n =>
    rw [Var.text, String.toList_append] at hc
    rcases List.mem_append.mp hc with hc | hc
    · exact hword c (List.mem_append_left _ hc)
    · simp [Char.isAlphanum, isDigit_of_mem_toString c hc]
  | key n =>
    rw [Var.text, String.toList_append] at hc
    rcases List.mem_append.mp hc with hc | hc
    · exact hword c (List.mem_append_right _ hc)
    · simp [Char.isAlphanum, isDigit_of_mem_toString c hc]

theorem not_mem_text (h : v.IsPosition) {c : Char} (hc : c.isAlphanum = false) :
    c ∉ v.text.toList := by
  intro hmem
  rw [h.isAlphanum_of_mem_text c hmem] at hc
  cases hc

theorem eq_of_text (hv : v.IsPosition) (hw : w.IsPosition) (h : v.text.toList = w.text.toList) :
    v = w := by
  have hnumber : ∀ {n m : Nat}, (toString n).toList = (toString m).toList → n = m := by
    intro n m heq
    exact eq_of_digits (x := []) (y := []) nofun nofun (by rw [heq])
  cases hv with
  | index n =>
    -- The two kinds of variable are told apart by their first letter, and then their digits count.
    cases hw with
    | index m =>
      simp only [Var.text, String.toList_append] at h
      rw [hnumber (List.append_cancel_left h)]
    | key m =>
      simp only [Var.text, String.toList_append] at h
      exact absurd (congrArg List.head? h) (by simp)
  | key n =>
    cases hw with
    | index m =>
      simp only [Var.text, String.toList_append] at h
      exact absurd (congrArg List.head? h) (by simp)
    | key m =>
      simp only [Var.text, String.toList_append] at h
      rw [hnumber (List.append_cancel_left h)]

end Var.IsPosition

section Reading

variable {s t : Step} {x y : List Char}

/-- What stands between the brackets of an index. -/
def Step.inside : Step → List Char
  | .field _ => []
  | .index v => v.text.toList
  | .keyAs type v => type.text.toList ++ '(' :: (v.text.toList ++ [')'])

theorem Step.toList_text_of_var {v : Var} (h : s.var? = some v) :
    s.text.toList = '[' :: (s.inside ++ [']']) := by
  cases s with
  | field name => cases h
  | index w => simp [text, inside]
  | keyAs type w => simp [text, inside]

theorem Step.Plain.not_mem_inside (h : s.Plain) : ']' ∉ s.inside := by
  cases s with
  | field name => exact List.not_mem_nil
  | index v => exact Var.IsPosition.not_mem_text h rfl
  | keyAs type v =>
    intro hmem
    simp only [inside, List.mem_append, List.mem_cons, List.not_mem_nil, or_false] at hmem
    rcases hmem with hmem | hmem | hmem | hmem
    · exact h.1 hmem
    · cases hmem
    · exact h.2.not_mem_text rfl hmem
    · cases hmem

/-- What stands between brackets tells the variable. -/
theorem Step.Plain.var_eq_of_inside {v w : Var} (hs : s.Plain) (ht : t.Plain)
    (hv : s.var? = some v) (hw : t.var? = some w) (h : s.inside = t.inside) : v = w := by
  cases s with
  | field name => cases hv
  | index v' =>
    cases hv
    cases t with
    | field name => cases hw
    | index w' =>
      cases hw
      exact Var.IsPosition.eq_of_text hs ht h
    | keyAs type w' =>
      -- The name of a position holds no bracket.
      have hmem : '(' ∈ v.text.toList := by
        show '(' ∈ Step.inside (.index v)
        rw [h]
        exact List.mem_append_right _ List.mem_cons_self
      exact absurd hmem (Var.IsPosition.not_mem_text hs rfl)
  | keyAs type v' =>
    cases hv
    cases t with
    | field name => cases hw
    | index w' =>
      cases hw
      have hmem : '(' ∈ w.text.toList := by
        show '(' ∈ Step.inside (.index w)
        rw [← h]
        exact List.mem_append_right _ List.mem_cons_self
      exact absurd hmem (Var.IsPosition.not_mem_text ht rfl)
    | keyAs type' w' =>
      cases hw
      -- Read from the end, the name comes first, up to the bracket that opens.
      have hreverse : v.text.toList.reverse ++ '(' :: type.text.toList.reverse =
          w.text.toList.reverse ++ '(' :: type'.text.toList.reverse := by
        have := congrArg List.reverse h
        simpa [inside] using this
      have hword : ∀ {u : Var}, u.IsPosition →
          ∀ c ∈ u.text.toList.reverse, c.isAlphanum = true :=
        fun hu c hc => hu.isAlphanum_of_mem_text c (List.mem_reverse.mp hc)
      have hends : ∀ l : List Char, EndsAt Char.isAlphanum ('(' :: l) := by
        intro l c rest heq
        cases heq
        rfl
      have heq := eq_of_append_eq (hword hs.2) (hword ht.2) (hends _) (hends _) hreverse
      exact hs.2.eq_of_text ht.2 (List.reverse_injective heq)

/-- Plain steps of one spelling end at the same place and hold the same variable. -/
theorem Step.Plain.eq_of_text (hs : s.Plain) (ht : t.Plain) (hx : EndsAt isInStep x)
    (hy : EndsAt isInStep y) (h : s.text.toList ++ x = t.text.toList ++ y) :
    s.var? = t.var? ∧ x = y := by
  cases hv : s.var? with
  | none =>
    cases s with
    | index v | keyAs _ v => cases hv
    | field a =>
      cases hw : t.var? with
      | none =>
        cases t with
        | index w | keyAs _ w => cases hw
        | field b =>
          simp only [text, String.toList_append, List.append_assoc] at h
          have h := List.append_cancel_left h
          have heq := eq_of_append_eq (IsPlainName.isInStep hs) (IsPlainName.isInStep ht) hx hy h
          rw [heq] at h
          exact ⟨rfl, List.append_cancel_left h⟩
      | some w =>
        -- A name starts with a dot, and an element with a bracket.
        rw [t.toList_text_of_var hw] at h
        exact absurd (congrArg List.head? h) (by simp [text])
  | some v =>
    cases hw : t.var? with
    | none =>
      cases t with
      | index w | keyAs _ w => cases hw
      | field b =>
        rw [s.toList_text_of_var hv] at h
        exact absurd (congrArg List.head? h) (by simp [text])
    | some w =>
      rw [s.toList_text_of_var hv, t.toList_text_of_var hw] at h
      simp only [List.cons_append, List.append_assoc, List.cons.injEq, true_and,
        List.nil_append] at h
      -- Both are elements: what stands between the brackets ends at the first one that closes.
      have hclass : ∀ {u : Step}, u.Plain → ∀ c ∈ u.inside, (c != ']') = true := by
        intro u hu c hc
        have hne : c ≠ ']' := fun heq => hu.not_mem_inside (heq ▸ hc)
        simpa using hne
      have hends : ∀ l : List Char, EndsAt (· != ']') (']' :: l) := by
        intro l c rest heq
        cases heq
        rfl
      have heq := eq_of_append_eq (hclass hs) (hclass ht) (hends x) (hends y) h
      rw [heq] at h
      exact ⟨congrArg some (hs.var_eq_of_inside ht hv hw heq),
        (List.cons.inj (List.append_cancel_left h)).2⟩

end Reading

namespace Path

variable {p q : Path}

theorem Plain.append (hp : p.Plain) (hq : q.Plain) : Path.Plain (p ++ q) := by
  intro s hs
  rcases List.mem_append.mp hs with hs | hs
  · exact hp s hs
  · exact hq s hs

@[simp] theorem vars_append : Path.vars (p ++ q) = p.vars ++ q.vars :=
  List.filterMap_append

/-- A path whose spelling goes on from that of another one mentions the variables of that one. -/
theorem Plain.vars_subset_of_text (hp : p.Plain) (hq : q.Plain) {more : List Char}
    (hmore : EndsAt isInStep more) (htext : q.text.toList = p.text.toList ++ more) :
    p.vars ⊆ q.vars := by
  induction p generalizing q with
  | nil => exact List.nil_subset _
  | cons s p ih =>
    cases q with
    | nil =>
      obtain ⟨c, rest, hs, -⟩ := s.exists_text_eq
      rw [toList_text_cons, hs] at htext
      cases htext
    | cons t q =>
      rw [toList_text_cons, toList_text_cons, List.append_assoc] at htext
      -- After the first steps both texts go on where a step may start, so these steps are spelled alike.
      have hends : EndsAt isInStep ((Path.text p).toList ++ more) := by
        cases p with
        | nil => exact hmore
        | cons u p =>
          rw [toList_text_cons, List.append_assoc]
          exact u.endsAt_text _
      obtain ⟨hvar, hrest⟩ := (hq t List.mem_cons_self).eq_of_text (hp s List.mem_cons_self)
        (endsAt_text q) hends htext
      have hsub := ih (fun u hu => hp u (List.mem_cons_of_mem _ hu))
        (fun u hu => hq u (List.mem_cons_of_mem _ hu)) hrest
      rw [vars, vars, List.filterMap_cons, List.filterMap_cons, hvar]
      cases s.var? with
      | none => exact hsub
      | some v => exact List.cons_subset_cons v hsub

/-- Selecting a field whose name holds no bracket. -/
theorem Plain.select (hp : p.Plain) {name : String} (hname : '[' ∉ name.toList) :
    Path.Plain (p.select name) := by
  refine hp.append fun s hs => ?_
  obtain ⟨piece, hpiece, rfl⟩ := List.mem_map.mp hs
  obtain ⟨chars, hchars, rfl⟩ := List.mem_map.mp hpiece
  constructor
  · intro hdot
    rw [String.toList_ofList] at hdot
    have := isSeparator_of_mem_splitWhere _ hchars hdot
    exact absurd this (by decide)
  · intro hopen
    rw [String.toList_ofList] at hopen
    exact hname (mem_of_mem_splitWhere _ hchars hopen)

/-- Selecting a field mentions no variable. -/
@[simp] theorem vars_select (name : String) : Path.vars (p.select name) = p.vars := by
  have hfields : ∀ names : List String, Path.vars (names.map .field) = [] := by
    intro names
    induction names with
    | nil => rfl
    | cons name names ih => exact ih
  rw [Path.select, vars_append, hfields, List.append_nil]

/-- What is left of a path mentions none but its variables. -/
theorem vars_subset_of_beneath {start : List Char} {inside : Path}
    (h : p.beneath? start = some inside) : inside.vars ⊆ p.vars := by
  induction p generalizing start with
  | nil => cases start <;> cases h
  | cons s p ih =>
    have htail : Path.vars p ⊆ Path.vars (s :: p) := by
      show Path.vars p ⊆ Path.vars ([s] ++ p)
      rw [vars_append]
      exact List.subset_append_right _ _
    cases start with
    | nil =>
      rw [beneath?] at h
      split at h <;> cases h
      exact List.Subset.refl _
    | cons c start =>
      rw [beneath?] at h
      split at h
      · exact List.Subset.trans (ih h) htail
      · split at h <;> cases h
        exact htail

end Path

/-! ## Guards -/

/-- The place of a record within local functions is beneath `out`, or elsewhere in the whole target if
there are such functions. -/
theorem vars_seenFrom_subset {scope path : Path} {Γ : List Var} (hpath : path.vars ⊆ Γ)
    (hout : .output ∈ Γ) (hwhole : scope ≠ [] → .wholeOutput ∈ Γ) :
    (seenFrom scope path).vars ⊆ Γ := by
  rw [seenFrom]
  split
  · exact List.cons_subset.mpr ⟨hout, hpath⟩
  · rename_i hscope
    split
    · rename_i inside hinside
      have hvars := List.Subset.trans (Path.vars_subset_of_beneath hinside) hpath
      exact List.cons_subset.mpr ⟨hout, hvars⟩
    · exact List.cons_subset.mpr ⟨hwhole (by simpa using hscope), hpath⟩

namespace Deferred

variable {d : Deferred} {scope target : Path} {Γ : List Var}

/-- Guards declare nothing. -/
@[simp] theorem declared_guards : Code.declared (d.guards scope target) = [] := by
  rw [guards]
  induction d.waiting ['.', '['] (scope ++ target) with
  | nil => rfl
  | cons e l ih => exact ih

/-- Guards mention the variables in the paths of the records that they are for. -/
theorem scoped_guards (hout : .output ∈ Γ) (hwhole : scope ≠ [] → d.entries ≠ [] → .wholeOutput ∈ Γ)
    (hvars : ∀ e ∈ d.waiting ['.', '['] (scope ++ target), e.1.vars ⊆ Γ) :
    Code.Scoped Γ (d.guards scope target) := by
  have hplaces : ∀ e ∈ d.waiting ['.', '['] (scope ++ target), (seenFrom scope e.1).vars ⊆ Γ := by
    intro e he
    refine vars_seenFrom_subset (hvars e he) hout fun hscope => hwhole hscope ?_
    obtain ⟨entry, hentry, -⟩ := List.mem_map.mp he
    exact List.ne_nil_of_mem (List.mem_of_mem_filter hentry)
  rw [guards]
  generalize d.waiting ['.', '['] (scope ++ target) = l at hplaces ⊢
  induction l with
  | nil => trivial
  | cons e l ih =>
    have hplace := hplaces e List.mem_cons_self
    refine ⟨hplace, ⟨?_, trivial⟩, ih fun e' he' => hplaces e' (List.mem_cons_of_mem _ he')⟩
    simpa [Statement.vars, Expr.vars, Head.bound] using hplace

/-- A record that a write waits for lies above it, so that the path of the write mentions all that its
path does, if the variables of both are told by their spelling. -/
theorem vars_waiting_subset (hd : d.Within Path.Plain) (hplain : Path.Plain (scope ++ target))
    {e : Path × GoType} (he : e ∈ d.waiting ['.', '['] (scope ++ target)) :
    e.1.vars ⊆ Path.vars (scope ++ target) := by
  obtain ⟨entry, hentry, rfl⟩ := List.mem_map.mp he
  obtain ⟨hmem, hgoes⟩ := List.mem_filter.mp hentry
  obtain ⟨c, rest, htext, hc⟩ := Text.goesOnWith_iff.mp hgoes
  have hends : EndsAt isInStep (c :: rest) := by
    intro c' rest' heq
    cases heq
    exact hc
  rw [hd.key entry hmem] at htext
  exact (hd.family entry hmem).vars_subset_of_text hplain hends htext

/-- The same if all deferred records have paths that mention such variables only. -/
theorem vars_waiting_of_family (hd : d.Within (·.vars ⊆ Γ)) {e : Path × GoType}
    (he : e ∈ d.waiting ['.', '['] (scope ++ target)) : e.1.vars ⊆ Γ := by
  obtain ⟨entry, hentry, rfl⟩ := List.mem_map.mp he
  exact hd.family entry (List.mem_of_mem_filter hentry)

end Deferred

end RecordBridge

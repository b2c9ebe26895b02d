import Mathlib.Data.List.Induction
import RecordBridge.Proofs.Place

/-!
# Paths told apart by their spelling

The records that wait for a write beneath them are found by their spelling. In a family of paths that
branch only where the next steps are akin, such as those to the fields of a record or to the elements
of a container, a path that is spelled by the beginning of another one leads to it.
-/

namespace RecordBridge

/-- A name within which no selector and no index seems to begin. -/
def IsPlainName (name : String) : Prop :=
  '.' ∉ name.toList ∧ '[' ∉ name.toList

instance (name : String) : Decidable (IsPlainName name) :=
  inferInstanceAs (Decidable (_ ∧ _))

/-- Steps that can follow the same path: to fields, or to elements with other indices. -/
inductive Step.Akin : Step → Step → Prop where
  | field {a b : String} (ha : IsPlainName a) (hb : IsPlainName b) : Akin (.field a) (.field b)
  | index {n m : Nat} : Akin (.index (.index n)) (.index (.index m))
  | key {n m : Nat} : Akin (.index (.key n)) (.index (.key m))
  | keyAs {type : GoType} {n m : Nat} : Akin (.keyAs type (.key n)) (.keyAs type (.key m))

/-- A text that is over, or goes on where `P` no longer holds. -/
def EndsAt (P : Char → Bool) (s : List Char) : Prop :=
  ∀ c rest, s = c :: rest → P c = false

theorem EndsAt.append {P : Char → Bool} {s t : List Char} (hs : EndsAt P s) (ht : EndsAt P t) :
    EndsAt P (s ++ t) := by
  cases s with
  | nil => exact ht
  | cons c s =>
    intro c' rest h
    cases h
    exact hs c s rfl

theorem EndsAt.of_append {P : Char → Bool} {s t : List Char} (h : EndsAt P (s ++ t)) :
    EndsAt P s := by
  cases s with
  | nil => exact nofun
  | cons c s =>
    intro c' rest heq
    cases heq
    exact h c (s ++ t) rfl

/-- What comes before the end of a class of characters is told by the whole text. -/
theorem eq_of_append_eq {P : Char → Bool} {a b x y : List Char} (ha : ∀ c ∈ a, P c = true)
    (hb : ∀ c ∈ b, P c = true) (hx : EndsAt P x) (hy : EndsAt P y) (h : a ++ x = b ++ y) :
    a = b := by
  induction a generalizing b with
  | nil =>
    cases b with
    | nil => rfl
    | cons c b =>
      have hc := hx c _ h
      rw [hb c List.mem_cons_self] at hc
      cases hc
  | cons c a ih =>
    cases b with
    | nil =>
      have hc := hy c _ h.symm
      rw [ha c List.mem_cons_self] at hc
      cases hc
    | cons d b =>
      obtain ⟨rfl, htail⟩ := List.cons.inj h
      rw [ih (fun c hc => ha c (List.mem_cons_of_mem _ hc))
        (fun c hc => hb c (List.mem_cons_of_mem _ hc)) htail]

/-- Whether a character begins no step. -/
def isInStep (c : Char) : Bool :=
  c != '.' && c != '['

theorem IsPlainName.isInStep {name : String} (h : IsPlainName name) :
    ∀ c ∈ name.toList, isInStep c = true := by
  intro c hc
  have hdot : c ≠ '.' := fun heq => h.1 (heq ▸ hc)
  have hopen : c ≠ '[' := fun heq => h.2 (heq ▸ hc)
  simp [RecordBridge.isInStep, hdot, hopen]

/-- Numbers are spelled in digits. -/
theorem isDigit_of_mem_toString {n : Nat} : ∀ c ∈ (toString n).toList, c.isDigit = true := by
  intro c hc
  rw [show (toString n).toList = Nat.toDigits 10 n from Nat.toList_repr] at hc
  exact Nat.isDigit_of_mem_toDigits (by decide) (by decide) hc

/-- Numbers are told by their digits, up to something else. -/
theorem eq_of_digits {n m : Nat} {x y : List Char} (hx : EndsAt Char.isDigit x)
    (hy : EndsAt Char.isDigit y)
    (h : (toString n).toList ++ x = (toString m).toList ++ y) : n = m := by
  have heq := eq_of_append_eq isDigit_of_mem_toString isDigit_of_mem_toString hx hy h
  rw [show (toString n).toList = Nat.toDigits 10 n from Nat.toList_repr,
    show (toString m).toList = Nat.toDigits 10 m from Nat.toList_repr] at heq
  rw [← Nat.ofDigitChars_toDigits (n := n) (by decide : 1 < 10) (by decide), heq,
    Nat.ofDigitChars_toDigits (by decide) (by decide)]

/-- The spelling of a step begins with a dot or a bracket. -/
theorem Step.exists_text_eq (s : Step) : ∃ c rest, s.text.toList = c :: rest ∧ isInStep c = false := by
  cases s <;>
  · simp only [text, String.toList_append, List.append_assoc]
    exact ⟨_, _, rfl, rfl⟩

theorem Step.endsAt_text (s : Step) (more : List Char) : EndsAt isInStep (s.text.toList ++ more) := by
  obtain ⟨c, rest, htext, hc⟩ := s.exists_text_eq
  intro c' rest' h
  rw [htext] at h
  cases h
  exact hc

/-- The spelling of a path is over or begins with a dot or a bracket. -/
theorem Path.endsAt_text (p : Path) : EndsAt isInStep p.text.toList := by
  cases p with
  | nil => exact nofun
  | cons s p =>
    rw [toList_text_cons]
    exact s.endsAt_text _

/-- The spelling of a longer path goes on from that of the path. -/
theorem Path.bare_append {path more : Path} (hpath : path ≠ []) :
    (Path.bare (path ++ more)).toList = path.bare.toList ++ (Path.text more).toList := by
  obtain ⟨s, path, rfl⟩ := List.exists_cons_of_ne_nil hpath
  obtain ⟨c, rest, htext, -⟩ := s.exists_text_eq
  rw [bare, bare, String.toList_ofList, String.toList_ofList, text_append, String.toList_append,
    toList_text_cons, htext]
  rfl

/-- Akin steps are told apart by their spelling, whatever follows. -/
theorem Step.Akin.eq {s t : Step} (hst : s.Akin t) {x y : List Char} (hx : EndsAt isInStep x)
    (hy : EndsAt isInStep y) (h : s.text.toList ++ x = t.text.toList ++ y) : s = t := by
  have hclose : ∀ (l : List Char), EndsAt Char.isDigit (']' :: l) := by
    intro l c rest hc
    cases hc
    rfl
  have hparen : ∀ (l : List Char), EndsAt Char.isDigit (')' :: l) := by
    intro l c rest hc
    cases hc
    rfl
  -- Akin steps start alike. Names go on to the end of the step, and numbers to the bracket that follows.
  cases hst with
  | @field a b ha hb =>
    simp only [text, String.toList_append, List.append_assoc] at h
    have h := List.append_cancel_left h
    have heq := eq_of_append_eq ha.isInStep hb.isInStep hx hy h
    rw [String.toList_injective heq]
  | index | key =>
    simp only [text, Var.text, String.toList_append, List.append_assoc] at h
    have h := List.append_cancel_left (List.append_cancel_left h)
    rw [eq_of_digits (hclose _) (hclose _) h]
  | keyAs =>
    simp only [text, Var.text, String.toList_append, List.append_assoc] at h
    have h := List.append_cancel_left (List.append_cancel_left (List.append_cancel_left
      (List.append_cancel_left h)))
    rw [eq_of_digits (hparen _) (hparen _) h]

/-- Paths that branch only where the next steps are akin. -/
structure Path.Family (F : Path → Prop) : Prop where
  shorter : ∀ p s, F (p ++ [s]) → F p
  akin : ∀ p s t, F (p ++ [s]) → F (p ++ [t]) → s.Akin t

namespace Path.Family

variable {F : Path → Prop} {p q : Path}

theorem of_append (hF : Path.Family F) {more : Path} (h : F (p ++ more)) : F p := by
  induction more using List.reverseRecOn with
  | nil => rwa [List.append_nil] at h
  | append_singleton more s ih =>
    rw [← List.append_assoc] at h
    exact ih (hF.shorter _ _ h)

theorem of_isPrefix (hF : Path.Family F) (hq : F q) (h : p <+: q) : F p := by
  obtain ⟨more, rfl⟩ := h
  exact hF.of_append hq

/-- If the spelling of one path goes on from that of another one, so does the path. -/
theorem prefix_of_text (hF : Path.Family F) (hp : F p) (hq : F q) {more : List Char}
    (hmore : EndsAt isInStep more) (htext : q.text.toList = p.text.toList ++ more) : p <+: q := by
  induction p using List.reverseRecOn generalizing more with
  | nil => exact List.nil_prefix
  | append_singleton p s ih =>
    have hlonger : q.text.toList = (Path.text p).toList ++ (s.text.toList ++ more) := by
      rw [htext, Path.text_append, Path.text_singleton, String.toList_append, List.append_assoc]
    obtain ⟨rest, rfl⟩ := ih (hF.shorter _ _ hp) (s.endsAt_text more) hlonger
    rw [Path.text_append, String.toList_append] at hlonger
    have hrest := List.append_cancel_left hlonger
    cases rest with
    | nil =>
      obtain ⟨c, _, htext', -⟩ := s.exists_text_eq
      rw [htext'] at hrest
      cases hrest
    | cons t rest =>
      have hbranch : F (p ++ [t]) := hF.of_append (by rwa [List.append_assoc])
      rw [Path.toList_text_cons] at hrest
      have heq := (hF.akin p s t hp hbranch).eq hmore (Path.endsAt_text rest) hrest.symm
      rw [heq]
      exact ⟨rest, by rw [List.append_assoc]; rfl⟩

end Path.Family

end RecordBridge

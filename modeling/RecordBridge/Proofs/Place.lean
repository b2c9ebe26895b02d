import RecordBridge.Place
import RecordBridge.Proofs.Cutting

/-!
# The spelling of paths

Paths are spelled step by step, so the spelling of a longer path goes on from that of the path that
it extends.
-/

namespace RecordBridge

namespace Path

@[simp] theorem text_nil : Path.text [] = "" :=
  rfl

/-- The spelling of one path after the other. -/
theorem text_append (p q : Path) : Path.text (p ++ q) = p.text ++ q.text := by
  simp [text, String.join_append]

theorem text_singleton (s : Step) : Path.text [s] = s.text := by
  simp [text]

theorem text_cons (s : Step) (p : Path) : Path.text (s :: p) = s.text ++ p.text := by
  rw [show s :: p = [s] ++ p from rfl, text_append, text_singleton]

/-- The characters of a path, those of the first step apart. -/
theorem toList_text_cons (s : Step) (p : Path) :
    (Path.text (s :: p)).toList = s.text.toList ++ p.text.toList := by
  rw [text_cons, String.toList_append]

theorem length_text_append (p q : Path) :
    (Path.text (p ++ q)).length = p.text.length + q.text.length := by
  rw [text_append, String.length_append]

/-- No step is spelled by nothing. -/
theorem length_step_text_pos (s : Step) : 0 < s.text.length := by
  have hdot : ".".length = 1 := rfl
  have hopen : "[".length = 1 := rfl
  cases s <;> simp only [Step.text, String.length_append] <;> omega

/-- A path without the dot that it starts with is one character shorter. -/
theorem length_bare (p : Path) : p.bare.length = p.text.length - 1 := by
  simp [bare, String.length_ofList, String.length_toList]

/-- Selecting a field adds at least one step. -/
theorem exists_select_eq_append (p : Path) (name : String) :
    ∃ step rest, p.select name = p ++ step :: rest := by
  have hne : Text.split '.' name ≠ [] := by
    simpa [Text.split] using Text.splitWhere_ne_nil _ _
  obtain ⟨piece, pieces, h⟩ := List.exists_cons_of_ne_nil hne
  exact ⟨.field piece, pieces.map .field, by rw [select, h, List.map_cons]⟩

/-- Selecting a name makes the spelling of a path longer, if only by the dot. -/
theorem length_text_lt_select (p : Path) (name : String) :
    p.text.length < (p.select name).text.length := by
  obtain ⟨step, rest, h⟩ := p.exists_select_eq_append name
  rw [h, length_text_append, text_cons, String.length_append]
  have := length_step_text_pos step
  omega

end Path

end RecordBridge

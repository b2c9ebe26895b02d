import RecordBridge.Buffer
import RecordBridge.Proofs.Draft

/-!
# Buffers and drafts

A buffer takes lines up to the first one that holds a line feed, and refuses that one
(`Buffer.extend_eq`). A draft checks the lines that it writes in the same way (`checkLines_eq`). So a draft
that writes a block comes to what an empty buffer holds when it is given the lines of the block, and where
the buffer refuses a line the draft breaks off with the same words (`Draft.outcome_write`).
-/

namespace RecordBridge

namespace Buffer

/-- A buffer takes the lines up to the first one that holds a line feed, and refuses that one. -/
theorem extend_eq (b : Buffer) (lines : List String) :
    b.extend lines = (⟨b.lines ++ lines.takeWhile fun line => (Line.mk 0 line).isSingle⟩,
      (lines.dropWhile fun line => (Line.mk 0 line).isSingle).head?.map fun line =>
        .brokenLine ⟨0, line⟩) := by
  induction lines generalizing b with
  | nil => simp [extend]
  | cons line rest ih =>
    rw [extend, push]
    by_cases h : (Line.mk 0 line).isSingle = true
    · simp only [h, if_true, List.takeWhile_cons, List.dropWhile_cons]
      rw [ih, List.append_assoc, List.singleton_append]
    · simp [h]

end Buffer

/-- Whether a line is a single one does not depend on how deep it stands. -/
theorem Line.isSingle_mk_indented (l : Line) : (Line.mk 0 l.indented).isSingle = l.isSingle := by
  have htabs : '\n' ∉ List.replicate l.depth '\t' := fun h =>
    absurd (List.eq_of_mem_replicate h) (by decide)
  simp [isSingle, indented, htabs]

/-- A line at no depth is its text. -/
theorem Line.indented_zero (text : String) : (Line.mk 0 text).indented = text :=
  String.empty_append

/-- Lines that are checked go into a buffer as they are indented: all of them, or those before the one at
which the check stops. The buffer refuses that one, with the same words. -/
theorem Buffer.extend_indented {σ : Type} (b : Buffer) (state : σ) (lines : List Line) :
    match checkLines state lines with
    | .ok () => b.extend (lines.map Line.indented) = (⟨b.lines ++ lines.map Line.indented⟩, none)
    | .error halt => ∃ fault refusal, halt.stop = .broke fault ∧
        refusal.message = fault.message ∧ b.extend (lines.map Line.indented) =
          (⟨b.lines ++ halt.written.map Line.indented⟩, some refusal) := by
  have hsingle : (fun line => (Line.mk 0 line).isSingle) ∘ Line.indented = Line.isSingle :=
    funext Line.isSingle_mk_indented
  have hextend := b.extend_eq (lines.map Line.indented)
  rw [List.takeWhile_map, List.dropWhile_map, hsingle] at hextend
  rw [checkLines_eq, hextend]
  cases hrest : lines.dropWhile Line.isSingle with
  | nil =>
    have htaken := List.takeWhile_append_dropWhile (p := Line.isSingle) (l := lines)
    rw [hrest, List.append_nil] at htaken
    rw [htaken]
    rfl
  | cons line rest =>
    -- The refused line stands at no depth, since its tabs are part of it.
    have hmessage : (Breakdown.brokenLine ⟨0, line.indented⟩).message =
        (Breakdown.brokenLine line).message :=
      congrArg (fun text => "generated line contains a newline: " ++ Text.quoted text)
        (Line.indented_zero _)
    exact ⟨.brokenLine line, .brokenLine ⟨0, line.indented⟩, rfl, hmessage, rfl⟩

/-- A draft that writes a block comes to the lines that a buffer takes. If the buffer refuses one, the draft
breaks off there, with the same words. -/
theorem Draft.outcome_write {S H σ : Type} [Spelled S] [Spelled H] (b : Block S H) (state : σ) :
    match (Buffer.extend {} (b.lines.map Line.indented)) with
    | (buffer, none) => (Draft.write b).outcome state = .lines buffer.lines
    | (buffer, some refusal) => ∃ fault, refusal.message = fault.message ∧
        (Draft.write b).outcome state = .broke fault buffer.lines := by
  have hbuffer := Buffer.extend_indented {} state b.lines
  rw [outcome, write]
  cases hcheck : checkLines state b.lines with
  | ok =>
    rw [hcheck] at hbuffer
    rw [hbuffer]
    rfl
  | error halt =>
    rw [hcheck] at hbuffer
    obtain ⟨fault, refusal, hstop, hmessage, hextend⟩ := hbuffer
    rw [hextend]
    exact ⟨fault, hmessage, by simp [Halt.outcome, hstop]⟩

end RecordBridge

import RecordBridge.Proofs.Naming
import RecordBridge.Proofs.Spelling

/-!
# The layout of generated lines

A reader of generated lines can tell the blocks from the braces alone: `IsBlockStructured` scans lines
for those that start with a closing brace and those that end in an opening one, and asks that each has
a tab for each block that is open. The lines of a block of statements are so (`isBlockStructured_lines`)
if each statement starts with a letter or digit and ends otherwise than in an opening brace.
-/

namespace RecordBridge

/-! ## Scanning lines -/

/-- The number of open blocks after a line, if that is `depth` before it. A line that starts with a
closing brace ends a block, one that ends in an opening brace starts one. There is none if no block is
open that could end, or if the line has not one tab for each block around it. -/
def scanLine (depth : Nat) (line : String) : Option Nat :=
  let tabs := (line.toList.takeWhile (· == '\t')).length
  let text := line.toList.dropWhile (· == '\t')
  let ends := if text.head? = some '\x7d' then 1 else 0
  let starts := if line.toList.getLast? = some '\x7b' then 1 else 0
  if ends ≤ depth ∧ tabs = depth - ends then some (tabs + starts) else none

/-- Lines that are indented by their blocks, all of which are closed at the end. -/
def IsBlockStructured (lines : List String) : Prop :=
  lines.foldlM scanLine 0 = some 0

instance (lines : List String) : Decidable (IsBlockStructured lines) :=
  inferInstanceAs (Decidable (lines.foldlM scanLine 0 = some 0))

/-- A text that starts with an ASCII letter or digit. -/
def StartsPlainly (s : String) : Prop :=
  s.toList.head?.any Char.isAlphanum = true

/-- A text that does not end in an opening brace. -/
def EndsPlainly (s : String) : Prop :=
  s.toList.getLast? ≠ some '\x7b'

instance (s : String) : Decidable (StartsPlainly s) :=
  inferInstanceAs (Decidable (_ = true))

instance (s : String) : Decidable (EndsPlainly s) :=
  inferInstanceAs (Decidable (_ ≠ _))

/-- How a line starts is told by its first part, if that is not empty. -/
theorem StartsPlainly.append {s : String} (h : StartsPlainly s) (t : String) :
    StartsPlainly (s ++ t) := by
  obtain ⟨c, hs, hc⟩ := (Option.any_eq_true _ _).mp h
  rw [StartsPlainly, String.toList_append, List.head?_append, hs]
  exact hc

/-- How a line ends is told by its last part, or by the one before if that is empty. -/
theorem EndsPlainly.append {s t : String} (hs : EndsPlainly s) (ht : EndsPlainly t) :
    EndsPlainly (s ++ t) := by
  rw [EndsPlainly, String.toList_append, List.getLast?_append]
  cases hlast : t.toList.getLast? with
  | none => exact hs
  | some c =>
    rw [EndsPlainly, hlast] at ht
    exact ht

/-- What comes before does not matter for a text that ends in a character. -/
theorem endsPlainly_append (s : String) {t : String}
    (ht : t.toList.getLast?.any (· != '\x7b') = true) : EndsPlainly (s ++ t) := by
  obtain ⟨c, hlast, hc⟩ := (Option.any_eq_true _ _).mp ht
  rw [EndsPlainly, String.toList_append, List.getLast?_append, hlast]
  simpa using hc

/-- A line without an opening brace does not end in one. -/
theorem endsPlainly_of_not_mem {s : String} (h : '\x7b' ∉ s.toList) : EndsPlainly s :=
  fun hlast => h (List.mem_of_getLast? hlast)

/-! ## The lines of a block -/

/-- A line under more blocks. -/
def Line.under (n : Nat) (l : Line) : Line :=
  { l with depth := l.depth + n }

/-- A scan of an indented line looks at its depth and at the first and last character of its text. -/
theorem scanLine_indented {text : String} {c : Char} (hfirst : text.toList.head? = some c)
    (hc : c ≠ '\t') (depth n : Nat) :
    scanLine depth (Line.under n ⟨0, text⟩).indented =
      if (if c = '\x7d' then 1 else 0) ≤ depth ∧ n = depth - (if c = '\x7d' then 1 else 0) then
        some (n + if text.toList.getLast? = some '\x7b' then 1 else 0)
      else none := by
  obtain ⟨rest, htext⟩ := List.head?_eq_some_iff.mp hfirst
  have hlist : (Line.under n ⟨0, text⟩).indented.toList = List.replicate n '\t' ++ text.toList := by
    rw [Line.indented, String.toList_append, String.toList_ofList, Line.under, Nat.zero_add]
  have hlast : (Line.under n ⟨0, text⟩).indented.toList.getLast? = text.toList.getLast? := by
    rw [hlist, List.getLast?_append, htext, List.getLast?_cons]
    rfl
  have hreplicate : ∀ d ∈ List.replicate n '\t', (d == '\t') = true :=
    fun d hd => beq_iff_eq.mpr (List.eq_of_mem_replicate hd)
  have hstart : (c == '\t') = false := beq_eq_false_iff_ne.mpr hc
  -- The text does not start with a tab, so the tabs are those of the indentation.
  have htabs : (Line.under n ⟨0, text⟩).indented.toList.takeWhile (· == '\t') =
      List.replicate n '\t' := by
    rw [hlist, htext, List.takeWhile_append_of_pos hreplicate, List.takeWhile_cons, hstart]
    simp
  have hdrop : (Line.under n ⟨0, text⟩).indented.toList.dropWhile (· == '\t') = c :: rest := by
    rw [hlist, htext, List.dropWhile_append_of_pos hreplicate, List.dropWhile_cons, hstart]
    simp
  rw [scanLine, htabs, hdrop, hlast, List.length_replicate, List.head?_cons]
  simp

/-- A line that starts with a letter or digit stands at the depth of its block. -/
theorem scanLine_plain {text : String} (h : StartsPlainly text) (n : Nat) :
    scanLine n (Line.under n ⟨0, text⟩).indented =
      some (n + if text.toList.getLast? = some '\x7b' then 1 else 0) := by
  obtain ⟨c, hfirst, hc⟩ := (Option.any_eq_true _ _).mp h
  have htab : c ≠ '\t' := by
    rintro rfl
    exact absurd hc (by decide)
  have hbrace : c ≠ '\x7d' := by
    rintro rfl
    exact absurd hc (by decide)
  rw [scanLine_indented hfirst htab, if_neg hbrace, if_pos ⟨Nat.zero_le _, rfl⟩]

/-- A line that starts with a closing brace stands at the depth around its block. -/
theorem scanLine_brace {text : String} (h : text.toList.head? = some '\x7d') (n : Nat) :
    scanLine (n + 1) (Line.under n ⟨0, text⟩).indented =
      some (n + if text.toList.getLast? = some '\x7b' then 1 else 0) := by
  rw [scanLine_indented h (by decide), if_pos rfl, if_pos ⟨Nat.le_add_left 1 n, rfl⟩]

section Blocks

variable {S H : Type} [Spelled S] [Spelled H]

/-- The line that opens a block goes one block deeper. -/
theorem scanLine_opening {head : H} (h : StartsPlainly (Spelled.text head)) (n : Nat) :
    scanLine n ((Block.opening head).under n).indented = some (n + 1) := by
  have hlast : (Spelled.text head ++ " \x7b").toList.getLast? = some '\x7b' := by
    rw [String.toList_append, List.getLast?_append]
    rfl
  have hscan := scanLine_plain (h.append " \x7b") n
  rwa [hlast, if_pos rfl] at hscan

/-- A line between two blocks closes one and opens another. -/
theorem scanLine_otherwise (n : Nat) :
    scanLine (n + 1) (Block.otherwise.under n).indented = some (n + 1) := by
  have hfirst : "\x7d else \x7b".toList.head? = some '\x7d' := by decide
  exact scanLine_brace hfirst n

/-- A closing brace stands where the line that it closes did. -/
theorem scanLine_closing (n : Nat) :
    scanLine (n + 1) (Block.closing.under n).indented = some n := by
  have hfirst : "\x7d".toList.head? = some '\x7d' := by decide
  exact scanLine_brace hfirst n

/-- Lines one block deeper, under more blocks. -/
theorem map_under_deeper (lines : List Line) (n : Nat) :
    ((lines.map Line.deeper).map fun l => (l.under n).indented) =
      lines.map fun l => (l.under (n + 1)).indented := by
  rw [List.map_map]
  refine List.map_congr_left fun l _ => ?_
  show Line.indented ⟨l.depth + 1 + n, l.text⟩ = Line.indented ⟨l.depth + (n + 1), l.text⟩
  rw [Nat.add_assoc, Nat.add_comm 1 n]

/-- Lines after others are scanned from the depth at which these end. -/
theorem foldlM_append_of {α : Type} {f : Nat → α → Option Nat} {l l' : List α} {n m : Nat}
    (h : l.foldlM f n = some m) : (l ++ l').foldlM f n = l'.foldlM f m := by
  rw [List.foldlM_append, h]
  rfl

/-- A scan of the lines of a block comes back to the depth of the block. -/
theorem foldlM_lines (hheads : ∀ head : H, StartsPlainly (Spelled.text head)) {b : Block S H}
    (hsteps : ∀ s ∈ b.steps, StartsPlainly (Spelled.text s) ∧ EndsPlainly (Spelled.text s)) :
    ∀ n, (b.lines.map fun l => (l.under n).indented).foldlM scanLine n = some n := by
  -- The depth is left open in the induction: what a head opens is scanned one block deeper.
  induction b with
  | done => exact fun n => rfl
  | step s rest ih =>
    intro n
    rw [Block.steps_step, List.forall_mem_cons] at hsteps
    obtain ⟨⟨hstart, hend⟩, hsteps⟩ := hsteps
    have hstep := scanLine_plain hstart n
    rw [if_neg hend] at hstep
    rw [Block.lines, List.map_cons, List.foldlM_cons, hstep]
    exact ih hsteps n
  | nest head body rest ihbody ihrest =>
    intro n
    rw [Block.steps_nest, List.forall_mem_append] at hsteps
    rw [Block.lines, List.cons_append, List.map_cons, List.foldlM_cons,
      scanLine_opening (hheads head), List.map_append, map_under_deeper]
    refine (foldlM_append_of (ihbody hsteps.1 (n + 1))).trans ?_
    rw [List.map_cons, List.foldlM_cons, scanLine_closing]
    exact ihrest hsteps.2 n
  | fork head yes no rest ihyes ihno ihrest =>
    intro n
    rw [Block.steps_fork, List.forall_mem_append, List.forall_mem_append] at hsteps
    simp only [Block.lines, List.cons_append, List.append_assoc, List.map_cons, List.map_append,
      map_under_deeper, List.foldlM_cons, scanLine_opening (hheads head)]
    refine (foldlM_append_of (ihyes hsteps.1 (n + 1))).trans ?_
    rw [List.foldlM_cons, scanLine_otherwise]
    refine (foldlM_append_of (ihno hsteps.2.1 (n + 1))).trans ?_
    rw [List.foldlM_cons, scanLine_closing]
    exact ihrest hsteps.2.2 n

/-- The lines of a block are structured by its blocks. -/
theorem isBlockStructured_lines (hheads : ∀ head : H, StartsPlainly (Spelled.text head))
    {b : Block S H}
    (hsteps : ∀ s ∈ b.steps, StartsPlainly (Spelled.text s) ∧ EndsPlainly (Spelled.text s)) :
    IsBlockStructured (b.lines.map Line.indented) :=
  foldlM_lines hheads hsteps 0

end Blocks

/-! ## Variables and places -/

theorem endsPlainly_toString (n : Nat) : EndsPlainly (toString n) :=
  endsPlainly_of_not_mem fun hmem => absurd (isDigit_of_mem_toString _ hmem) (by decide)

namespace Var

/-- A variable starts with a letter. -/
theorem startsPlainly_text (v : Var) : StartsPlainly v.text := by
  cases v with
  | input | wholeInput | output | wholeOutput | requestBody => decide
  | index n | key n | value n | sourceList n | overridden n => exact .append (by decide) _
  | helper record n =>
    have hstart : StartsPlainly "convert" := by decide
    exact ((hstart.append _).append _).append _

/-- They end in a letter or a digit. -/
theorem endsPlainly_text (v : Var) : EndsPlainly v.text := by
  cases v with
  | input | wholeInput | output | wholeOutput | requestBody => decide
  | index n | key n | value n | sourceList n | overridden n =>
    exact .append (by decide) (endsPlainly_toString n)
  | helper record n => exact .append (endsPlainly_append _ (by decide)) (endsPlainly_toString n)

end Var

namespace Place

/-- A place starts with its variable. -/
theorem startsPlainly_text (p : Place) : StartsPlainly p.text :=
  p.root.startsPlainly_text.append _

theorem endsPlainly_ofVar (v : Var) : EndsPlainly (ofVar v).text := by
  rw [text, ofVar, Path.text_nil, String.append_empty]
  exact v.endsPlainly_text

/-- A field is spelled with its name at the end. -/
theorem endsPlainly_select (p : Place) {name : String} (h : '\x7b' ∉ name.toList) :
    EndsPlainly (p.select name).text := by
  have hne : Text.split '.' name ≠ [] := by
    simpa [Text.split] using Text.splitWhere_ne_nil _ _
  obtain ⟨pieces, piece, hsplit⟩ := (List.eq_nil_or_concat _).resolve_left hne
  have hpiece : '\x7b' ∉ piece.toList := by
    have hmem : piece ∈ Text.split '.' name := by simp [hsplit]
    obtain ⟨chars, hchars, rfl⟩ := List.mem_map.mp hmem
    rw [String.toList_ofList]
    exact fun hbrace => h (mem_of_mem_splitWhere _ hchars hbrace)
  have htext : (p.select name).text =
      p.root.text ++ (p.path ++ pieces.map Step.field).text ++ "." ++ piece := by
    rw [text, select, Path.select, hsplit]
    simp [Path.text_append, Path.text_singleton, Step.text, String.append_assoc]
  rw [htext]
  exact .append (endsPlainly_append _ (by decide)) (endsPlainly_of_not_mem hpiece)

end Place

end RecordBridge

import RecordBridge.Proofs.Deferred

/-!
# Which guards stand before a write

Before a write stand the guards for the deferred records above it and no others, the outermost first
(`Deferred.guards_exact`). A record is above a path if its spelling goes on there with a dot or a bracket.
The order is nowhere computed: of two records above one path, the spelling of the outer one is the start of
that of the other, so it comes first in the table.

A guard names its record by its key (`text_seenFrom`): from `out` outside local functions, and within them
from their own `out` if the record is beneath it, or else from the whole target.
-/

namespace RecordBridge

/-- What is spelled by a text lies above what another one spells: the other goes on from it with a selector
or an index. -/
def IsAncestor (key path : String) : Prop :=
  ∃ mark rest, path.toList = key.toList ++ mark :: rest ∧ (mark = '.' ∨ mark = '[')

theorem isAncestor_iff {key path : String} :
    IsAncestor key path ↔ Text.goesOnWith ['.', '['] key path = true := by
  rw [Text.goesOnWith_iff]
  refine exists_congr fun mark => exists_congr fun rest => and_congr_right fun _ => ?_
  simp [isInStep, or_iff_not_imp_left]

/-- Of two ancestors of one path, the one that comes first is an ancestor of the other. -/
theorem IsAncestor.of_lt {a b path : String} (ha : IsAncestor a path) (hb : IsAncestor b path)
    (hlt : a < b) : IsAncestor a b := by
  obtain ⟨mark, rest, hpath, hmark⟩ := ha
  obtain ⟨_, _, hpath', -⟩ := hb
  rcases List.append_eq_append_iff.mp (hpath.symm.trans hpath') with ⟨l, hb, hrest⟩ | ⟨l, ha, -⟩
  · cases l with
    | nil =>
      -- Equal texts do not come one before the other.
      rw [List.append_nil] at hb
      exact absurd hlt (String.toList_injective hb ▸ String.lt_irrefl a)
    | cons c l =>
      obtain ⟨rfl, -⟩ := List.cons.inj hrest
      exact ⟨mark, l, hb, hmark⟩
  · have hle : ¬a < b := by
      show ¬a.toList < b.toList
      rw [ha]
      exact List.not_lt.mpr (List.le_append_left)
    exact absurd hlt hle

/-! ## How a guard names its record -/

namespace Path

variable {start : List Char} {path inside : Path}

/-- What is beneath a start goes on from it in the spelling of a path, with a selector. -/
theorem text_of_beneath (h : path.beneath? start = some inside) :
    path.text.toList = start ++ inside.text.toList ∧ ∃ rest, inside.text.toList = '.' :: rest := by
  induction path generalizing start with
  | nil => cases start <;> cases h
  | cons step path ih =>
    rw [toList_text_cons]
    cases start with
    | nil =>
      rw [beneath?] at h
      split at h <;> cases h
      -- The start is used up: what is left begins with the dot of a field.
      rename_i hfield
      refine ⟨(toList_text_cons step path).symm, ?_⟩
      cases step with
      | field name => exact ⟨name.toList ++ (text path).toList, by simp [toList_text_cons, Step.text]⟩
      | index v => cases hfield
      | keyAs type v => cases hfield
    | cons c start =>
      rw [beneath?] at h
      split at h
      · rename_i rest hstep
        obtain ⟨htext, hdot⟩ := ih h
        refine ⟨?_, hdot⟩
        rw [Text.afterStart?_eq_some.mp hstep, htext, List.append_assoc]
      · split at h <;> cases h
        -- The start ends within a name, which is cut there and keeps its dot.
        rename_i name hname
        have hinside : (Path.text (.field (String.ofList name) :: path)).toList =
            '.' :: (name ++ (text path).toList) := by
          simp [toList_text_cons, Step.text]
        refine ⟨?_, _, hinside⟩
        rw [hinside, Text.afterStart?_eq_some.mp hname, List.append_assoc]
        rfl

/-- Where nothing is beneath a start, the spelling of a path does not go on from it with a selector. -/
theorem not_text_of_beneath (h : path.beneath? start = none) (rest : List Char) :
    path.text.toList ≠ start ++ '.' :: rest := by
  induction path generalizing start with
  | nil => simp
  | cons step path ih =>
    rw [toList_text_cons]
    intro htext
    cases start with
    | nil =>
      rw [beneath?] at h
      split at h <;> cases h
      rename_i hfield
      cases step with
      | field name => exact hfield rfl
      | index v => simp [Step.text] at htext
      | keyAs type v => simp [Step.text] at htext
    | cons c start =>
      rw [beneath?] at h
      split at h
      · rename_i after hstep
        rw [Text.afterStart?_eq_some.mp hstep, List.append_assoc] at htext
        exact ih h (List.append_cancel_left htext)
      · rename_i hstep
        -- Neither does the start go on beyond the step, nor does it end within it before a dot.
        rcases List.append_eq_append_iff.mp htext with ⟨l, hstart, -⟩ | ⟨l, hinside, hrest⟩
        · cases hstep.symm.trans (Text.afterStart?_eq_some.mpr hstart)
        · cases l with
          | nil =>
            -- The start ends with the step, so it is the step with nothing after it.
            rw [List.append_nil] at hinside
            have hend := (List.append_nil step.text.toList).symm ▸ hinside.symm
            cases hstep.symm.trans (Text.afterStart?_eq_some.mpr hend)
          | cons mark l =>
            obtain ⟨rfl, -⟩ := List.cons.inj hrest
            rw [Text.afterStart?_eq_some.mpr hinside] at h
            cases h

end Path

/-- How a deferred record with a given key is named within a local function that fills the record at
`scope`, or outside of local functions if that is nowhere. -/
def nameSeenFrom (scope : Path) (key : String) : String :=
  if scope.isEmpty then "out" ++ key
  else match Text.afterStart? scope.text.toList key.toList with
    | some ('.' :: rest) => "out." ++ String.ofList rest
    | _ => "outOriginal" ++ key

theorem text_seenFrom (scope path : Path) : (seenFrom scope path).text = nameSeenFrom scope path.text := by
  rw [seenFrom, nameSeenFrom]
  split
  · rfl
  · split
    · rename_i inside hinside
      obtain ⟨htext, rest, hdot⟩ := Path.text_of_beneath hinside
      rw [Text.afterStart?_eq_some.mpr htext, hdot]
      refine String.toList_injective ?_
      simp [Place.text, Var.text, hdot]
    · rename_i hnone
      split
      · rename_i rest hrest
        exact absurd (Text.afterStart?_eq_some.mp hrest) (Path.not_text_of_beneath hnone rest)
      · rfl

/-! ## Guards -/

/-- The lines that allocate a record of a type that is absent, by its name. -/
def allocationLines (name : String) (type : GoType) : List Line :=
  [⟨0, "if " ++ name ++ " == nil \x7b"⟩,
    ⟨1, name ++ " = &" ++ type.text ++ "\x7b\x7d"⟩,
    ⟨0, "\x7d"⟩]

theorem lines_guard (place : Place) (type : GoType) :
    (guard place type).lines = allocationLines place.text type := by
  have hvalue : " = " ++ ("&" ++ (type.text ++ "\x7b\x7d")) = " = &" ++ (type.text ++ "\x7b\x7d") := by
    rw [← String.append_assoc]
    rfl
  simp [guard, allocationLines, Block.lines, Block.opening, Block.closing, Line.deeper, Spelled.text,
    Head.text, Statement.text, Expr.text, String.append_assoc, hvalue]

namespace Deferred

/-- A table in which some records are deferred one after the other. -/
def ofRecords (records : List (Path × GoType)) : Deferred :=
  records.foldl (fun d record => d.defer record.1 record.2) .empty

theorem within_ofRecords (records : List (Path × GoType)) : (ofRecords records).Within fun _ => True := by
  suffices h : ∀ d : Deferred, d.Within (fun _ => True) →
      (records.foldl (fun d record => d.defer record.1 record.2) d).Within fun _ => True from
    h .empty .empty
  induction records with
  | nil => exact fun _ hd => hd
  | cons record records ih => exact fun d hd => ih _ (hd.defer trivial)

theorem lines_guards (d : Deferred) (scope target : Path) :
    (d.guards scope target).lines = (d.waiting ['.', '['] (scope ++ target)).flatMap fun parent =>
      allocationLines (seenFrom scope parent.1).text parent.2 := by
  rw [guards]
  induction d.waiting ['.', '['] (scope ++ target) with
  | nil => rfl
  | cons parent rest ih =>
    rw [List.foldr_cons, Block.lines_append, lines_guard, ih, List.flatMap_cons]

/-- **Guards are for the deferred ancestors, outermost first.** Whatever is deferred, the guards for a write
are three lines for each deferred record whose key is an ancestor of the path in the whole target, and none
for another one. Each stands once, and any two of them are one above the other, the outer one first. -/
theorem guards_exact (records : List (Path × GoType)) (scope target : Path) :
    ∃ above : List (String × Path × GoType),
      ((ofRecords records).guards scope target).lines =
          above.flatMap (fun e => allocationLines (nameSeenFrom scope e.1) e.2.2) ∧
        (∀ e, e ∈ above ↔
          e ∈ (ofRecords records).entries ∧ IsAncestor e.1 (Path.text (scope ++ target))) ∧
        (above.map (·.1)).Nodup ∧ above.Pairwise fun a b => IsAncestor a.1 b.1 := by
  have hkey := (within_ofRecords records).key
  generalize ofRecords records = d at hkey
  set goesOn := fun e : String × Path × GoType =>
    Text.goesOnWith ['.', '['] e.1 (Path.text (scope ++ target))
  have hmem : ∀ e, e ∈ d.entries.filter goesOn ↔
      e ∈ d.entries ∧ IsAncestor e.1 (Path.text (scope ++ target)) := fun e => by
    rw [List.mem_filter, isAncestor_iff]
  -- The order of the table is that of the guards, and it lists what is outside first.
  have hsorted := d.sorted.filter goesOn
  refine ⟨d.entries.filter goesOn, ?_, hmem, ?_, ?_⟩
  · rw [lines_guards, waiting, List.flatMap_map]
    refine List.flatMap_congr fun e he => ?_
    rw [text_seenFrom, ← hkey e ((hmem e).mp he).1]
  · exact List.pairwise_map.mpr (hsorted.imp String.ne_of_lt)
  · exact hsorted.imp_of_mem fun ha hb hlt => ((hmem _).mp ha).2.of_lt ((hmem _).mp hb).2 hlt

/-- Of the records at `Top`, `TopMost` and `Top.Recur.Inner`, the write of `Inner.Name` in a local function
for the record at `Top.Recur` is preceded by guards for the first and the last. -/
example :
    let type : String → GoType := .named "structs"
    let records := [([.field "Top", .field "Recur", .field "Inner"], type "Inner"),
      ([.field "TopMost"], type "TopMost"), ([.field "Top"], type "Top")]
    ((ofRecords records).guards [.field "Top", .field "Recur"] [.field "Inner", .field "Name"]).lines =
      allocationLines "outOriginal.Top" (type "Top") ++ allocationLines "out.Inner" (type "Inner") := by
  decide +kernel

end Deferred

end RecordBridge

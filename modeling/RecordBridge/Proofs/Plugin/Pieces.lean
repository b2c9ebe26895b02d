import Mathlib.Logic.Relation
import RecordBridge.Proofs.Plugin.Parameters
import RecordBridge.Proofs.Table

/-!
# What the pieces of a parameter set

A parameter is read if all of its pieces are well formed, and is refused for the first one that is not
(`Piece.Offends`). What has been read is told by the last pieces (`Parameters.ToldBy`): one counts for
each of `mode`, `from`, `to` and `out`, and one for each path that is mapped or may stay unset. Pieces that
set different things can change places (`Parameters.Swapped`).
-/

namespace RecordBridge

/-! ## Sides of a piece -/

namespace Piece

variable {s piece key value : String}

/-- The key of a piece holds no equals sign; its value may hold some. -/
theorem sides?_eq_some_iff :
    sides? s = some (key, value) ↔ '=' ∉ key.toList ∧ s = key ++ "=" ++ value := by
  rw [sides?, Option.map_eq_some_iff]
  constructor
  · rintro ⟨⟨before, after⟩, hcut, heq⟩
    obtain ⟨rfl, rfl⟩ := Prod.mk.inj heq
    obtain ⟨hmark, htext⟩ := Text.cutFirst_eq_some_iff.mp hcut
    exact ⟨by simpa using hmark, String.toList_injective (by simp [htext])⟩
  · rintro ⟨hmark, rfl⟩
    exact ⟨(key.toList, value.toList), Text.cutFirst_eq_some_iff.mpr ⟨hmark, by simp⟩, by simp⟩

/-- A piece has no two sides if it has no equals sign. -/
theorem sides?_eq_none_iff : sides? s = none ↔ '=' ∉ s.toList := by
  rw [sides?, Option.map_eq_none_iff, Text.cutFirst_eq_none_iff]

/-- The value of a piece with a key, or of the right side of a mapping with a path. -/
def valueOf? (key piece : String) : Option String :=
  (sides? piece).bind fun sides => if sides.1 = key then some sides.2 else none

/-- The values of the pieces with a key, in order. -/
def values (key : String) (pieces : List String) : List String :=
  pieces.filterMap (valueOf? key)

theorem sides?_pair (hkey : '=' ∉ key.toList) (value : String) :
    sides? (key ++ "=" ++ value) = some (key, value) :=
  sides?_eq_some_iff.mpr ⟨hkey, rfl⟩

theorem valueOf?_pair (hkey : '=' ∉ key.toList) (value other : String) :
    valueOf? other (key ++ "=" ++ value) = if key = other then some value else none := by
  rw [valueOf?, sides?_pair hkey]
  rfl

/-! ## Well-formed pieces -/

/-- The keys of pieces. -/
def keys : List String :=
  ["mode", "from", "to", "out", "map", "optional"]

/-- A piece is well formed: a known key and a value, which is the word of a mode for `mode` and holds an
equals sign for `map`. -/
def WellFormed (piece : String) : Prop :=
  ∃ key value, '=' ∉ key.toList ∧ piece = key ++ "=" ++ value ∧ key ∈ keys ∧
    (key = "mode" → ∃ m : Mode, value = m.word) ∧ (key = "map" → '=' ∈ value.toList)

/-- Why a piece is not well formed. -/
inductive Offends (piece : String) : (reason : String) → Prop where
  | noValue (h : '=' ∉ piece.toList) : Offends piece ("expected key=value, got `" ++ piece ++ "`")
  | unknownKey {key value : String} (hkey : '=' ∉ key.toList) (hpiece : piece = key ++ "=" ++ value)
      (h : key ∉ keys) : Offends piece ("unknown key `" ++ key ++ "`")
  | unknownMode {word : String} (hpiece : piece = "mode" ++ "=" ++ word)
      (h : ∀ m : Mode, word ≠ m.word) : Offends piece ("unknown mode `" ++ word ++ "`")
  | noSource {value : String} (hpiece : piece = "map" ++ "=" ++ value) (h : '=' ∉ value.toList) :
      Offends piece ("expected map=Target=Source, got `" ++ piece ++ "`")

/-- The right side of a mapping: its source, with an exclamation mark at the end if it overrides. -/
inductive Marks : (source : String) → Mapping → Prop where
  | overrides (source : String) : Marks (source ++ "!") ⟨source, true⟩
  | plain {source : String} (h : source.toList.getLast? ≠ some '!') : Marks source ⟨source, false⟩

/-- How pieces are spelled. -/
inductive Spells : String → Piece → Prop where
  | mode (m : Mode) : Spells ("mode" ++ "=" ++ m.word) (.mode m)
  | source (message : String) : Spells ("from" ++ "=" ++ message) (.source message)
  | target (message : String) : Spells ("to" ++ "=" ++ message) (.target message)
  | output (name : String) : Spells ("out" ++ "=" ++ name) (.output name)
  | map {path : String} (hpath : '=' ∉ path.toList) (source : String) :
      Spells ("map" ++ "=" ++ (path ++ "=" ++ source)) (.map path (mapping source))
  | optional (path : String) : Spells ("optional" ++ "=" ++ path) (.optional path)

/-- The mapping of a source says whether it ends in an exclamation mark. -/
theorem marks_mapping (source : String) : Marks source (mapping source) := by
  rw [mapping]
  split
  · rename_i rest hrest
    rw [Text.dropEnd?_eq_some_iff.mp hrest]
    exact .overrides rest
  · rename_i hnone
    refine .plain fun hlast => ?_
    obtain ⟨before, hbefore⟩ := List.getLast?_eq_some_iff.mp hlast
    have hends : source = String.ofList before ++ "!" :=
      String.toList_injective (by simp [hbefore])
    rw [Text.dropEnd?_eq_some_iff.mpr hends] at hnone
    cases hnone

end Piece

theorem Mode.ofWord?_eq_some_iff {word : String} {m : Mode} : ofWord? word = some m ↔ word = m.word := by
  rw [ofWord?]
  constructor
  · intro h
    have hword : (m.word == word) = true := List.find?_some (p := fun m : Mode => m.word == word) h
    exact (eq_of_beq hword).symm
  · rintro rfl
    cases m <;> decide

theorem Mode.ofWord?_eq_none_iff {word : String} : ofWord? word = none ↔ ∀ m : Mode, word ≠ m.word := by
  rw [Option.eq_none_iff_forall_ne_some]
  exact forall_congr' fun m => not_congr ofWord?_eq_some_iff

namespace Piece

variable {piece reason : String} {p : Piece}

/-- What spells a piece is well-formed. -/
theorem Spells.wellFormed (h : Spells piece p) : WellFormed piece := by
  cases h with
  | mode m => exact ⟨_, _, by decide, rfl, by decide, fun _ => ⟨m, rfl⟩, fun h => absurd h (by decide)⟩
  | map hpath source =>
    exact ⟨_, _, by decide, rfl, by decide, fun h => absurd h (by decide), fun _ => by simp⟩
  | source _ | target _ | output _ | optional _ =>
    exact ⟨_, _, by decide, rfl, by decide, fun h => absurd h (by decide), fun h => absurd h (by decide)⟩

/-- No well-formed piece offends. -/
theorem Offends.not_wellFormed (h : Offends piece reason) : ¬WellFormed piece := by
  rintro ⟨key, value, hkey, rfl, hknown, hmode, hmap⟩
  -- The key and the value of a well-formed piece are its sides, so the offence is about them.
  have hsides := sides?_pair hkey value
  cases h with
  | noValue h => exact h (by simp)
  | unknownKey hkey' hpiece h =>
    rw [hpiece, sides?_pair hkey'] at hsides
    cases hsides
    exact h hknown
  | unknownMode hpiece h =>
    rw [hpiece, sides?_pair (by decide)] at hsides
    cases hsides
    obtain ⟨m, hm⟩ := hmode rfl
    exact h m hm
  | noSource hpiece h =>
    rw [hpiece, sides?_pair (by decide)] at hsides
    cases hsides
    exact h (hmap rfl)

/-- A piece that is read is spelled so, and one that is refused offends. -/
theorem read_spec (piece : String) :
    (∃ p, read piece = .ok p ∧ Spells piece p) ∨
      ∃ reason, read piece = .error (.parameter reason) ∧ Offends piece reason := by
  cases hsides : sides? piece with
  | none => exact .inr ⟨_, by rw [read, hsides], .noValue (sides?_eq_none_iff.mp hsides)⟩
  | some sides =>
    obtain ⟨key, value⟩ := sides
    obtain ⟨hkey, hpiece⟩ := sides?_eq_some_iff.mp hsides
    -- Of the known keys two ask for more: a mode has to be known, and a map needs two sides.
    by_cases hknown : key ∈ keys
    · simp only [keys, List.mem_cons, List.not_mem_nil, or_false] at hknown
      rcases hknown with rfl | rfl | rfl | rfl | rfl | rfl
      · cases hmode : Mode.ofWord? value with
        | none => exact .inr ⟨_, by simp only [read, hsides, hmode],
            .unknownMode hpiece (Mode.ofWord?_eq_none_iff.mp hmode)⟩
        | some m =>
          rw [Mode.ofWord?_eq_some_iff.mp hmode] at hpiece
          exact .inl ⟨.mode m, by simp only [read, hsides, hmode], hpiece ▸ .mode m⟩
      · exact .inl ⟨.source value, by simp only [read, hsides], hpiece ▸ .source value⟩
      · exact .inl ⟨.target value, by simp only [read, hsides], hpiece ▸ .target value⟩
      · exact .inl ⟨.output value, by simp only [read, hsides], hpiece ▸ .output value⟩
      · cases hinner : sides? value with
        | none => exact .inr ⟨_, by simp only [read, hsides, hinner],
            .noSource hpiece (sides?_eq_none_iff.mp hinner)⟩
        | some inner =>
          obtain ⟨path, source⟩ := inner
          obtain ⟨hpath, hvalue⟩ := sides?_eq_some_iff.mp hinner
          rw [hvalue] at hpiece
          exact .inl ⟨.map path (mapping source), by simp only [read, hsides, hinner],
            hpiece ▸ .map hpath source⟩
      · exact .inl ⟨.optional value, by simp only [read, hsides], hpiece ▸ .optional value⟩
    · refine .inr ⟨_, ?_, .unknownKey hkey hpiece hknown⟩
      simp only [keys, List.mem_cons, List.not_mem_nil, or_false, not_or] at hknown
      rw [read, hsides]
      split <;> simp_all

/-- A piece is read as what it spells. -/
theorem Spells.read (h : Spells piece p) : Piece.read piece = .ok p := by
  cases h with
  | mode m =>
    simp only [Piece.read, sides?_pair (by decide : '=' ∉ "mode".toList),
      (Mode.ofWord?_eq_some_iff (m := m)).mpr rfl]
  | map hpath source =>
    simp only [Piece.read, sides?_pair (by decide : '=' ∉ "map".toList), sides?_pair hpath]
  | source _ => simp only [Piece.read, sides?_pair (by decide : '=' ∉ "from".toList)]
  | target _ => simp only [Piece.read, sides?_pair (by decide : '=' ∉ "to".toList)]
  | output _ => simp only [Piece.read, sides?_pair (by decide : '=' ∉ "out".toList)]
  | optional _ => simp only [Piece.read, sides?_pair (by decide : '=' ∉ "optional".toList)]

/-- The reason why a piece offends is told when it is read. -/
theorem Offends.read (h : Offends piece reason) : Piece.read piece = .error (.parameter reason) := by
  cases h with
  | noValue h => rw [Piece.read, sides?_eq_none_iff.mpr h]
  | unknownKey hkey hpiece h =>
    rw [keys] at h
    rw [Piece.read, hpiece, sides?_pair hkey]
    split <;> simp_all
  | unknownMode hpiece h =>
    simp only [Piece.read, hpiece, sides?_pair (by decide : '=' ∉ "mode".toList),
      Mode.ofWord?_eq_none_iff.mpr h]
  | noSource hpiece h =>
    simp only [Piece.read, hpiece, sides?_pair (by decide : '=' ∉ "map".toList),
      sides?_eq_none_iff.mpr h]

/-- A piece is read as nothing but what it spells. -/
theorem read_eq_ok_iff : Piece.read piece = .ok p ↔ Spells piece p := by
  refine ⟨fun h => ?_, Spells.read⟩
  rcases read_spec piece with ⟨q, hread, hspells⟩ | ⟨reason, hread, -⟩
  · rw [h] at hread
    cases hread
    exact hspells
  · rw [h] at hread
    cases hread

theorem Spells.unique {q : Piece} (h : Spells piece p) (h' : Spells piece q) : p = q :=
  Except.ok.inj (h.read.symm.trans h'.read)

/-- A text spells some piece if it is well-formed. -/
theorem exists_spells_iff : (∃ p, Spells piece p) ↔ WellFormed piece := by
  constructor
  · rintro ⟨p, h⟩
    exact h.wellFormed
  · intro h
    rcases read_spec piece with ⟨p, -, hspells⟩ | ⟨reason, -, hoffends⟩
    · exact ⟨p, hspells⟩
    · exact absurd h hoffends.not_wellFormed

/-- A piece is refused for its offence. -/
theorem read_eq_error_iff {e : PluginError} :
    Piece.read piece = .error e ↔ ∃ reason, Offends piece reason ∧ e = .parameter reason := by
  constructor
  · intro h
    rcases read_spec piece with ⟨p, hread, -⟩ | ⟨reason, hread, hoffends⟩
    · rw [h] at hread
      cases hread
    · rw [h] at hread
      cases hread
      exact ⟨reason, hoffends, rfl⟩
  · rintro ⟨reason, hoffends, rfl⟩
    exact hoffends.read

/-! ## What a piece sets -/

/-- What can be set by a piece. -/
inductive Setting where
  | mode
  | source
  | target
  | output
  | map (path : String)
  | optional (path : String)
  deriving DecidableEq, Repr

/-- What a piece sets. -/
def setting : Piece → Setting
  | .mode _ => .mode
  | .source _ => .source
  | .target _ => .target
  | .output _ => .output
  | .map path _ => .map path
  | .optional path => .optional path

end Piece

namespace Parameters

open Piece

variable {p : Parameters} {text : String} {piece : Piece}

/-- Pieces that set different things can change places. -/
theorem set_comm {x y : Piece} (h : x.setting ≠ y.setting) : (p.set x).set y = (p.set y).set x := by
  cases x <;> cases y <;> first
    | rfl
    | exact absurd rfl h
    | skip
  · rename_i path _ path' _
    have hpath : path ≠ path' := fun heq => h (congrArg Setting.map heq)
    simp only [set, Table.insert_comm hpath]
  · rename_i path path'
    have hpath : path ≠ path' := fun heq => h (congrArg Setting.optional heq)
    simp only [set, Table.insert_comm hpath]

/-! ## The last piece counts -/

/-- What is held at the end: what the last piece says that sets it, or what was held before. -/
theorem foldl_set {β : Type} (get : Parameters → Option β) (part : String → Option β)
    (hstep : ∀ p text piece, Spells text piece → get (p.set piece) = (part text).or (get p))
    {texts : List String} {pieces : List Piece} (h : List.Forall₂ Spells texts pieces) :
    get (pieces.foldl set p) = (texts.filterMap part).getLast?.or (get p) := by
  induction h generalizing p with
  | nil => rfl
  | @cons text piece texts pieces hfirst _ ih =>
    rw [List.foldl_cons, ih, hstep p text piece hfirst, List.filterMap_cons]
    cases part text with
    | none => rw [Option.none_or]
    | some value => rw [List.getLast?_cons, Option.some_or, Option.or_some]; simp

/-- The mode, the messages and the output are set by the values of their keys. -/
theorem words_set (h : Spells text piece) :
    some (p.set piece).mode.word = (valueOf? "mode" text).or (some p.mode.word) ∧
      (p.set piece).source? = (valueOf? "from" text).or p.source? ∧
      (p.set piece).target? = (valueOf? "to" text).or p.target? ∧
      (p.set piece).output? = (valueOf? "out" text).or p.output? := by
  cases h <;> simp only [valueOf?_pair (by decide : '=' ∉ "mode".toList),
    valueOf?_pair (by decide : '=' ∉ "from".toList), valueOf?_pair (by decide : '=' ∉ "to".toList),
    valueOf?_pair (by decide : '=' ∉ "out".toList), valueOf?_pair (by decide : '=' ∉ "map".toList),
    valueOf?_pair (by decide : '=' ∉ "optional".toList)] <;> simp [set]

/-- A path is mapped by the pieces for it. -/
theorem mappings_set (path : String) (h : Spells text piece) :
    (p.set piece).mappings.get? path =
      (((valueOf? "map" text).bind (valueOf? path)).map mapping).or (p.mappings.get? path) := by
  cases h with
  | map hpath source =>
    rw [valueOf?_pair (by decide), if_pos rfl, Option.bind_some, valueOf?_pair hpath]
    simp only [set, Table.get?_insert, eq_comm]
    split <;> rfl
  | _ =>
    rw [valueOf?_pair (by decide), if_neg (by decide)]
    rfl

/-- A path is listed as optional by the pieces that name it. -/
theorem optional_set (path : String) (h : Spells text piece) :
    (p.set piece).optional.get? path =
      (if valueOf? "optional" text = some path then some () else none).or
        (p.optional.get? path) := by
  cases h with
  | optional listed =>
    rw [valueOf?_pair (by decide), if_pos rfl]
    simp only [set, Table.get?_insert, Option.some.injEq, eq_comm]
    split <;> rfl
  | _ =>
    rw [valueOf?_pair (by decide)]
    rfl

/-! ## Parameters -/

/-- What parameters hold, told by the pieces that they are read from: the last one counts. -/
structure ToldBy (texts : List String) (p : Parameters) : Prop where
  mode : p.mode.word = (values "mode" texts).getLast?.getD "convert"
  source : p.source? = (values "from" texts).getLast?
  target : p.target? = (values "to" texts).getLast?
  output : p.output? = (values "out" texts).getLast?
  /-- A path has a mapping if a piece maps it, and then that of the last one that does. -/
  mappings : ∀ path, Option.Rel Marks (values path (values "map" texts)).getLast?
    (p.mappings.get? path)
  optional : ∀ path, path ∈ p.optional.keys ↔ path ∈ values "optional" texts

/-- Pieces that are set in order leave what the last of each kind has told. -/
theorem toldBy_foldl {texts : List String} {pieces : List Piece}
    (h : List.Forall₂ Spells texts pieces) : ToldBy texts (pieces.foldl set {}) where
  mode := by
    have hmode := foldl_set (fun p => some p.mode.word) (valueOf? "mode") (p := {})
      (fun _ _ _ hspells => (words_set hspells).1) h
    rw [show texts.filterMap (valueOf? "mode") = values "mode" texts from rfl] at hmode
    cases hlast : (values "mode" texts).getLast? with
    | none =>
      rw [hlast] at hmode
      exact Option.some.inj hmode
    | some word =>
      rw [hlast] at hmode
      exact Option.some.inj hmode
  source := by
    rw [foldl_set (·.source?) (valueOf? "from")
      (fun _ _ _ hspells => (words_set hspells).2.1) h]
    exact Option.or_none
  target := by
    rw [foldl_set (·.target?) (valueOf? "to")
      (fun _ _ _ hspells => (words_set hspells).2.2.1) h]
    exact Option.or_none
  output := by
    rw [foldl_set (·.output?) (valueOf? "out")
      (fun _ _ _ hspells => (words_set hspells).2.2.2) h]
    exact Option.or_none
  mappings path := by
    have hget := foldl_set (·.mappings.get? path) _ (p := {})
      (fun _ _ _ hspells => mappings_set path hspells) h
    -- Pieces with the same path go over each other, so for each path the last one counts.
    rw [← List.map_filterMap, ← List.filterMap_filterMap, List.getLast?_map] at hget
    rw [hget, values, values]
    cases ((texts.filterMap (valueOf? "map")).filterMap (valueOf? path)).getLast? with
    | none => exact .none
    | some source => exact .some (marks_mapping source)
  optional path := by
    have hget := foldl_set (·.optional.get? path) _ (p := {})
      (fun _ _ _ hspells => optional_set path hspells) h
    rw [Table.mem_keys_iff, hget, show (({} : Parameters).optional.get? path) = none from rfl,
      Option.or_none, ← Option.ne_none_iff_exists', ne_eq, List.getLast?_eq_none_iff,
      List.filterMap_eq_nil_iff, values, List.mem_filterMap]
    simp

/-- Exchanging two neighbours that set different things. -/
inductive Swapped : List String → List String → Prop where
  | intro (before : List String) {text text' : String} {x y : Piece} (after : List String)
      (hx : Spells text x) (hy : Spells text' y) (h : x.setting ≠ y.setting) :
      Swapped (before ++ text :: text' :: after) (before ++ text' :: text :: after)

/-- An exchange changes nothing of what is set. -/
theorem Swapped.foldl_set {texts texts' : List String} (h : Swapped texts texts')
    {parts : List Piece} (hparts : List.Forall₂ Spells texts parts) :
    ∃ parts', List.Forall₂ Spells texts' parts' ∧ parts'.foldl set p = parts.foldl set p := by
  obtain ⟨before, after, hx, hy, hne⟩ := h
  induction before generalizing parts p with
  | nil =>
    obtain ⟨x', rest, hx', hrest, rfl⟩ := List.forall₂_cons_left_iff.mp hparts
    obtain ⟨y', rest, hy', hafter, rfl⟩ := List.forall₂_cons_left_iff.mp hrest
    refine ⟨y' :: x' :: rest, .cons hy' (.cons hx' hafter), ?_⟩
    rw [hx.unique hx', hy.unique hy'] at hne
    simp only [List.foldl_cons, set_comm hne]
  | cons text before ih =>
    obtain ⟨first, rest, hfirst, hrest, rfl⟩ := List.forall₂_cons_left_iff.mp hparts
    obtain ⟨parts', hparts', heq⟩ := ih (p := p.set first) hrest
    exact ⟨first :: parts', .cons hfirst hparts', heq⟩

/-- Nor do many exchanges. -/
theorem foldl_set_of_swapped {texts texts' : List String}
    (h : Relation.ReflTransGen Swapped texts texts') {parts : List Piece}
    (hparts : List.Forall₂ Spells texts parts) :
    ∃ parts', List.Forall₂ Spells texts' parts' ∧ parts'.foldl set p = parts.foldl set p := by
  induction h with
  | refl => exact ⟨parts, hparts, rfl⟩
  | tail _ hstep ih =>
    obtain ⟨between, hbetween, heq⟩ := ih
    obtain ⟨parts', hparts', heq'⟩ := hstep.foldl_set (p := p) hbetween
    exact ⟨parts', hparts', heq'.trans heq⟩

/-! ## Reading -/

theorem exists_forall₂_spells_iff {texts : List String} :
    (∃ parts, List.Forall₂ Spells texts parts) ↔ ∀ text ∈ texts, WellFormed text := by
  induction texts with
  | nil => exact iff_of_true ⟨[], .nil⟩ nofun
  | cons text texts ih =>
    rw [List.forall_mem_cons, ← exists_spells_iff, ← ih]
    simp only [List.forall₂_cons_left_iff]
    exact ⟨fun ⟨_, x, rest, hx, hrest, _⟩ => ⟨⟨x, hx⟩, rest, hrest⟩,
      fun ⟨⟨x, hx⟩, rest, hrest⟩ => ⟨_, x, rest, hx, hrest, rfl⟩⟩

/-- A parameter is read if each of its pieces spells one. -/
theorem read_eq_ok_iff {s : String} : read s = .ok p ↔
    ∃ parts, List.Forall₂ Spells (pieces s) parts ∧ parts.foldl set {} = p := by
  have hok (parts : List Piece) : (pieces s).mapM Piece.read = .ok parts ↔
      List.Forall₂ Spells (pieces s) parts :=
    mapM_eq_ok_iff.trans (iff_of_eq (by simp only [Piece.read_eq_ok_iff]))
  -- Pieces are read in order, and then they are set in the same order.
  rw [read]
  constructor
  · intro h
    cases hparts : (pieces s).mapM Piece.read with
    | error e =>
      rw [hparts] at h
      cases h
    | ok parts =>
      rw [hparts] at h
      cases h
      exact ⟨parts, (hok parts).mp hparts, rfl⟩
  · rintro ⟨parts, hparts, rfl⟩
    rw [(hok parts).mpr hparts]
    rfl

theorem read_eq_error_iff {s : String} {e : PluginError} : read s = .error e ↔
    ∃ before text after reason, pieces s = before ++ text :: after ∧
      (∀ other ∈ before, WellFormed other) ∧ Offends text reason ∧ e = .parameter reason := by
  have hfails : read s = .error e ↔ (pieces s).mapM Piece.read = .error e := by
    rw [read]
    cases (pieces s).mapM Piece.read with
    | error e' => exact ⟨fun h => by cases h; rfl, fun h => by cases h; rfl⟩
    | ok parts => exact ⟨fun h => (by cases h), fun h => (by cases h)⟩
  simp only [hfails, mapM_eq_error_iff, Piece.read_eq_ok_iff, exists_spells_iff,
    Piece.read_eq_error_iff]
  -- The reason is asked for beneath the pieces on the one side, and beside them on the other.
  constructor
  · rintro ⟨before, text, after, heq, hbefore, reason, h⟩
    exact ⟨before, text, after, reason, heq, hbefore, h⟩
  · rintro ⟨before, text, after, reason, heq, hbefore, h⟩
    exact ⟨before, text, after, heq, hbefore, reason, h⟩

/-- A parameter is read if all its pieces are well formed, and is refused for the first that offends. What
is read is told by the last pieces, and pieces that set different things can change places. -/
theorem read_told (s : String) :
    ((∃ p, read s = .ok p) ↔ ∀ text ∈ pieces s, WellFormed text) ∧
      (∀ p, read s = .ok p → ToldBy (pieces s) p ∧
        ∀ s', Relation.ReflTransGen Swapped (pieces s) (pieces s') → read s' = .ok p) ∧
      ∀ e, read s = .error e ↔ ∃ before text after reason, pieces s = before ++ text :: after ∧
        (∀ other ∈ before, WellFormed other) ∧ Offends text reason ∧ e = .parameter reason := by
  refine ⟨?_, fun p h => ?_, fun e => read_eq_error_iff⟩
  · rw [← exists_forall₂_spells_iff]
    constructor
    · rintro ⟨p, h⟩
      obtain ⟨parts, hparts, -⟩ := read_eq_ok_iff.mp h
      exact ⟨parts, hparts⟩
    · rintro ⟨parts, hparts⟩
      exact ⟨_, read_eq_ok_iff.mpr ⟨parts, hparts, rfl⟩⟩
  · obtain ⟨parts, hparts, rfl⟩ := read_eq_ok_iff.mp h
    exact ⟨toldBy_foldl hparts, fun s' hswapped =>
      read_eq_ok_iff.mpr (foldl_set_of_swapped hswapped hparts)⟩

/-- Three pieces in two orders, with an empty one in between and blanks around some; and a second piece
that offends. -/
theorem read_told_of_three_pieces :
    (∃ p, read "map=Name=User.Name!!, map=Id=UserId ,mode=populate" = .ok p ∧
      p.mode.word = "populate" ∧
      read "mode=populate,,map=Name=User.Name!!, map=Id=UserId" = .ok p) ∧
      read "from=api.User=1,map=Id,mode=none" =
        .error (.parameter "expected map=Target=Source, got `map=Id`") := by
  have hname : Spells "map=Name=User.Name!!" (.map "Name" (mapping "User.Name!!")) :=
    .map (by decide : '=' ∉ "Name".toList) "User.Name!!"
  have hid : Spells "map=Id=UserId" (.map "Id" (mapping "UserId")) :=
    .map (by decide : '=' ∉ "Id".toList) "UserId"
  have hmode : Spells "mode=populate" (.mode .populate) := .mode .populate
  have hpieces : pieces "map=Name=User.Name!!, map=Id=UserId ,mode=populate" =
      ["map=Name=User.Name!!", "map=Id=UserId", "mode=populate"] := by decide +kernel
  have hpieces' : pieces "mode=populate,,map=Name=User.Name!!, map=Id=UserId" =
      ["mode=populate", "map=Name=User.Name!!", "map=Id=UserId"] := by decide +kernel
  obtain ⟨hread, htold, -⟩ := read_told "map=Name=User.Name!!, map=Id=UserId ,mode=populate"
  constructor
  · obtain ⟨p, h⟩ := hread.mpr (by
      rw [hpieces]
      simp [hname.wellFormed, hid.wellFormed, hmode.wellFormed])
    obtain ⟨hp, hswapped⟩ := htold p h
    -- Two swaps of neighbours lead from one order to the other, and blanks and empty pieces do not
    -- count.
    refine ⟨p, h, ?_, hswapped _ ?_⟩
    · rw [hp.mode, hpieces]
      decide +kernel
    · rw [hpieces, hpieces']
      exact .tail (.single (.intro ["map=Name=User.Name!!"] [] hid hmode (by decide)))
        (.intro [] ["map=Id=UserId"] hname hmode (by decide))
  · exact ((read_told "from=api.User=1,map=Id,mode=none").2.2 _).mpr
      ⟨["from=api.User=1"], "map=Id", ["mode=none"], _, by decide +kernel,
        List.forall_mem_singleton.mpr (Spells.source "api.User=1").wellFormed,
        .noSource rfl (by decide : '=' ∉ "Id".toList), rfl⟩

end Parameters

end RecordBridge

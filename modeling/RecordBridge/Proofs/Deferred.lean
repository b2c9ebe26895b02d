import RecordBridge.Conversion.Guard
import RecordBridge.Proofs.Execution.Grounded
import RecordBridge.Proofs.Spelling

/-!
# Guards for deferred records

The guards before a write are those for the deferred records above it, outermost first. With them in
front, statements are grounded that rely on everything above the write.
-/

namespace RecordBridge

/-! ## The table -/

theorem Table.mem_place {α : Type} {key : String} {value : α} {l : List (String × α)}
    {e : String × α} (hl : e ∈ l) (hne : e.1 ≠ key) : e ∈ place key value l := by
  induction l with
  | nil => cases hl
  | cons entry rest ih =>
    unfold place
    split
    · exact List.mem_cons_of_mem _ hl
    · split
      · rcases List.mem_cons.mp hl with rfl | hl
        · exact List.mem_cons_self
        · exact List.mem_cons_of_mem _ (ih hl)
      · rename_i hlt hgt
        rcases List.mem_cons.mp hl with rfl | hl
        · exact absurd (String.le_antisymm (String.not_lt.mp hlt) (String.not_lt.mp hgt)) hne
        · exact List.mem_cons_of_mem _ hl

theorem Table.mem_place_self {α : Type} (key : String) (value : α) (l : List (String × α)) :
    (key, value) ∈ place key value l := by
  induction l with
  | nil => exact List.mem_cons_self
  | cons entry rest ih =>
    unfold place
    split
    · exact List.mem_cons_self
    · split
      · exact List.mem_cons_of_mem _ ih
      · exact List.mem_cons_self

/-! ## Spellings -/

/-- A text goes on with a dot or a bracket after another one. -/
theorem Text.goesOnWith_iff {start s : String} : Text.goesOnWith ['.', '['] start s = true ↔
    ∃ c rest, s.toList = start.toList ++ c :: rest ∧ isInStep c = false := by
  have hmark : ∀ c : Char, ['.', '['].contains c = true ↔ isInStep c = false := by
    intro c
    rw [List.contains_iff_mem]
    simp [isInStep, imp_iff_or_not, or_comm]
  rw [goesOnWith]
  split
  · rename_i c rest heq
    rw [hmark]
    constructor
    · exact fun hc => ⟨c, rest, afterStart?_eq_some.mp heq, hc⟩
    · rintro ⟨c', rest', htext, hc⟩
      rw [afterStart?_eq_some.mp heq] at htext
      obtain ⟨rfl, -⟩ := List.cons.inj (List.append_cancel_left htext)
      exact hc
  · rename_i hnone
    refine ⟨fun h => (Bool.false_ne_true h).elim, ?_⟩
    rintro ⟨c, rest, htext, -⟩
    exact absurd (afterStart?_eq_some.mpr htext) (hnone c rest)

/-- Whether a target path is another one, or goes on from it, by their spellings. -/
def isAtOrBeneath (path key : String) : Bool :=
  key == path || Text.goesOnWith ['.', '['] path key

theorem isAtOrBeneath_iff {path key : String} : isAtOrBeneath path key = true ↔
    ∃ rest, EndsAt isInStep rest ∧ key.toList = path.toList ++ rest := by
  rw [isAtOrBeneath, Bool.or_eq_true, beq_iff_eq, Text.goesOnWith_iff]
  constructor
  · rintro (rfl | ⟨c, rest, htext, hc⟩)
    · exact ⟨[], nofun, (List.append_nil _).symm⟩
    · refine ⟨c :: rest, ?_, htext⟩
      intro c' rest' heq
      cases heq
      exact hc
  · rintro ⟨rest, hends, htext⟩
    cases rest with
    | nil => exact .inl (String.toList_injective (by rw [htext, List.append_nil]))
    | cons c rest => exact .inr ⟨c, rest, htext, hends c rest rfl⟩

/-- What is at a longer path or beneath it is beneath the path. -/
theorem isAtOrBeneath_of_append {path more : Path} {key : String} (hpath : path ≠ [])
    (h : isAtOrBeneath (Path.bare (path ++ more)) key = true) :
    isAtOrBeneath path.bare key = true := by
  obtain ⟨rest, hends, htext⟩ := isAtOrBeneath_iff.mp h
  refine isAtOrBeneath_iff.mpr ⟨(Path.text more).toList ++ rest, (Path.endsAt_text more).append hends, ?_⟩
  rw [htext, Path.bare_append hpath, List.append_assoc]

/-- One of two paths is at the other one or beneath it, by their spellings. -/
def Path.OnWay (k path : Path) : Prop :=
  isAtOrBeneath k.text path.text = true ∨ isAtOrBeneath path.text k.text = true

/-- What is on the way of a longer path is on that of the path. -/
theorem Path.OnWay.of_append {k path more : Path} (h : k.OnWay (path ++ more)) : k.OnWay path := by
  rw [OnWay, text_append, isAtOrBeneath_iff, isAtOrBeneath_iff, String.toList_append] at h
  rcases h with ⟨rest, hends, htext⟩ | ⟨rest, hends, htext⟩
  · -- The path and the other one both begin the spelling of the longer path.
    rcases List.append_eq_append_iff.mp htext with ⟨l, hk, hmore⟩ | ⟨l, hpath, hrest⟩
    · exact .inr (isAtOrBeneath_iff.mpr ⟨l, (hmore ▸ Path.endsAt_text more).of_append, hk⟩)
    · exact .inl (isAtOrBeneath_iff.mpr ⟨l, (hrest ▸ hends).of_append, hpath⟩)
  · refine .inr (isAtOrBeneath_iff.mpr
      ⟨(Path.text more).toList ++ rest, (Path.endsAt_text more).append hends, ?_⟩)
    rw [htext, List.append_assoc]

/-- The spelling of a path above another one comes before it. -/
theorem Path.Above.text_lt {k path : Path} (h : k.Above path) : k.text < path.text := by
  obtain ⟨s, rest, rfl⟩ := h
  rw [Path.text_append, Path.text_cons]
  obtain ⟨c, more, htext, -⟩ := s.exists_text_eq
  show (Path.text k).toList < (Path.text k ++ (s.text ++ Path.text rest)).toList
  rw [String.toList_append, String.toList_append, htext]
  have hlt : (Path.text k).toList ++ [] <
      (Path.text k).toList ++ c :: (more ++ (Path.text rest).toList) :=
    List.append_left_lt (List.nil_lt_cons _ _)
  rwa [List.append_nil] at hlt

/-- Paths above the same path are above one another. -/
theorem Path.Above.compare {k l path : Path} (hk : k.Above path) (hl : l.Above path) :
    k.length < l.length ∨ l <+: k := by
  rcases List.prefix_or_prefix_of_prefix hk.isPrefix hl.isPrefix with h | h
  · rcases Nat.lt_or_ge k.length l.length with hlt | hge
    · exact .inl hlt
    · rw [h.eq_of_length_le hge]
      exact .inr List.prefix_rfl
  · exact .inr h

/-! ## What waits -/

namespace Deferred

variable {F : Path → Prop} {d : Deferred} {k path : Path} {type : GoType} {owned known : Path → Prop}

/-- The records in a table are keyed by their spelling, and their paths are in a family. -/
structure Within (F : Path → Prop) (d : Deferred) : Prop where
  key : ∀ e ∈ d.entries, e.1 = e.2.1.text
  family : ∀ e ∈ d.entries, F e.2.1

/-- A record is deferred. -/
def Holds (d : Deferred) (k : Path) : Prop :=
  ∃ type, (k.text, k, type) ∈ d.entries

theorem Within.empty : Within F .empty :=
  ⟨nofun, nofun⟩

theorem Within.defer (hd : Within F d) (hpath : F path) : Within F (d.defer path type) := by
  constructor
  · intro e he
    rcases Table.fst_of_mem_place he with rfl | he
    · rfl
    · exact hd.key e he
  · intro e he
    rcases Table.fst_of_mem_place he with rfl | he
    · exact hpath
    · exact hd.family e he

/-- Deferred records stay deferred when another one is. Paths of one spelling are the same. -/
theorem Holds.defer (hF : Path.Family F) (hk : F k) (hpath : F path) (h : d.Holds k) :
    (d.defer path type).Holds k := by
  obtain ⟨type', hmem⟩ := h
  by_cases heq : k.text = path.text
  · have htext : path.text.toList = k.text.toList ++ [] := by rw [heq, List.append_nil]
    have htext' : k.text.toList = path.text.toList ++ [] := by rw [heq, List.append_nil]
    have hinitial := hF.prefix_of_text hk hpath (fun _ _ h => by cases h) htext
    have hinitial' := hF.prefix_of_text hpath hk (fun _ _ h => by cases h) htext'
    have hsame : k = path := hinitial.eq_of_length_le hinitial'.length_le
    exact ⟨type, hsame ▸ Table.mem_place_self k.text (k, type) d.entries⟩
  · exact ⟨type', Table.mem_place hmem heq⟩

/-- What waits for a write lies above it. -/
theorem above_of_mem_waiting (hF : Path.Family F) (hd : Within F d) (hpath : F path)
    (h : (k, type) ∈ d.waiting ['.', '['] path) : k.Above path := by
  obtain ⟨e, he, hsnd⟩ := List.mem_map.mp h
  obtain ⟨hmem, hgoes⟩ := List.mem_filter.mp he
  obtain ⟨c, rest, htext, hc⟩ := Text.goesOnWith_iff.mp hgoes
  have hends : EndsAt isInStep (c :: rest) := by
    intro c' rest' heq
    cases heq
    exact hc
  rw [hd.key e hmem, hsnd] at htext
  have hfamily := hd.family e hmem
  rw [hsnd] at hfamily
  refine .of_isPrefix (hF.prefix_of_text hfamily hpath hends htext) ?_
  rintro rfl
  simp at htext

/-- Deferred records above a write wait for it. -/
theorem mem_waiting_of_above (h : d.Holds k) (habove : k.Above path) :
    ∃ type, (k, type) ∈ d.waiting ['.', '['] path := by
  obtain ⟨type, hmem⟩ := h
  refine ⟨type, List.mem_map.mpr ⟨_, List.mem_filter.mpr ⟨hmem, ?_⟩, rfl⟩⟩
  obtain ⟨s, rest, rfl⟩ := habove
  obtain ⟨c, more, hs, hc⟩ := s.exists_text_eq
  refine Text.goesOnWith_iff.mpr ⟨c, more ++ (Path.text rest).toList, ?_, hc⟩
  rw [Path.text_append, String.toList_append, Path.toList_text_cons, hs]
  rfl

/-- A record waits before those beneath it. -/
theorem pairwise_waiting (hd : Within F d) :
    (d.waiting ['.', '['] path).Pairwise fun a b => ¬b.1.Above a.1 := by
  refine List.Pairwise.map _ ?_ ((d.sorted.imp_of_mem ?_).filter _) (R := fun e e' =>
    e.1 = e.2.1.text ∧ e'.1 = e'.2.1.text ∧ e.1 < e'.1)
  · rintro e e' ⟨he, he', hlt⟩ habove
    have hgt := habove.text_lt
    rw [he, he'] at hlt
    exact String.lt_asymm hlt hgt
  · intro e e' he he' hlt
    exact ⟨hd.key e he, hd.key e' he', hlt⟩

/-! ## The guards -/

theorem guards_eq_foldr : d.guards [] path = (d.waiting ['.', '['] path).foldr
    (fun parent rest => guard ⟨.output, parent.1⟩ parent.2 ++ rest) .done :=
  rfl

/-- Guards keep what lies above the same write. -/
theorem keeps_guards (hF : Path.Family F) (hd : Within F d) (hpath : F path)
    (hk : ∀ l : Path, l.Above path → k.length < l.length ∨ l <+: k) :
    Code.Keeps k (d.guards [] path) := by
  have hall : ∀ e ∈ d.waiting ['.', '['] path, k.length < e.1.length ∨ e.1 <+: k :=
    fun e he => hk e.1 (above_of_mem_waiting hF hd hpath he)
  rw [guards_eq_foldr]
  generalize d.waiting ['.', '['] path = l at hall
  induction l with
  | nil => trivial
  | cons e l ih =>
    refine ⟨?_, ih fun e' he' => hall e' (List.mem_cons_of_mem _ he')⟩
    rcases hall e List.mem_cons_self with hlt | hinitial
    · exact .inr ⟨⟨rfl, .inl ⟨rfl, hlt⟩⟩, trivial⟩
    · exact .inl ⟨rfl, hinitial⟩

/-- With the guards before them, statements that write beneath everything above a path are grounded
where what is not known to be allocated there is deferred. -/
theorem grounded_guards (hF : Path.Family F) (hd : Within F d) (hpath : F path) {rest : Code}
    (hall : ∀ k, k.Above path → known k ∨ d.Holds k)
    (hbelow : ∀ k, k.Above path → Code.WritesBelow k rest)
    (hrest : Grounded owned (·.Above path) rest) : Grounded owned known (d.guards [] path ++ rest) := by
  rw [guards_eq_foldr]
  have habove : ∀ e ∈ d.waiting ['.', '['] path, e.1.Above path :=
    fun e he => above_of_mem_waiting hF hd hpath he
  have hsorted : (d.waiting ['.', '['] path).Pairwise fun a b => ¬b.1.Above a.1 :=
    pairwise_waiting hd
  have hall' : ∀ k, k.Above path → known k ∨ ∃ e ∈ d.waiting ['.', '['] path, e.1 = k := by
    intro k hk
    refine (hall k hk).imp_right fun hholds => ?_
    obtain ⟨type, hmem⟩ := mem_waiting_of_above hholds hk
    exact ⟨_, hmem, rfl⟩
  generalize d.waiting ['.', '['] path = l at habove hsorted hall'
  clear hall
  induction l generalizing known with
  | nil =>
    refine hrest.mono fun k hk => (hall' k hk).resolve_right ?_
    rintro ⟨e, he, -⟩
    cases he
  | cons e l ih =>
    obtain ⟨hfirst, hsorted⟩ := List.pairwise_cons.mp hsorted
    have hroom : e.1.Above path := habove e List.mem_cons_self
    -- What lies above the first record is known: it does not wait, since it would come earlier.
    have hrooted : e.1.Rooted known := by
      intro k hk
      refine (hall' k (hk.trans hroom)).resolve_right ?_
      rintro ⟨e', he', rfl⟩
      rcases List.mem_cons.mp he' with rfl | he'
      · exact absurd hk.length_lt (Nat.lt_irrefl _)
      · exact hfirst e' he' hk
    have hafter : ∀ k, (k.Above path ∧ known k ∨ k = e.1) →
        known k ∧ (k.length < e.1.length ∨ e.1 <+: k) ∨ k = e.1 := by
      rintro k (⟨hk, hknown⟩ | rfl)
      · exact .inl ⟨hknown, hk.compare hroom⟩
      · exact .inr rfl
    refine .guard hrooted (hbelow _ hroom).after hafter ?_
    refine ih (fun e' he' => habove e' (List.mem_cons_of_mem _ he')) hsorted fun k hk => ?_
    rcases hall' k hk with hknown | ⟨e', he', rfl⟩
    · exact .inl (.inl ⟨hk, hknown⟩)
    · rcases List.mem_cons.mp he' with rfl | he'
      · exact .inl (.inr rfl)
      · exact .inr ⟨e', he', rfl⟩

variable {e : Expr} {rest : Code} {known' : Path → Prop}

/-- A write under guards keeps what lies above it. -/
theorem keeps_write (hF : Path.Family F) (hd : Within F d) (hpath : F path) (hk : k.Above path)
    (hcall : e.isCall = false) (hrest : Code.Keeps k rest) :
    Code.Keeps k (d.guards [] path ++ .step (.assign ⟨.output, path⟩ e) rest) :=
  Code.keeps_append.mpr ⟨keeps_guards hF hd hpath fun _ hl => hk.compare hl,
    ⟨hcall, .inl ⟨rfl, hk.length_lt⟩⟩, hrest⟩

/-- A write under guards is grounded in all above it that is not deferred. -/
theorem grounded_write (hF : Path.Family F) (hd : Within F d) (hpath : F path)
    (he : e.ReadsFrom (·.Above path)) (howned : e.isNewRecord = true → owned path)
    (hknown : ∀ k, known' k → k.Above path ∨ k = path ∧ e.isMade = true)
    (hrest : Grounded owned known' rest) :
    Grounded owned (fun k => k.Above path ∧ ¬d.Holds k)
      (d.guards [] path ++ .step (.assign ⟨.output, path⟩ e) rest) := by
  refine grounded_guards hF hd hpath (fun k hk => ?_) (fun k hk => .inl ⟨rfl, hk⟩) ?_
  · by_cases hholds : d.Holds k
    · exact .inr hholds
    · exact .inl ⟨hk, hholds⟩
  · exact .write (fun _ => id) he howned (fun k hk => (hknown k hk).imp_left fun h =>
      ⟨h, h.length_lt⟩) hrest

end Deferred

end RecordBridge

import Mathlib.Data.List.Nodup
import Mathlib.Data.List.Perm.Subperm
import RecordBridge.Proofs.Schema.Within
import RecordBridge.Schema.Walk

/-!
# Walks in preorder

A walk meets the paths of fields on which no field is twice: each once for every way to choose its fields
by their positions in their groups (`Schema.Located`), in the lexicographic order of these positions, which
is preorder. The number of fields bounds the length of such paths, so the bound of the walk cuts off none
(`mem_trails`).

A visitor that asks to stop at some visit is shown the visits up to that one and no others
(`walk_preorder`).
-/

namespace RecordBridge

/-- No field is twice on a path. -/
def Simple (path : List Field) : Prop :=
  (path.map (·.id)).Nodup

instance (path : List Field) : Decidable (Simple path) :=
  inferInstanceAs (Decidable (List.Nodup _))

theorem Simple.of_append {path more : List Field} (h : Simple (path ++ more)) : Simple path := by
  rw [Simple, List.map_append] at h
  exact (List.nodup_append.mp h).1

/-- A path with one more field is simple if that field is not on it. -/
theorem simple_snoc {path : List Field} {f : Field} (h : Simple path) :
    Simple (path ++ [f]) ↔ ¬path.any (·.id == f.id) = true := by
  rw [Simple, List.map_append, List.map_singleton, List.nodup_append_comm, List.singleton_append,
    List.nodup_cons, and_iff_left (show (path.map (·.id)).Nodup from h), List.mem_map,
    List.any_eq_true]
  simp only [beq_iff_eq]

namespace Schema

variable (s : Schema)

/-! ## Paths by positions -/

/-- Positions lead from a group along a path: the first one is that of a field in the group, and each
further one that of a field in the record of the field before. -/
inductive Located : (group : List Field) → (positions : List Nat) → (path : List Field) → Prop where
  | here {group : List Field} {i : Nat} {f : Field} (hf : group[i]? = some f) :
    Located group [i] [f]
  | within {group : List Field} {i : Nat} {f : Field} {ref : RecordRef} {positions : List Nat}
    {path : List Field} (hf : group[i]? = some f) (href : f.type.record? = some ref)
    (hinner : Located (s.fields ref) positions path) : Located group (i :: positions) (f :: path)

/-- A path of fields with their positions. -/
abbrev Trail := List Nat × List Field

/-- The trails that begin with one field: it alone, and those on through its record. -/
def trailsFrom (below : RecordRef → List Trail) (f : Field) (i : Nat) : List Trail :=
  ([i], [f]) ::
    match f.type.record? with
    | some ref => (below ref).map fun t => (i :: t.1, f :: t.2)
    | none => []

/-- The trails of the visits below a path. -/
def trailsBelow : (depth : Nat) → (path group : List Field) → List Trail
  | 0, _, _ => []
  | depth + 1, path, group =>
    group.zipIdx.flatMap fun (f, i) =>
      if path.any (·.id == f.id) then []
      else trailsFrom (fun ref => trailsBelow depth (path ++ [f]) (s.fields ref)) f i

variable {s} {below : RecordRef → List Trail} {t : Trail} {f : Field} {i depth : Nat}
  {path group : List Field}

theorem mem_trailsFrom : t ∈ trailsFrom below f i ↔ t = ([i], [f]) ∨
    ∃ ref u, f.type.record? = some ref ∧ u ∈ below ref ∧ t = (i :: u.1, f :: u.2) := by
  rw [trailsFrom, List.mem_cons]
  refine or_congr_right ?_
  split
  · rename_i ref href
    rw [List.mem_map]
    constructor
    · rintro ⟨u, hu, rfl⟩
      exact ⟨ref, u, href, hu, rfl⟩
    · rintro ⟨ref', u, href', hu, rfl⟩
      obtain rfl : ref' = ref := Option.some.inj (href'.symm.trans href)
      exact ⟨u, hu, rfl⟩
  · rename_i hnone
    refine ⟨fun h => absurd h List.not_mem_nil, ?_⟩
    rintro ⟨ref, _, href, -⟩
    exact absurd href (by rw [hnone]; exact nofun)

theorem exists_positions_of_mem_trailsFrom (ht : t ∈ trailsFrom below f i) :
    ∃ positions, t.1 = i :: positions := by
  rcases mem_trailsFrom.mp ht with rfl | ⟨_, u, -, -, rfl⟩
  · exact ⟨[], rfl⟩
  · exact ⟨u.1, rfl⟩

theorem mem_trailsBelow_succ : t ∈ s.trailsBelow (depth + 1) path group ↔
    ∃ f i, group[i]? = some f ∧ ¬path.any (·.id == f.id) = true ∧
      t ∈ trailsFrom (fun ref => s.trailsBelow depth (path ++ [f]) (s.fields ref)) f i := by
  rw [trailsBelow, List.mem_flatMap, Prod.exists]
  refine exists_congr fun f => exists_congr fun i => ?_
  rw [List.mk_mem_zipIdx_iff_getElem?]
  refine and_congr_right fun _ => ?_
  dsimp only
  split
  · rename_i hold
    exact ⟨fun h => absurd h List.not_mem_nil, fun h => absurd hold h.1⟩
  · rename_i hnew
    exact (and_iff_right hnew).symm

theorem exists_positions_of_mem_trailsBelow (ht : t ∈ s.trailsBelow depth path group) :
    ∃ i positions, t.1 = i :: positions := by
  cases depth with
  | zero => exact absurd ht List.not_mem_nil
  | succ depth =>
    obtain ⟨f, i, -, -, ht⟩ := mem_trailsBelow_succ.mp ht
    exact ⟨i, exists_positions_of_mem_trailsFrom ht⟩

/-- The trails are those of the visits. -/
theorem visitsBelow_eq_trailsBelow :
    (s.visitsBelow depth path group).map (fun v => v.path ++ [v.field]) =
      (s.trailsBelow depth path group).map fun t => path ++ t.2 := by
  induction depth generalizing path group with
  | zero => rfl
  | succ depth ih =>
    conv_lhs => rw [← List.zipIdx_map_fst 0 group]
    rw [visitsBelow, trailsBelow, List.flatMap_map, List.map_flatMap, List.map_flatMap]
    refine List.flatMap_congr fun e _ => ?_
    dsimp only
    split
    · rfl
    · rw [trailsFrom, List.map_cons, List.map_cons]
      refine congrArg _ ?_
      cases e.1.type.record? with
      | none => rfl
      | some ref =>
        dsimp only
        rw [ih, List.map_map]
        exact List.map_congr_left fun t _ => List.append_assoc _ _ _

/-- A trail is a located path that is simple together with the path above it. -/
theorem mem_trailsBelow (hpath : Simple path) : t ∈ s.trailsBelow depth path group ↔
    s.Located group t.1 t.2 ∧ Simple (path ++ t.2) ∧ t.2.length ≤ depth := by
  induction depth generalizing path group t with
  | zero =>
    obtain ⟨positions, fields⟩ := t
    refine ⟨fun h => absurd h List.not_mem_nil, fun ⟨hlocated, _, hlength⟩ => ?_⟩
    cases hlocated <;> cases hlength
  | succ depth ih =>
    obtain ⟨positions, fields⟩ := t
    rw [mem_trailsBelow_succ]
    constructor
    · rintro ⟨f, i, hf, hnew, ht⟩
      have hsimple := (simple_snoc hpath).mpr hnew
      rcases mem_trailsFrom.mp ht with ht | ⟨ref, u, href, hu, ht⟩
      · cases ht
        exact ⟨.here hf, hsimple, Nat.le_add_left 1 depth⟩
      · cases ht
        obtain ⟨hlocated, hwhole, hlength⟩ := (ih hsimple).mp hu
        rw [List.append_assoc] at hwhole
        exact ⟨.within hf href hlocated, hwhole, Nat.succ_le_succ hlength⟩
    · rintro ⟨hlocated, hwhole, hlength⟩
      -- The first field is passed over only if it is on the path above.
      have hfirst : ∀ {f more}, Simple (path ++ f :: more) → Simple (path ++ [f]) := by
        intro f more h
        rw [← List.singleton_append, ← List.append_assoc] at h
        exact h.of_append
      cases hlocated with
      | @here _ i f hf =>
        exact ⟨f, i, hf, (simple_snoc hpath).mp (hfirst hwhole), mem_trailsFrom.mpr (.inl rfl)⟩
      | @within _ i f ref positions fields hf href hinner =>
        have hsimple := hfirst hwhole
        have hbelow : Simple ((path ++ [f]) ++ fields) := by rwa [List.append_assoc]
        refine ⟨f, i, hf, (simple_snoc hpath).mp hsimple, mem_trailsFrom.mpr (.inr
          ⟨ref, (positions, fields), href, ?_, rfl⟩)⟩
        exact (ih hsimple).mpr ⟨hinner, hbelow, Nat.le_of_succ_le_succ hlength⟩

/-- Trails come in the lexicographic order of their positions. -/
theorem pairwise_trailsBelow :
    (s.trailsBelow depth path group).Pairwise fun t u => t.1 < u.1 := by
  induction depth generalizing path group with
  | zero => exact .nil
  | succ depth ih =>
    rw [trailsBelow]
    refine List.pairwise_flatMap.mpr ⟨fun e _ => ?_, ?_⟩
    · -- Below one field: the field itself comes first, as its positions begin all those below.
      dsimp only
      split
      · exact .nil
      · refine List.pairwise_cons.mpr ⟨fun t ht => ?_, ?_⟩
        · split at ht
          · obtain ⟨u, hu, rfl⟩ := List.mem_map.mp ht
            obtain ⟨_, _, hu⟩ := exists_positions_of_mem_trailsBelow hu
            rw [hu]
            exact List.cons_lt_cons_iff.mpr (.inr ⟨rfl, List.nil_lt_cons _ _⟩)
          · exact absurd ht List.not_mem_nil
        · split
          · exact List.pairwise_map.mpr (ih.imp fun h => List.cons_lt_cons_iff.mpr (.inr ⟨rfl, h⟩))
          · exact .nil
    · -- Two fields of a group differ in the first position.
      have hpositions : group.zipIdx.Pairwise fun e e' => e.2 < e'.2 := by
        rw [← List.pairwise_map (f := Prod.snd) (R := (· < ·)), List.zipIdx_map_snd]
        exact List.pairwise_lt_range'
      refine hpositions.imp fun hlt t ht u hu => ?_
      dsimp only at ht hu
      split at ht
      · exact absurd ht List.not_mem_nil
      · split at hu
        · exact absurd hu List.not_mem_nil
        · obtain ⟨_, ht⟩ := exists_positions_of_mem_trailsFrom ht
          obtain ⟨_, hu⟩ := exists_positions_of_mem_trailsFrom hu
          rw [ht, hu]
          exact List.cons_lt_cons_iff.mpr (.inl hlt)

/-! ## The bound of a walk -/

/-- The fields on a located path are in the group or among those of the records. -/
theorem Located.subset {positions : List Nat} (h : s.Located group positions path) :
    path ⊆ group ++ s.records.flatMap (·.2) := by
  have hfields : ∀ ref, s.fields ref ⊆ s.records.flatMap (·.2) := fun ref =>
    fields_of_records (P := (· ⊆ s.records.flatMap (·.2))) (List.nil_subset _)
      (fun entry hentry _ hf => List.mem_flatMap.mpr ⟨entry, hentry, hf⟩) ref
  induction h with
  | here hf =>
    exact List.cons_subset.mpr ⟨List.mem_append_left _ (List.mem_of_getElem? hf), List.nil_subset _⟩
  | within hf _ _ ih =>
    refine List.cons_subset.mpr ⟨List.mem_append_left _ (List.mem_of_getElem? hf), fun g hg => ?_⟩
    rcases List.mem_append.mp (ih hg) with hg | hg
    · exact List.mem_append_right _ (hfields _ hg)
    · exact List.mem_append_right _ hg

/-- A simple path has no more fields than there are. -/
theorem Located.length_le {positions : List Nat} (h : s.Located group positions path)
    (hsimple : Simple path) : path.length ≤ group.length + s.fieldCount := by
  have hlength := (List.subperm_of_subset (List.Nodup.of_map _ hsimple) h.subset).length_le
  rwa [List.length_append] at hlength

/-- The trails of the visits of a walk. -/
def trails (s : Schema) (group : List Field) : List Trail :=
  s.trailsBelow (group.length + s.fieldCount + 1) [] group

/-- The trails of a walk are the located paths that are simple. -/
theorem mem_trails : t ∈ s.trails group ↔ s.Located group t.1 t.2 ∧ Simple t.2 := by
  have hnil : Simple [] := List.nodup_nil
  rw [trails, mem_trailsBelow hnil, List.nil_append]
  refine and_congr_right fun hlocated => and_iff_left_of_imp fun hsimple => ?_
  exact Nat.le_succ_of_le (hlocated.length_le hsimple)

/-! ## Visitors -/

section Visitors

variable {σ : Type} (visitor : σ → Visit → σ × Bool)

/-- The state of a visitor that was shown some visits. -/
def shown (state : σ) (visits : List Visit) : σ :=
  visits.foldl (fun state v => (visitor state v).1) state

/-- A visitor that is shown some visits, one after the other, does not ask to stop. -/
def NeverStops (state : σ) (visits : List Visit) : Prop :=
  ∀ seen v, seen ++ [v] <+: visits → (visitor (shown visitor state seen) v).2 = false

/-- A visitor that is shown some visits, one after the other, asks to stop at the `k`-th one if there
are so many, and not before. -/
def StopsAt (state : σ) (k : Nat) (visits : List Visit) : Prop :=
  ∀ seen v, seen ++ [v] <+: visits → seen.length < k →
    (visitor (shown visitor state seen) v).2 = decide (seen.length + 1 = k)

variable {visitor} {state : σ} {v : Visit} {rest : List Visit} {k : Nat}

theorem first_prefix : [v] <+: v :: rest :=
  List.prefix_append [v] rest

theorem NeverStops.next (h : NeverStops visitor state (v :: rest)) :
    NeverStops visitor (visitor state v).1 rest := fun seen w hseen =>
  h (v :: seen) w (List.cons_prefix_cons.mpr ⟨rfl, hseen⟩)

theorem StopsAt.next (h : StopsAt visitor state (k + 1) (v :: rest)) :
    StopsAt visitor (visitor state v).1 k rest := by
  intro seen w hseen hlt
  refine (h (v :: seen) w (List.cons_prefix_cons.mpr ⟨rfl, hseen⟩) (Nat.succ_lt_succ hlt)).trans ?_
  exact decide_eq_decide.mpr Nat.add_right_cancel_iff

/-- Who never asks to stop is shown everything. -/
theorem tour_of_neverStops {visits : List Visit} (h : NeverStops visitor state visits) :
    tour visitor state visits = (shown visitor state visits, false) := by
  induction visits generalizing state with
  | nil => rfl
  | cons v rest ih =>
    have hnext := ih h.next
    have hgoes : (visitor state v).2 = false := h [] v first_prefix
    rw [tour]
    rcases heq : visitor state v with ⟨next, stops⟩
    rw [heq] at hnext hgoes
    subst hgoes
    rw [shown, List.foldl_cons, heq]
    exact hnext

/-- Who asks to stop at its `k`-th visit is shown the first `k` ones. -/
theorem tour_of_stopsAt {visits : List Visit} (hk : 1 ≤ k) (h : StopsAt visitor state k visits) :
    tour visitor state visits =
      (shown visitor state (visits.take k), decide (k ≤ visits.length)) := by
  induction visits generalizing state k with
  | nil =>
    rw [tour, List.take_nil, List.length_nil, decide_eq_false (Nat.not_le_of_lt hk)]
    rfl
  | cons v rest ih =>
    obtain ⟨k, rfl⟩ := Nat.exists_eq_add_of_le' hk
    -- The answer to the first visit is to stop exactly if that is the one.
    have hstop : (visitor state v).2 = decide (0 + 1 = k + 1) :=
      h [] v first_prefix (Nat.succ_pos k)
    have hnext := h.next
    rw [tour, List.take_succ_cons, shown, List.foldl_cons]
    rcases heq : visitor state v with ⟨next, stops⟩
    rw [heq] at hstop hnext
    dsimp only at hstop
    cases k with
    | zero =>
      subst hstop
      simp
    | succ k =>
      rw [decide_eq_false (by omega)] at hstop
      subst hstop
      dsimp only
      rw [ih (Nat.succ_pos k) hnext, shown]
      simp

end Visitors

end Schema

/-! ## Walks -/

namespace Visit

/-- The fields that lead to a visit, with the one that is visited. -/
def whole (v : Visit) : List Field :=
  v.path ++ [v.field]

/-- The visit at the end of a path. -/
def ofPath (path : List Field) : Visit :=
  ⟨path.dropLast, path.getLast?.getD default⟩

theorem ofPath_whole (v : Visit) : ofPath v.whole = v := by
  rw [ofPath, whole, List.dropLast_concat, List.getLast?_concat]
  rfl

theorem whole_ofPath {path : List Field} (h : path ≠ []) : (ofPath path).whole = path := by
  rw [whole, ofPath, List.getLast?_eq_some_getLast h]
  exact List.dropLast_append_getLast h

/-- The path in Go names goes on with the name of each field that is entered. -/
theorem goPath_snoc (path : List Field) (f g : Field) :
    (⟨path ++ [f], g⟩ : Visit).goPath = (⟨path, f⟩ : Visit).goPath ++ "." ++ pascal f.name := by
  simp [goPath, String.join_append, String.append_assoc]

/-- The path in schema names goes on with the name of each field that is entered. -/
theorem schemaPath_snoc (path : List Field) (f g : Field) :
    (⟨path ++ [f], g⟩ : Visit).schemaPath = (⟨path, f⟩ : Visit).schemaPath ++ "." ++ f.name := by
  simp [schemaPath, String.join_append, String.append_assoc]

end Visit

namespace Schema

variable {s : Schema} {group : List Field}

/-- The visits of a walk are the ends of its trails. -/
theorem visits_eq_trails : s.visits group = (s.trails group).map fun t => Visit.ofPath t.2 := by
  have hwhole : (s.visits group).map Visit.whole = (s.trails group).map (·.2) :=
    visitsBelow_eq_trailsBelow
  calc s.visits group
      = ((s.visits group).map Visit.whole).map Visit.ofPath := by
        rw [List.map_map, show Visit.ofPath ∘ Visit.whole = id from funext Visit.ofPath_whole,
          List.map_id]
    _ = (s.trails group).map fun t => Visit.ofPath t.2 := by
        rw [hwhole, List.map_map]
        rfl

theorem Located.ne_nil {positions : List Nat} {path : List Field}
    (h : s.Located group positions path) : path ≠ [] := by
  cases h <;> exact List.cons_ne_nil _ _

/-- A walk visits in preorder the paths from a group on which no field is twice, each once for its
positions, and tells the names on the way to each. A visitor that never asks to stop is shown all of
them; one that asks at its `k`-th visit is shown the first `k`, and the walk tells whether there were so
many. -/
theorem walk_preorder (s : Schema) (group : List Field) :
    (∀ f, (⟨[], f⟩ : Visit).goPath = "" ∧ (⟨[], f⟩ : Visit).schemaPath = "") ∧
    (∀ path f g,
      (⟨path ++ [f], g⟩ : Visit).goPath = (⟨path, f⟩ : Visit).goPath ++ "." ++ pascal f.name ∧
      (⟨path ++ [f], g⟩ : Visit).schemaPath = (⟨path, f⟩ : Visit).schemaPath ++ "." ++ f.name) ∧
    ∃ visits : List (List Nat × Visit),
      visits.Pairwise (fun a b => a.1 < b.1) ∧
      (∀ positions v, (positions, v) ∈ visits ↔
        s.Located group positions (v.path ++ [v.field]) ∧ Simple (v.path ++ [v.field])) ∧
      ∀ {σ : Type} (visitor : σ → Visit → σ × Bool) (state : σ),
        (NeverStops visitor state (visits.map (·.2)) →
          s.walk visitor state group = (shown visitor state (visits.map (·.2)), false)) ∧
        ∀ k, 1 ≤ k → StopsAt visitor state k (visits.map (·.2)) →
          s.walk visitor state group =
            (shown visitor state ((visits.map (·.2)).take k), decide (k ≤ visits.length)) := by
  refine ⟨fun _ => ⟨rfl, rfl⟩,
    fun path f g => ⟨Visit.goPath_snoc path f g, Visit.schemaPath_snoc path f g⟩,
    (s.trails group).map fun t => (t.1, Visit.ofPath t.2), ?_, fun positions v => ?_,
    fun visitor state => ?_⟩
  · exact List.pairwise_map.mpr pairwise_trailsBelow
  · rw [List.mem_map]
    constructor
    · rintro ⟨t, ht, heq⟩
      cases heq
      rw [mem_trails] at ht
      rw [← Visit.whole, Visit.whole_ofPath ht.1.ne_nil]
      exact ht
    · rintro h
      exact ⟨(positions, v.whole), mem_trails.mpr h, by rw [Visit.ofPath_whole]⟩
  · -- The walk tours the visits, which are the trails without their positions.
    have hvisits : ((s.trails group).map fun t => (t.1, Visit.ofPath t.2)).map (·.2) =
        s.visits group := by
      rw [visits_eq_trails, List.map_map]
      rfl
    have hlength : ((s.trails group).map fun t => (t.1, Visit.ofPath t.2)).length =
        (s.visits group).length := by
      rw [← hvisits, List.length_map, List.length_map, List.length_map]
    rw [hvisits, hlength, walk_eq_tour]
    exact ⟨tour_of_neverStops, fun k hk => tour_of_stopsAt hk⟩

/-- Notes the visits that it is shown, and asks to stop at the `k`-th one. -/
def notingUntil (k : Nat) (seen : List Visit) (v : Visit) : List Visit × Bool :=
  (seen ++ [v], seen.length + 1 == k)

theorem shown_notingUntil (k : Nat) (noted seen : List Visit) :
    shown (notingUntil k) noted seen = noted ++ seen := by
  induction seen generalizing noted with
  | nil => rw [List.append_nil]; rfl
  | cons v rest ih =>
    rw [shown, List.foldl_cons]
    exact (ih (noted ++ [v])).trans (List.append_assoc _ _ _)

theorem stopsAt_notingUntil (k : Nat) (visits : List Visit) :
    StopsAt (notingUntil k) [] k visits := by
  intro seen v _ _
  rw [shown_notingUntil]
  rfl

/-- A link that leads to its own record. -/
def link : Field :=
  ⟨0, "next", false, .record ⟨0, "Chain", "chain.thrift"⟩, []⟩

/-- The record of links, each with a name. -/
def chainOfLinks : Schema :=
  ⟨[(0, [⟨1, "name", true, .text, []⟩, link])]⟩

/-- A visitor that asks to stop at its second visit notes the first two of the visits, among which are
those of a link and of the name beneath it. -/
theorem chainOfLinks_walk_preorder :
    ∃ visits : List (List Nat × Visit), visits.Pairwise (fun a b => a.1 < b.1) ∧
      ([0], ⟨[], link⟩) ∈ visits ∧ ([0, 0], ⟨[link], ⟨1, "name", true, .text, []⟩⟩) ∈ visits ∧
      1 ≤ 2 ∧ StopsAt (notingUntil 2) [] 2 (visits.map (·.2)) ∧
      chainOfLinks.walk (notingUntil 2) [] [link] =
        ((visits.map (·.2)).take 2, decide (2 ≤ visits.length)) := by
  obtain ⟨-, -, visits, hsorted, hvisits, hwalk⟩ := walk_preorder chainOfLinks [link]
  have hstops := (hwalk (notingUntil 2) []).2 2 (by decide) (stopsAt_notingUntil 2 _)
  rw [shown_notingUntil, List.nil_append] at hstops
  refine ⟨visits, hsorted, ?_, ?_, by decide, stopsAt_notingUntil 2 _, hstops⟩
  · exact (hvisits _ _).mpr ⟨.here rfl, by decide⟩
  · exact (hvisits _ _).mpr ⟨.within rfl rfl (.here rfl), by decide⟩

end Schema

end RecordBridge

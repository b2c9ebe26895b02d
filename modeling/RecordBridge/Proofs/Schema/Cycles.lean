import RecordBridge.Proofs.Schema.Within

/-!
# Cycles

A record occurs in a type behind aliases, as an element, as a key or as a value (`FieldType.Holds`), and
an edge leads from a record to each one that occurs in the types of its fields (`Schema.Edge`).

Whether a group of fields leads to a cycle is asked by two depth first searches, one within the other
(`Schema.hasCycle`). The outer one enters the records beneath the group and asks the inner one of each
whether it meets that record again. Each search keeps the records that it has seen, passes over these, and
stops at what it looks for. Passing over a record loses nothing: all that it leads to has been searched, or
is about to be (`Explored`). So both are exact (`meetsItself_iff`, `hasCycle_iff`), and the inner one tells
what the search tells that is breadth first (`meetsItself_eq_isCyclic`).
-/

namespace RecordBridge

namespace FieldType

/-- A record occurs in a type. -/
inductive Holds : FieldType → RecordRef → Prop where
  | record (ref : RecordRef) : Holds (.record ref) ref
  | behind {name file : String} {target : FieldType} {ref : RecordRef} (h : Holds target ref) :
    Holds (.alias name file target) ref
  | inList {element : FieldType} {ref : RecordRef} (h : Holds element ref) :
    Holds (.list element) ref
  | inSet {element : FieldType} {form : SetForm} {ref : RecordRef} (h : Holds element ref) :
    Holds (.set element form) ref
  | asKey {key value : FieldType} {ref : RecordRef} (h : Holds key ref) : Holds (.map key value) ref
  | asValue {key value : FieldType} {ref : RecordRef} (h : Holds value ref) :
    Holds (.map key value) ref

theorem mem_mentions_iff {t : FieldType} {ref : RecordRef} : ref ∈ t.mentions ↔ t.Holds ref := by
  constructor
  · intro h
    induction t with
    | record other =>
      obtain rfl := List.mem_singleton.mp h
      exact .record _
    | «alias» _ _ _ ih => exact .behind (ih h)
    | list _ ih => exact .inList (ih h)
    | set _ _ ih => exact .inSet (ih h)
    | map _ _ ihKey ihValue =>
      rcases List.mem_append.mp h with h | h
      · exact .asKey (ihKey h)
      · exact .asValue (ihValue h)
    | _ => cases h
  · -- One case for each way to hold a record.
    intro h
    induction h with
    | record => exact List.mem_singleton_self _
    | behind _ ih => exact ih
    | inList _ ih => exact ih
    | inSet _ ih => exact ih
    | asKey _ ih => exact List.mem_append_left _ ih
    | asValue _ ih => exact List.mem_append_right _ ih

end FieldType

namespace Schema

variable (s : Schema)

/-! ## The graph of a schema -/

/-- One record occurs in the type of a field of another one. -/
def Edge (a b : Nat) : Prop :=
  ∃ f ∈ (s.records.lookup a).getD [], ∃ ref, f.type.Holds ref ∧ ref.id = b

theorem mentions_eq_edge : s.Mentions = s.Edge := by
  funext a b
  refine propext ⟨fun h => ?_, fun ⟨f, hf, ref, href, hid⟩ => ?_⟩
  · obtain ⟨ref, href, hid⟩ := List.mem_map.mp h
    obtain ⟨f, hf, href⟩ := mem_mentioned.mp href
    exact ⟨f, hf, ref, FieldType.mem_mentions_iff.mp href, hid⟩
  · exact List.mem_map.mpr
      ⟨ref, mem_mentioned.mpr ⟨f, hf, FieldType.mem_mentions_iff.mpr href⟩, hid⟩

/-- A record can be reached from a group of fields. -/
def Beneath (fields : List Field) (id : Nat) : Prop :=
  ∃ f ∈ fields, ∃ ref, f.type.Holds ref ∧ Relation.ReflTransGen s.Edge ref.id id

theorem beneath_iff {fields : List Field} {id : Nat} :
    s.Beneath fields id ↔ ∃ a ∈ (mentioned fields).map (·.id), Relation.ReflTransGen s.Mentions a id := by
  rw [mentions_eq_edge]
  constructor
  · rintro ⟨f, hf, ref, href, hreach⟩
    exact ⟨ref.id, List.mem_map_of_mem (mem_mentioned.mpr ⟨f, hf, FieldType.mem_mentions_iff.mpr href⟩),
      hreach⟩
  · rintro ⟨a, ha, hreach⟩
    obtain ⟨ref, href, rfl⟩ := List.mem_map.mp ha
    obtain ⟨f, hf, href⟩ := mem_mentioned.mp href
    exact ⟨f, hf, ref, FieldType.mem_mentions_iff.mp href, hreach⟩

/-! ## Depth first searches -/

/-- Looks behind records in order, until something is found. What is seen behind one of them is passed
over behind those after it. -/
def lookEach (look : (seen : List Nat) → Nat → Bool × List Nat) :
    (seen : List Nat) → List Nat → Bool × List Nat
  | seen, [] => (false, seen)
  | seen, id :: rest =>
    match look seen id with
    | (true, seen) => (true, seen)
    | (false, seen) => lookEach look seen rest

/-- Looks for a goal at a record and behind it, and tells what it has seen. It goes no deeper than `depth`
records. -/
def look (goal : Nat → Bool) : (depth : Nat) → (seen : List Nat) → Nat → Bool × List Nat
  | 0, seen, _ => (false, seen)
  | depth + 1, seen, id =>
    if id ∈ seen then (false, seen)
    else if goal id then (true, id :: seen)
    else lookEach (look goal depth) (id :: seen) (s.successors id)

/-- Whether a depth first search from some records comes to a goal. -/
def finds (goal : Nat → Bool) (start : List Nat) : Bool :=
  (lookEach (s.look goal (s.records.length + 1)) [] start).1

/-- Whether a search from the fields of a record meets the record again. -/
def meetsItself (id : Nat) : Bool :=
  s.finds (· == id) (s.successors id)

/-- Whether a search from a group of fields comes to a record that meets itself. -/
def hasCycle (fields : List Field) : Bool :=
  s.finds s.meetsItself ((mentioned fields).map (·.id))

variable {s} {goal : Nat → Bool} {depth : Nat} {seen seen' : List Nat} {ids : List Nat} {id : Nat}

/-! ## What is found -/

/-- What is found behind some records is found behind one of them. -/
theorem exists_of_lookEach {look : List Nat → Nat → Bool × List Nat}
    (h : (lookEach look seen ids).1 = true) : ∃ id ∈ ids, ∃ seen, (look seen id).1 = true := by
  induction ids generalizing seen with
  | nil => cases h
  | cons id rest ih =>
    rw [lookEach] at h
    split at h
    · rename_i hlook
      exact ⟨id, List.mem_cons_self, seen, by rw [hlook]⟩
    · obtain ⟨other, hother, hfound⟩ := ih h
      exact ⟨other, List.mem_cons_of_mem _ hother, hfound⟩

/-- A search that succeeds has come to a goal. -/
theorem exists_of_look (h : (s.look goal depth seen id).1 = true) :
    ∃ a, Relation.ReflTransGen s.Mentions id a ∧ goal a = true := by
  induction depth generalizing seen id with
  | zero => cases h
  | succ depth ih =>
    rw [look] at h
    split at h
    · cases h
    · split at h
      · rename_i hgoal
        exact ⟨id, .refl, hgoal⟩
      · obtain ⟨b, hb, _, hfound⟩ := exists_of_lookEach h
        obtain ⟨a, hreach, ha⟩ := ih hfound
        exact ⟨a, hreach.head hb, ha⟩

/-! ## What is passed over -/

/-- A search that fails has seen more records, none of which is a goal, and also what these mention. -/
structure Explored (s : Schema) (goal : Nat → Bool) (seen seen' : List Nat) : Prop where
  keeps : seen ⊆ seen'
  misses : ∀ a ∈ seen', a ∉ seen → goal a = false
  closed : ∀ a ∈ seen', a ∉ seen → ∀ b, s.Mentions a b → b ∈ seen'

theorem Explored.refl (seen : List Nat) : Explored s goal seen seen where
  keeps := List.Subset.refl seen
  misses _ ha hnew := absurd ha hnew
  closed _ ha hnew := absurd ha hnew

theorem Explored.trans {seen'' : List Nat} (h : Explored s goal seen seen')
    (h' : Explored s goal seen' seen'') : Explored s goal seen seen'' where
  keeps := List.Subset.trans h.keeps h'.keeps
  misses a ha hnew := by
    by_cases hfirst : a ∈ seen'
    · exact h.misses a hfirst hnew
    · exact h'.misses a ha hfirst
  closed a ha hnew b hb := by
    by_cases hfirst : a ∈ seen'
    · exact h'.keeps (h.closed a hfirst hnew b hb)
    · exact h'.closed a ha hfirst b hb

/-- A record that is no goal, once all that it mentions is explored. -/
theorem Explored.enter (hgoal : goal id = false) (h : Explored s goal (id :: seen) seen')
    (hnext : s.successors id ⊆ seen') : Explored s goal seen seen' where
  keeps := List.Subset.trans (List.subset_cons_self id seen) h.keeps
  misses a ha hnew := by
    by_cases heq : a = id
    · exact heq ▸ hgoal
    · exact h.misses a ha (by simp [heq, hnew])
  closed a ha hnew b hb := by
    by_cases heq : a = id
    · subst heq
      exact hnext hb
    · exact h.closed a ha (by simp [heq, hnew]) b hb

/-- The number of records of a schema that have not been seen. -/
def unseen (s : Schema) (seen : List Nat) : Nat :=
  (s.records.filter fun r => r.1 ∉ seen).length

theorem unseen_anti (h : seen ⊆ seen') : s.unseen seen' ≤ s.unseen seen := by
  refine (List.monotone_filter_right _ fun r hr => ?_).length_le
  simp only [decide_eq_true_eq] at hr ⊢
  exact fun hmem => hr (h hmem)

/-- Entering a record that mentions others leaves fewer records unseen. -/
theorem unseen_cons_lt (hid : id ∉ seen) (hnext : s.successors id ≠ []) :
    s.unseen (id :: seen) < s.unseen seen := by
  obtain ⟨fields, hrecord⟩ : ∃ fields, (id, fields) ∈ s.records := by
    cases hlookup : s.records.lookup id with
    | none => exact absurd (by simp [successors, hlookup, mentioned]) hnext
    | some fields =>
      obtain ⟨l₁, l₂, heq, -⟩ := List.lookup_eq_some_iff.mp hlookup
      exact ⟨fields, by simp [heq]⟩
  refine length_filter_lt hrecord (by simpa using hid) (by simp) fun r hr => ?_
  simp only [decide_eq_true_eq, List.mem_cons, not_or] at hr ⊢
  exact hr.2

/-- A failed search behind some records has explored what it has seen, and has seen these, if the search
behind each one does so. -/
theorem explored_lookEach {look : List Nat → Nat → Bool × List Nat} {bound : Nat}
    (hlook : ∀ {seen id seen'}, s.unseen seen < bound → look seen id = (false, seen') →
      Explored s goal seen seen' ∧ id ∈ seen')
    (hseen : s.unseen seen < bound) (h : lookEach look seen ids = (false, seen')) :
    Explored s goal seen seen' ∧ ids ⊆ seen' := by
  induction ids generalizing seen with
  | nil =>
    cases h
    exact ⟨.refl _, List.nil_subset _⟩
  | cons id rest ih =>
    rw [lookEach] at h
    split at h
    · cases h
    · rename_i between hfirst
      obtain ⟨hexplored, hid⟩ := hlook hseen hfirst
      obtain ⟨hmore, hrest⟩ := ih (Nat.lt_of_le_of_lt (unseen_anti hexplored.keeps) hseen) h
      exact ⟨hexplored.trans hmore, List.cons_subset.mpr ⟨hmore.keeps hid, hrest⟩⟩

/-- A failed search has explored what it has seen, if it may go as deep as there are records unseen. -/
theorem explored_look (hseen : s.unseen seen < depth) (h : s.look goal depth seen id = (false, seen')) :
    Explored s goal seen seen' ∧ id ∈ seen' := by
  induction depth generalizing seen id seen' with
  | zero => omega
  | succ depth ih =>
    rw [look] at h
    split at h
    · rename_i hid
      cases h
      exact ⟨.refl seen, hid⟩
    · rename_i hid
      split at h
      · cases h
      · rename_i hgoal
        have hgoal : goal id = false := by simpa using hgoal
        by_cases hnext : s.successors id = []
        · rw [hnext, lookEach] at h
          cases h
          exact ⟨.enter hgoal (.refl _) (hnext ▸ List.nil_subset _), List.mem_cons_self⟩
        -- Each level that is entered leaves fewer records unseen, so the depth suffices.
        · have hless := unseen_cons_lt hid hnext
          obtain ⟨hexplored, hsuccessors⟩ := explored_lookEach ih (by omega) h
          exact ⟨hexplored.enter hgoal hsuccessors, hexplored.keeps List.mem_cons_self⟩

/-! ## Exactness -/

/-- A search finds a goal exactly if mentions lead to one. -/
theorem finds_iff {start : List Nat} :
    s.finds goal start = true ↔
      ∃ a ∈ start, ∃ b, Relation.ReflTransGen s.Mentions a b ∧ goal b = true := by
  constructor
  · intro h
    obtain ⟨a, ha, _, hfound⟩ := exists_of_lookEach h
    exact ⟨a, ha, exists_of_look hfound⟩
  · rintro ⟨a, ha, b, hreach, hb⟩
    refine Bool.of_not_eq_false fun hfails => ?_
    obtain ⟨seen, hfailed⟩ :
        ∃ seen, lookEach (s.look goal (s.records.length + 1)) [] start = (false, seen) :=
      ⟨_, Prod.ext hfails rfl⟩
    have hunseen : s.unseen [] < s.records.length + 1 :=
      Nat.lt_succ_of_le (List.length_filter_le ..)
    obtain ⟨hexplored, hstart⟩ := explored_lookEach explored_look hunseen hfailed
    -- All that the start leads to has been seen, and is no goal.
    have hseen : ∀ {c}, Relation.ReflTransGen s.Mentions a c → c ∈ seen := by
      intro c hc
      induction hc with
      | refl => exact hstart ha
      | tail _ hstep ih => exact hexplored.closed _ ih List.not_mem_nil _ hstep
    rw [hexplored.misses b (hseen hreach) List.not_mem_nil] at hb
    cases hb

/-- A record meets itself exactly if a path of at least one edge leads from it back to it. -/
theorem meetsItself_iff : s.meetsItself id = true ↔ Relation.TransGen s.Edge id id := by
  rw [meetsItself, finds_iff, ← mentions_eq_edge, Relation.TransGen.head'_iff]
  constructor
  · rintro ⟨a, ha, b, hreach, hb⟩
    obtain rfl := eq_of_beq hb
    exact ⟨a, ha, hreach⟩
  · rintro ⟨a, ha, hreach⟩
    exact ⟨a, ha, id, hreach, beq_self_eq_true id⟩

/-- The search in depth and the search in breadth tell the same of every record. -/
theorem meetsItself_eq_isCyclic : s.meetsItself id = s.isCyclic id := by
  rw [Bool.eq_iff_iff, meetsItself_iff, isCyclic_iff, mentions_eq_edge]

/-- A group of fields leads to a cycle exactly if some record beneath it lies on one. -/
theorem hasCycle_iff {fields : List Field} :
    s.hasCycle fields = true ↔ ∃ id, s.Beneath fields id ∧ Relation.TransGen s.Edge id id := by
  simp only [hasCycle, finds_iff, meetsItself_iff, beneath_iff]
  constructor
  · rintro ⟨a, ha, b, hreach, hb⟩
    exact ⟨b, ⟨a, ha, hreach⟩, hb⟩
  · rintro ⟨b, ⟨a, ha, hreach⟩, hb⟩
    exact ⟨a, ha, b, hreach, hb⟩

/-- A record that is no part of itself may hold one that is, here as an element of its own values. -/
example :
    let inner : RecordRef := ⟨1, "Inner", "nested"⟩
    let s : Schema := ⟨[
      (0, [⟨0, "inner", false, .record inner, []⟩]),
      (1, [⟨1, "more", false, .map .text (.list (.record inner)), []⟩])]⟩
    s.meetsItself 0 = false ∧ s.meetsItself 1 = true ∧
      s.hasCycle (s.fields ⟨0, "Outer", "nested"⟩) = true := by
  decide +kernel

end Schema

end RecordBridge

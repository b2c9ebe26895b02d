import RecordBridge.Proofs.Conversion.Soundness

/-!
# Sound loops

The statements that convert a list, a set or a map fill the container that they make with the
converted elements, whatever order the elements come in. What one round of a loop does is carried
through all rounds by induction on the elements that are left.
-/

namespace RecordBridge

open Relation

/-! ## Elements of a container -/

/-- A container has a slot for an index or a key. -/
def GoValue.Takes (w : GoValue) (k : Datum) : Prop :=
  ∃ old, (Access.element k).read .output w = .ok old

/-- Filling a slot leaves all slots in place. -/
theorem GoValue.Takes.write {w y : GoValue} {k k' : Datum} (h : w.Takes k) :
    ((Access.element k').write y w).Takes k := by
  obtain ⟨old, h⟩ := h
  cases w with
  | list length item =>
    cases k with
    | index i =>
      rw [Access.read_item] at h
      split at h
      · rename_i hlt
        cases k' <;> exact ⟨_, if_pos hlt⟩
      · cases h
    | _ => cases h
  | table keys entry => exact ⟨_, rfl⟩
  | _ => cases h

/-- A value that has a slot keeps being set. -/
theorem GoValue.Takes.isSet {w : GoValue} {k : Datum} (h : w.Takes k) : w.isSet = true := by
  obtain ⟨old, h⟩ := h
  exact Access.isSet_of_read h

/-- Some slots of a container are filled one after the other, each with a value that belongs to an
element by `R`. -/
inductive Filled (R : GoValue → GoValue → Prop) :
    List (Datum × GoValue) → GoValue → GoValue → Prop where
  | nil {w : GoValue} : Filled R [] w w
  | cons {e : Datum × GoValue} {rest : List (Datum × GoValue)} {w w' y : GoValue} (hy : R e.2 y)
    (hrest : Filled R rest ((Access.element e.1).write y w) w') : Filled R (e :: rest) w w'

/-- The items of a list whose slots have been filled in some order. -/
theorem Filled.list {R : GoValue → GoValue → Prop} {length : Nat} {source : Nat → GoValue}
    {indices : List Nat} :
    ∀ {item : Nat → GoValue} {w : GoValue}, indices.Nodup →
      Filled R (indices.map fun i => (.index i, source i)) (.list length item) w →
      ∃ item', w = .list length item' ∧ (∀ i ∈ indices, R (source i) (item' i)) ∧
        ∀ i ∉ indices, item' i = item i := by
  induction indices with
  | nil =>
    intro item w _ h
    cases h
    exact ⟨item, rfl, nofun, fun _ _ => rfl⟩
  | cons i indices ih =>
    intro item w hnodup h
    obtain ⟨hnew, hnodup⟩ := List.nodup_cons.mp hnodup
    rw [List.map_cons] at h
    cases h with
    | @cons _ _ _ _ y hy hrest =>
      obtain ⟨item', rfl, hitems, hothers⟩ := ih hnodup hrest
      refine ⟨item', rfl, fun j hj => ?_, fun j hj => ?_⟩
      · -- hj | The indices do not repeat, so the rest of the rounds leaves the element written here as
        -- it is.
        rcases List.mem_cons.mp hj with rfl | hj
        · rw [hothers j hnew, Function.update_self]
          exact hy
        · exact hitems j hj
      · have hne : j ≠ i := fun heq => hj (List.mem_cons.mpr (.inl heq))
        rw [hothers j fun hmem => hj (List.mem_cons_of_mem _ hmem), Function.update_of_ne hne]

/-- The keys and entries of a table that has been filled. -/
theorem Filled.table {R : GoValue → GoValue → Prop} {source : Datum → GoValue}
    {added : List Datum} : ∀ {keys : List Datum} {entry : Datum → GoValue} {w : GoValue}, (keys ++ added).Nodup →
      Filled R (added.map fun k => (k, source k)) (.table keys entry) w →
      ∃ entry', w = .table (keys ++ added) entry' ∧ (∀ k ∈ added, R (source k) (entry' k)) ∧
        ∀ k ∉ added, entry' k = entry k := by
  induction added with
  | nil =>
    intro keys entry w _ h
    cases h
    exact ⟨entry, by rw [List.append_nil], nofun, fun _ _ => rfl⟩
  | cons k added ih =>
    intro keys entry w hnodup h
    have hassoc : keys ++ [k] ++ added = keys ++ k :: added := by simp
    obtain ⟨-, hadded, hdisjoint⟩ := List.nodup_append.mp hnodup
    have hnew : k ∉ keys := fun hk => hdisjoint k hk k List.mem_cons_self rfl
    have hnew' : k ∉ added := (List.nodup_cons.mp hadded).1
    rw [List.map_cons] at h
    cases h with
    | @cons _ _ _ _ y hy hrest =>
      -- The key is a new one: the write puts it after those the table has.
      rw [Access.write_entry, if_neg hnew] at hrest
      obtain ⟨entry', rfl, hentries, hothers⟩ := ih (by rw [hassoc]; exact hnodup) hrest
      refine ⟨entry', by rw [hassoc], fun j hj => ?_, fun j hj => ?_⟩
      · rcases List.mem_cons.mp hj with rfl | hj
        · rw [hothers j hnew', Function.update_self]
          exact hy
        · exact hentries j hj
      · have hne : j ≠ k := fun heq => hj (List.mem_cons.mpr (.inl heq))
        rw [hothers j fun hmem => hj (List.mem_cons_of_mem _ hmem), Function.update_of_ne hne]

/-! ## Rounds of a loop -/

variable {c : Settings} {order : Order} {M : FieldType → FieldType → Prop} {v : GoValue}
  {p q : Progress} {b : Code} {job : ContainerJob} {type : FieldType} {loop : Loop}

namespace Loop.Converts

/-- The step to a slot takes the element at the index or key. -/
theorem access_step (h : loop.Converts c job type) (σ : State) (x : Var) :
    σ.access (loop.step x) = .element (σ.locals x).datum := by
  cases h with
  | list | set => rfl
  | map htext =>
    show σ.access (if _ then _ else _) = _
    split <;> rfl

end Loop.Converts

/-- The state in which a round of a loop starts. -/
theorem bind_each {σ : State} {e : Datum × GoValue} {position value : Var} {source : Place}
    (hposition : position.isLocal = true) (hvalue : value.isLocal = true) :
    (Head.each position value source).bind σ e = { σ with
      locals := Function.update (Function.update σ.locals position (.plain e.1)) value e.2 } := by
  show (σ.set position _).set value _ = _
  rw [State.set_of_isLocal hposition, State.set_of_isLocal hvalue]

/-- A change of variables with greater numbers before a place is written. -/
theorem Writes.ofFrame {n m : Nat} {σ σ' τ : State} {path : Path} {x : GoValue}
    (hframe : Frame n σ σ') (hout : σ'.out = σ.out) (hpath : path.Known n) (hle : n ≤ m)
    (h : Writes m σ' path x τ) : Writes n σ path x τ := by
  refine ⟨hframe.trans h.frame hle, ?_⟩
  rw [← hout, ← hframe.access hpath]
  exact h.out

/-- What a loop assumes of one element: it is found in the source, and there is a slot for it. -/
structure ElementOf (c : Settings) (v u w : GoValue) (root : Var) (t : FieldType)
    (e : Datum × GoValue) : Prop where
  read : (Access.element e.1).read root u = .ok e.2
  takes : w.Takes e.1
  fits : Fits c.schema false t e.2
  inside : e.2.Inside v

section Rounds

variable {n : Nat} {σ : State} {u w : GoValue} {e : Datum × GoValue}

/-- One round of a loop fills one slot. -/
theorem round_sound (hloop : loop.Converts c job type) (hrelated : M loop.element loop.primary)
    (hstandIn : job.standIn = none) (hle : p.counter ≤ n)
    (helement : ElementSound c order M v loop.element (loop.slot job none n)
      { p with counter := n + 2 } b q)
    (hready : Ready c p σ) (hsource : Holds n σ job.primary.place u) (hpath : job.path.Known n)
    (hget : σ.out.get .output (job.path.map σ.access) = .ok w)
    (he : ElementOf c v u w job.primary.place.root loop.primary e) :
    ∃ τ y, Runs order b
        ((Head.each (loop.position (n + 1)) (.value (n + 2)) job.primary.place).bind σ e) τ ∧
      Writes n σ job.path ((Access.element e.1).write y w) (σ.afterBlock τ) ∧
      Converted c.schema loop.element loop.primary e.2 y := by
  obtain ⟨hlocal, hnumber, hne⟩ := hloop.position_spec (n + 1) (n + 2)
  rw [bind_each hlocal rfl]
  generalize hσ' : ({ σ with
    locals := Function.update (Function.update σ.locals (loop.position (n + 1)) (.plain e.1))
      (.value (n + 2)) e.2 } : State) = σ'
  have hposition : σ'.locals (loop.position (n + 1)) = .plain e.1 := by
    rw [← hσ']
    exact (Function.update_of_ne hne _ _).trans (Function.update_self _ _ _)
  have hvalue : σ'.locals (.value (n + 2)) = e.2 := by
    rw [← hσ']
    exact Function.update_self _ _ _
  -- Only the two variables of the loop are new.
  have hframe : Frame n σ σ' := by
    refine ⟨by rw [← hσ'], fun x hx => ?_⟩
    have hne₁ : x ≠ loop.position (n + 1) := by
      rintro rfl
      omega
    have hne₂ : x ≠ .value (n + 2) := by
      rintro rfl
      exact absurd hx (by show ¬n + 2 ≤ n; omega)
    rw [← hσ']
    exact (Function.update_of_ne hne₂ _ _).trans (Function.update_of_ne hne₁ _ _)
  have hout : σ'.out = σ.out := by rw [← hσ']
  have hready' : Ready c { p with counter := n + 2 } σ' := by
    rw [← hσ']
    exact ⟨hready.deferred, hready.scope,
      fun f hf => Nat.le_trans (hready.numbers f hf) (Nat.le_add_right_of_le hle)⟩
  have hstep : [loop.step (loop.position (n + 1))].map σ'.access = [.element e.1] := by
    rw [List.map_singleton, hloop.access_step, hposition]
    rfl
  have hget' : σ'.out.get .output (job.path.map σ'.access) = .ok w := by
    rw [hout, hframe.access hpath]
    exact hget
  obtain ⟨old, hold⟩ := he.takes
  have hslot : σ'.out.get .output
      ((job.path ++ [loop.step (loop.position (n + 1))]).map σ'.access) = .ok old := by
    rw [List.map_append, hstep, GoValue.get_append hget']
    exact GoValue.get_cons_ok.mpr ⟨old, hold, rfl⟩
  have hknown : Path.Known (n + 2) (job.path ++ [loop.step (loop.position (n + 1))]) :=
    (hpath.mono (Nat.le_add_right _ _)).append ((hloop.known_step _).mono (Nat.le_succ _))
  have hprimary : Holds (n + 2) σ' (job.primary.place.element (loop.position (n + 1))) e.2 := by
    have hsource' := hsource.frame hframe (Nat.le_add_right n 2)
    refine ⟨hsource'.isSource.element (by rw [hnumber]; exact Nat.le_succ _), ?_⟩
    show (σ'.value job.primary.place.root).get job.primary.place.root
      ((job.primary.place.path ++ [Step.index (loop.position (n + 1))]).map σ'.access) = _
    rw [List.map_append, GoValue.get_append hsource'.read, List.map_singleton]
    show u.get _ [.element (σ'.locals (loop.position (n + 1))).datum] = _
    rw [hposition]
    exact GoValue.get_cons_ok.mpr ⟨e.2, he.read, rfl⟩
  have hvalue' : Holds (n + 2) σ' (.ofVar (.value (n + 2))) e.2 :=
    ⟨.ofVar rfl (Nat.le_refl _), congrArg Except.ok hvalue⟩
  have hnone : (loop.slot job none n).standIn = none := by
    simp [Loop.slot, hstandIn]
  obtain ⟨τ, y, hruns, hwrites, -, hy⟩ :=
    helement hready' hnone hrelated hknown hvalue' hprimary he.fits he.inside hslot
  have hput : w.put .output ([loop.step (loop.position (n + 1))].map σ'.access) y =
      .ok ((Access.element e.1).write y w) := by
    rw [hstep]
    exact GoValue.put_cons_ok.mpr ⟨old, y, hold, rfl, rfl⟩
  exact ⟨τ, y, hruns, (Writes.ofFrame hframe hout hpath (Nat.le_add_right _ _)
    (hwrites.below hget' hput)).afterBlock, hy⟩

/-- All rounds of a loop, by induction on the elements that are left. -/
theorem rounds_sound (hloop : loop.Converts c job type) (hrelated : M loop.element loop.primary)
    (hstandIn : job.standIn = none) (hle : p.counter ≤ n)
    (helement : ElementSound c order M v loop.element (loop.slot job none n)
      { p with counter := n + 2 } b q)
    (hpath : job.path.Known n) {entries : List (Datum × GoValue)} :
    ∀ {σ : State} {w : GoValue}, Ready c p σ → Holds n σ job.primary.place u →
      σ.out.get .output (job.path.map σ.access) = .ok w → w.isSet = true →
      (∀ e ∈ entries, ElementOf c v u w job.primary.place.root loop.primary e) →
      ∃ τ w', RunsEach order (.each (loop.position (n + 1)) (.value (n + 2)) job.primary.place) b
          entries σ τ ∧ Writes n σ job.path w' τ ∧ τ.functions = σ.functions ∧
        Filled (Converted c.schema loop.element loop.primary) entries w w' := by
  induction entries with
  | nil =>
    intro σ w _ _ hget hset _
    exact ⟨σ, w, .nil, .self hget hset, rfl, .nil⟩
  | cons e entries ih =>
    intro σ w hready hsource hget _ hentries
    have he := hentries e List.mem_cons_self
    -- One round, and then the others from the state in which its locals are dropped again.
    obtain ⟨τ, y, hruns, hwrites, hy⟩ :=
      round_sound hloop hrelated hstandIn hle helement hready hsource hpath hget he
    have hready' : Ready c p (σ.afterBlock τ) := ⟨hready.deferred, hready.scope, hready.numbers⟩
    obtain ⟨υ, w', hrest, hwrites', hfunctions, hfilled⟩ :=
      ih hready' (hsource.frame hwrites.frame (Nat.le_refl n)) (hwrites.get hpath)
        he.takes.write.isSet
        fun e' he' =>
          have he' := hentries e' (List.mem_cons_of_mem _ he')
          ⟨he'.read, he'.takes.write, he'.fits, he'.inside⟩
    exact ⟨υ, w', .cons hruns hrest, hwrites.trans hwrites' hpath (Nat.le_refl n), hfunctions,
      .cons hy hfilled⟩

end Rounds

/-! ## Loops -/

section Shapes

variable {s : Schema} {optional : Bool} {t element : FieldType} {form : SetForm} {u : GoValue}

/-- A value of the type of a list is nil or a list. -/
theorem Fits.exists_list (h : Fits s optional t u) (hroot : t.root = .list element) :
    u = .absent ∨ ∃ k item, u = .list k item ∧ ∀ i < k, Fits s false element (item i) := by
  cases h with
  | nothing => exact .inl rfl
  | plain hplain | pointer hplain => rw [hroot] at hplain; cases hplain
  | list hroot' hitems =>
    rw [hroot] at hroot'
    cases hroot'
    exact .inr ⟨_, _, rfl, hitems⟩
  | bytes hroot' | record hroot' | slice hroot' | keys hroot' | map hroot' =>
    rw [hroot] at hroot'
    cases hroot'

/-- A value of the type of a set that is no keys of a map is nil or a list. -/
theorem Fits.exists_slice (h : Fits s optional t u) (hroot : t.root = .set element form)
    (hkeyed : isKeyed element form = false) :
    u = .absent ∨ ∃ k item, u = .list k item ∧ ∀ i < k, Fits s false element (item i) := by
  cases h with
  | nothing => exact .inl rfl
  | plain hplain | pointer hplain => rw [hroot] at hplain; cases hplain
  | slice hroot' hkeyed' hitems =>
    rw [hroot] at hroot'
    cases hroot'
    exact .inr ⟨_, _, rfl, hitems⟩
  | keys hroot' hkeyed' =>
    rw [hroot] at hroot'
    cases hroot'
    rw [hkeyed] at hkeyed'
    cases hkeyed'
  | bytes hroot' | record hroot' | list hroot' | map hroot' =>
    rw [hroot] at hroot'
    cases hroot'

/-- A value of the type of a set that is the keys of a map is nil or a table. -/
theorem Fits.exists_keys (h : Fits s optional t u) (hroot : t.root = .set element form)
    (hkeyed : isKeyed element form = true) :
    u = .absent ∨ ∃ keys entry, u = .table keys entry ∧ keys.Nodup := by
  cases h with
  | nothing => exact .inl rfl
  | plain hplain | pointer hplain => rw [hroot] at hplain; cases hplain
  | keys hroot' hkeyed' hnodup => exact .inr ⟨_, _, rfl, hnodup⟩
  | slice hroot' hkeyed' =>
    rw [hroot] at hroot'
    cases hroot'
    rw [hkeyed] at hkeyed'
    cases hkeyed'
  | bytes hroot' | record hroot' | list hroot' | map hroot' =>
    rw [hroot] at hroot'
    cases hroot'

/-- A value of the type of a map is nil or a table. -/
theorem Fits.exists_map {key value : FieldType} (h : Fits s optional t u)
    (hroot : t.root = .map key value) :
    u = .absent ∨ ∃ keys entry, u = .table keys entry ∧ keys.Nodup ∧
      ∀ k ∈ keys, Fits s false value (entry k) := by
  cases h with
  | nothing => exact .inl rfl
  | plain hplain | pointer hplain => rw [hroot] at hplain; cases hplain
  | map hroot' hnodup _ hentries =>
    rw [hroot] at hroot'
    cases hroot'
    exact .inr ⟨_, _, rfl, hnodup, hentries⟩
  | bytes hroot' | record hroot' | list hroot' | slice hroot' | keys hroot' =>
    rw [hroot] at hroot'
    cases hroot'

end Shapes

/-- A part of a value that is found in `v` is found there, too. -/
theorem GoValue.Inside.part {u x : GoValue} (h : u.Inside v) (hpart : GoValue.Part x u) :
    x.Inside v := by
  rcases h with rfl | h
  · cases hpart
  · exact .inr (h.head hpart)

/-- A loop fills the container that it makes with its rounds. -/
theorem loop_fills (hloop : loop.Converts c job type) (hrelated : M loop.element loop.primary)
    (hstandIn : job.standIn = none) (hlater : p.Later q)
    (helement : ElementSound c order M v loop.element (loop.slot job none p.counter)
      { p with counter := p.counter + 2 } b q) {σ : State} {u old : GoValue}
    (hready : Ready c p σ) (hpath : job.path.Known p.counter)
    (hsource : Holds p.counter σ job.primary.place u)
    (hget : σ.out.get .output (job.path.map σ.access) = .ok old) {k : Nat}
    {entries : List (Datum × GoValue)} (hsize : u.size = .ok k)
    (hentries : u.entries order σ.loops = .ok entries)
    (helements : ∀ e ∈ entries,
      ElementOf c v u (loop.made.made k) job.primary.place.root loop.primary e) :
    Fills c order p
      (loop.code .done job ⟨.done, job.primary.place, none, p.counter⟩ b)
      { q with helpers := p.helpers } σ job.path
      fun w => Filled (Converted c.schema loop.element loop.primary) entries (loop.made.made k) w
    := by
  have hset : (loop.made.made k).isSet = true := by
    cases loop.made <;> rfl
  -- The container is made before the loop, as long as the source.
  obtain ⟨o, hexec, hwrites⟩ := exists_exec_assign (n := p.counter)
    (e := .make loop.made job.primary.place) (fun call => by
      show (σ.read job.primary.place >>= fun v => v.size >>= fun k =>
        Except.ok (loop.made.made k, σ)) = _
      rw [hsource.read]
      show (u.size >>= _) = _
      rw [hsize]
      rfl) hget
  have hready' : Ready c p { σ with out := o, loops := σ.loops + 1 } :=
    ⟨hready.deferred, hready.scope, hready.numbers⟩
  have hsource' : Holds p.counter { σ with out := o } job.primary.place u :=
    hsource.frame hwrites.frame (Nat.le_refl _)
  have hmade := hwrites.get hpath
  obtain ⟨τ, w, heach, hwrites', hfunctions, hfilled⟩ :=
    rounds_sound hloop hrelated hstandIn (Nat.le_refl _) helement hpath hready'
      (hsource'.frame ⟨rfl, fun _ _ => rfl⟩ (Nat.le_refl _)) hmade hset helements
  -- What the rounds write is beneath the place of the container, and the helpers they define are
  -- dropped.
  refine ⟨τ, w, .step hexec (.loop rfl hsource'.read hentries heach .done), ?_, ?_, hfilled⟩
  · exact hwrites.trans ⟨⟨hwrites'.frame.whole, hwrites'.frame.locals⟩, hwrites'.out⟩ hpath
      (Nat.le_refl _)
  · refine ⟨hlater.deferred.trans hready.deferred, hfunctions ▸ hready.scope, fun f hf => ?_⟩
    rw [hfunctions] at hf
    exact Nat.le_trans (hready.numbers f hf) hlater.counter

/-- The elements of a list that a loop runs over. -/
theorem elementOf_list {u : GoValue} {k : Nat} {item : Nat → GoValue} {root : Var} {t : FieldType}
    {w : Nat → GoValue} (hu : u = .list k item) (hinside : u.Inside v)
    (hitems : ∀ i < k, Fits c.schema false t (item i)) :
    ∀ e ∈ (List.range k).map fun i => (Datum.index i, item i),
      ElementOf c v u (.list k w) root t e := by
  intro e he
  obtain ⟨i, hi, rfl⟩ := List.mem_map.mp he
  have hlt := List.mem_range.mp hi
  subst hu
  exact ⟨if_pos hlt, ⟨_, if_pos hlt⟩, hitems i hlt, hinside.part (.element k item i)⟩

/-- A loop over the elements of a list, or of nothing. -/
theorem list_fills {made element primary : FieldType} {go : GoType} {standIn : Option FieldType}
    (hloop : Loop.Converts c job made ⟨.slice go, .index, .index, element, primary, standIn⟩)
    (hrelated : M element primary) (hstandIn : job.standIn = none) (hlater : p.Later q)
    (helement : ElementSound c order M v element
      (Loop.slot ⟨.slice go, .index, .index, element, primary, standIn⟩ job none p.counter)
      { p with counter := p.counter + 2 } b q) {σ : State} {u old : GoValue}
    (hready : Ready c p σ) (hpath : job.path.Known p.counter)
    (hsource : Holds p.counter σ job.primary.place u) (hinside : u.Inside v)
    (hget : σ.out.get .output (job.path.map σ.access) = .ok old)
    (hu : u = .absent ∨ ∃ k item, u = .list k item ∧
      ∀ i < k, Fits c.schema false primary (item i)) :
    Fills c order p
      (Loop.code ⟨.slice go, .index, .index, element, primary, standIn⟩ .done job
        ⟨.done, job.primary.place, none, p.counter⟩ b)
      { q with helpers := p.helpers } σ job.path
      fun w => ∃ k item item', u.AsList k item ∧ w = .list k item' ∧
        ∀ i < k, Converted c.schema element primary (item i) (item' i) := by
  rcases hu with rfl | ⟨k, item, rfl, hitems⟩
  · -- A nil source has the size zero and no elements, so the list is made and stays empty.
    obtain ⟨τ, w, hruns, hwrites, hready', hfilled⟩ :=
      loop_fills hloop hrelated hstandIn hlater helement hready hpath hsource hget rfl rfl nofun
    cases hfilled
    exact ⟨τ, _, hruns, hwrites, hready', 0, fun _ => .absent, _, .inl ⟨rfl, rfl⟩, rfl, nofun⟩
  · obtain ⟨τ, w, hruns, hwrites, hready', hfilled⟩ :=
      loop_fills hloop hrelated hstandIn hlater helement hready hpath hsource hget rfl rfl
        (elementOf_list rfl hinside hitems)
    obtain ⟨item', rfl, hconverted, -⟩ := hfilled.list List.nodup_range
    exact ⟨τ, _, hruns, hwrites, hready', k, item, item', .inr rfl, rfl,
      fun i hi => hconverted i (List.mem_range.mpr hi)⟩

/-- A loop over the entries of a map, or of nothing, in any order. -/
theorem map_fills (horder : ∀ n keys, (order n keys).Perm keys) {made element primary : FieldType}
    {go keyGo : GoType} {standIn : Option FieldType} {step : Var → Step}
    (hloop : Loop.Converts c job made ⟨.map keyGo go, .key, step, element, primary, standIn⟩)
    (hrelated : M element primary) (hstandIn : job.standIn = none) (hlater : p.Later q)
    (helement : ElementSound c order M v element
      (Loop.slot ⟨.map keyGo go, .key, step, element, primary, standIn⟩ job none p.counter)
      { p with counter := p.counter + 2 } b q) {σ : State} {u old : GoValue}
    (hready : Ready c p σ) (hpath : job.path.Known p.counter)
    (hsource : Holds p.counter σ job.primary.place u) (hinside : u.Inside v)
    (hget : σ.out.get .output (job.path.map σ.access) = .ok old)
    (hu : u = .absent ∨ ∃ keys entry, u = .table keys entry ∧ keys.Nodup ∧
      ∀ k ∈ keys, Fits c.schema false primary (entry k)) :
    Fills c order p
      (Loop.code ⟨.map keyGo go, .key, step, element, primary, standIn⟩ .done job
        ⟨.done, job.primary.place, none, p.counter⟩ b)
      { q with helpers := p.helpers } σ job.path
      fun w => ∃ keys keys' entry entry', u.AsTable keys entry ∧ w = .table keys' entry' ∧
        keys'.Perm keys ∧ ∀ k ∈ keys, Converted c.schema element primary (entry k) (entry' k) := by
  rcases hu with rfl | ⟨keys, entry, rfl, hnodup, hentries⟩
  · -- Ranging over a nil map is no round.
    obtain ⟨τ, w, hruns, hwrites, hready', hfilled⟩ :=
      loop_fills hloop hrelated hstandIn hlater helement hready hpath hsource hget rfl rfl nofun
    cases hfilled
    exact ⟨τ, _, hruns, hwrites, hready', [], [], fun _ => .absent, _, .inl ⟨rfl, rfl⟩, rfl,
      .refl _, nofun⟩
  · -- The order of a loop permutes the keys, so each is met once and none is missed.
    have hperm := horder σ.loops keys
    have helements : ∀ e ∈ (order σ.loops keys).map fun k => (k, entry k),
        ElementOf c v (.table keys entry) (.table [] fun _ => .absent) job.primary.place.root
          primary e := by
      intro e he
      obtain ⟨k, hk, rfl⟩ := List.mem_map.mp he
      have hk := hperm.mem_iff.mp hk
      exact ⟨congrArg Except.ok (if_pos hk), ⟨_, rfl⟩, hentries k hk,
        hinside.part (.entry keys entry k)⟩
    obtain ⟨τ, w, hruns, hwrites, hready', hfilled⟩ :=
      loop_fills hloop hrelated hstandIn hlater helement hready hpath hsource hget rfl rfl helements
    obtain ⟨entry', rfl, hconverted, -⟩ :=
      Filled.table (by rw [List.nil_append]; exact hperm.nodup_iff.mpr hnodup) hfilled
    exact ⟨τ, _, hruns, hwrites, hready', keys, _, entry, entry', .inr rfl, rfl, hperm,
      fun k hk => hconverted k (hperm.mem_iff.mpr hk)⟩

/-- The statements of a loop are sound if those for an element are. -/
theorem loop_sound (hM : Matching c M) (horder : ∀ n keys, (order n keys).Perm keys)
    (hloop : loop.Converts c job type) {chosen : Selection}
    (hchosen : chosen = loop.selection c job p.counter)
    (hlater : ({ p with counter := chosen.counter + 2 } : Progress).Later q)
    (helement : ElementSound c order M v loop.element (loop.slot job chosen.flag chosen.counter)
      { p with counter := chosen.counter + 2 } b q) {pos : Position} :
    ContainerSound c order M v type job p
      (loop.code (p.deferred.guards pos.scope job.path) job chosen b)
      { q with helpers := p.helpers } := by
  intro σ t u old optional hready hstandIn htype hrelated hpath hsource hfits hinside hget
  -- Without a stand-in nothing is chosen at run time: the loop is over the primary source itself.
  have hdirect : chosen = ⟨.done, job.primary.place, none, p.counter⟩ := by
    rw [hchosen, Loop.selection, hstandIn]
    rfl
  subst hdirect
  have hlater : p.Later q := ⟨Nat.le_trans (Nat.le_add_right _ 2) hlater.counter, hlater.deferred⟩
  rw [hready.guards]
  cases hloop with
  | list hprimary hstandIn' hgo =>
    have hroot := Operand.root_of_listElements hprimary
    obtain ⟨τ, w, hruns, hwrites, hready', k, item, item', hlist, rfl, hitems⟩ :=
      list_fills (.list hprimary hstandIn' hgo) (hM.list hrelated htype hroot) hstandIn hlater
        helement hready hpath hsource hinside hget (hfits.exists_list hroot)
    exact ⟨τ, _, hruns, hwrites, hready', .list htype hroot hlist hitems⟩
  | set hprimary hstandIn' hkeyed hprimaryKeyed hgo =>
    have hroot := Operand.root_of_setElements hprimary
    obtain ⟨τ, w, hruns, hwrites, hready', k, item, item', hlist, rfl, hitems⟩ :=
      list_fills (.set hprimary hstandIn' hkeyed hprimaryKeyed hgo) (hM.set hrelated htype hroot)
        hstandIn hlater helement hready hpath hsource hinside hget
        (hfits.exists_slice hroot hprimaryKeyed)
    exact ⟨τ, _, hruns, hwrites, hready',
      .slice htype hkeyed hroot hprimaryKeyed hlist hitems⟩
  | map htext hkey hprimary hstandIn' hgo =>
    obtain ⟨key, hroot⟩ := Operand.exists_root_of_mapValues hprimary
    obtain ⟨τ, w, hruns, hwrites, hready', keys, keys', entry, entry', htable, rfl, hperm,
        hentries⟩ :=
      map_fills horder (.map htext hkey hprimary hstandIn' hgo) (hM.map hrelated htype hroot)
        hstandIn hlater helement hready hpath hsource hinside hget (hfits.exists_map hroot)
    exact ⟨τ, _, hruns, hwrites, hready', .map htype hroot htable hperm hentries⟩

/-! ## Sets as keys -/

/-- A table with one more key. -/
def GoValue.marked (w : GoValue) (k : Datum) : GoValue :=
  (Access.element k).write (.plain .mark) w

/-- A list with one more item. -/
def GoValue.pushed (w : GoValue) (k : Datum) : GoValue :=
  match w with
  | .list length item => .list (length + 1) (Function.update item length (.plain k))
  | w => w

/-- Marking keys adds them to those of a table. -/
theorem foldl_marked (added : List Datum) :
    ∀ {keys : List Datum} {entry : Datum → GoValue}, keys.Nodup →
      ∃ keys' entry', added.foldl GoValue.marked (.table keys entry) = .table keys' entry' ∧
        keys'.Nodup ∧ ∀ k, k ∈ keys' ↔ k ∈ keys ∨ k ∈ added := by
  induction added with
  | nil => exact fun h => ⟨_, _, rfl, h, fun k => by simp⟩
  | cons d added ih =>
    intro keys entry h
    -- A key that the table holds is not put in a second time.
    have hnodup : (if d ∈ keys then keys else keys ++ [d]).Nodup := by
      split
      · exact h
      · rename_i hnew
        refine List.nodup_append.mpr ⟨h, List.pairwise_singleton _ d, fun a ha b hb heq => hnew ?_⟩
        rw [← List.mem_singleton.mp hb, ← heq]
        exact ha
    obtain ⟨keys', entry', heq, hnodup', hmem⟩ :=
      @ih _ (Function.update entry d (.plain .mark)) hnodup
    refine ⟨keys', entry', heq, hnodup', fun k => (hmem k).trans ?_⟩
    split
    · rename_i hold
      rw [List.mem_cons]
      constructor
      · exact Or.imp_right .inr
      · rintro (hk | rfl | hk)
        · exact .inl hk
        · exact .inl hold
        · exact .inr hk
    · rw [List.mem_append, List.mem_singleton, List.mem_cons, or_assoc]

/-- Pushing items adds them to a list in order. -/
theorem foldl_pushed (added : List Datum) :
    ∀ {length : Nat} {item : Nat → GoValue}, ∃ item',
      added.foldl GoValue.pushed (.list length item) = .list (length + added.length) item' ∧
        (∀ i < length, item' i = item i) ∧
        ∀ i d, added[i]? = some d → item' (length + i) = .plain d := by
  induction added with
  | nil => exact fun {length item} => ⟨item, rfl, fun _ _ => rfl, nofun⟩
  | cons d added ih =>
    intro length item
    obtain ⟨item', heq, hbefore, hadded⟩ :=
      @ih (length + 1) (Function.update item length (.plain d))
    refine ⟨item', ?_, fun i hi => ?_, fun i d' hd => ?_⟩
    · rw [List.foldl_cons, List.length_cons, Nat.add_comm added.length, ← Nat.add_assoc]
      exact heq
    · rw [hbefore i (Nat.lt_succ_of_lt hi), Function.update_of_ne (Nat.ne_of_lt hi)]
    · -- The first one pushed stands where the list ended; those after it are what the induction has.
      cases i with
      | zero =>
        cases hd
        rw [Nat.add_zero, hbefore length (Nat.lt_succ_self length), Function.update_self]
      | succ i =>
        have := hadded i d' hd
        rwa [Nat.add_assoc, Nat.add_comm 1 i] at this

section Keys

variable {n : Nat} {path : Path} {s : Statement} {head : Head} {value : Var}
  {add : GoValue → Datum → GoValue}

/-- All rounds of a loop with one statement, which adds the value of the round to a container. -/
theorem adds_sound (Shaped : GoValue → Prop) (hnumber : n < value.number) (hpath : path.Known n)
    {datum : Datum × GoValue → Datum}
    (hset : ∀ w, Shaped w → w.isSet = true) (hshaped : ∀ w k, Shaped w → Shaped (add w k))
    (hs : ∀ {σ : State} {w : GoValue} {k : Datum}, Shaped w →
      σ.out.get .output (path.map σ.access) = .ok w → σ.locals value = .plain k →
      ∃ o, (∀ call, s.exec call σ = .ok { σ with out := o }) ∧
        Writes n σ path (add w k) { σ with out := o })
    {entries : List (Datum × GoValue)}
    (hbind : ∀ e ∈ entries, ∀ σ : State, head.bind σ e =
      { σ with locals := Function.update σ.locals value (.plain (datum e)) }) :
    ∀ {σ : State} {w : GoValue}, Shaped w → σ.out.get .output (path.map σ.access) = .ok w →
      ∃ τ, RunsEach order head (.step s .done) entries σ τ ∧
        Writes n σ path ((entries.map datum).foldl add w) τ ∧ τ.functions = σ.functions := by
  induction entries with
  | nil => exact fun hw hget => ⟨_, .nil, .self hget (hset _ hw), rfl⟩
  | cons e entries ih =>
    intro σ w hw hget
    -- The value that the round binds is newer than what the path uses.
    have hframe : Frame n σ
        { σ with locals := Function.update σ.locals value (.plain (datum e)) } := by
      refine ⟨rfl, fun x hx => Function.update_of_ne ?_ _ _⟩
      rintro rfl
      omega
    have hget' : σ.out.get .output (path.map
        ({ σ with locals := Function.update σ.locals value (.plain (datum e)) } : State).access) =
        .ok w := by
      rw [hframe.access hpath]
      exact hget
    obtain ⟨o, hexec, hwrites⟩ := hs hw hget' (Function.update_self value _ σ.locals)
    have hruns : Runs order (.step s .done) (head.bind σ e)
        { σ with locals := Function.update σ.locals value (.plain (datum e)), out := o } := by
      rw [hbind e List.mem_cons_self]
      exact .step hexec .done
    have hwrites : Writes n σ path (add w (datum e)) (σ.afterBlock _) :=
      (Writes.ofFrame hframe rfl hpath (Nat.le_refl n) hwrites).afterBlock
    obtain ⟨τ, hrest, hwrites', hfunctions⟩ :=
      ih (fun e' he' => hbind e' (List.mem_cons_of_mem _ he')) (hshaped w _ hw) (hwrites.get hpath)
    exact ⟨τ, .cons hruns hrest, hwrites.trans hwrites' hpath (Nat.le_refl n), hfunctions⟩

/-- The statement that marks the value of a variable as a key. -/
theorem mark_sound {σ : State} {keys : List Datum} {entry : Datum → GoValue} {k : Datum}
    {go : GoType} (hget : σ.out.get .output (path.map σ.access) = .ok (.table keys entry))
    (hvalue : σ.locals value = .plain k) :
    ∃ o, (∀ call, (Statement.assign ⟨.output, path ++ [.keyAs go value]⟩ .present).exec call σ =
        .ok { σ with out := o }) ∧
      Writes n σ path ((GoValue.table keys entry).marked k) { σ with out := o } := by
  have hstep : [Step.keyAs go value].map σ.access = [.element k] := by
    show [Access.element (σ.locals value).datum] = _
    rw [hvalue]
    rfl
  have hslot : ∃ old, σ.out.get .output ((path ++ [Step.keyAs go value]).map σ.access) =
      .ok old := by
    rw [List.map_append, hstep, GoValue.get_append hget]
    exact ⟨_, rfl⟩
  obtain ⟨old, hslot⟩ := hslot
  obtain ⟨o, hexec, hwrites⟩ :=
    exists_exec_assign (n := n) (x := .plain .mark) (e := .present) (fun _ => rfl) hslot
  exact ⟨o, hexec, hwrites.below hget (by rw [hstep]; rfl)⟩

/-- The statement that appends the value of a variable. -/
theorem push_sound {σ : State} {length : Nat} {item : Nat → GoValue} {k : Datum} {go : GoType}
    (hget : σ.out.get .output (path.map σ.access) = .ok (.list length item))
    (hvalue : σ.locals value = .plain k) :
    ∃ o, (∀ call, (Statement.assign ⟨.output, path⟩ (.append ⟨.output, path⟩ go value)).exec call
        σ = .ok { σ with out := o }) ∧
      Writes n σ path ((GoValue.list length item).pushed k) { σ with out := o } := by
  refine exists_exec_assign (fun call => ?_) hget
  show (σ.read ⟨.output, path⟩ >>= fun list => list.push (σ.locals value) >>= fun x =>
    Except.ok (x, σ)) = _
  rw [show σ.read ⟨.output, path⟩ = .ok (.list length item) from hget, hvalue]
  rfl

/-- The container that keys are added to: a map for them, or an empty slice. -/
def emptyKeys (intoKeys : Bool) : GoValue :=
  if intoKeys then .table [] fun _ => .absent else .list 0 fun _ => .absent

/-- The elements of a container are added to a new one. -/
def addKeys (intoKeys : Bool) (added : List Datum) : GoValue :=
  added.foldl (if intoKeys then GoValue.marked else GoValue.pushed) (emptyKeys intoKeys)

/-- All rounds of a loop that adds the keys of a map or the items of a slice. -/
theorem keys_rounds {intoKeys fromKeys : Bool} {go : GoType} {σ : State} {source : Place}
    {entries : List (Datum × GoValue)} {datum : Datum × GoValue → Datum} (hpath : path.Known n)
    (hdatum : ∀ e ∈ entries, (if fromKeys then .plain e.1 else e.2) = .plain (datum e))
    (hget : σ.out.get .output (path.map σ.access) = .ok (emptyKeys intoKeys)) :
    ∃ τ, RunsEach order
        (if fromKeys then .eachKey (.value (n + 1)) source else .eachValue (.value (n + 1)) source)
        (.step (if intoKeys then .assign ⟨.output, path ++ [.keyAs go (.value (n + 1))]⟩ .present
          else .assign ⟨.output, path⟩ (.append ⟨.output, path⟩ go (.value (n + 1)))) .done)
        entries σ τ ∧
      Writes n σ path (addKeys intoKeys (entries.map datum)) τ ∧ τ.functions = σ.functions := by
  have hbind : ∀ e ∈ entries, ∀ σ : State,
      (if fromKeys then Head.eachKey (.value (n + 1)) source
        else .eachValue (.value (n + 1)) source).bind σ e = { σ with
          locals := Function.update σ.locals (.value (n + 1)) (.plain (datum e)) } := by
    intro e he σ
    rw [← hdatum e he]
    cases fromKeys <;> rfl
  -- A set of keys takes each as a mark, a slice at its end: both keep the shape of what is filled.
  cases intoKeys with
  | true =>
    refine adds_sound (fun w => ∃ keys entry, w = .table keys entry) (Nat.lt_succ_self n) hpath
      ?_ ?_ ?_ hbind ⟨_, _, rfl⟩ hget
    · rintro w ⟨keys, entry, rfl⟩
      rfl
    · rintro w k ⟨keys, entry, rfl⟩
      exact ⟨_, _, rfl⟩
    · rintro σ w k ⟨keys, entry, rfl⟩ hget hvalue
      exact mark_sound hget hvalue
  | false =>
    refine adds_sound (fun w => ∃ length item, w = .list length item) (Nat.lt_succ_self n) hpath ?_
      ?_ ?_ hbind ⟨_, _, rfl⟩ hget
    · rintro w ⟨length, item, rfl⟩
      rfl
    · rintro w k ⟨length, item, rfl⟩
      exact ⟨_, _, rfl⟩
    · rintro σ w k ⟨length, item, rfl⟩ hget hvalue
      exact push_sound hget hvalue

end Keys

/-- The statements for the keys of a map or from them add all elements to a new container. -/
theorem keys_fills {intoKeys fromKeys : Bool} {go : GoType} {σ : State} {u old : GoValue} {k : Nat}
    {entries : List (Datum × GoValue)} {datum : Datum × GoValue → Datum} {path : Path}
    {source : Place}
    (hready : Ready c p σ) (hpath : path.Known p.counter) (hsource : Holds p.counter σ source u)
    (hget : σ.out.get .output (path.map σ.access) = .ok old) (hsize : u.size = .ok k)
    (hentries : u.entries order σ.loops = .ok entries)
    (hdatum : ∀ e ∈ entries, (if fromKeys then .plain e.1 else e.2) = .plain (datum e)) :
    Fills c order p (keysCode .done path go intoKeys fromKeys ⟨.done, source, none, p.counter⟩)
      { p with counter := p.counter + 1 } σ path
      fun w => w = addKeys intoKeys (entries.map datum) := by
  obtain ⟨o, hexec, hwrites⟩ := exists_exec_assign (n := p.counter) (x := emptyKeys intoKeys)
    (e := if intoKeys then .make (.keySet go) source else .makeRoom (.slice go) source)
    -- The size is evaluated for either shape, even where only room is made.
    (fun call => by
      cases intoKeys <;>
      · show (σ.read source >>= fun v => v.size >>= fun _ => Except.ok (_, σ)) = _
        rw [hsource.read]
        show (u.size >>= _) = _
        rw [hsize]
        rfl) hget
  have hsource' : Holds p.counter { σ with out := o } source u :=
    hsource.frame hwrites.frame (Nat.le_refl _)
  obtain ⟨τ, heach, hwrites', hfunctions⟩ :=
    @keys_rounds order p.counter path intoKeys fromKeys go
      { σ with out := o, loops := σ.loops + 1 } source entries datum hpath hdatum
      (hwrites.get hpath)
  refine ⟨τ, _, .step hexec (.loop ?_ hsource'.read hentries heach .done), ?_, ?_,
    rfl⟩
  · cases fromKeys <;> rfl
  · exact hwrites.trans ⟨⟨hwrites'.frame.whole, hwrites'.frame.locals⟩, hwrites'.out⟩ hpath
      (Nat.le_refl _)
  · refine ⟨hready.deferred, hfunctions ▸ hready.scope, fun f hf => ?_⟩
    rw [hfunctions] at hf
    exact Nat.le_succ_of_le (hready.numbers f hf)

/-- A type of values that can be keys has no nil. -/
theorem FieldType.isPlain_of_isHashable {t : FieldType} (h : t.isHashable = true) :
    t.root.isPlain = true := by
  rw [isHashable] at h
  cases hroot : t.root <;> rw [hroot] at h <;> first
    | rfl
    | cases h

/-- A value that is held as it is and cannot be nil. -/
theorem Fits.eq_plain {s : Schema} {t : FieldType} {u : GoValue} (h : Fits s false t u)
    (hplain : t.root.isPlain = true) : u = .plain u.datum := by
  cases h with
  | nothing h =>
    rw [hplain] at h
    rcases h with h | h <;> cases h
  | plain => rfl
  | bytes => rfl
  | record hroot | list hroot | slice hroot | keys hroot | map hroot =>
    rw [hroot] at hplain
    cases hplain

/-- Keys that are added to an empty table become its keys. -/
theorem addKeys_true (added : List Datum) :
    ∃ keys entry, addKeys true added = .table keys entry ∧ keys.Nodup ∧
      ∀ k, k ∈ keys ↔ k ∈ added := by
  obtain ⟨keys, entry, heq, hnodup, hmem⟩ :=
    @foldl_marked added [] (fun _ => .absent) List.nodup_nil
  exact ⟨keys, entry, heq, hnodup, fun k => (hmem k).trans (by simp)⟩

/-- Items that are added to an empty list become its items. -/
theorem addKeys_false (added : List Datum) :
    ∃ item, addKeys false added = .list added.length item ∧
      ∀ i d, added[i]? = some d → item i = .plain d := by
  obtain ⟨item, heq, -, hitems⟩ := @foldl_pushed added 0 fun _ => .absent
  refine ⟨item, heq.trans (by rw [Nat.zero_add]), fun i d hd => ?_⟩
  have := hitems i d hd
  rwa [Nat.zero_add] at this

/-- The loop over the keys of a map adds them in some order. -/
theorem keys_fills_fromKeys (horder : ∀ n keys, (order n keys).Perm keys) {intoKeys : Bool}
    {go : GoType} {σ : State} {u old : GoValue} {path : Path} {source : Place}
    (hready : Ready c p σ) (hpath : path.Known p.counter) (hsource : Holds p.counter σ source u)
    (hget : σ.out.get .output (path.map σ.access) = .ok old)
    (hu : u = .absent ∨ ∃ keys entry, u = .table keys entry ∧ keys.Nodup) :
    Fills c order p (keysCode .done path go intoKeys true ⟨.done, source, none, p.counter⟩)
      { p with counter := p.counter + 1 } σ path
      fun w => ∃ keys entry added, u.AsTable keys entry ∧ keys.Nodup ∧ added.Perm keys ∧
        w = addKeys intoKeys added := by
  rcases hu with rfl | ⟨keys, entry, rfl, hnodup⟩
  · obtain ⟨τ, w, hruns, hwrites, hready', rfl⟩ :=
      @keys_fills c order p intoKeys true go σ .absent old 0 [] (·.1) path source hready hpath
        hsource hget rfl rfl nofun
    exact ⟨τ, _, hruns, hwrites, hready', [], fun _ => .absent, [], .inl ⟨rfl, rfl⟩,
      List.nodup_nil, .refl _, rfl⟩
  · obtain ⟨τ, w, hruns, hwrites, hready', rfl⟩ :=
      @keys_fills c order p intoKeys true go σ (.table keys entry) old _ _ (·.1) path source hready
        hpath hsource hget rfl rfl fun e _ => rfl
    -- What is added are the keys themselves, in the order in which the loop meets them.
    refine ⟨τ, _, hruns, hwrites, hready', keys, entry, order σ.loops keys, .inr rfl, hnodup,
      horder _ _, ?_⟩
    rw [List.map_map]
    exact congrArg _ (List.map_id _)

/-- The loop over the items of a slice adds them one after the other. -/
theorem keys_fills_fromSlice {intoKeys : Bool} {go : GoType} {σ : State} {u old : GoValue}
    {path : Path} {source : Place} {element : FieldType} (hplain : element.root.isPlain = true)
    (hready : Ready c p σ) (hpath : path.Known p.counter) (hsource : Holds p.counter σ source u)
    (hget : σ.out.get .output (path.map σ.access) = .ok old)
    (hu : u = .absent ∨ ∃ k item, u = .list k item ∧
      ∀ i < k, Fits c.schema false element (item i)) :
    Fills c order p (keysCode .done path go intoKeys false ⟨.done, source, none, p.counter⟩)
      { p with counter := p.counter + 1 } σ path
      fun w => ∃ length item added, u.AsList length item ∧
        (∀ d, d ∈ added ↔ ∃ i < length, item i = .plain d) ∧ w = addKeys intoKeys added := by
  rcases hu with rfl | ⟨length, item, rfl, hitems⟩
  · obtain ⟨τ, w, hruns, hwrites, hready', rfl⟩ :=
      @keys_fills c order p intoKeys false go σ .absent old 0 [] (·.1) path source hready hpath
        hsource hget rfl rfl nofun
    exact ⟨τ, _, hruns, hwrites, hready', 0, fun _ => .absent, [], .inl ⟨rfl, rfl⟩,
      fun d => ⟨nofun, nofun⟩, rfl⟩
  · -- A slice that stands for a set has plain elements only.
    have hdatum : ∀ e ∈ (List.range length).map fun i => (Datum.index i, item i),
        e.2 = .plain e.2.datum := by
      intro e he
      obtain ⟨i, hi, rfl⟩ := List.mem_map.mp he
      exact (hitems i (List.mem_range.mp hi)).eq_plain hplain
    obtain ⟨τ, w, hruns, hwrites, hready', rfl⟩ :=
      @keys_fills c order p intoKeys false go σ (.list length item) old _ _ (·.2.datum) path source
        hready hpath hsource hget rfl rfl hdatum
    refine ⟨τ, _, hruns, hwrites, hready', length, item, _, .inr rfl, fun d => ?_, rfl⟩
    rw [List.map_map, List.mem_map]
    constructor
    · rintro ⟨i, hi, rfl⟩
      have hi := List.mem_range.mp hi
      exact ⟨i, hi, (hitems i hi).eq_plain hplain⟩
    · rintro ⟨i, hi, heq⟩
      exact ⟨i, List.mem_range.mpr hi, congrArg GoValue.datum heq⟩

/-- The statements for a set where one of the sides is the keys of a map are sound. -/
theorem keys_sound (hM : Matching c M) (horder : ∀ n keys, (order n keys).Perm keys)
    {element primary : FieldType} {form primaryForm : SetForm} {go : GoType} {chosen : Selection}
    (hprimary : job.primary.setElements? = some (primary, primaryForm))
    (hkeyed : (isKeyed element form || isKeyed primary primaryForm) = true)
    (hhashable : element.isHashable = true)
    (hchosen : chosen = .of p.counter job.primary.place (job.standIn.map (·.place)) false)
    {pos : Position} :
    ContainerSound c order M v (.set element form) job p
      (keysCode (p.deferred.guards pos.scope job.path) job.path go (isKeyed element form)
        (isKeyed primary primaryForm) chosen)
      { p with counter := chosen.counter + 1 } := by
  intro σ t u old optional hready hstandIn htype hrelated hpath hsource hfits hinside hget
  have hdirect : chosen = ⟨.done, job.primary.place, none, p.counter⟩ := by
    rw [hchosen, hstandIn]
    rfl
  subst hdirect
  rw [hready.guards]
  have hroot := Operand.root_of_setElements hprimary
  cases hfrom : isKeyed primary primaryForm with
  | true =>
    obtain ⟨τ, w, hruns, hwrites, hready', keys, entry, added, htable, hnodup, hperm, rfl⟩ :=
      keys_fills_fromKeys horder hready hpath hsource hget (hfits.exists_keys hroot hfrom)
    refine ⟨τ, _, hruns, hwrites, hready', ?_⟩
    cases hinto : isKeyed element form with
    | true =>
      obtain ⟨keys', entry', heq, hnodup', hmem⟩ := addKeys_true added
      have hperm' : keys'.Perm keys := by
        refine (List.perm_ext_iff_of_nodup hnodup' hnodup).mpr fun k => ?_
        rw [hmem, hperm.mem_iff]
      rw [heq]
      exact .keysOfKeys htype hinto hroot hfrom htable hperm'
    | false =>
      obtain ⟨item, heq, hitems⟩ := addKeys_false added
      rw [heq]
      exact .sliceOfKeys htype hinto hroot hfrom htable hperm hitems
  | false =>
    rw [hfrom, Bool.or_false] at hkeyed
    -- The items cannot be nil, as they have the type of keys.
    have hsame := hM.leaf (hM.set hrelated htype hroot) (by
      rw [FieldType.isHashable] at hhashable
      cases hleaf : element.root <;> rw [hleaf] at hhashable <;> first
        | rfl
        | cases hhashable)
    have hplain : primary.root.isPlain = true := by
      rw [hsame]
      exact FieldType.isPlain_of_isHashable hhashable
    obtain ⟨τ, w, hruns, hwrites, hready', length, item, added, hlist, hadded, rfl⟩ :=
      keys_fills_fromSlice hplain hready hpath hsource hget (hfits.exists_slice hroot hfrom)
    refine ⟨τ, _, hruns, hwrites, hready', ?_⟩
    obtain ⟨keys, entry, heq, hnodup, hmem⟩ := addKeys_true added
    rw [hkeyed, heq]
    exact .keysOfSlice htype hkeyed hroot hfrom hlist hnodup fun k => (hmem k).trans (hadded k)

end RecordBridge

import Mathlib.Data.List.ReduceOption
import RecordBridge.Proofs.Conversion.Allocation
import RecordBridge.Proofs.Conversion.Found

/-!
# What an assignment does

An assignment tests its source selector by selector, so it never goes through a nil value of the source
that it has not been promised (`Assignment.Promised`). It takes place if everything on the way to its source
is set, and the source itself where that is asked for or a pointer is read through (`Assignment.TakesPlace`);
then it runs the guards of its target and writes the converted source, and otherwise it does nothing
(`Assignment.exec_code`). So a leaf with two sources is filled once for each of them that takes
place, from the primary one last, and stays as it was if neither does (`exec_leafCode`).
-/

namespace RecordBridge

/-! ## Selectors -/

namespace Path

/-- A path selects a field of what is at another path. -/
def SelectsFrom (path q : Path) : Prop :=
  ∃ name more, path = q ++ .field name :: more

/-- A path ends at an element that is taken. -/
def EndsIndexed (q : Path) : Prop :=
  ∃ before s, q = before ++ [s] ∧ s.isField = false

/-- The fields of a path are named by identifiers. -/
def IsPlain (path : Path) : Prop :=
  ∀ name, .field name ∈ path → IsIdentifier name

theorem takesElement_eq {path : Path} (h : path.IsPlain) {s : Step} (hs : s ∈ path) :
    s.takesElement = !s.isField := by
  cases s with
  | field name => exact (h name hs).takesElement
  | index v | keyAs type v =>
    simp [Step.takesElement, Step.text, Step.isField, List.getLast?_cons, List.getLast?_append]

theorem selections_eq_map (before path : Path) :
    selections before path = (selections [] path).map (before ++ ·) := by
  induction path generalizing before with
  | nil => rfl
  | cons s rest ih =>
    rw [selections, selections, ih (before ++ [s]), ih ([] ++ [s])]
    split <;> simp

theorem selections_cons {s : Step} {rest : Path} (h : Path.IsPlain (s :: rest)) :
    selections [] (s :: rest) =
      (if s.isField ∧ startsIndexed rest = false then [[s]] else []) ++
        (selections [] rest).map (s :: ·) := by
  rw [selections, selections_eq_map, takesElement_eq h List.mem_cons_self]
  cases s.isField <;> cases startsIndexed rest <;> rfl

/-- A selection is that of a first field, or one from there on. -/
theorem selections_cons_split {s : Step} {rest : Path} (h : Path.IsPlain (s :: rest))
    {l r : List Path} {p : Path} (hsplit : selections [] (s :: rest) = l ++ p :: r) :
    (s.isField = true ∧ startsIndexed rest = false ∧ l = [] ∧ p = [s]) ∨
      ∃ l' p' r', selections [] rest = l' ++ p' :: r' ∧ p = s :: p' ∧
        (∀ q ∈ l', s :: q ∈ l) ∧ (s.isField = true → startsIndexed rest = false → [s] ∈ l) := by
  rw [selections_cons h] at hsplit
  have hlater : ∀ {l'' r : List Path}, (selections [] rest).map (s :: ·) = l'' ++ p :: r →
      (∀ q ∈ l'', q ∈ l) → (s.isField = true → startsIndexed rest = false → [s] ∈ l) →
      ∃ l' p' r', selections [] rest = l' ++ p' :: r' ∧ p = s :: p' ∧
        (∀ q ∈ l', s :: q ∈ l) ∧ (s.isField = true → startsIndexed rest = false → [s] ∈ l) := by
    intro l'' r hmap hl hfirst
    obtain ⟨l', tail, hselections, rfl, htail⟩ := List.map_eq_append_iff.mp hmap
    obtain ⟨p', r', rfl, rfl, -⟩ := List.map_eq_cons_iff.mp htail
    exact ⟨l', p', r', hselections, rfl, fun q hq => hl _ (List.mem_map_of_mem hq), hfirst⟩
  -- The first step is a selection by itself, unless an element is taken of it.
  split at hsplit
  · rename_i hfirst
    cases l with
    | nil =>
      obtain ⟨rfl, -⟩ := List.cons.inj hsplit
      exact .inl ⟨hfirst.1, hfirst.2, rfl, rfl⟩
    | cons q l =>
      obtain ⟨rfl, hmap⟩ := List.cons.inj hsplit
      exact .inr (hlater hmap (fun q => List.mem_cons_of_mem _) fun _ _ => List.mem_cons_self)
  · rename_i hnone
    exact .inr (hlater hsplit (fun _ => id) fun hfield hnext => absurd ⟨hfield, hnext⟩ hnone)

/-- Before a selection come all that it selects from, but for the start and elements that are taken. No
element is taken of it. -/
theorem selections_split {path : Path} (h : path.IsPlain) {l r : List Path} {p : Path}
    (hsplit : selections [] path = l ++ p :: r) :
    (∃ q name, p = q ++ [.field name]) ∧ (∃ more, path = p ++ more ∧ startsIndexed more = false) ∧
      ∀ q, p.SelectsFrom q → q = [] ∨ q.EndsIndexed ∨ q ∈ l := by
  induction path generalizing l p r with
  | nil => simp [selections] at hsplit
  | cons s rest ih =>
    have hrest : Path.IsPlain rest := fun name hname => h name (List.mem_cons_of_mem _ hname)
    rcases selections_cons_split h hsplit with ⟨hfield, hnext, rfl, rfl⟩ |
      ⟨l', p', r', hsplit', rfl, hlater, hfirst⟩
    · refine ⟨?_, ⟨rest, rfl, hnext⟩, fun q hq => ?_⟩
      · cases s with
        | field name => exact ⟨[], name, rfl⟩
        | _ => cases hfield
      · obtain ⟨name, more, heq⟩ := hq
        cases q with
        | nil => exact .inl rfl
        | cons s' q => simp at heq
    · obtain ⟨⟨q', name', rfl⟩, ⟨more', hmore, hnext⟩, hbefore⟩ := ih hrest hsplit'
      refine ⟨⟨s :: q', name', rfl⟩, ⟨more', by rw [hmore]; rfl, hnext⟩, fun q hq => ?_⟩
      obtain ⟨name, more, heq⟩ := hq
      cases q with
      | nil => exact .inl rfl
      | cons s' q =>
        obtain ⟨rfl, htail⟩ := List.cons.inj heq
        rcases hbefore q ⟨name, more, htail⟩ with rfl | ⟨before, s', rfl, hs'⟩ | hmem
        · -- The first step alone: a field, of which a field is selected, or an element.
          cases hs : s.isField with
          | false => exact .inr (.inl ⟨[], s, rfl, hs⟩)
          | true =>
            refine .inr (.inr (hfirst hs ?_))
            rw [hmore, htail]
            rfl
        · exact .inr (.inl ⟨s :: before, s', rfl, hs'⟩)
        · exact .inr (.inr (hlater _ hmem))

end Path

/-! ## Tests -/

section States

variable {σ τ : State} {p : Place}

/-- Places of which each can be read if those before it are set can be tested one after the other. -/
theorem State.allSet_cases {ps : List Place}
    (h : ∀ l p r, ps = l ++ p :: r → (∀ q ∈ l, σ.IsSet q) → ∃ x, σ.read p = .ok x) :
    σ.allSet ps = .ok true ∧ (∀ p ∈ ps, σ.IsSet p) ∨
      σ.allSet ps = .ok false ∧ ∃ p ∈ ps, ¬σ.IsSet p := by
  induction ps with
  | nil => exact .inl ⟨rfl, nofun⟩
  | cons p ps ih =>
    obtain ⟨x, hread⟩ := h [] p ps rfl nofun
    have htest : σ.allSet (p :: ps) = if x.isSet then σ.allSet ps else .ok false := by
      rw [allSet, hread]
      rfl
    -- Tests go on as long as all is set, so the next place can be read as well.
    by_cases hset : x.isSet = true
    · rw [htest, if_pos hset]
      rcases ih fun l p' r heq hl => h (p :: l) p' r (by rw [heq]; rfl)
        (List.forall_mem_cons.mpr ⟨⟨x, hread, hset⟩, hl⟩) with ⟨hall, hps⟩ | ⟨hall, q, hq, hunset⟩
      · exact .inl ⟨hall, List.forall_mem_cons.mpr ⟨⟨x, hread, hset⟩, hps⟩⟩
      · exact .inr ⟨hall, q, List.mem_cons_of_mem _ hq, hunset⟩
    · rw [htest, if_neg hset]
      refine .inr ⟨rfl, p, List.mem_cons_self, ?_⟩
      rintro ⟨x', hread', hset'⟩
      refine hset ?_
      rw [hread] at hread'
      cases hread'
      exact hset'

/-- A field of what is set can be read on the way to a place that only nil can be in the way of. -/
theorem State.read_of_selectsFrom {q more : Path} {name : String}
    (hpath : p.path = q ++ .field name :: more)
    (hreads : ∀ fault, σ.read p = .error fault → fault = .nilBelow p.root)
    (hset : σ.IsSet ⟨p.root, q⟩) : ∃ x, σ.read ⟨p.root, q ++ [.field name]⟩ = .ok x := by
  obtain ⟨u, hread, hset⟩ := hset
  cases hfield : σ.read ⟨p.root, q ++ [.field name]⟩ with
  | ok x => exact ⟨x, rfl⟩
  | error fault =>
    have hlonger : σ.read p = .error fault := by
      rw [read, hpath, List.append_cons, List.map_append]
      exact GoValue.get_append_error hfield
    rw [hreads fault hlonger, read, List.map_append] at hfield
    exact absurd hfield (GoValue.get_ne_nilBelow hread hset)

/-- What is read below a local variable depends on local variables only. -/
theorem State.read_of_locals (h : τ.locals = σ.locals) (hp : p.root.isLocal = true) :
    τ.read p = σ.read p := by
  have haccess : τ.access = σ.access := by
    funext s
    cases s <;> simp only [access, h]
  rw [read, read, haccess, value_of_isLocal hp, value_of_isLocal hp, h]

end States

/-! ## Assignments -/

/-- What a source of a cast may hold: something plain where its address is taken, and a pointer or nil
where it is read through. -/
def Cast.Fits : Cast → GoValue → Prop
  | .address _, x => ∃ d, x = .plain d
  | .load, x => x = .absent ∨ ∃ d, x = .pointer d
  | _, _ => True

theorem Cast.exists_apply {cast : Cast} {x : GoValue} (h : cast.Fits x)
    (hset : cast = .load → x.isSet = true) (root : Var) : ∃ w, cast.apply root x = .ok w := by
  cases cast with
  | address type =>
    obtain ⟨d, rfl⟩ := h
    exact ⟨_, rfl⟩
  | load =>
    rcases h with rfl | ⟨d, rfl⟩
    · exact absurd (hset rfl) Bool.false_ne_true
    · exact ⟨_, rfl⟩
  | plain _ | pointer _ | bytes _ => exact ⟨x, by cases x <;> rfl⟩

namespace Assignment

/-- An assignment as it is emitted: from a field below a local variable, with the cast for fields that are
required or not, or that for bytes. -/
structure IsEmitted (a : Assignment) : Prop where
  isLocal : a.source.root.isLocal = true
  plain : a.source.path.IsPlain
  field : ∃ base name, a.source.path = base ++ [.field name]
  cast : ∃ type, a.cast = .forPresence type a.sourceRequired a.targetRequired ∨ a.cast = .bytes type

/-- What an assignment is promised of the state that it starts in. The variable of its source is set, and so
are elements on the way, which the loops around it have found. A copy is promised all that lies above its
source. Nothing but nil is in the way, and the source has the type that the cast is for. -/
structure Promised (a : Assignment) (σ : State) : Prop where
  root : σ.IsSet (.ofVar a.source.root)
  elements : ∀ q, a.source.path.SelectsFrom q → q.EndsIndexed → σ.IsSet ⟨a.source.root, q⟩
  copied : a.isCopy = true → ∀ q, a.source.path.SelectsFrom q → σ.IsSet ⟨a.source.root, q⟩
  reads : ∀ fault, σ.read a.source = .error fault → fault = .nilBelow a.source.root
  fits : ∀ x, σ.read a.source = .ok x → a.cast.Fits x

/-- An assignment takes place: all that lies above its source is set, and the source itself if that is asked
for or a pointer is read through. -/
structure TakesPlace (a : Assignment) (σ : State) : Prop where
  above : ∀ q, a.source.path.SelectsFrom q → σ.IsSet ⟨a.source.root, q⟩
  source : a.onlyIfSet = true ∨ a.cast = .load → σ.IsSet a.source

variable {a : Assignment} {σ τ : State} {order : Order} {call : Code → State → Except Fault State}
  {d : Deferred} {scope : Path}

/-- The source is needed where a pointer is read through. -/
theorem IsEmitted.needsSource_iff (h : a.IsEmitted) : a.needsSource = true ↔ a.cast = .load := by
  obtain ⟨type, hcast⟩ := h.cast
  rw [needsSource]
  rcases hcast with hcast | hcast
  · rw [hcast]
    cases a.sourceRequired <;> cases a.targetRequired <;> simp [Cast.forPresence, Cast.acceptsAbsent]
  · simp [hcast, Cast.acceptsAbsent]

/-- The selections on the way to the source, and then the source. -/
theorem IsEmitted.selections (h : a.IsEmitted) :
    ∃ l, Path.selections [] a.source.path = l ++ [a.source.path] ∧
      a.source.selections = l.map (⟨a.source.root, ·⟩) ++ [a.source] ∧
      ∀ q ∈ l, a.source.path.SelectsFrom q := by
  obtain ⟨base, name, hpath⟩ := h.field
  have hname : IsIdentifier name := h.plain name (by rw [hpath]; simp)
  obtain ⟨l, hl, hprefix⟩ := Path.selections_select hname.takesElement [] base
  rw [List.nil_append, ← hpath] at hl
  refine ⟨l, hl, by rw [Place.selections, hl, List.map_append]; rfl, fun q hq => ?_⟩
  obtain ⟨before, after, rfl⟩ := List.append_of_mem hq
  rw [List.append_assoc, List.cons_append] at hl
  obtain ⟨-, ⟨more, hmore, hnext⟩, -⟩ := Path.selections_split h.plain hl
  obtain ⟨s, rest, hrest⟩ := hprefix q (by simp)
  rw [List.nil_append, ← hpath, hmore] at hrest
  obtain rfl := List.append_cancel_left hrest
  cases s with
  | field name' => exact ⟨name', rest, hmore⟩
  | _ => cases hnext

/-- What an assignment tests: the selections on the way to its source, unless it is a copy, and the source
itself if that is asked for or needed. -/
theorem tested_eq {l : List Path}
    (hl : a.source.selections = l.map (⟨a.source.root, ·⟩) ++ [a.source]) :
    a.tested = (if a.isCopy then [] else l.map (⟨a.source.root, ·⟩)) ++
      if a.onlyIfSet || a.needsSource then [a.source] else [] := by
  rw [tested, hl, List.dropLast_concat]
  cases a.isCopy <;> cases a.onlyIfSet || a.needsSource <;> simp

/-- The tests of an assignment that is no copy are the first ones of all selections. -/
theorem IsEmitted.tested_split (h : a.IsEmitted) (hcopy : a.isCopy = false) {l r : List Place} {p : Place}
    (hsplit : a.tested = l ++ p :: r) :
    ∃ l' p' r', Path.selections [] a.source.path = l' ++ p' :: r' ∧
      l = l'.map (⟨a.source.root, ·⟩) ∧ p = ⟨a.source.root, p'⟩ := by
  obtain ⟨paths, -, hselections, -⟩ := h.selections
  obtain ⟨r', hr'⟩ : ∃ r', a.source.selections = l ++ p :: r' := by
    rw [tested_eq hselections, hcopy, if_neg Bool.false_ne_true] at hsplit
    split at hsplit
    · exact ⟨r, hselections.trans hsplit⟩
    · rw [List.append_nil] at hsplit
      exact ⟨r ++ [a.source], by rw [hselections, hsplit]; simp⟩
  rw [Place.selections] at hr'
  obtain ⟨l', tail, hsplit', rfl, htail⟩ := List.map_eq_append_iff.mp hr'
  obtain ⟨p', r'', rfl, rfl, -⟩ := List.map_eq_cons_iff.mp htail
  exact ⟨l', p', r'', hsplit', rfl, rfl⟩

/-- A selection can be read if those before it are set. -/
theorem Promised.exists_read (h : a.IsEmitted) (hσ : a.Promised σ) {l r : List Path} {p : Path}
    (hsplit : Path.selections [] a.source.path = l ++ p :: r)
    (hbefore : ∀ q ∈ l, σ.IsSet ⟨a.source.root, q⟩) : ∃ x, σ.read ⟨a.source.root, p⟩ = .ok x := by
  obtain ⟨⟨q, name, rfl⟩, ⟨more, hmore, -⟩, habove⟩ := Path.selections_split h.plain hsplit
  have hpath : a.source.path = q ++ .field name :: more := by simpa using hmore
  refine State.read_of_selectsFrom hpath hσ.reads ?_
  rcases habove q ⟨name, [], rfl⟩ with rfl | hindexed | hq
  · exact hσ.root
  · exact hσ.elements q ⟨name, more, hpath⟩ hindexed
  · exact hbefore q hq

/-- The source can be read if all that lies above it is set. -/
theorem Promised.exists_read_source (h : a.IsEmitted) (hσ : a.Promised σ)
    (habove : ∀ q, a.source.path.SelectsFrom q → σ.IsSet ⟨a.source.root, q⟩) :
    ∃ x, σ.read a.source = .ok x := by
  obtain ⟨l, hl, -, hselects⟩ := h.selections
  exact hσ.exists_read h hl fun q hq => habove q (hselects q hq)

/-- Each of the tested places can be read if those before it are set. -/
theorem Promised.exists_read_tested (h : a.IsEmitted) (hσ : a.Promised σ) {l r : List Place} {p : Place}
    (hsplit : a.tested = l ++ p :: r) (hbefore : ∀ q ∈ l, σ.IsSet q) : ∃ x, σ.read p = .ok x := by
  cases hcopy : a.isCopy with
  | true =>
    have hp : p ∈ [a.source] := by
      have hmem : p ∈ a.tested := by simp [hsplit]
      rw [tested, hcopy, if_pos rfl] at hmem
      split at hmem
      · exact hmem
      · cases hmem
    rw [List.mem_singleton.mp hp]
    exact hσ.exists_read_source h (hσ.copied hcopy)
  | false =>
    obtain ⟨l', p', r', hsplit', rfl, rfl⟩ := h.tested_split hcopy hsplit
    exact hσ.exists_read h hsplit' fun q hq => hbefore _ (List.mem_map_of_mem hq)

/-- An assignment takes place if all that it tests is set. -/
theorem Promised.takesPlace_iff (h : a.IsEmitted) (hσ : a.Promised σ) :
    a.TakesPlace σ ↔ ∀ p ∈ a.tested, σ.IsSet p := by
  obtain ⟨l, hl, hselections, hselects⟩ := h.selections
  have hneeds : (a.onlyIfSet || a.needsSource) = true ↔ a.onlyIfSet = true ∨ a.cast = .load := by
    rw [Bool.or_eq_true, h.needsSource_iff]
  rw [tested_eq hselections, List.forall_mem_append]
  constructor
  · rintro ⟨habove, hsource⟩
    constructor
    · split
      · exact nofun
      · intro p hp
        obtain ⟨q, hq, rfl⟩ := List.mem_map.mp hp
        exact habove q (hselects q hq)
    · split
      · rename_i hcond
        exact List.forall_mem_singleton.mpr (hsource (hneeds.mp hcond))
      · exact nofun
  · rintro ⟨habove, hsource⟩
    refine ⟨fun q hq => ?_, fun hcond => hsource _ ?_⟩
    · -- A copy tests nothing above its source, and is promised that all of it is set.
      cases hcopy : a.isCopy with
      | true => exact hσ.copied hcopy q hq
      | false =>
        rw [hcopy, if_neg Bool.false_ne_true] at habove
        rcases (Path.selections_split h.plain hl).2.2 q hq with rfl | hindexed | hmem
        · exact hσ.root
        · exact hσ.elements q hq hindexed
        · exact habove _ (List.mem_map_of_mem hmem)
    · rw [if_pos (hneeds.mpr hcond)]
      exact List.mem_singleton_self _

/-- The tests of an assignment tell whether it takes place. -/
theorem Promised.allSet_tested (h : a.IsEmitted) (hσ : a.Promised σ) :
    σ.allSet a.tested = .ok true ∧ a.TakesPlace σ ∨
      σ.allSet a.tested = .ok false ∧ ¬a.TakesPlace σ := by
  rw [hσ.takesPlace_iff h]
  rcases State.allSet_cases fun _ _ _ => hσ.exists_read_tested h with ⟨hall, hset⟩ | ⟨hall, p, hp, hunset⟩
  · exact .inl ⟨hall, hset⟩
  · exact .inr ⟨hall, fun hset => hunset (hset p hp)⟩

/-! ### Writing -/

/-- Guards change neither variables nor the functions in scope. -/
theorem keeps_of_exec_guards {path : Path} (h : exec order call (d.guards scope path) σ = .ok τ) :
    τ.locals = σ.locals ∧ τ.functions = σ.functions := by
  have hclean : ∀ n, Clean n (· = σ.functions) σ (exec order call (d.guards scope path) σ) :=
    fun _ => Clean.guards d scope path rfl
  exact ⟨funext fun v => (hclean v.number).agree τ h v (Nat.le_refl _), (hclean 0).functions τ h⟩

/-- The guards and the write of an assignment whose source can be read and converted. -/
theorem exec_write (hlocal : a.source.root.isLocal = true) {x w : GoValue}
    (hread : σ.read a.source = .ok x) (happly : a.cast.apply a.source.root x = .ok w) :
    exec order call (d.guards scope a.target ++
        .step (.assign ⟨.output, a.target⟩ (.convert a.cast a.source)) .done) σ =
      exec order call (d.guards scope a.target) σ >>= fun τ => τ.assign ⟨.output, a.target⟩ w := by
  rw [exec_append]
  cases hguards : exec order call (d.guards scope a.target) σ with
  | error fault => rfl
  | ok τ =>
    -- The guards write to the target only, so the source still reads the same.
    have hread' : τ.read a.source = .ok x :=
      (State.read_of_locals (keeps_of_exec_guards hguards).1 hlocal).trans hread
    have heval : (Expr.convert a.cast a.source).eval call τ = .ok (w, τ) := by
      show (τ.read a.source >>= fun x => a.cast.apply a.source.root x >>= fun y => Except.ok (y, τ)) = _
      rw [hread']
      show (a.cast.apply a.source.root x >>= _) = _
      rw [happly]
      rfl
    show ((Statement.assign ⟨.output, a.target⟩ (.convert a.cast a.source)).exec call τ >>=
      exec order call .done) = τ.assign ⟨.output, a.target⟩ w
    rw [Statement.exec_assign, heval]
    show (τ.assign ⟨.output, a.target⟩ w >>= fun τ => Except.ok τ) = _
    exact bind_pure _

/-- A block under tests that hold, which leaves the same functions in scope. -/
theorem exec_tested {places : List Place} {body : Code} (hall : σ.allSet places = .ok true)
    (hbody : ∀ τ, exec order call body σ = .ok τ → τ.functions = σ.functions) :
    exec order call (.nest (.ifSet places) body .done) σ = exec order call body σ := by
  rw [exec_test rfl]
  show (σ.allSet places >>= _) = _
  rw [hall]
  show (exec order call body σ >>= fun τ => Except.ok (σ.afterBlock τ)) = _
  cases hexec : exec order call body σ with
  | error fault => rfl
  | ok τ =>
    show Except.ok { τ with functions := σ.functions } = _
    rw [← hbody τ hexec]

theorem functions_of_assign {p : Place} {w : GoValue} (h : σ.assign p w = .ok τ) :
    τ.functions = σ.functions := by
  obtain ⟨changed, -, hset⟩ := bind_eq_ok h
  cases hset
  exact State.functions_set _ _ _

/-- An assignment that takes place runs the guards of its target and writes what the source is converted
to. -/
theorem Promised.exec_of_takesPlace (h : a.IsEmitted) (hσ : a.Promised σ) (htakes : a.TakesPlace σ) :
    ∃ x w, σ.read a.source = .ok x ∧ a.cast.apply a.source.root x = .ok w ∧
      exec order call (a.code (d.guards scope a.target)) σ =
        exec order call (d.guards scope a.target) σ >>= fun τ => τ.assign ⟨.output, a.target⟩ w := by
  obtain ⟨x, hread⟩ := hσ.exists_read_source h htakes.above
  -- A pointer that is read through is set, since that has been asked for.
  have hset : a.cast = .load → x.isSet = true := by
    intro hload
    obtain ⟨x', hread', hset⟩ := htakes.source (.inr hload)
    rw [hread] at hread'
    cases hread'
    exact hset
  obtain ⟨w, happly⟩ := Cast.exists_apply (hσ.fits x hread) hset a.source.root
  have hwrite := @exec_write _ σ order call d scope h.isLocal _ _ hread happly
  refine ⟨x, w, hread, happly, ?_⟩
  rw [code]
  split
  · have hall : σ.allSet a.tested = .ok true :=
      (hσ.allSet_tested h).elim And.left fun hskip => absurd htakes hskip.2
    rw [exec_tested hall, hwrite]
    intro τ hexec
    rw [hwrite] at hexec
    obtain ⟨υ, hguards, hassign⟩ := bind_eq_ok hexec
    exact (functions_of_assign hassign).trans (keeps_of_exec_guards hguards).2
  · exact hwrite

/-- An assignment that does not take place does nothing. -/
theorem Promised.exec_of_not_takesPlace (h : a.IsEmitted) (hσ : a.Promised σ)
    (hskip : ¬a.TakesPlace σ) (guards : Code) : exec order call (a.code guards) σ = .ok σ := by
  have hall : σ.allSet a.tested = .ok false :=
    (hσ.allSet_tested h).elim (fun htakes => absurd htakes.2 hskip) And.left
  have htest : a.isTested = true := by
    cases hnil : a.tested with
    | nil =>
      rw [hnil] at hall
      cases hall
    | cons p l => simp [isTested, hnil]
  rw [code, if_pos htest, exec_test rfl]
  show (σ.allSet a.tested >>= _) = _
  rw [hall]
  rfl

/-- Each test of an assignment that is no copy comes after those of all that it selects from, but for the
variable of the source and elements that are taken. -/
def TestsInOrder (a : Assignment) : Prop :=
  a.isCopy = false → ∀ l p r, a.tested = l ++ p :: r → ∀ q : Path, p.path.SelectsFrom q →
    q = [] ∨ q.EndsIndexed ∨ ⟨a.source.root, q⟩ ∈ l

theorem IsEmitted.testsInOrder (h : a.IsEmitted) : a.TestsInOrder := by
  intro hcopy l p r hsplit q hq
  obtain ⟨l', p', r', hsplit', rfl, rfl⟩ := h.tested_split hcopy hsplit
  rcases (Path.selections_split h.plain hsplit').2.2 q hq with hnil | hindexed | hmem
  · exact .inl hnil
  · exact .inr (.inl hindexed)
  · exact .inr (.inr (List.mem_map_of_mem hmem))

/-- What an assignment does, in a state that keeps its promises. It takes place if all that lies above its
source is set, and the source itself if that is asked for or a pointer is read through: then it is its guards
and the write, and otherwise nothing. It never goes through a nil value of the source, and tests in order. Nor
does it go through a nil value of the target, if all above that is set or deferred. -/
theorem exec_code (h : a.IsEmitted) (hσ : a.Promised σ) :
    (a.TakesPlace σ → ∃ x w, σ.read a.source = .ok x ∧ a.cast.apply a.source.root x = .ok w ∧
      exec order call (a.code (d.guards scope a.target)) σ =
        exec order call (d.guards scope a.target) σ >>= fun τ => τ.assign ⟨.output, a.target⟩ w) ∧
      (¬a.TakesPlace σ → exec order call (a.code (d.guards scope a.target)) σ = .ok σ) ∧
      FindsSources (exec order call (a.code (d.guards scope a.target)) σ) ∧ a.TestsInOrder ∧
      ∀ F, Path.Family F → d.Within F → F a.target →
        (∀ k : Path, k.Above a.target → ¬d.Holds k → σ.Allocated k) →
        exec order call (a.code (d.guards [] a.target)) σ ≠ .error NilTarget := by
  refine ⟨hσ.exec_of_takesPlace h, fun hskip => hσ.exec_of_not_takesPlace h hskip _, ?_,
    h.testsInOrder, fun F hF hd htarget habove => ?_⟩
  · by_cases htakes : a.TakesPlace σ
    · obtain ⟨x, w, -, -, hexec⟩ :=
        @Promised.exec_of_takesPlace a σ order call d scope h hσ htakes
      rw [hexec]
      refine FindsSources.bind (Clean.guards (n := 0) d scope a.target (P := fun _ => True) trivial).finds
        fun τ _ => FindsSources.bind ?_ fun _ _ => .ok _
      -- A write that meets nil meets it in the target, which is no source.
      intro v hv hnil
      rw [GoValue.get_eq_nilBelow (GoValue.put_eq_error.mp hnil)] at hv
      cases hv
    · rw [hσ.exec_of_not_takesPlace h htakes]
      exact .ok σ
  · have hgrounded : Grounded (fun _ => True) (fun k => k.Above a.target ∧ ¬d.Holds k)
        (a.code (d.guards [] a.target)) := grounded_code hF hd htarget h.isLocal
    exact hgrounded.exec_ne fun k hk => habove k hk.1 hk.2

/-- The text of a tag on the first of some items, which goes to a label. -/
def tagText : Assignment where
  source := ⟨.input, [.field "Items", .index (.index 1), .field "Tag", .field "Text"]⟩
  sourceRequired := false
  target := [.field "Label", .field "Text"]
  targetRequired := true
  cast := .load
  onlyIfSet := false

/-- An item with a tag, or without. -/
def tagged (tag : GoValue) : State where
  out := .fresh
  locals
    | .input => .record fun _ => .list 1 fun _ => .record fun _ => tag
    | _ => .plain (.index 0)

theorem tagText_isEmitted : tagText.IsEmitted where
  isLocal := rfl
  plain name h := by
    have hname : name = "Items" ∨ name = "Tag" ∨ name = "Text" := by simpa [tagText] using h
    rcases hname with rfl | rfl | rfl <;> decide
  field := ⟨[.field "Items", .index (.index 1), .field "Tag"], "Text", rfl⟩
  cast := ⟨.string, .inl rfl⟩

theorem tagText_promised {tag : GoValue}
    (htag : tag = .absent ∨ tag = .record fun _ => .pointer (.leaf .text "fragile")) :
    tagText.Promised (tagged tag) where
  root := ⟨_, rfl, rfl⟩
  elements q hq hindexed := by
    -- The only element on the way is that of the list.
    obtain ⟨name, more, hpath⟩ := hq
    obtain ⟨before, s, rfl, hs⟩ := hindexed
    rw [tagText] at hpath
    have hlength : before.length ≤ 2 := by
      have := congrArg List.length hpath
      simp only [List.length_append, List.length_cons, List.length_nil] at this
      omega
    rcases before with _ | ⟨s₁, _ | ⟨s₂, _ | ⟨s₃, before⟩⟩⟩
    · cases hpath
    · cases hpath
      exact ⟨_, rfl, rfl⟩
    · cases hpath
      cases hs
    · rw [List.length_cons, List.length_cons, List.length_cons] at hlength
      omega
  copied h := absurd h (by decide)
  reads fault h := by
    rcases htag with rfl | rfl <;> cases h
    rfl
  fits x h := by
    rcases htag with rfl | rfl <;> cases h
    exact .inr ⟨_, rfl⟩

/-- What is tested for that text. -/
theorem tagText_tested : tagText.tested =
    [⟨.input, [.field "Items", .index (.index 1), .field "Tag"]⟩, tagText.source] := by
  decide +kernel

/-- A label that is deferred. -/
def label : Deferred :=
  .defer .empty [.field "Label"] (.named "structs" "Label")

/-- Without a tag nothing happens, and with one the label is allocated and its text written. -/
theorem exec_code_of_tags :
    exec (fun _ => id) (fun _ _ => .error .exhausted) (tagText.code (label.guards [] tagText.target))
        (tagged .absent) = .ok (tagged .absent) ∧
      ∃ τ, exec (fun _ => id) (fun _ _ => .error .exhausted)
          (tagText.code (label.guards [] tagText.target))
          (tagged (.record fun _ => .pointer (.leaf .text "fragile"))) = .ok τ ∧
        τ.read ⟨.output, tagText.target⟩ = .ok (.plain (.leaf .text "fragile")) := by
  constructor
  · have hσ := tagText_promised (.inl rfl)
    refine (exec_code tagText_isEmitted hσ).2.1 fun htakes => ?_
    obtain ⟨x, hread, hset⟩ := (hσ.takesPlace_iff tagText_isEmitted).mp htakes _
      (by rw [tagText_tested]; exact List.mem_cons_self)
    cases hread
    cases hset
  · have hσ := tagText_promised (.inr rfl)
    obtain ⟨x, w, hread, happly, hexec⟩ := (exec_code tagText_isEmitted hσ).1
      ((hσ.takesPlace_iff tagText_isEmitted).mpr (by
        rw [tagText_tested]
        exact List.forall_mem_cons.mpr ⟨⟨_, rfl, rfl⟩, List.forall_mem_singleton.mpr ⟨_, rfl, rfl⟩⟩))
    cases hread
    cases happly
    -- The label is allocated by its guard, and then its text is written.
    rw [hexec]
    exact ⟨_, by with_unfolding_all rfl, by with_unfolding_all rfl⟩

end Assignment

/-! ## Leaves -/

/-- The assignments to a leaf, in the order in which they are written. -/
def leafAssignments (pos : Position) (f : Field) (type : GoType) (primary : Source) :
    Option Source → List Assignment
  | none => [leafAssignment pos f type primary false]
  | some standIn =>
    [leafAssignment pos f type standIn false, leafAssignment pos f type primary true]

/-- A source is a field below a local variable. -/
structure Source.IsSelected (x : Source) : Prop where
  isLocal : x.place.root.isLocal = true
  field : ∃ (base : Place) (name : String), base.path.IsPlain ∧ IsIdentifier name ∧
    x.place = base.select name

section Leaves

variable {pos : Position} {f : Field} {type : GoType} {primary : Source} {standIn : Option Source}
  {σ τ : State} {order : Order} {call : Code → State → Except Fault State} {d : Deferred}
  {scope path : Path}

/-- The assignments of leaves are such that are emitted. -/
theorem Source.IsSelected.isEmitted {x : Source} (h : x.IsSelected) {onlyIfSet : Bool} :
    (leafAssignment pos f type x onlyIfSet).IsEmitted := by
  obtain ⟨base, name, hbase, hname, hplace⟩ := h.field
  have hpath : x.place.path = base.path ++ [.field name] := by
    rw [hplace]
    exact hname.select _
  refine ⟨h.isLocal, fun m hm => ?_, ⟨_, _, hpath⟩, type, (leafCast_eq f type _).symm⟩
  change _ ∈ x.place.path at hm
  rw [hpath, List.mem_append, List.mem_singleton] at hm
  rcases hm with hm | hm
  · exact hbase m hm
  · cases hm
    exact hname

/-- Whether a place below a local variable is set depends on local variables only. -/
theorem State.isSet_of_locals {p : Place} (h : τ.locals = σ.locals) (hp : p.root.isLocal = true) :
    τ.IsSet p ↔ σ.IsSet p := by
  rw [State.IsSet, State.IsSet, State.read_of_locals h hp]

namespace Assignment

variable {a : Assignment}

/-- Whether an assignment takes place depends on local variables only. -/
theorem IsEmitted.takesPlace_of_locals (h : a.IsEmitted) (hτ : τ.locals = σ.locals) :
    a.TakesPlace τ ↔ a.TakesPlace σ := by
  have hset : ∀ q, τ.IsSet ⟨a.source.root, q⟩ ↔ σ.IsSet ⟨a.source.root, q⟩ :=
    fun _ => State.isSet_of_locals hτ h.isLocal
  have hsource : τ.IsSet a.source ↔ σ.IsSet a.source := State.isSet_of_locals hτ h.isLocal
  exact ⟨fun ⟨habove, hself⟩ => ⟨fun q hq => (hset q).mp (habove q hq), fun hc => hsource.mp (hself hc)⟩,
    fun ⟨habove, hself⟩ => ⟨fun q hq => (hset q).mpr (habove q hq), fun hc => hsource.mpr (hself hc)⟩⟩

/-- Promises of a state are kept while its local variables are. -/
theorem Promised.of_locals (h : a.IsEmitted) (hσ : a.Promised σ) (hτ : τ.locals = σ.locals) :
    a.Promised τ := by
  have hset : ∀ q, σ.IsSet ⟨a.source.root, q⟩ → τ.IsSet ⟨a.source.root, q⟩ :=
    fun q => (State.isSet_of_locals (p := ⟨a.source.root, q⟩) hτ h.isLocal).mpr
  have hread : τ.read a.source = σ.read a.source := State.read_of_locals hτ h.isLocal
  exact
    { root := hset _ hσ.root
      elements := fun q hq hindexed => hset q (hσ.elements q hq hindexed)
      copied := fun hcopy q hq => hset q (hσ.copied hcopy q hq)
      reads := by rw [hread]; exact hσ.reads
      fits := by rw [hread]; exact hσ.fits }

/-- What an assignment writes in a state, if it takes place there. -/
def Yields (a : Assignment) (σ : State) : Option GoValue → Prop
  | none => ¬a.TakesPlace σ
  | some w => a.TakesPlace σ ∧ ∃ x, σ.read a.source = .ok x ∧ a.cast.apply a.source.root x = .ok w

/-- The guards of a target, and a write to it. -/
def fill (order : Order) (call : Code → State → Except Fault State) (d : Deferred)
    (scope target : Path) (σ : State) (w : GoValue) : Except Fault State :=
  exec order call (d.guards scope target) σ >>= fun τ => τ.assign ⟨.output, target⟩ w

/-- Filling a target changes no local variable. -/
theorem locals_of_fill {w : GoValue} (h : fill order call d scope path σ w = .ok τ) :
    τ.locals = σ.locals := by
  obtain ⟨υ, hguards, hassign⟩ := bind_eq_ok h
  obtain ⟨changed, -, hset⟩ := bind_eq_ok hassign
  cases hset
  exact (keeps_of_exec_guards hguards).1

/-- Assignments to one target fill it with what those of them yield that take place, in their order. All
of them may be judged by the state in which the first one starts: their sources are local. -/
theorem exec_assignments {as : List Assignment} (h : ∀ a ∈ as, a.IsEmitted ∧ a.target = path)
    (hσ : ∀ a ∈ as, a.Promised σ) :
    ∃ ws, List.Forall₂ (fun a w => a.Yields σ w) as ws ∧ ∀ τ, τ.locals = σ.locals →
      exec order call (as.foldr (fun a rest => a.code (d.guards scope path) ++ rest) .done) τ =
        ws.reduceOption.foldlM (fill order call d scope path) τ := by
  induction as with
  | nil => exact ⟨[], .nil, fun _ _ => rfl⟩
  | cons a as ih =>
    obtain ⟨⟨ha, rfl⟩, has⟩ := List.forall_mem_cons.mp h
    obtain ⟨haσ, hasσ⟩ := List.forall_mem_cons.mp hσ
    obtain ⟨ws, hws, hrest⟩ := ih has hasσ
    by_cases htakes : a.TakesPlace σ
    · obtain ⟨x, w, hread, happly, -⟩ :=
        @Promised.exec_of_takesPlace a σ order call d scope ha haσ htakes
      refine ⟨some w :: ws, .cons ⟨htakes, x, hread, happly⟩ hws, fun τ hτ => ?_⟩
      obtain ⟨x', w', hread', happly', hexec⟩ :=
        @Promised.exec_of_takesPlace a τ order call d scope ha (haσ.of_locals ha hτ)
          ((ha.takesPlace_of_locals hτ).mpr htakes)
      -- The source reads the same in both states, and so does what it is converted to.
      rw [State.read_of_locals hτ ha.isLocal, hread] at hread'
      cases hread'
      rw [happly] at happly'
      cases happly'
      rw [List.foldr_cons, exec_append, hexec, List.reduceOption_cons_of_some, List.foldlM_cons]
      show (fill order call d scope a.target τ w >>= _) = _
      cases hfill : fill order call d scope a.target τ w with
      | error fault => rfl
      | ok υ => exact hrest υ ((locals_of_fill hfill).trans hτ)
    · refine ⟨none :: ws, .cons htakes hws, fun τ hτ => ?_⟩
      have hskip := @Promised.exec_of_not_takesPlace a τ order call ha (haσ.of_locals ha hτ)
        (fun htakes' => htakes ((ha.takesPlace_of_locals hτ).mp htakes')) (d.guards scope a.target)
      rw [List.foldr_cons, exec_append, hskip, List.reduceOption_cons_of_none]
      exact hrest τ hτ

end Assignment

/-- A leaf is filled once for each of its assignments that takes place: with what stands in, and then with
the primary source, which is asked to be set if something stands in for it. So the primary source goes
before what stands in, and a leaf of which no source is there stays as it is. -/
theorem exec_leafCode (hsources : ∀ x ∈ standIn.toList ++ [primary], x.IsSelected)
    (hσ : ∀ a ∈ leafAssignments pos f type primary standIn, a.Promised σ) :
    ∃ ws, List.Forall₂ (fun a w => a.Yields σ w) (leafAssignments pos f type primary standIn) ws ∧
      exec order call
          (leafCode (d.guards scope (pos.path f)) pos f type primary standIn) σ =
        ws.reduceOption.foldlM (Assignment.fill order call d scope (pos.path f)) σ := by
  have hemitted : ∀ a ∈ leafAssignments pos f type primary standIn,
      a.IsEmitted ∧ a.target = pos.path f := by
    cases standIn with
    | none => simpa [leafAssignments] using ⟨(hsources primary (by simp)).isEmitted, rfl⟩
    | some x =>
      refine List.forall_mem_cons.mpr ⟨⟨(hsources x (by simp)).isEmitted, rfl⟩,
        List.forall_mem_singleton.mpr ⟨(hsources primary (by simp)).isEmitted, rfl⟩⟩
  obtain ⟨ws, hws, hexec⟩ :=
    @Assignment.exec_assignments σ order call d scope _ _ hemitted hσ
  refine ⟨ws, hws, ?_⟩
  rw [← hexec σ rfl]
  cases standIn with
  | none => simp [leafAssignments, leafCode]
  | some x => simp [leafAssignments, leafCode]

end Leaves

end RecordBridge

import RecordBridge.Proofs.Execution.Settles

/-!
# Runs that find their sources

A run may stop at a nil value of the source: where it reads below a local variable and something on
the way is nil. `Clean` says of a piece of a run that it does not, and that it keeps the variables
that were given numbers before. Such pieces compose as blocks do, since that is something a piece can
settle (`Clean.iff_settles`).
-/

namespace RecordBridge

/-- A run, or a part of one, does not stop at a nil value below a local variable. -/
def FindsSources {α : Type} (d : Except Fault α) : Prop :=
  ∀ v : Var, v.isLocal = true → d ≠ .error (.nilBelow v)

namespace State

/-- Nothing on the way to a place is nil. -/
def Reaches (σ : State) (p : Place) : Prop :=
  FindsSources (σ.read p)

/-- The value at a place is not nil. -/
def IsSet (σ : State) (p : Place) : Prop :=
  ∃ x, σ.read p = .ok x ∧ x.isSet = true

end State

/-- Steps that lead nowhere do not lead anywhere with more steps after them. -/
theorem GoValue.get_append_error {root : Var} {path more : List Access} {v : GoValue} {fault : Fault}
    (h : v.get root path = .error fault) : v.get root (path ++ more) = .error fault := by
  induction path generalizing v with
  | nil => cases h
  | cons a path ih =>
    change (a.read root v >>= fun inner => inner.get root path) = _ at h
    show (a.read root v >>= fun inner => inner.get root (path ++ more)) = _
    cases hread : a.read root v with
    | error other =>
      rw [hread] at h
      exact h
    | ok inner =>
      rw [hread] at h
      exact ih h

section Places

variable {n : Nat} {σ τ : State} {p q : Place}

/-- A nil value below a local variable is met. -/
def NilSource (fault : Fault) : Prop :=
  ∃ v : Var, v.isLocal = true ∧ fault = .nilBelow v

theorem FindsSources.avoids {α : Type} {d : Except Fault α} (h : FindsSources d) :
    Avoids NilSource d := by
  rintro _ ⟨v, hv, rfl⟩
  exact h v hv

theorem Avoids.findsSources {α : Type} {d : Except Fault α} (h : Avoids NilSource d) :
    FindsSources d :=
  fun v hv => h _ ⟨v, hv, rfl⟩

theorem FindsSources.bind {α β : Type} {d : Except Fault α} {f : α → Except Fault β}
    (hd : FindsSources d) (hf : ∀ a, d = .ok a → FindsSources (f a)) : FindsSources (d >>= f) :=
  (hd.avoids.bind fun a ha => (hf a ha).avoids).findsSources

theorem FindsSources.ok {α : Type} (a : α) : FindsSources (Except.ok a) :=
  fun _ _ => nofun

theorem GoValue.findsSources_size (v : GoValue) : FindsSources v.size := by
  cases v <;> exact fun _ _ => nofun

theorem GoValue.findsSources_entries (v : GoValue) (order : Order) (loops : Nat) :
    FindsSources (v.entries order loops) := by
  cases v <;> exact fun _ _ => nofun

namespace State

theorem Reaches.of_read {x : GoValue} (h : σ.read p = .ok x) : σ.Reaches p := by
  rw [Reaches, h]
  exact .ok x

theorem IsSet.reaches (h : σ.IsSet p) : σ.Reaches p := by
  obtain ⟨x, hread, -⟩ := h
  exact .of_read hread

/-- A field of a record that is set can be reached. -/
theorem IsSet.select (h : σ.IsSet p) {name : String} (hname : IsIdentifier name) :
    σ.Reaches (p.select name) := by
  obtain ⟨x, hread, hset⟩ := h
  intro v _ hnil
  rw [read, Place.select, hname.select, List.map_append] at hnil
  exact GoValue.get_ne_nilBelow hread hset hnil

/-- What lies on the way to a place that can be reached can be reached, too. -/
theorem Reaches.above (h : σ.Reaches p) (hroot : q.root = p.root) (hpath : q.path <+: p.path) :
    σ.Reaches q := by
  obtain ⟨more, hmore⟩ := hpath
  intro v hv hnil
  refine h v hv ?_
  rw [read, ← hmore, List.map_append]
  rw [read, hroot] at hnil
  exact GoValue.get_append_error hnil

theorem Reaches.agree (h : σ.Reaches p) (hagree : σ.Agree n τ) (hp : p.IsSource n) :
    τ.Reaches p := by
  rw [Reaches, hagree.read hp]
  exact h

theorem IsSet.agree (h : σ.IsSet p) (hagree : σ.Agree n τ) (hp : p.IsSource n) : τ.IsSet p := by
  obtain ⟨x, hread, hset⟩ := h
  exact ⟨x, (hagree.read hp).trans hread, hset⟩

/-- No place below the target is one below a local variable. -/
theorem reaches_of_not_isLocal (h : p.root.isLocal = false) : σ.Reaches p := by
  intro v hv hnil
  rw [GoValue.get_eq_nilBelow hnil, h] at hv
  cases hv

theorem findsSources_allSet {places : List Place} (h : ∀ p ∈ places, σ.Reaches p) :
    FindsSources (σ.allSet places) := by
  induction places with
  | nil => exact .ok true
  | cons p places ih =>
    refine (h p List.mem_cons_self).bind fun v _ => ?_
    split
    · exact ih fun q hq => h q (List.mem_cons_of_mem _ hq)
    · exact .ok false

/-- One more place has to be reached only if those before it are set. -/
theorem findsSources_allSet_concat {places : List Place} (h : FindsSources (σ.allSet places))
    (hp : σ.allSet places = .ok true → σ.Reaches p) : FindsSources (σ.allSet (places ++ [p])) := by
  induction places with
  | nil =>
    refine FindsSources.bind (hp rfl) fun v _ => ?_
    split <;> exact .ok _
  | cons q places ih =>
    rw [List.cons_append]
    change FindsSources (σ.read q >>= fun v => if v.isSet then σ.allSet (places ++ [p]) else .ok false)
    change FindsSources (σ.read q >>= fun v => if v.isSet then σ.allSet places else .ok false) at h
    rw [allSet] at hp
    cases hread : σ.read q with
    | error fault =>
      rw [hread] at h
      exact h
    | ok v =>
      rw [hread] at h hp
      show FindsSources (if v.isSet then σ.allSet (places ++ [p]) else .ok false)
      -- The place at the end is read only after all those before it are found set.
      by_cases hset : v.isSet = true
      · rw [if_pos hset]
        have hrest : (Except.ok v >>= fun v : GoValue => if v.isSet = true then σ.allSet places
            else .ok false) = σ.allSet places := if_pos hset
        rw [hrest] at h hp
        exact ih h hp
      · rw [if_neg hset]
        exact .ok false

/-- A list of places that are all set has none that is not. -/
theorem isSet_of_allSet {places : List Place} (h : σ.allSet places = .ok true) :
    ∀ p ∈ places, σ.IsSet p := by
  induction places with
  | nil => exact nofun
  | cons q places ih =>
    obtain ⟨x, hread, hrest⟩ := bind_eq_ok h
    split at hrest
    · rename_i hset
      intro p hp
      rcases List.mem_cons.mp hp with rfl | hp
      · exact ⟨x, hread, hset⟩
      · exact ih hrest p hp
    · cases hrest

end State

end Places

/-! ## Expressions -/

section Expressions

variable {n : Nat} {call : Code → State → Except Fault State} {σ τ : State} {x : GoValue}

/-- Only a pointer that is read through has to be set. -/
theorem Cast.findsSources_apply {cast : Cast} {root : Var} {v : GoValue}
    (h : cast = .load → v.isSet = true) : FindsSources (cast.apply root v) := by
  intro w _ hnil
  cases cast with
  | load =>
    cases v with
    | absent => exact absurd (h rfl) Bool.false_ne_true
    | _ => cases hnil
  | _ => cases v <;> cases hnil

/-- What an expression asks of the state in which it is evaluated. -/
def Expr.Reads (call : Code → State → Except Fault State) (σ : State) : Expr → Prop
  | .read source | .make _ source | .makeRoom _ source => σ.Reaches source
  | .convert cast source => σ.Reaches source ∧ (cast = .load → σ.IsSet source)
  | .call helper source => σ.Reaches source ∧ ∀ argument f visible,
    σ.functions.dropWhile (·.name ≠ helper) = f :: visible →
      FindsSources (call f.body (σ.enter f (f :: visible) argument))
  | .append target _ _ => target.root.isLocal = false
  | _ => True

theorem Expr.Reads.eval {e : Expr} (h : e.Reads call σ) : FindsSources (e.eval call σ) := by
  cases e with
  | absent | flag _ | present | newRecord _ => exact .ok _
  | read source => exact FindsSources.bind h fun _ _ => .ok _
  | convert cast source =>
    refine FindsSources.bind h.1 fun v hread => FindsSources.bind ?_ fun _ _ => .ok _
    -- A load is what fails on nil, and there the source was found set.
    refine Cast.findsSources_apply fun hload => ?_
    obtain ⟨x, hread', hset⟩ := h.2 hload
    rw [hread] at hread'
    cases hread'
    exact hset
  | make type source | makeRoom type source =>
    exact FindsSources.bind h fun v _ => v.findsSources_size.bind fun _ _ => .ok _
  | append target type v =>
    refine FindsSources.bind (State.reaches_of_not_isLocal h) fun list _ =>
      FindsSources.bind ?_ fun _ _ => .ok _
    cases list <;> exact fun _ _ => nofun
  | call helper source =>
    rw [Expr.eval_call]
    refine FindsSources.bind h.1 fun argument _ => ?_
    split
    · exact fun _ _ => nofun
    · rename_i f visible hscope
      exact FindsSources.bind (h.2 argument f visible hscope) fun _ _ => .ok _

/-- Evaluation keeps all variables and the functions in scope. -/
theorem Expr.locals_of_eval {e : Expr} (h : e.eval call σ = .ok (x, τ)) :
    τ.locals = σ.locals ∧ τ.functions = σ.functions := by
  cases hcall : e.isCall with
  | false =>
    cases Expr.eval_state hcall h
    exact ⟨rfl, rfl⟩
  | true =>
    cases e with
    | call helper source =>
      rw [Expr.eval_call] at h
      obtain ⟨argument, -, h⟩ := bind_eq_ok h
      split at h
      · cases h
      · obtain ⟨ρ, -, h⟩ := bind_eq_ok h
        cases h
        rw [State.leave]
        split <;> exact ⟨rfl, rfl⟩
    | _ => cases hcall

end Expressions

/-! ## Pieces of a run -/

/-- What a piece of a run comes to that starts in a state: it does not stop at a nil value of the
source, it keeps the variables with numbers up to `n`, and `P` holds of the functions that it leaves in
scope. -/
structure Clean (n : Nat) (P : List LocalFunction → Prop) (σ : State) (d : Except Fault State) :
    Prop where
  finds : FindsSources d
  agree : ∀ τ, d = .ok τ → σ.Agree n τ
  functions : ∀ τ, d = .ok τ → P τ.functions

namespace Clean

variable {n m : Nat} {P : List LocalFunction → Prop} {σ τ : State} {order : Order}
  {call : Code → State → Except Fault State} {d : Except Fault State} {a b body yes no rest : Code}
  {head : Head} {e : Expr} {path : Path}

theorem iff_settles :
    Clean n P σ d ↔ Settles NilSource (fun τ => σ.Agree n τ ∧ P τ.functions) d :=
  ⟨fun h => ⟨h.finds.avoids, fun τ hτ => ⟨h.agree τ hτ, h.functions τ hτ⟩⟩,
    fun h => ⟨h.avoids.findsSources, fun τ hτ => (h.ends τ hτ).1, fun τ hτ => (h.ends τ hτ).2⟩⟩

theorem ok (hagree : σ.Agree n τ) (hP : P τ.functions) : Clean n P σ (.ok τ) :=
  iff_settles.mpr (.ok ⟨hagree, hP⟩)

theorem mono (h : Clean m P σ d) (hle : n ≤ m) : Clean n P σ d :=
  ⟨h.finds, fun τ hτ => (h.agree τ hτ).mono hle, h.functions⟩

/-- A piece that starts in a state which differs in variables with greater numbers. -/
theorem of_agree (h : Clean n P τ d) (hagree : σ.Agree n τ) : Clean n P σ d :=
  ⟨h.finds, fun υ hυ => hagree.trans (h.agree υ hυ) (Nat.le_refl n), h.functions⟩

/-- What comes next, told from the state before. -/
theorem next (h : Clean n P τ d) (hagree : σ.Agree n τ) :
    Settles NilSource (fun υ => σ.Agree n υ ∧ P υ.functions) d :=
  iff_settles.mp (h.of_agree hagree)

theorem bind {f : State → Except Fault State} (hd : Clean n P σ d)
    (hf : ∀ τ, d = .ok τ → σ.Agree n τ → P τ.functions → Clean n P τ (f τ)) :
    Clean n P σ (d >>= f) :=
  iff_settles.mpr <| (iff_settles.mp hd).bind fun τ hτ h => (hf τ hτ h.1 h.2).next h.1

/-- After something else is looked up. -/
theorem after {α : Type} {l : Except Fault α} {f : α → Except Fault State} (hl : FindsSources l)
    (hf : ∀ x, l = .ok x → Clean n P σ (f x)) : Clean n P σ (l >>= f) :=
  iff_settles.mpr (.after hl.avoids fun x hx => iff_settles.mp (hf x hx))

/-! ### Statements -/

/-- A write below the target changes no variable. -/
theorem assign {p : Place} (hp : p.root.isLocal = false) (he : e.Reads call σ) (hP : P σ.functions) :
    Clean n P σ ((Statement.assign p e).exec call σ) := by
  refine after he.eval fun ⟨x, τ⟩ heval => ?_
  obtain ⟨hlocals, hfunctions⟩ := Expr.locals_of_eval heval
  -- A fault of the write is below the root that is written, which is none of a source.
  have hput : FindsSources ((τ.value p.root).put p.root (p.path.map τ.access) x) := by
    intro v hv hnil
    rw [GoValue.get_eq_nilBelow (GoValue.put_eq_error.mp hnil), hp] at hv
    cases hv
  refine after hput fun changed _ => ?_
  have hset : (τ.set p.root changed).locals = σ.locals ∧
      (τ.set p.root changed).functions = σ.functions := by
    rw [← hlocals, ← hfunctions]
    cases hroot : p.root with
    | output => exact ⟨rfl, rfl⟩
    | wholeOutput =>
      show (if τ.whole.isSome then _ else _ : State).locals = _ ∧
        (if τ.whole.isSome then _ else _ : State).functions = _
      split <;> exact ⟨rfl, rfl⟩
    | _ =>
      rw [hroot] at hp
      cases hp
  exact ok (fun v _ => congrFun hset.1 v) (hset.2 ▸ hP)

/-- A new value of a variable with a greater number. -/
theorem setVar {v : Var} (hlocal : v.isLocal = true) (hlt : n < v.number) (he : e.Reads call σ)
    (hP : P σ.functions) : Clean n P σ (e.eval call σ >>= fun r => .ok (r.2.set v r.1)) := by
  refine after he.eval fun ⟨x, τ⟩ heval => ?_
  obtain ⟨hlocals, hfunctions⟩ := Expr.locals_of_eval heval
  show Clean n P σ (.ok (τ.set v x))
  rw [State.set_of_isLocal hlocal]
  refine ok (fun w hw => ?_) (hfunctions.symm ▸ hP)
  have hne : w ≠ v := by
    rintro rfl
    exact absurd hlt (Nat.not_lt.mpr hw)
  show Function.update τ.locals v x w = _
  rw [Function.update_of_ne hne, hlocals]

theorem step {s : Statement} (hs : Clean n P σ (s.exec call σ))
    (hrest : ∀ τ, σ.Agree n τ → P τ.functions → Clean n P τ (exec order call rest τ)) :
    Clean n P σ (exec order call (.step s rest) σ) :=
  hs.bind fun τ _ => hrest τ

theorem append (ha : Clean n P σ (exec order call a σ))
    (hb : ∀ τ, exec order call a σ = .ok τ → σ.Agree n τ → P τ.functions →
      Clean n P τ (exec order call b τ)) : Clean n P σ (exec order call (a ++ b) σ) := by
  rw [exec_append]
  exact ha.bind hb

/-- A write below the target, and what comes after it. -/
theorem write (he : e.Reads call σ) (hP : P σ.functions)
    (hrest : ∀ τ, σ.Agree n τ → P τ.functions → Clean n P τ (exec order call rest τ)) :
    Clean n P σ (exec order call (.step (.assign ⟨.output, path⟩ e) rest) σ) :=
  (assign rfl he hP).step hrest

/-! ### Blocks -/

/-- A block under a test. Its local functions are out of scope after it. -/
theorem test (hhead : head.isTest = true) (htest : FindsSources (head.test σ)) (hP : P σ.functions)
    (hbody : head.test σ = .ok true → Clean n P σ (exec order call body σ))
    (hrest : ∀ τ, σ.Agree n τ → P τ.functions → Clean n P τ (exec order call rest τ)) :
    Clean n P σ (exec order call (.nest head body rest) σ) :=
  iff_settles.mpr <| Settles.test hhead htest.avoids (fun h => iff_settles.mp (hbody h))
    (fun _ => ⟨.refl, hP⟩) fun τ hτ => (hrest (σ.afterBlock τ) hτ.1 hP).next hτ.1

theorem fork (htest : FindsSources (head.test σ)) (hP : P σ.functions)
    (hyes : head.test σ = .ok true → Clean n P σ (exec order call yes σ))
    (hno : head.test σ = .ok false → Clean n P σ (exec order call no σ))
    (hrest : ∀ τ, σ.Agree n τ → P τ.functions → Clean n P τ (exec order call rest τ)) :
    Clean n P σ (exec order call (.fork head yes no rest) σ) :=
  iff_settles.mpr <| Settles.fork htest.avoids (fun h => iff_settles.mp (hyes h))
    (fun h => iff_settles.mp (hno h)) fun τ hτ => (hrest (σ.afterBlock τ) hτ.1 hP).next hτ.1

/-- A loop over a container that can be reached. What the rounds keep is told from the state before the
loop. -/
theorem loop {source : Place} (hhead : head.source? = some source)
    (hsource : σ.Reaches source) (hP : P σ.functions)
    (hbody : ∀ v entries, σ.read source = .ok v → v.entries order σ.loops = .ok entries →
      ∀ τ, σ.Agree n τ → P τ.functions → ∀ e ∈ entries,
        Clean n P τ (exec order call body (head.bind τ e)))
    (hrest : ∀ τ, σ.Agree n τ → P τ.functions → Clean n P τ (exec order call rest τ)) :
    Clean n P σ (exec order call (.nest head body rest) σ) := by
  refine iff_settles.mpr <| Settles.loop (Q := fun τ => σ.Agree n τ ∧ P τ.functions) hhead
    (FindsSources.avoids hsource) (fun v _ => (v.findsSources_entries order σ.loops).avoids)
    ⟨fun _ _ => rfl, hP⟩ (fun v entries hv hentries τ hτ e he => ?_)
    fun τ hτ => (hrest τ hτ.1 hτ.2).next hτ.1
  exact ((hbody v entries hv hentries τ hτ.1 hτ.2 e he).next hτ.1).mono fun υ hυ => ⟨hυ.1, hτ.2⟩

/-- The definition of a local function. -/
theorem define {helper : HelperSignature}
    (hrest : Clean n P { σ with functions := ⟨helper.name, body, σ.locals⟩ :: σ.functions }
      (exec order call rest
        { σ with functions := ⟨helper.name, body, σ.locals⟩ :: σ.functions })) :
    Clean n P σ (exec order call (.nest (.helperBody helper) body rest) σ) := by
  rw [exec_define]
  exact hrest.of_agree fun _ _ => rfl

/-- Guards look at the target only. -/
theorem guards (d : Deferred) (scope target : Path) (hP : P σ.functions) :
    Clean n P σ (exec order call (d.guards scope target) σ) := by
  have hseen : ∀ path, (seenFrom scope path).root.isLocal = false := by
    intro path
    rw [seenFrom]
    split
    · rfl
    · split <;> rfl
  rw [Deferred.guards]
  induction d.waiting ['.', '['] (scope ++ target) generalizing σ with
  | nil => exact ok .refl hP
  | cons parent l ih =>
    refine test rfl ?_ hP (fun _ => ?_) fun τ _ hPτ => ih hPτ
    · exact (State.reaches_of_not_isLocal (hseen _)).bind fun _ _ => .ok _
    · have hreads : (Expr.newRecord parent.2).Reads call σ := trivial
      exact (assign (hseen _) hreads hP).step fun τ _ hPτ => ok .refl hPτ

end Clean

end RecordBridge

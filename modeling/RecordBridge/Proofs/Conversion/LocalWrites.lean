import RecordBridge.Proofs.Conversion.Declarations
import RecordBridge.Proofs.Conversion.ScopedGuards
import RecordBridge.Proofs.Conversion.TargetSafety

/-!
# Writes within local functions are safe

No run of a conversion goes through a nil value below the `out` of any of its functions, also where
records occur within themselves (`run_writes`). The proof goes along the derivation of the statements
and, for calls, by induction on their depth. A task starts where all that lies above it in its own
`out` is allocated or deferred, and keeps it so (`Lays`); to the target around it, it only adds.

What stands around a local function is another matter: a guard for a record there goes through the
whole target, which does not hold yet what the functions around it fill.
-/

namespace RecordBridge

/-! ## What becomes of the table -/

/-- A piece of a conversion only adds paths of the target to the table of deferred records. -/
structure Defers (c : Settings) (fs : List Field) (p q : Progress) : Prop where
  within : q.deferred.Within (Led c fs)
  keeps : ∀ k, Led c fs k → p.deferred.Holds k → q.deferred.Holds k

section Deferring

variable {c : Settings} {fs : List Field} {task : Task} {p q r : Progress} {b : Code}

theorem Defers.trans (h : Defers c fs p q) (h' : Defers c fs q r) : Defers c fs p r :=
  ⟨h'.within, fun k hk hp => h'.keeps k hk (h.keeps k hk hp)⟩

theorem Emits.defers (hnames : c.Names fs) (h : Emits c task p b q) (hplaced : task.PlacedIn c fs)
    (hwithin : p.deferred.Within (Led c fs)) : Defers c fs p q := by
  induction h with
  | noFields | leaf | unset | call | keys | leafElement => exact ⟨hwithin, fun _ _ => id⟩
  | moreFields _ _ ih₁ ih₂ =>
    have h₁ := ih₁ hplaced.field hwithin
    exact h₁.trans (ih₂ hplaced.rest h₁.within)
  | recordField hsources hroot _ _ ih => exact ih (hplaced.recordField hnames hsources hroot) hwithin
  | containerField hsources _ _ ih => exact ih (hplaced.containerField hnames hsources) hwithin
  | allocated _ hrecord _ _ _ _ ih => exact ih (hplaced.unsourced hnames hrecord) hwithin
  | deferred _ hrecord _ _ _ _ ih =>
    -- The record that begins to wait here is led to by its own path, as all that wait are.
    have hled : Led c fs _ := .inr ⟨_, (hplaced.path_field hnames).2⟩
    have h := ih (hplaced.unsourced hnames hrecord) (hwithin.defer hled)
    exact ⟨h.within, fun k hk hp => h.keeps k hk (hp.defer (Led.family hnames) hk hled)⟩
  | inline _ _ _ ih =>
    have h := ih hplaced.inline hwithin
    exact ⟨h.within, h.keeps⟩
  | define _ _ _ _ _ ih =>
    have h := ih hplaced.inHelper hwithin
    exact ⟨h.within, h.keeps⟩
  | loop hloop _ _ ih =>
    have h := ih (hplaced.element hloop _ _) hwithin
    exact ⟨h.within, h.keeps⟩
  | recordElement hroot _ _ _ ih => exact ih (hplaced.recordElement hroot (.inl rfl)) hwithin
  | eitherElement hroot _ hstandIn _ _ _ _ ih₁ ih₂ =>
    have h₁ := ih₁ (hplaced.recordElement hroot (.inl rfl)) hwithin
    exact h₁.trans (ih₂ (hplaced.recordElement hroot (.inr hstandIn)) h₁.within)
  | containerElement _ _ ih => exact ih hplaced.containerElement hwithin

end Deferring

/-! ## Local functions -/

/-- The `out` of a local function holds a record that a path from the whole target leads to. -/
def IsScope (c : Settings) (fs : List Field) (scope : Path) : Prop :=
  scope = [] ∨ ∃ t ref, Leads c fs scope t ∧ t.root = .record ref

/-- The body of a local function is emitted for a record of the target. -/
def LocalFunction.Fills (c : Settings) (fs : List Field) (f : LocalFunction) : Prop :=
  ∃ (pos : Position) (job : RecordJob) (p q : Progress) (b : Code) (go : GoType),
    f.body = helperBlock go b ∧
      Emits c (.fields (pos.inHelper c job) (c.schema.fields job.target)) p b q ∧
      (Task.fields (pos.inHelper c job) (c.schema.fields job.target)).PlacedIn c fs ∧
      IsScope c fs (pos.scope ++ job.path) ∧ p.deferred.Within (Led c fs)

/-- Local functions whose bodies are emitted for records of the target. -/
def Filling (c : Settings) (fs : List Field) (functions : List LocalFunction) : Prop :=
  ∀ f ∈ functions, f.Fills c fs

/-- A call of such a function does not go through a nil value below its `out`, and only adds to the
target around it. -/
def CallsGrow (c : Settings) (fs : List Field) (call : Code → State → Except Fault State) : Prop :=
  ∀ f visible, Filling c fs (f :: visible) → ∀ τ : State, τ.functions = f :: visible →
    Settles (· = NilTarget) τ.WholeGrows (call f.body τ)

section Calls

variable {c : Settings} {fs : List Field} {call : Code → State → Except Fault State} {σ : State}
  {task : Task} {type : FieldType} {d : Deferred} {path : Path}

theorem CallsGrow.grows (hcall : CallsGrow c fs call) {helper : Var} {source : Place}
    (hsource : source.root.isLocal = true) (hfilling : Filling c fs σ.functions) :
    (Expr.call helper source).Grows call σ := by
  -- What is visible in the callee is a part of what is visible to the caller.
  have hbody : ∀ argument f visible, σ.functions.dropWhile (·.name ≠ helper) = f :: visible →
      Settles (· = NilTarget) (σ.enter f (f :: visible) argument).WholeGrows
        (call f.body (σ.enter f (f :: visible) argument)) := by
    intro argument f visible hscope
    refine hcall f visible (fun g hg => hfilling g ?_) _ rfl
    exact (List.dropWhile_suffix _).subset (hscope ▸ hg)
  rw [Expr.Grows, Expr.eval_call]
  refine ⟨bind_ne_error (State.read_local_ne hsource) fun argument _ => ?_, fun x τ heval => ?_⟩
  · split
    · exact nofun
    · rename_i f visible hscope
      exact bind_ne_error ((hbody argument f visible hscope).avoids _ rfl) fun _ _ => nofun
  · obtain ⟨argument, -, heval⟩ := bind_eq_ok heval
    split at heval
    · cases heval
    · rename_i f visible hscope
      obtain ⟨ρ, hρ, heval⟩ := bind_eq_ok heval
      cases heval
      exact State.swells_leave ((hbody argument f visible hscope).ends ρ hρ)

/-- The guards for a path that leads to a value are told by their spelling. -/
theorem Deferred.sees (hnames : c.Names fs) (hwithin : d.Within (Led c fs)) {scope : Path}
    (hscope : IsScope c fs scope) (hleads : Leads c fs (scope ++ path) type) :
    d.Sees (Led c fs) scope path where
  family := Led.family hnames
  within := hwithin
  led := .inr ⟨_, hleads⟩
  field s rest hpath := by
    subst hpath
    rcases hscope with hnil | ⟨t, ref, ht, hroot⟩
    · exact .inl hnil
    · -- The first step below a record selects a field of it.
      have hled : Led c fs (scope ++ [s]) := by
        have hlonger : Led c fs (scope ++ [s] ++ rest) := by
          rw [List.append_assoc]
          exact .inr ⟨type, hleads⟩
        exact (Led.family hnames).of_append hlonger
      rcases hled with hnil | ⟨u, hu⟩
      · simp at hnil
      · rcases hu.last with ⟨rfl, -⟩ | ⟨v, hv, hopens⟩
        · exact .inl rfl
        · cases ht.type_eq hnames hv
          cases hopens with
          | field => exact .inr rfl
          | list h | set h | key h | keyAs h => rw [hroot] at h; cases h

end Calls

/-! ## What a task relies on -/

/-- Whether a task writes guards for what lies above it. The elements of a container, and a record that
is one, lie in something that was made just before. -/
def Task.Guarded : Task → Prop
  | .record _ _ _ _ _ inField => inField = true
  | .element _ _ _ _ => False
  | _ => True

/-- What lies above a task is allocated where it starts, or it is deferred and has a guard. -/
def Task.Borne (p : Progress) (σ : State) (task : Task) : Prop :=
  ∀ k, task.Over k → σ.Allocated k ∨
    task.Guarded ∧ k ≠ [] ∧ p.deferred.Holds (task.scope ++ k)

/-- The statements of a task, started where it is borne, do not go through a nil value below `out`. They
keep what lies above the task, and only add to the target around it. -/
def Lays (c : Settings) (fs : List Field) (order : Order)
    (call : Code → State → Except Fault State) (task : Task) (p : Progress) (b : Code) : Prop :=
  ∀ σ : State, Filling c fs σ.functions → task.Borne p σ →
    Settles (· = NilTarget) (Kept p.counter task.Over (Filling c fs) σ) (exec order call b σ)

section Relying

variable {c : Settings} {fs : List Field} {n : Nat} {P : List LocalFunction → Prop} {σ τ : State}
  {d : Deferred} {scope path : Path} {task : Task} {p q : Progress} {pos : Position} {f : Field}

theorem State.Bears.kept (h : σ.Bears d scope path) (hkept : Kept n (·.Above path) P σ τ) :
    τ.Bears d scope path :=
  fun k hk => (h k hk).imp_left (hkept.allocated k hk)

theorem Task.Borne.of_allocated (h : ∀ k, task.Over k → σ.Allocated k) : task.Borne p σ :=
  fun k hk => .inl (h k hk)

/-- A task that keeps what lies above another one leaves that one borne. -/
theorem Task.Borne.later (h : task.Borne p σ) (hkept : Kept n task.Over P σ τ)
    (hdefers : Defers c fs p q) (hled : ∀ k, task.Over k → Led c fs (task.scope ++ k)) :
    task.Borne q τ := by
  intro k hk
  rcases h k hk with hset | ⟨hguarded, hne, hholds⟩
  · exact .inl (hkept.allocated k hk hset)
  · exact .inr ⟨hguarded, hne, hdefers.keeps _ (hled k hk) hholds⟩

/-- Without guards, all above the task is allocated. -/
theorem Task.Borne.allocated (h : task.Borne p σ) (hguarded : ¬task.Guarded) :
    ∀ k, task.Over k → σ.Allocated k :=
  fun k hk => (h k hk).resolve_right fun hdeferred => hguarded hdeferred.1

/-- What is borne above a field. -/
theorem Task.Borne.field (h : (Task.field pos f).Borne p σ)
    (hpath : pos.path f = pos.target ++ [.field (pascal f.name)]) :
    σ.Bears p.deferred pos.scope (pos.path f) := by
  intro k hk
  rw [hpath] at hk
  exact (h k (Path.Above.concat_iff.mp hk)).imp_right And.right

theorem Task.Borne.record {job : RecordJob} {type : FieldType} {tested base : Place}
    {inField : Bool} (h : (Task.record pos job type tested base inField).Borne p σ) :
    σ.Bears p.deferred pos.scope job.path :=
  fun k hk => (h k hk).imp_right And.right

/-- A path and all above it is allocated. -/
theorem State.allocated_of_isPrefix (h : ∀ k : Path, k.Above path → σ.Allocated k)
    (hpath : σ.Allocated path) : ∀ k : Path, k <+: path → σ.Allocated k := by
  intro k hk
  rcases Path.Above.or_eq hk with habove | rfl
  · exact h k habove
  · exact hpath

theorem Held.led (h : Held c fs path f) : Led c fs path :=
  h.imp And.left fun ⟨t, _, hleads, _⟩ => ⟨t, hleads⟩

end Relying

/-! ## Variables of loops -/

/-- Nothing has changed but variables with numbers above `n`. -/
structure State.Binds (n : Nat) (σ τ : State) : Prop where
  agree : σ.Agree n τ
  out : τ.out = σ.out
  whole : τ.whole = σ.whole
  functions : τ.functions = σ.functions

section Binding

variable {n : Nat} {σ τ υ : State} {v : Var} {path : Path} {order : Order}
  {call : Code → State → Except Fault State}

namespace State.Binds

theorem refl : σ.Binds n σ :=
  ⟨.refl, rfl, rfl, rfl⟩

theorem trans (h : σ.Binds n τ) (h' : τ.Binds n υ) : σ.Binds n υ :=
  ⟨h.agree.trans h'.agree (Nat.le_refl n), h'.out.trans h.out, h'.whole.trans h.whole,
    h'.functions.trans h.functions⟩

theorem set (hlocal : v.isLocal = true) (hlt : n < v.number) (x : GoValue) : σ.Binds n (σ.set v x) := by
  refine ⟨State.agree_set hlt x, ?_, ?_, State.functions_set σ v x⟩
  all_goals rw [State.set_of_isLocal hlocal]

theorem bind {head : Head} (h : ∀ v ∈ head.bound, v.isLocal = true ∧ n < v.number)
    (e : Datum × GoValue) : σ.Binds n (head.bind σ e) := by
  have hset : ∀ {v : Var} {σ : State} {x : GoValue}, v ∈ head.bound → σ.Binds n (σ.set v x) :=
    fun hv => .set (h _ hv).1 (h _ hv).2 _
  cases head with
  | each position value _ =>
    exact (hset List.mem_cons_self).trans (hset (List.mem_cons_of_mem _ List.mem_cons_self))
  | eachKey v _ | eachValue v _ => exact hset List.mem_cons_self
  | ifSet _ | ifUnset _ | ifFlag _ | helperBody _ => exact .refl

theorem allocated (h : σ.Binds n τ) (hknown : path.Known n) (hσ : σ.Allocated path) :
    τ.Allocated path := by
  rw [State.Allocated, h.out, h.agree.access hknown]
  exact hσ

theorem kept {P : List LocalFunction → Prop} {F : Path → Prop} (h : σ.Binds n τ)
    (hF : ∀ k, F k → k.Known n) (hP : P σ.functions) : Kept n F P σ τ :=
  ⟨h.agree, fun k hk => h.allocated (hF k hk), .of_eq h.whole, h.functions.symm ▸ hP⟩

end State.Binds

/-- A variable is set to what local variables give. -/
theorem Settles.bindVar {e : Expr} (he : e.ReadsFrom (fun _ => False)) (hlocal : v.isLocal = true)
    (hlt : n < v.number) : Settles (· = NilTarget) (σ.Binds n)
      (e.eval call σ >>= fun r => .ok (r.2.set v r.1)) := by
  refine Settles.after (fun _ h => h ▸ Expr.eval_ne he fun _ => False.elim) fun ⟨x, τ⟩ heval => ?_
  cases Expr.eval_state he.isCall heval
  exact .ok (.set hlocal hlt x)

/-- The choice of a container binds variables only. -/
theorem Selection.settles_code {primary : Place} {standIn : Option Place} {flagged : Bool}
    (hprimary : primary.root.isLocal = true) (hstandIn : ∀ x, standIn = some x → x.root.isLocal = true) :
    Settles (· = NilTarget) (σ.Binds n)
      (exec order call (Selection.of n primary standIn flagged).code σ) := by
  have htest : ∀ τ : State, Avoids (· = NilTarget) ((Head.ifSet [primary]).test τ) :=
    fun τ _ h => h ▸ State.allSet_ne fun p hp => by rwa [List.mem_singleton.mp hp]
  -- Each statement binds a variable of the selection, and nothing is written outside.
  have htake : ∀ τ : State, Settles (· = NilTarget) (τ.Binds n)
      ((Statement.assign (.ofVar (.sourceList (n + 1))) (.read primary)).exec call τ) :=
    fun τ => .bindVar hprimary rfl (Nat.lt_succ_self n)
  have hflag : ∀ (on : Bool) (τ : State), Settles (· = NilTarget) (τ.Binds n)
      ((Expr.flag on).eval call τ >>= fun r => .ok (r.2.set (.overridden (n + 2)) r.1)) :=
    fun on τ => .bindVar trivial rfl (Nat.lt_add_of_pos_right Nat.two_pos)
  cases standIn with
  | none => exact .ok .refl
  | some x =>
    have hdefine : Settles (· = NilTarget) (σ.Binds n)
        ((Statement.define (.sourceList (n + 1)) (.read x)).exec call σ) :=
      .bindVar (hstandIn x rfl) rfl (Nat.lt_succ_self n)
    cases flagged with
    | false =>
      refine hdefine.step fun τ hτ => Settles.test (Q := σ.Binds n) rfl (htest τ) (fun _ => ?_)
        (fun _ => hτ) fun υ hυ => .ok ⟨hυ.agree, hυ.out, hυ.whole, hτ.functions⟩
      exact (htake τ).step fun υ hυ => .ok (hτ.trans hυ)
    | true =>
      refine hdefine.step fun τ hτ => (hflag false τ).step fun υ hυ => ?_
      have hυ := hτ.trans hυ
      refine Settles.test (Q := σ.Binds n) rfl (htest υ) (fun _ => ?_) (fun _ => hυ)
        fun ρ hρ => .ok ⟨hρ.agree, hρ.out, hρ.whole, hυ.functions⟩
      exact (htake υ).step fun ρ hρ => (hflag true ρ).step fun ξ hξ => .ok ((hυ.trans hρ).trans hξ)

end Binding

/-! ## The rules -/

section Rules

variable {F : Path → Prop} {P : List LocalFunction → Prop} {n : Nat} {σ : State} {d : Deferred}
  {scope path : Path} {order : Order} {call : Code → State → Except Fault State} {body : Code}
  {go : GoType}

/-- An assignment of a source in local variables. -/
theorem Settles.assignment {a : Assignment} (hsees : d.Sees F scope a.target)
    (hsource : a.source.root.isLocal = true) (hbears : σ.Bears d scope a.target) (hP : P σ.functions) :
    Settles (· = NilTarget) (Kept n (·.Above a.target) P σ)
      (exec order call (a.code (d.guards scope a.target)) σ) := by
  have hwrite : Settles (· = NilTarget) (Kept n (·.Above a.target) P σ) (exec order call
      (d.guards scope a.target ++
        .step (.assign ⟨.output, a.target⟩ (.convert a.cast a.source)) .done) σ) := by
    refine Settles.guarded hsees hbears fun τ hτ hall => ?_
    refine Settles.write (n := n) hall (Expr.ReadsFrom.grows hsource hall) (hτ.functions.symm ▸ hP)
      fun υ hυ _ => .ok ?_
    exact (Kept.of_swells hτ hP).trans hυ (Nat.le_refl n) fun _ => id
  rw [Assignment.code]
  split
  · refine Settles.test rfl (fun _ h => h ▸ Head.test_ne fun p hp => ?_) (fun _ => hwrite)
      (fun _ => .refl hP) fun τ hτ => .ok (hτ.afterBlock hP)
    rw [Assignment.root_of_tested hp]
    exact hsource
  · exact hwrite

/-- A record that is made at a path, and filled. -/
theorem Settles.filled (hsees : d.Sees F scope path) (hbears : σ.Bears d scope path)
    (hP : P σ.functions)
    (hbody : ∀ τ, P τ.functions → (∀ k : Path, k <+: path → τ.Allocated k) →
      Settles (· = NilTarget) (Kept n (· <+: path) P τ) (exec order call body τ)) :
    Settles (· = NilTarget) (Kept n (·.Above path) P σ) (exec order call
      (d.guards scope path ++ .step (.assign ⟨.output, path⟩ (.newRecord go)) body) σ) := by
  refine Settles.guarded hsees hbears fun τ hτ hall => ?_
  refine Settles.write (n := n) hall (Expr.ReadsFrom.grows trivial hall) (hτ.functions.symm ▸ hP)
    fun υ hυ hmade => ?_
  have hall' : ∀ k : Path, k.Above path → υ.Allocated k := fun k hk => hυ.allocated k hk (hall k hk)
  refine (hbody υ hυ.functions (State.allocated_of_isPrefix hall' (hmade rfl))).mono fun ρ hρ => ?_
  have hkept := (Kept.of_swells hτ hP).trans hυ (Nat.le_refl n) fun _ => id
  exact hkept.trans hρ (Nat.le_refl n) fun k hk => hk.isPrefix

/-- A record that is converted in place. -/
theorem Settles.inlineCode {tested : Place} (hsees : d.Sees F scope path)
    (hbears : σ.Bears d scope path) (htested : tested.root.isLocal = true) (hP : P σ.functions)
    (hbody : ∀ τ, P τ.functions → (∀ k : Path, k <+: path → τ.Allocated k) →
      Settles (· = NilTarget) (Kept n (· <+: path) P τ) (exec order call body τ)) :
    Settles (· = NilTarget) (Kept n (·.Above path) P σ)
      (exec order call (inlineCode (d.guards scope path) path go tested body) σ) := by
  have hfilled : Settles (· = NilTarget) (Kept n (·.Above path) P σ) (exec order call
      (d.guards scope path ++ .step (.assign ⟨.output, path⟩ (.newRecord go)) body) σ) :=
    .filled hsees hbears hP hbody
  have htest : Avoids (· = NilTarget) ((Head.ifSet [tested]).test σ) :=
    fun _ h => h ▸ State.allSet_ne fun p hp => by rwa [List.mem_singleton.mp hp]
  rw [RecordBridge.inlineCode]
  split
  · rename_i hempty
    -- No guards are needed, so all is allocated where the record becomes absent.
    have hguards : d.guards scope path = .done := by
      cases hcode : d.guards scope path with
      | done => rfl
      | _ => rw [hcode] at hempty; cases hempty
    have hsettles : Settles (· = NilTarget) (fun τ => σ.Swells τ ∧ ∀ k, k.Above path → τ.Allocated k)
        (exec order call (d.guards scope path) σ) := settles_guards hsees hbears
    rw [hguards] at hsettles
    obtain ⟨-, hall⟩ := hsettles.ends σ rfl
    refine Settles.fork htest (fun _ => hfilled) (fun _ => ?_) fun τ hτ => .ok (hτ.afterBlock hP)
    exact Settles.write hall (Expr.ReadsFrom.grows trivial hall) hP fun τ hτ _ => .ok hτ
  · exact Settles.test rfl htest (fun _ => hfilled) (fun _ => .refl hP) fun τ hτ =>
      .ok (hτ.afterBlock hP)

/-- A container that is made for the elements of the one that is chosen, and filled by a loop. The body
of the loop relies on `inner`. -/
theorem Settles.container {e : Expr} {head : Head} {chosen : Selection} {primary : Place}
    {standIn : Option Place} {flagged : Bool} {inner : Path → Prop} (hsees : d.Sees F scope path)
    (hbears : σ.Bears d scope path) (hknown : path.Known n) (hP : P σ.functions)
    (hchosen : chosen = .of n primary standIn flagged) (hprimary : primary.root.isLocal = true)
    (hstandIn : ∀ x, standIn = some x → x.root.isLocal = true)
    (he : e = .make go chosen.source ∨ e = .makeRoom go chosen.source)
    (hhead : head.source? = some chosen.source)
    (hbound : ∀ v ∈ head.bound, v.isLocal = true ∧ chosen.counter < v.number)
    (hinner : ∀ k : Path, inner k → k <+: path) (habove : ∀ k : Path, k.Above path → inner k)
    (hbody : ∀ τ, P τ.functions → (∀ k, inner k → τ.Allocated k) →
      Settles (· = NilTarget) (Kept chosen.counter inner P τ) (exec order call body τ)) :
    Settles (· = NilTarget) (Kept n (·.Above path) P σ) (exec order call
      (chosen.code ++ (d.guards scope path ++
        .step (.assign ⟨.output, path⟩ e) (.nest head body .done))) σ) := by
  have hle : n ≤ chosen.counter := hchosen ▸ Selection.le_counter n primary standIn flagged
  have hsource : chosen.source.root.isLocal = true := hchosen ▸ Selection.isLocal_source hprimary
  have hchoice : Settles (· = NilTarget) (σ.Binds n) (exec order call chosen.code σ) :=
    hchosen ▸ Selection.settles_code hprimary hstandIn
  have hknown' : ∀ k : Path, k <+: path → k.Known n := fun k hk s hs => hknown s (hk.subset hs)
  refine hchoice.append fun τ _ hτ => ?_
  have hkept : Kept n (·.Above path) P σ τ := hτ.kept (fun k hk => hknown' k hk.isPrefix) hP
  refine Settles.guarded hsees (hbears.kept hkept) fun τ₁ hτ₁ hall => ?_
  have hreads : e.ReadsFrom (·.Above path) := by
    rcases he with rfl | rfl <;> exact hsource
  have hmade : e.isMade = true := by
    rcases he with rfl | rfl <;> rfl
  have hkept₁ := hkept.trans (Kept.of_swells hτ₁ hkept.functions) (Nat.le_refl n) fun _ => id
  refine Settles.write (n := n) hall (hreads.grows hall) hkept₁.functions fun τ₂ hτ₂ hpath => ?_
  have hkept₂ := hkept₁.trans hτ₂ (Nat.le_refl n) fun _ => id
  have hmost : ∀ k : Path, k <+: path → τ₂.Allocated k :=
    State.allocated_of_isPrefix (fun k hk => hτ₂.allocated k hk (hall k hk)) (hpath hmade)
  -- Before each round all is allocated that the body relies on.
  refine Settles.loop (Q := Kept chosen.counter inner P τ₂) hhead (fun _ h => h ▸ State.read_local_ne hsource)
    (fun v _ => ?_) (.of_swells ⟨.refl, .of_eq rfl, rfl, rfl⟩ hkept₂.functions)
    (fun v entries _ _ τ₃ hτ₃ e _ => ?_) fun τ₃ hτ₃ => .ok ?_
  · rintro _ rfl
    cases v <;> exact nofun
  · have hbind : τ₃.Binds chosen.counter (head.bind τ₃ e) := .bind hbound e
    have hstart := hbind.kept (fun k hk => (hknown' k (hinner k hk)).mono hle) hτ₃.functions
    refine (hbody _ hstart.functions fun k hk => ?_).mono fun τ₄ hτ₄ => ?_
    · exact hstart.allocated k hk (hτ₃.allocated k hk (hmost k (hinner k hk)))
    · have hround := (hτ₃.trans hstart (Nat.le_refl _) fun _ => id).trans hτ₄ (Nat.le_refl _)
        fun _ => id
      exact ⟨hround.agree, hround.allocated, hround.whole, hτ₃.functions⟩
  · exact hkept₂.trans hτ₃ hle habove

end Rules

/-! ## Tasks -/

namespace Lays

variable {c : Settings} {fs : List Field} {order : Order}
  {call : Code → State → Except Fault State} {task task' : Task} {pos : Position} {p q r : Progress}
  {b b₁ b₂ : Code} {f : Field} {job : RecordJob} {type : FieldType} {tested base : Place}
  {inField : Bool} {go : GoType}

/-- Nothing is written. -/
theorem done : Lays c fs order call task p .done :=
  fun _ hfilling _ => .ok (.refl hfilling)

/-- A task as a part of one that lies below the same. -/
theorem of_over (h : Lays c fs order call task p b) (hover : ∀ k, task'.Over k → task.Over k)
    (hborne : ∀ {σ : State}, task'.Borne p σ → task.Borne p σ) : Lays c fs order call task' p b :=
  fun σ hfilling hborne' =>
    (h σ hfilling (hborne hborne')).mono fun _ hτ => hτ.mono (Nat.le_refl _) hover

theorem moreFields {gs : List Field} (hled : Led c fs (pos.scope ++ pos.target))
    (hnames : c.Names fs) (hle : p.counter ≤ q.counter) (hdefers : Defers c fs p q)
    (hfirst : Lays c fs order call (.field pos f) p b₁)
    (hrest : Lays c fs order call (.fields pos gs) q b₂) :
    Lays c fs order call (.fields pos (f :: gs)) p (b₁ ++ b₂) := by
  intro σ hfilling hborne
  refine (hfirst σ hfilling hborne).append fun τ _ hτ => ?_
  refine (hrest τ hτ.functions ?_).mono fun υ hυ => hτ.trans hυ hle fun _ => id
  refine hborne.later hτ hdefers fun k hk => ?_
  obtain ⟨more, hmore⟩ : k <+: pos.target := hk
  have hlonger : Led c fs (pos.scope ++ k ++ more) := by
    rwa [List.append_assoc, show k ++ more = pos.target from hmore]
  exact (Led.family hnames).of_append hlonger

theorem leaf {goType : GoType} {primary : Source} {standIn : Option Source} (hnames : c.Names fs)
    (hplaced : (Task.field pos f).PlacedIn c fs) (hscope : IsScope c fs pos.scope)
    (hwithin : p.deferred.Within (Led c fs))
    (hsources : sourcesOf c pos f (pos.key f) = (some primary, standIn)) :
    Lays c fs order call (.field pos f) p
      (leafCode (p.deferred.guards pos.scope (pos.path f)) pos f goType primary standIn) := by
  obtain ⟨hpath, hleads⟩ := hplaced.path_field hnames
  obtain ⟨hprimary, hstandIn⟩ := isLocal_sourcesOf (f := f) hplaced.1
  rw [hsources] at hprimary hstandIn
  -- What waits above the leaf is allocated by the guards of its own assignment.
  have hone : ∀ {τ : State} (source : Source) (onlyIfSet : Bool), source.place.root.isLocal = true →
      Filling c fs τ.functions → τ.Bears p.deferred pos.scope (pos.path f) →
      Settles (· = NilTarget) (Kept p.counter (·.Above (pos.path f)) (Filling c fs) τ)
        (exec order call ((leafAssignment pos f goType source onlyIfSet).code
          (p.deferred.guards pos.scope (pos.path f))) τ) :=
    fun source onlyIfSet hsource hfilling hbears =>
      Settles.assignment (a := leafAssignment pos f goType source onlyIfSet)
        (Deferred.sees hnames hwithin hscope hleads) hsource hbears hfilling
  intro σ hfilling hborne
  have hbears := hborne.field hpath
  have hall : Settles (· = NilTarget) (Kept p.counter (·.Above (pos.path f)) (Filling c fs) σ)
      (exec order call
        (leafCode (p.deferred.guards pos.scope (pos.path f)) pos f goType primary standIn) σ) := by
    cases standIn with
    | none => exact hone primary false (hprimary _ rfl) hfilling hbears
    | some x =>
      refine (hone x false (hstandIn _ rfl) hfilling hbears).append fun τ _ hτ => ?_
      exact (hone primary true (hprimary _ rfl) hτ.functions (hbears.kept hτ)).mono fun υ hυ =>
        hτ.trans hυ (Nat.le_refl _) fun _ => id
  refine hall.mono fun τ hτ => hτ.mono (Nat.le_refl _) fun k hk => ?_
  rw [hpath]
  exact Path.Above.concat_iff.mpr hk

theorem allocated {gs : List Field} (hnames : c.Names fs)
    (hplaced : (Task.field pos f).PlacedIn c fs) (hscope : IsScope c fs pos.scope)
    (hwithin : p.deferred.Within (Led c fs))
    (hfields : Lays c fs order call (.fields (pos.unsourced (pos.path f)) gs) p b) :
    Lays c fs order call (.field pos f) p (p.deferred.guards pos.scope (pos.path f) ++
      .step (.assign ⟨.output, pos.path f⟩ (.newRecord go)) b) := by
  obtain ⟨hpath, hleads⟩ := hplaced.path_field hnames
  intro σ hfilling hborne
  refine (Settles.filled (Deferred.sees hnames hwithin hscope hleads) (hborne.field hpath) hfilling
    fun τ hτ hall => hfields τ hτ (.of_allocated hall)).mono fun τ hτ => ?_
  refine hτ.mono (Nat.le_refl _) fun k hk => ?_
  rw [hpath]
  exact Path.Above.concat_iff.mpr hk

theorem deferring {gs : List Field} (hnames : c.Names fs)
    (hplaced : (Task.field pos f).PlacedIn c fs)
    (hfields : Lays c fs order call (.fields (pos.unsourced (pos.path f)) gs)
      { p with deferred := p.deferred.defer (pos.scope ++ pos.path f) go } b) :
    Lays c fs order call (.field pos f) p b := by
  obtain ⟨hpath, hleads⟩ := hplaced.path_field hnames
  have hF := Led.family hnames
  have hled : Led c fs (pos.scope ++ pos.path f) := .inr ⟨_, hleads⟩
  intro σ hfilling hborne
  refine (hfields σ hfilling fun k hk => ?_).mono fun τ hτ => hτ.mono (Nat.le_refl _) fun k hk => ?_
  · rcases Path.Above.or_eq hk with habove | rfl
    · refine ((hborne.field hpath) k habove).imp_right fun ⟨hne, hholds⟩ => ⟨trivial, hne, ?_⟩
      refine hholds.defer hF (hF.of_isPrefix hled ?_) hled
      exact (List.prefix_append_right_inj _).mpr habove.isPrefix
    · refine .inr ⟨trivial, ?_, go, Table.mem_place_self _ _ _⟩
      rw [hpath]
      exact List.append_ne_nil_of_right_ne_nil _ (List.cons_ne_nil _ _)
  · show k <+: pos.path f
    rw [hpath]
    exact List.IsPrefix.trans hk (List.prefix_append _ _)

theorem inline {gs : List Field} (hnames : c.Names fs)
    (hplaced : (Task.record pos job type tested base inField).PlacedIn c fs)
    (hscope : IsScope c fs pos.scope) (hwithin : p.deferred.Within (Led c fs))
    (hfields : Lays c fs order call (.fields (pos.inline c job base) gs) p b) :
    Lays c fs order call (.record pos job type tested base inField) p
      (inlineCode (p.deferred.guards pos.scope job.path) job.path go tested b) := by
  obtain ⟨hleads, -, htested, -⟩ := hplaced
  intro σ hfilling hborne
  exact Settles.inlineCode (Deferred.sees hnames hwithin hscope hleads) hborne.record htested hfilling
    fun τ hτ hall => hfields τ hτ (.of_allocated hall)

theorem callFunction {helper : Var} (hcall : CallsGrow c fs call) (hnames : c.Names fs)
    (hplaced : (Task.record pos job type tested base inField).PlacedIn c fs)
    (hscope : IsScope c fs pos.scope) (hwithin : p.deferred.Within (Led c fs)) :
    Lays c fs order call (.record pos job type tested base inField) p
      (callCode (guardsAbove p pos job.path inField) job.path helper tested) := by
  obtain ⟨hleads, -, htested, -⟩ := hplaced
  intro σ hfilling hborne
  cases inField with
  | false =>
    exact Settles.write (hborne.allocated Bool.false_ne_true) (hcall.grows htested hfilling) hfilling
      fun τ hτ _ => .ok hτ
  | true =>
    refine Settles.guarded (Deferred.sees hnames hwithin hscope hleads) hborne.record
      fun τ hτ hall => ?_
    have hfilling' : Filling c fs τ.functions := hτ.functions.symm ▸ hfilling
    refine Settles.write (n := p.counter) hall (hcall.grows htested hfilling') hfilling'
      fun υ hυ _ => .ok ?_
    exact (Kept.of_swells hτ hfilling).trans hυ (Nat.le_refl _) fun _ => id

/-- A local function comes into scope, and is called with the progress that its body leaves. -/
theorem define {helper : HelperSignature} {code : Code} (hle : p.counter ≤ q.counter)
    (hled : Led c fs (pos.scope ++ job.path)) (hnames : c.Names fs) (hdefers : Defers c fs p q)
    (hfills : ∀ locals, LocalFunction.Fills c fs ⟨helper.name, helperBlock helper.target b, locals⟩)
    (hcall : Lays c fs order call (.record pos job type tested base inField) q code) :
    Lays c fs order call (.record pos job type tested base inField) p
      (helperCode helper b ++ code) := by
  intro σ hfilling hborne
  have hkept : Kept p.counter (Task.record pos job type tested base inField).Over (Filling c fs) σ
      { σ with functions :=
        ⟨helper.name, helperBlock helper.target b, σ.locals⟩ :: σ.functions } := by
    refine ⟨.refl, fun _ _ => id, .of_eq rfl, fun f hf => ?_⟩
    rcases List.mem_cons.mp hf with rfl | hf
    · exact hfills σ.locals
    · exact hfilling f hf
  refine Settles.append (Q := fun τ => Kept p.counter _ (Filling c fs) σ τ) (.ok hkept)
    fun τ _ hτ => ?_
  refine (hcall τ hτ.functions (hborne.later hτ hdefers fun k hk => ?_)).mono fun υ hυ =>
    hτ.trans hυ hle fun _ => id
  exact (Led.family hnames).of_isPrefix hled
    ((List.prefix_append_right_inj _).mpr (Path.Above.isPrefix hk))

section Containers

variable {type : FieldType} {job : ContainerJob} {chosen : Selection}

theorem loop {loop : Loop} (hnames : c.Names fs) (hplaced : (Task.container pos type job).PlacedIn c fs)
    (hscope : IsScope c fs pos.scope) (hwithin : p.deferred.Within (Led c fs))
    (hknown : job.path.Known p.counter) (hloop : loop.Converts c job type)
    (hchosen : chosen = loop.selection c job p.counter)
    (helement : Lays c fs order call
      (.element pos job.field loop.element (loop.slot job chosen.flag chosen.counter))
      { p with counter := chosen.counter + 2 } b) :
    Lays c fs order call (.container pos type job) p
      (loop.code (p.deferred.guards pos.scope job.path) job chosen b) := by
  obtain ⟨⟨t, hleads, -⟩, hprimary, hstandIn⟩ := hplaced
  intro σ hfilling hborne
  have hbound := hloop.newer_bound chosen.counter chosen.source
  -- What lies above a slot is the container and what lies above it.
  have hslot : ∀ k : Path, k.Above (loop.slot job chosen.flag chosen.counter).path ↔
      k <+: job.path := fun k => Path.Above.concat_iff
  have hbody : ∀ τ : State, Filling c fs τ.functions →
      (∀ k : Path, k <+: job.path → τ.Allocated k) →
      Settles (· = NilTarget) (Kept chosen.counter (· <+: job.path) (Filling c fs) τ)
        (exec order call b τ) := by
    intro τ hτ hall
    refine (helement τ hτ (.of_allocated fun k hk => hall k ((hslot k).mp hk))).mono fun υ hυ => ?_
    exact hυ.mono (Nat.le_add_right _ 2) fun k hk => (hslot k).mpr hk
  refine Settles.container (Deferred.sees hnames hwithin hscope hleads)
    (fun k hk => (hborne k hk).imp_right And.right) hknown hfilling hchosen hprimary
    (fun x hx => ?_) (.inl rfl) rfl hbound (fun _ => id) (fun k hk => hk.isPrefix) hbody
  obtain ⟨y, hy, rfl⟩ := Option.map_eq_some_iff.mp hx
  exact hstandIn y hy

theorem keys {element : FieldType} {form : SetForm} {intoKeys fromKeys : Bool}
    (hnames : c.Names fs) (hplaced : (Task.container pos (.set element form) job).PlacedIn c fs)
    (hscope : IsScope c fs pos.scope) (hwithin : p.deferred.Within (Led c fs))
    (hknown : job.path.Known p.counter)
    (hchosen : chosen = .of p.counter job.primary.place (job.standIn.map (·.place)) false) :
    Lays c fs order call (.container pos (.set element form) job) p
      (keysCode (p.deferred.guards pos.scope job.path) job.path go intoKeys fromKeys chosen) := by
  obtain ⟨⟨t, hleads, -⟩, hprimary, hstandIn⟩ := hplaced
  intro σ hfilling hborne
  have hbound : ∀ v ∈ [Var.value (chosen.counter + 1)],
      v.isLocal = true ∧ chosen.counter < v.number := by
    intro v hv
    rw [List.mem_singleton.mp hv]
    exact ⟨rfl, Nat.lt_succ_self _⟩
  have hstandIn' : ∀ x, job.standIn.map (·.place) = some x → x.root.isLocal = true := by
    intro x hx
    obtain ⟨y, hy, rfl⟩ := Option.map_eq_some_iff.mp hx
    exact hstandIn y hy
  have hsees := Deferred.sees hnames hwithin hscope hleads
  have hbears : σ.Bears p.deferred pos.scope job.path :=
    fun k hk => (hborne k hk).imp_right And.right
  cases intoKeys with
  | true =>
    -- Each key is put beneath the container.
    have hbody : ∀ τ : State, Filling c fs τ.functions →
        (∀ k : Path, k <+: job.path → τ.Allocated k) →
        Settles (· = NilTarget) (Kept chosen.counter (· <+: job.path) (Filling c fs) τ)
          (exec order call (.step (.assign
            ⟨.output, job.path ++ [.keyAs go (.value (chosen.counter + 1))]⟩ .present) .done) τ) := by
      intro τ hτ hall
      have hall' : ∀ k : Path, k.Above (job.path ++ [.keyAs go (.value (chosen.counter + 1))]) →
          τ.Allocated k := fun k hk => hall k (Path.Above.concat_iff.mp hk)
      exact Settles.write hall' (Expr.ReadsFrom.grows trivial hall') hτ fun υ hυ _ =>
        .ok (hυ.mono (Nat.le_refl _) fun k hk => Path.Above.concat_iff.mpr hk)
    cases fromKeys <;>
      exact Settles.container hsees hbears hknown hfilling hchosen hprimary hstandIn' (.inl rfl) rfl
        hbound (fun _ => id) (fun k hk => hk.isPrefix) hbody
  | false =>
    -- The container is replaced by one with one element more.
    have hbody : ∀ τ : State, Filling c fs τ.functions →
        (∀ k : Path, k.Above job.path → τ.Allocated k) →
        Settles (· = NilTarget) (Kept chosen.counter (·.Above job.path) (Filling c fs) τ)
          (exec order call (.step (.assign ⟨.output, job.path⟩
            (.append ⟨.output, job.path⟩ go (.value (chosen.counter + 1)))) .done) τ) := by
      intro τ hτ hall
      have hreads : (Expr.append ⟨.output, job.path⟩ go (.value (chosen.counter + 1))).ReadsFrom
          (·.Above job.path) := ⟨rfl, fun _ => id⟩
      exact Settles.write hall (hreads.grows hall) hτ fun υ hυ _ => .ok hυ
    cases fromKeys <;>
      exact Settles.container hsees hbears hknown hfilling hchosen hprimary hstandIn' (.inr rfl) rfl
        hbound (fun k hk => hk.isPrefix) (fun _ => id) hbody

end Containers

section Elements

variable {field : String} {type type₁ type₂ : FieldType} {slot : Slot} {job₁ job₂ : RecordJob}
  {base₁ base₂ : Place} {flag : Var}

theorem leafElement (hvalue : slot.value.isLocal = true) :
    Lays c fs order call (.element pos field type slot) p
      (.step (.assign ⟨.output, slot.path⟩ (.convert (.plain go) (.ofVar slot.value))) .done) := by
  intro σ hfilling hborne
  have hall : ∀ k : Path, k.Above slot.path → σ.Allocated k := hborne.allocated id
  exact Settles.write hall (Expr.ReadsFrom.grows hvalue hall) hfilling fun τ hτ _ => .ok hτ

theorem eitherElement (hpath : job₁.path = slot.path ∧ job₂.path = slot.path)
    (hle : p.counter ≤ q.counter)
    (hprimary : Lays c fs order call (.record pos job₁ type₁ tested base₁ false) p b₁)
    (hother : Lays c fs order call (.record pos job₂ type₂ tested base₂ false) q b₂) :
    Lays c fs order call (.element pos field type slot) p (.fork (.ifFlag flag) b₁ b₂ .done) := by
  intro σ hfilling hborne
  have hall : ∀ k : Path, k.Above slot.path → σ.Allocated k := hborne.allocated id
  have habove₁ : ∀ k : Path, k.Above job₁.path ↔ k.Above slot.path := fun k => by rw [hpath.1]
  have habove₂ : ∀ k : Path, k.Above job₂.path ↔ k.Above slot.path := fun k => by rw [hpath.2]
  refine Settles.fork (Q := Kept p.counter (·.Above slot.path) (Filling c fs) σ) (.ok _)
    (fun _ => ?_) (fun _ => ?_) fun τ hτ => .ok (hτ.afterBlock hfilling)
  · refine (hprimary σ hfilling (.of_allocated fun k hk => hall k ((habove₁ k).mp hk))).mono
      fun τ hτ => hτ.mono (Nat.le_refl _) fun k hk => (habove₁ k).mpr hk
  · refine (hother σ hfilling (.of_allocated fun k hk => hall k ((habove₂ k).mp hk))).mono
      fun τ hτ => hτ.mono hle fun k hk => (habove₂ k).mpr hk

end Elements

end Lays

/-! ## The induction -/

section Induction

variable {c : Settings} {fs : List Field} {order : Order}
  {call : Code → State → Except Fault State}

/-- What is emitted for a task that is placed lays it. -/
theorem Emits.lays (hnames : c.Names fs) (hcall : CallsGrow c fs call) {task : Task}
    {p q : Progress} {b : Code} (h : Emits c task p b q) (hplaced : task.PlacedIn c fs)
    (hscope : IsScope c fs task.scope) (hwithin : p.deferred.Within (Led c fs))
    (hknown : task.path.Known p.counter) : Lays c fs order call task p b := by
  -- Fields take no variable, so the path of a field is known where its record is.
  have hfield : ∀ {pos : Position} {f : Field} {n : Nat}, (Task.field pos f).PlacedIn c fs →
      pos.target.Known n → (pos.path f).Known n := by
    intro pos f n hplaced hknown
    rw [(hplaced.path_field hnames).1]
    exact hknown.append (.singleton (Nat.zero_le n))
  induction h with
  | noFields | unset => exact .done
  | @moreFields pos f gs p q r b₁ b₂ hfirst _ ih₁ ih₂ =>
    have hle := hfirst.numbered.le
    have hdefers := hfirst.defers hnames hplaced.field hwithin
    exact .moreFields hplaced.field.2.led hnames hle hdefers
      (ih₁ hplaced.field hscope hwithin hknown)
      (ih₂ hplaced.rest hscope hdefers.within (hknown.mono hle))
  | leaf hsources => exact .leaf hnames hplaced hscope hwithin hsources
  | recordField hsources hroot _ _ ih =>
    have hpath := (hplaced.path_field hnames).1
    refine Lays.of_over (ih (hplaced.recordField hnames hsources hroot) hscope hwithin
      (hfield hplaced hknown)) (fun k hk => ?_) fun h k hk => ?_
    · exact hpath ▸ Path.Above.concat_iff.mpr hk
    · exact (h.field hpath k hk).imp_right fun hdeferred => ⟨rfl, hdeferred⟩
  | containerField hsources _ _ ih =>
    have hpath := (hplaced.path_field hnames).1
    refine Lays.of_over (ih (hplaced.containerField hnames hsources) hscope hwithin
      (hfield hplaced hknown)) (fun k hk => ?_) fun h k hk => ?_
    · exact hpath ▸ Path.Above.concat_iff.mpr hk
    · exact (h.field hpath k hk).imp_right fun hdeferred => ⟨trivial, hdeferred⟩
  | allocated _ hrecord _ _ _ _ ih =>
    exact .allocated hnames hplaced hscope hwithin
      (ih (hplaced.unsourced hnames hrecord) hscope hwithin (hfield hplaced hknown))
  | deferred _ hrecord _ _ _ _ ih =>
    refine .deferring hnames hplaced (ih (hplaced.unsourced hnames hrecord) hscope (hwithin.defer ?_)
      (hfield hplaced hknown))
    exact .inr ⟨_, (hplaced.path_field hnames).2⟩
  | inline _ _ _ ih =>
    exact .inline hnames hplaced hscope hwithin (ih hplaced.inline hscope hwithin hknown)
  | call => exact .callFunction hcall hnames hplaced hscope hwithin
  | @define pos job type tested base inField p q b targetGo sourceGo _ _ _ _ hfields ih =>
    have hdefers := hfields.defers hnames hplaced.inHelper hwithin
    have hle : p.counter ≤ q.counter := Nat.le_trans (Nat.le_succ _) hfields.numbered.le
    obtain ⟨hleads, hroot, -, -⟩ := id hplaced
    -- Within the helper the target begins at the job's path, so that is the scope of its guards.
    have hinner : IsScope c fs (pos.scope ++ job.path) := .inr ⟨_, _, hleads, hroot⟩
    refine .define hle (.inr ⟨_, hleads⟩) hnames ⟨hdefers.within, hdefers.keeps⟩ (fun locals => ?_)
      (.callFunction hcall hnames hplaced hscope hdefers.within)
    exact ⟨pos, job, _, _, b, _, rfl, hfields, hplaced.inHelper, hinner, hwithin⟩
  | @loop pos type job p q b loop chosen hloop hchosen _ ih =>
    have hle : p.counter ≤ chosen.counter := hchosen ▸ Selection.le_counter _ _ _ _
    have hstep : Path.Known (chosen.counter + 2) [loop.step (loop.position (chosen.counter + 1))] :=
      (hloop.known_step _).mono (Nat.le_succ _)
    exact .loop hnames hplaced hscope hwithin hknown hloop hchosen
      (ih (hplaced.element hloop chosen.flag chosen.counter) hscope hwithin
        ((hknown.mono (Nat.le_trans hle (Nat.le_add_right _ 2))).append hstep))
  | keys _ _ _ _ _ hchosen => exact .keys hnames hplaced hscope hwithin hknown hchosen
  | leafElement => exact .leafElement hplaced.2.1
  | recordElement hroot _ _ _ ih =>
    exact .of_over (ih (hplaced.recordElement hroot (.inl rfl)) hscope hwithin hknown)
      (fun _ => id) fun h k hk => .inl (h.allocated id k hk)
  | eitherElement hroot _ hstandIn _ _ hprimary _ ih₁ ih₂ =>
    have hle := hprimary.numbered.le
    -- The second branch begins with what the first one left waiting.
    have hdefers := hprimary.defers hnames (hplaced.recordElement hroot (.inl rfl)) hwithin
    exact .eitherElement ⟨rfl, rfl⟩ hle
      (ih₁ (hplaced.recordElement hroot (.inl rfl)) hscope hwithin hknown)
      (ih₂ (hplaced.recordElement hroot (.inr hstandIn)) hscope hdefers.within (hknown.mono hle))
  | containerElement _ _ ih =>
    exact .of_over (ih hplaced.containerElement hscope hwithin hknown)
      (fun _ => id) fun h k hk => .inl (h.allocated id k hk)

/-- A call of a local function keeps to its own `out` if the calls in its body do. -/
theorem CallsGrow.next (hnames : c.Names fs) (hcall : CallsGrow c fs call) :
    CallsGrow c fs (exec order call) := by
  intro f visible hfilling τ hfunctions
  obtain ⟨pos, job, p, q, b, go, hbody, hemits, hplaced, hscope, hwithin⟩ :=
    hfilling f List.mem_cons_self
  have hfilling' : Filling c fs τ.functions := hfunctions ▸ hfilling
  -- Nothing lies above the whole result of a helper.
  have hnothing : ∀ k : Path, k.Above [] → τ.Allocated k :=
    fun k hk => absurd hk.length_lt (Nat.not_lt_zero _)
  have htest : Avoids (· = NilTarget) ((Head.ifSet [.ofVar .input]).test τ) :=
    fun _ h => h ▸ State.allSet_ne fun p hp => by rw [List.mem_singleton.mp hp]; rfl
  have hreturn : ∀ {υ : State}, τ.WholeGrows υ →
      Settles (· = NilTarget) τ.WholeGrows (exec order call (.step .giveBack .done) υ) := .ok
  rw [hbody]
  refine Settles.fork (Q := τ.WholeGrows) htest (fun _ => ?_) (fun _ => ?_) fun υ hυ => hreturn hυ
  · -- The result is made first, and what fills it then grows it.
    refine Settles.write (n := 0) hnothing (Expr.ReadsFrom.grows trivial hnothing)
      hfilling' fun υ hυ hmade => ?_
    refine (hemits.lays hnames hcall hplaced hscope hwithin .nil υ hυ.functions
      (.of_allocated fun k hk => ?_)).mono fun ρ hρ => hυ.whole.trans hρ.whole
    rw [List.prefix_nil.mp hk]
    exact hmade rfl
  · exact Settles.write (n := 0) hnothing (Expr.ReadsFrom.grows trivial hnothing)
      hfilling' fun υ hυ _ => .ok hυ.whole

/-- Calls keep to their own `out` at every depth. -/
theorem callsGrow_run (hnames : c.Names fs) (order : Order) (m : Nat) :
    ∃ call, run order m = exec order call ∧ CallsGrow c fs call := by
  induction m with
  | zero => exact ⟨_, rfl, fun _ _ _ _ _ => ⟨fun _ h => h ▸ nofun, nofun⟩⟩
  | succ m ih =>
    obtain ⟨call, hrun, hcall⟩ := ih
    refine ⟨run order m, rfl, ?_⟩
    rw [hrun]
    exact hcall.next hnames

end Induction

/-! ## Runs -/

namespace ConversionRequest

variable {r : ConversionRequest}

/-- **Writes are safe in local functions, too**: no statement of a conversion goes through a nil value
below the `out` of its function, on any input and however deep the calls are. -/
theorem run_writes (hnamed : r.TargetNamed) {text : List String} (hrun : r.run = .lines text) :
    ∃ b : Code, text = b.lines.map Line.indented ∧
      ∀ order depth input, RecordBridge.run order depth b (.start input) ≠ .error NilTarget := by
  obtain ⟨b, q, hdraft, rfl⟩ := draft_of_run hrun
  obtain ⟨mapped, body, hmapped, rfl, hemits⟩ := emits_of_draft hdraft
  refine ⟨_, rfl, fun order depth input => ?_⟩
  have hnames := hnamed.names mapped
  obtain ⟨call, hcall, hgrow⟩ := callsGrow_run hnames order depth
  -- The note on recursion runs first and writes nothing.
  obtain ⟨σ, hpreamble, hout, hfunctions, -, -⟩ := exec_preamble (r.settings mapped) input
  have hplaced : (Task.fields r.start r.target).PlacedIn (r.settings mapped) r.target := by
    refine ⟨?_, fun f hf => .inl ⟨rfl, hf⟩⟩
    intro base gs h
    cases h
    rfl
  have hfilling : Filling (r.settings mapped) r.target σ.functions := by
    rw [hfunctions]
    exact nofun
  have hborne : (Task.fields r.start r.target).Borne {} σ := by
    refine .of_allocated fun k hk => ?_
    rw [List.prefix_nil.mp hk, State.Allocated, hout]
    exact ⟨_, rfl, rfl⟩
  have hlays : Lays (r.settings mapped) r.target order call (.fields r.start r.target) {} body :=
    hemits.lays hnames hgrow hplaced (.inl rfl) .empty .nil
  rw [hcall, exec_append, hpreamble order call]
  exact (hlays σ hfilling hborne).avoids _ rfl

end ConversionRequest

end RecordBridge

import RecordBridge.Conversion.Guard
import RecordBridge.Proofs.Execution.Frame

/-!
# Grounded statements

Statements are grounded if every write below `out` comes after statements that make what lies above
it. What is known to be made is carried along as a set of paths: into blocks, and past a block as far
as the block keeps it. A record is allocated either under a guard that finds it absent, before a
write beneath it in the same block, or where that is allowed.

Grounded statements never go through a nil value below `out`, on any input.
-/

namespace RecordBridge

/-! ## Values that are not nil -/

namespace Access

variable {root other : Var} {a b : Access} {u v x : GoValue}

/-- Only nil has no parts because it is nil. -/
theorem read_ne_nilBelow (h : v.isSet = true) : a.read root v ≠ .error (.nilBelow other) := by
  intro hread
  cases a with
  | field name =>
    cases v <;> cases hread
    cases h
  | element k =>
    cases v with
    | absent => cases h
    | list length item =>
      cases k with
      | index i =>
        rw [read_item] at hread
        split at hread <;> cases hread
      | _ => cases hread
    | _ => cases hread

theorem read_eq_nilBelow (h : a.read root v = .error (.nilBelow other)) : other = root := by
  cases v with
  | absent => cases a <;> cases h <;> rfl
  | _ => exact absurd h (read_ne_nilBelow rfl)

theorem isSet_write (h : v.isSet = true) : (a.write x v).isSet = true := by
  cases a with
  | field name =>
    cases v with
    | record fields => rfl
    | _ => exact h
  | element k =>
    cases v with
    | list length item => cases k <;> rfl
    | table keys entry => rfl
    | _ => exact h

/-- A write leaves the other parts alone. -/
theorem read_write_of_ne (hne : a ≠ b) {i : GoValue} (ha : a.read root v = .ok i)
    (hb : b.read root v = .ok u) : b.read root (a.write x v) = .ok u := by
  cases v with
  | record fields =>
    cases a with
    | field name =>
      cases b with
      | field name' =>
        have hname : name' ≠ name := fun heq => hne (congrArg field heq.symm)
        rw [write_field, read_field, Function.update_of_ne hname]
        exact hb
      | element k => cases hb
    | element k => cases ha
  | list length item =>
    cases a with
    | field name => cases ha
    | element k =>
      cases b with
      | field name => cases hb
      | element k' =>
        cases k with
        | index i =>
          cases k' with
          | index j =>
            have hj : j ≠ i := fun heq => hne (by rw [heq])
            rw [write_item, read_item, Function.update_of_ne hj]
            exact hb
          | _ => cases hb
        | _ => cases ha
  | table keys entry =>
    cases a with
    | field name => cases ha
    | element k =>
      cases b with
      | field name => cases hb
      | element k' =>
        have hk : k' ≠ k := fun heq => hne (by rw [heq])
        -- A write may add its own key, but no other.
        have hmem : (k' ∈ if k ∈ keys then keys else keys ++ [k]) ↔ k' ∈ keys := by
          split
          · rfl
          · simp [hk]
        rw [write_entry, read_entry, Function.update_of_ne hk]
        simp only [hmem]
        exact hb
  | _ => cases a <;> cases ha

end Access

namespace GoValue

variable {root other : Var} {path more : List Access} {u v w x : GoValue}

/-- A value can be put wherever one can be read. -/
theorem put_eq_error {fault : Fault} :
    v.put root path x = .error fault ↔ v.get root path = .error fault := by
  induction path generalizing v with
  | nil => exact ⟨nofun, nofun⟩
  | cons a path ih =>
    show (a.read root v >>= fun inner => inner.put root path x >>= fun changed =>
      Except.ok (a.write changed v)) = _ ↔ (a.read root v >>= fun inner => inner.get root path) = _
    cases a.read root v with
    | error fault' => rfl
    | ok inner =>
      show (inner.put root path x >>= fun changed => Except.ok (a.write changed v)) = _ ↔
        inner.get root path = _
      rw [← ih]
      cases inner.put root path x with
      | error fault' => rfl
      | ok changed => exact ⟨nofun, nofun⟩

/-- A nil value in the way is one below the variable that the way starts at. -/
theorem get_eq_nilBelow (h : v.get root path = .error (.nilBelow other)) : other = root := by
  induction path generalizing v with
  | nil => cases h
  | cons a path ih =>
    change (a.read root v >>= fun inner => inner.get root path) = _ at h
    cases hread : a.read root v with
    | error fault =>
      rw [hread] at h
      cases h
      exact Access.read_eq_nilBelow hread
    | ok inner =>
      rw [hread] at h
      exact ih h

/-- A way over values that are not nil does not end at one. -/
theorem get_ne_nilBelow {a : Access} (h : v.get root path = .ok u) (hset : u.isSet = true) :
    v.get root (path ++ [a]) ≠ .error (.nilBelow other) := by
  rw [get_append h]
  show (a.read root u >>= fun inner => Except.ok inner) ≠ _
  intro hread
  cases hu : a.read root u with
  | error fault =>
    rw [hu] at hread
    cases hread
    exact Access.read_ne_nilBelow hset hu
  | ok inner =>
    rw [hu] at hread
    cases hread

/-- What lies above a place stays set when something is put there. -/
theorem isSet_of_put_longer {new : List Access} (hput : v.put root new x = .ok w)
    (hget : v.get root path = .ok u) (hset : u.isSet = true) (hlt : path.length < new.length) :
    ∃ u', w.get root path = .ok u' ∧ u'.isSet = true := by
  induction path generalizing v w new with
  | nil =>
    cases hget
    cases new with
    | nil => exact absurd hlt (Nat.lt_irrefl 0)
    | cons a new =>
      obtain ⟨inner, changed, -, -, rfl⟩ := put_cons_ok.mp hput
      exact ⟨_, rfl, Access.isSet_write hset⟩
  | cons b path ih =>
    cases new with
    | nil => exact absurd hlt (Nat.not_lt_zero _)
    | cons a new =>
      obtain ⟨inner, changed, hread, hchanged, rfl⟩ := put_cons_ok.mp hput
      obtain ⟨inner', hread', hget'⟩ := get_cons_ok.mp hget
      -- The ways part here, or they go on together.
      by_cases hab : a = b
      · subst hab
        rw [hread] at hread'
        cases hread'
        obtain ⟨u', hu', hset'⟩ := ih hchanged hget' (Nat.lt_of_succ_lt_succ hlt)
        exact ⟨u', get_cons_ok.mpr ⟨changed, Access.read_write hread, hu'⟩, hset'⟩
      · exact ⟨u, get_cons_ok.mpr ⟨inner', Access.read_write_of_ne hab hread hread', hget'⟩, hset⟩

end GoValue

/-! ## What is kept -/

/-- The value at a path below `out` is not nil. -/
def State.Allocated (σ : State) (path : Path) : Prop :=
  ∃ v, σ.out.get .output (path.map σ.access) = .ok v ∧ v.isSet = true

/-- The variable in a step. -/
def Step.var? : Step → Option Var
  | .field _ => none
  | .index v | .keyAs _ v => some v

/-- A path depends on a variable. -/
def Path.Uses (path : Path) (v : Var) : Prop :=
  ∃ s ∈ path, s.var? = some v

/-- Whether an expression calls a local function. -/
def Expr.isCall : Expr → Bool
  | .call _ _ => true
  | _ => false

/-- A local variable that a path does not depend on. -/
def Path.Ignores (path : Path) (v : Var) : Prop :=
  v.isLocal = true ∧ ¬path.Uses v

/-- A statement keeps what is above a path, and the path itself. -/
def Statement.Keeps (path : Path) : Statement → Prop
  | .assign target e =>
    e.isCall = false ∧
      (target.root = .output ∧ path.length < target.path.length ∨ path.Ignores target.root)
  | .define v e => e.isCall = false ∧ path.Ignores v
  | .keep _ _ => False
  | .declare _ | .giveBack => True

/-- The variables that a head binds. -/
def Head.bound : Head → List Var
  | .each position value _ => [position, value]
  | .eachKey v _ | .eachValue v _ => [v]
  | _ => []

/-- A block keeps a path allocated. A guard does so if it is for the path or for one above it: it
finds that one allocated. -/
def Code.Keeps (path : Path) : Code → Prop
  | .done => True
  | .step s rest => s.Keeps path ∧ Code.Keeps path rest
  | .nest (.ifUnset place) body rest =>
    (place.root = .output ∧ place.path <+: path ∨ Code.Keeps path body) ∧ Code.Keeps path rest
  | .nest head body rest =>
    (∀ v ∈ head.bound, path.Ignores v) ∧ Code.Keeps path body ∧ Code.Keeps path rest
  | .fork _ yes no rest => Code.Keeps path yes ∧ Code.Keeps path no ∧ Code.Keeps path rest

namespace State

variable {σ τ : State} {path : Path} {v : Var} {x : GoValue}

theorem access_set (h : path.Ignores v) : path.map (σ.set v x).access = path.map σ.access := by
  rw [set_of_isLocal h.1]
  refine List.map_congr_left fun s hs => ?_
  cases s with
  | field name => rfl
  | index v' | keyAs _ v' =>
    have hne : v' ≠ v := fun heq => h.2 ⟨_, hs, congrArg some heq⟩
    exact congrArg (fun x : GoValue => Access.element x.datum) (Function.update_of_ne hne _ _)

theorem Allocated.set (h : σ.Allocated path) (hv : path.Ignores v) :
    (σ.set v x).Allocated path := by
  obtain ⟨u, hget, hset⟩ := h
  refine ⟨u, ?_, hset⟩
  rw [access_set hv, set_of_isLocal hv.1]
  exact hget

/-- What lies above something that is allocated is allocated. -/
theorem Allocated.above (h : σ.Allocated path) {before : Path} (hbefore : before <+: path) :
    σ.Allocated before := by
  obtain ⟨more, rfl⟩ := hbefore
  obtain ⟨v, hget, hset⟩ := h
  rw [List.map_append] at hget
  obtain ⟨u, hu, hmore⟩ := GoValue.get_prefix hget
  refine ⟨u, hu, ?_⟩
  cases more with
  | nil =>
    cases hmore
    exact hset
  | cons s more => exact GoValue.isSet_of_get_cons hmore

/-- The functions in scope do not matter. -/
theorem Allocated.afterBlock (h : τ.Allocated path) (σ : State) : (σ.afterBlock τ).Allocated path :=
  h

/-- An assignment below `out` keeps all that is higher up. -/
theorem Allocated.assign {target : Path} (h : σ.Allocated path)
    (hlt : path.length < target.length) (hassign : σ.assign ⟨.output, target⟩ x = .ok τ) :
    τ.Allocated path := by
  obtain ⟨u, hget, hset⟩ := h
  change (σ.out.put .output (target.map σ.access) x >>= fun changed =>
    Except.ok { σ with out := changed }) = _ at hassign
  cases hput : σ.out.put .output (target.map σ.access) x with
  | error fault =>
    rw [hput] at hassign
    cases hassign
  | ok o =>
    rw [hput] at hassign
    cases hassign
    exact GoValue.isSet_of_put_longer hput hget hset (by simpa using hlt)

end State

section Keeping

variable {order : Order} {call : Code → State → Except Fault State} {σ τ : State} {path : Path}
  {x : GoValue}

/-- Binding a result, when it is there. -/
theorem bind_eq_ok {α β : Type} {d : Except Fault α} {f : α → Except Fault β} {y : β}
    (h : (d >>= f) = .ok y) : ∃ a, d = .ok a ∧ f a = .ok y := by
  cases d with
  | error fault => cases h
  | ok a => exact ⟨a, rfl, h⟩

/-- Only calls change the state. -/
theorem Expr.eval_state {e : Expr} (hcall : e.isCall = false)
    (h : e.eval call σ = .ok (x, τ)) : τ = σ := by
  cases e with
  | absent | flag _ | present | newRecord _ =>
    cases h
    rfl
  -- A call alone runs statements; all others only read.
  | call _ _ => cases hcall
  | read source | append target _ v =>
    obtain ⟨u, -, h⟩ := bind_eq_ok h
    first
      | (cases h; rfl)
      | (obtain ⟨y, -, h⟩ := bind_eq_ok h; cases h; rfl)
  | convert cast source | make type source =>
    obtain ⟨u, -, h⟩ := bind_eq_ok h
    obtain ⟨y, -, h⟩ := bind_eq_ok h
    cases h
    rfl
  | makeRoom type source =>
    obtain ⟨u, -, h⟩ := bind_eq_ok h
    obtain ⟨y, -, h⟩ := bind_eq_ok h
    cases h
    rfl

theorem Statement.Keeps.exec {s : Statement} (h : s.Keeps path) (hset : σ.Allocated path)
    (hexec : s.exec call σ = .ok τ) : τ.Allocated path := by
  cases s with
  | keep _ _ => exact h.elim
  | declare _ | giveBack =>
    cases hexec
    exact hset
  | define v e =>
    obtain ⟨⟨x, σ'⟩, heval, hτ⟩ := bind_eq_ok hexec
    cases Expr.eval_state h.1 heval
    cases hτ
    exact hset.set h.2
  | assign target e =>
    obtain ⟨root, more⟩ := target
    obtain ⟨⟨x, σ'⟩, heval, hassign⟩ := bind_eq_ok hexec
    cases Expr.eval_state h.1 heval
    rcases h.2 with ⟨rfl, hlt⟩ | hignores
    · exact hset.assign hlt hassign
    · obtain ⟨changed, -, hτ⟩ := bind_eq_ok hassign
      cases hτ
      exact hset.set hignores

/-- Binding the variables of a loop. -/
theorem State.Allocated.bind {head : Head} {e : Datum × GoValue}
    (h : ∀ v ∈ head.bound, path.Ignores v) (hset : σ.Allocated path) :
    (head.bind σ e).Allocated path := by
  cases head with
  | each position value _ =>
    exact (hset.set (h _ List.mem_cons_self)).set
      (h _ (List.mem_cons_of_mem _ List.mem_cons_self))
  | eachKey v _ | eachValue v _ => exact hset.set (h _ List.mem_cons_self)
  | _ => exact hset

/-- The rounds of a loop keep what its body keeps. -/
theorem allocated_foldlM {head : Head} {body : Code} (hbound : ∀ v ∈ head.bound, path.Ignores v)
    (hbody : ∀ {σ τ : State}, σ.Allocated path → exec order call body σ = .ok τ →
      τ.Allocated path) {entries : List (Datum × GoValue)} :
    ∀ {σ τ : State}, σ.Allocated path →
      entries.foldlM (fun σ e => do
        let τ ← exec order call body (head.bind σ e)
        .ok (σ.afterBlock τ)) σ = .ok τ → τ.Allocated path := by
  induction entries with
  | nil =>
    intro σ τ hset h
    cases h
    exact hset
  | cons e entries ih =>
    intro σ τ hset h
    rw [List.foldlM_cons] at h
    obtain ⟨σ', hround, hrest⟩ := bind_eq_ok h
    obtain ⟨υ, hexec, hσ'⟩ := bind_eq_ok hround
    cases hσ'
    have hset' : υ.Allocated path := hbody (hset.bind hbound) hexec
    exact ih (hset'.afterBlock σ) hrest

/-- What a block keeps is allocated after a run if it was before. -/
theorem Code.Keeps.exec {b : Code} (h : Code.Keeps path b) (hset : σ.Allocated path)
    (hexec : RecordBridge.exec order call b σ = .ok τ) : τ.Allocated path := by
  induction b generalizing σ τ with
  | done =>
    cases hexec
    exact hset
  | step s rest ih =>
    obtain ⟨σ', hs, hrest⟩ := bind_eq_ok hexec
    exact ih h.2 (Statement.Keeps.exec h.1 hset hs) hrest
  | nest head body rest ihbody ihrest =>
    cases head with
    | helperBody helper =>
      rw [exec_define] at hexec
      have hset' : ({ σ with functions := ⟨helper.name, body, σ.locals⟩ :: σ.functions } :
        State).Allocated path := hset
      exact ihrest h.2.2 hset' hexec
    | each _ _ source | eachKey _ source | eachValue _ source =>
      rw [exec_loop rfl] at hexec
      obtain ⟨v, -, hexec⟩ := bind_eq_ok hexec
      obtain ⟨entries, -, hexec⟩ := bind_eq_ok hexec
      obtain ⟨σ', hrounds, hrest⟩ := bind_eq_ok hexec
      have hset' : ({ σ with loops := σ.loops + 1 } : State).Allocated path := hset
      exact ihrest h.2.2 (allocated_foldlM h.1 (ihbody h.2.1) hset' hrounds) hrest
    | ifSet _ | ifFlag _ =>
      rw [exec_test rfl] at hexec
      obtain ⟨holds, -, hexec⟩ := bind_eq_ok hexec
      obtain ⟨σ', hblock, hrest⟩ := bind_eq_ok hexec
      have hset' : σ'.Allocated path := by
        cases holds with
        | true => exact ihbody h.2.1 hset hblock
        | false =>
          cases hblock
          exact hset
      exact ihrest h.2.2 (hset'.afterBlock σ) hrest
    | ifUnset place =>
      rw [exec_test rfl] at hexec
      obtain ⟨holds, htest, hexec⟩ := bind_eq_ok hexec
      obtain ⟨σ', hblock, hrest⟩ := bind_eq_ok hexec
      have hset' : σ'.Allocated path := by
        cases holds with
        | false =>
          cases hblock
          exact hset
        | true =>
          rcases h.1 with ⟨hroot, habove⟩ | hbody
          · -- The guard finds its place allocated, so its block does not run.
            obtain ⟨root, guarded⟩ := place
            cases hroot
            obtain ⟨v, hget, hv⟩ := hset.above habove
            obtain ⟨u, hread, hu⟩ := bind_eq_ok htest
            rw [show σ.read ⟨.output, guarded⟩ = .ok v from hget] at hread
            cases hread
            rw [hv] at hu
            cases hu
          · exact ihbody hbody hset hblock
      exact ihrest h.2 (hset'.afterBlock σ) hrest
  | fork head yes no rest ihyes ihno ihrest =>
    rw [exec_fork] at hexec
    obtain ⟨holds, -, hexec⟩ := bind_eq_ok hexec
    obtain ⟨σ', hblock, hrest⟩ := bind_eq_ok hexec
    have hset' : σ'.Allocated path := by
      cases holds with
      | true => exact ihyes h.1 hset hblock
      | false => exact ihno h.2.1 hset hblock
    exact ihrest h.2.2 (hset'.afterBlock σ) hrest

end Keeping

/-! ## The rules -/

/-- A path lies above another one, which goes on from it. -/
def Path.Above (k path : Path) : Prop :=
  ∃ s rest, path = k ++ s :: rest

/-- Everything above a path is known to be allocated. -/
def Path.Rooted (known : Path → Prop) (path : Path) : Prop :=
  ∀ k : Path, k.Above path → known k

namespace Expr

/-- An expression that reads local variables, or appends to a list that can be reached. -/
def ReadsFrom (known : Path → Prop) : Expr → Prop
  | .read source | .convert _ source | .make _ source | .makeRoom _ source =>
    source.root.isLocal = true
  | .append target _ _ => target.root = .output ∧ target.path.Rooted known
  | .call _ _ => False
  | _ => True

/-- Whether an expression allocates a record. -/
def isNewRecord : Expr → Bool
  | .newRecord _ => true
  | _ => false

/-- Whether the value of an expression is never nil. -/
def isMade : Expr → Bool
  | .newRecord _ | .make _ _ | .makeRoom _ _ => true
  | _ => false

end Expr

/-- A head that reads local variables only. -/
def Head.ReadsLocals : Head → Prop
  | .ifSet places => ∀ p ∈ places, p.root.isLocal = true
  | .ifUnset place => place.root.isLocal = true
  | .each _ _ source | .eachKey _ source | .eachValue _ source => source.root.isLocal = true
  | .ifFlag _ => True
  | .helperBody _ => False

/-- A block itself, and not only a block within it, writes beneath a path. -/
def Code.WritesBelow (path : Path) : Code → Prop
  | .done => False
  | .step (.assign target _) rest =>
    (target.root = .output ∧ path.Above target.path) ∨ Code.WritesBelow path rest
  | .step _ rest | .nest _ _ rest | .fork _ _ _ rest => Code.WritesBelow path rest

/-- Statements that write below `out` only beneath what is known to be allocated. A record that is
not `owned` is allocated only by a guard, before a write beneath it in the same block. -/
inductive Grounded (owned : Path → Prop) : (known : Path → Prop) → Code → Prop where
  | done {known : Path → Prop} : Grounded owned known .done
  | define {known known' : Path → Prop} {v : Var} {e : Expr} {rest : Code}
      (hlocal : v.isLocal = true) (he : e.ReadsFrom known)
      (hknown : ∀ k, known' k → known k ∧ ¬k.Uses v) (hrest : Grounded owned known' rest) :
      Grounded owned known (.step (.define v e) rest)
  | assign {known known' : Path → Prop} {v : Var} {e : Expr} {rest : Code}
      (hlocal : v.isLocal = true) (he : e.ReadsFrom known)
      (hknown : ∀ k, known' k → known k ∧ ¬k.Uses v) (hrest : Grounded owned known' rest) :
      Grounded owned known (.step (.assign (.ofVar v) e) rest)
  | write {known known' : Path → Prop} {path : Path} {e : Expr} {rest : Code}
      (hpath : path.Rooted known) (he : e.ReadsFrom known)
      (howned : e.isNewRecord = true → owned path)
      (hknown : ∀ k, known' k → known k ∧ k.length < path.length ∨ k = path ∧ e.isMade = true)
      (hrest : Grounded owned known' rest) :
      Grounded owned known (.step (.assign ⟨.output, path⟩ e) rest)
  | guard {known known' : Path → Prop} {path : Path} {type : GoType} {rest : Code}
      (hpath : path.Rooted known) (hbelow : Code.WritesBelow path rest)
      (hknown : ∀ k, known' k → known k ∧ (k.length < path.length ∨ path <+: k) ∨ k = path)
      (hrest : Grounded owned known' rest) :
      Grounded owned known (.nest (.ifUnset ⟨.output, path⟩)
        (.step (.assign ⟨.output, path⟩ (.newRecord type)) .done) rest)
  | test {known known' : Path → Prop} {head : Head} {body rest : Code}
      (htest : head.isTest = true) (hhead : head.ReadsLocals) (hbody : Grounded owned known body)
      (hknown : ∀ k, known' k → known k ∧ Code.Keeps k body) (hrest : Grounded owned known' rest) :
      Grounded owned known (.nest head body rest)
  | loop {known inner known' : Path → Prop} {head : Head} {source : Place} {body rest : Code}
      (hsource : head.source? = some source) (hhead : head.ReadsLocals)
      (hbody : Grounded owned inner body)
      (hinner : ∀ k, inner k → known k ∧ (∀ v ∈ head.bound, k.Ignores v) ∧ Code.Keeps k body)
      (hknown : ∀ k, known' k → inner k) (hrest : Grounded owned known' rest) :
      Grounded owned known (.nest head body rest)
  | fork {known known' : Path → Prop} {head : Head} {yes no rest : Code}
      (htest : head.isTest = true) (hhead : head.ReadsLocals) (hyes : Grounded owned known yes)
      (hno : Grounded owned known no)
      (hknown : ∀ k, known' k → known k ∧ Code.Keeps k yes ∧ Code.Keeps k no)
      (hrest : Grounded owned known' rest) : Grounded owned known (.fork head yes no rest)

namespace Path.Above

variable {k l path : Path}

theorem length_lt (h : k.Above path) : k.length < path.length := by
  obtain ⟨s, rest, rfl⟩ := h
  simp

theorem isPrefix (h : k.Above path) : k <+: path := by
  obtain ⟨s, rest, rfl⟩ := h
  exact List.prefix_append _ _

theorem trans (h : k.Above l) (h' : l.Above path) : k.Above path := by
  obtain ⟨s, rest, rfl⟩ := h
  obtain ⟨s', rest', rfl⟩ := h'
  exact ⟨s, rest ++ s' :: rest', by simp⟩

theorem of_isPrefix (h : k <+: path) (hne : k ≠ path) : k.Above path := by
  obtain ⟨rest, rfl⟩ := h
  cases rest with
  | nil => exact absurd (List.append_nil k).symm hne
  | cons s rest => exact ⟨s, rest, rfl⟩

theorem or_eq (h : k <+: path) : k.Above path ∨ k = path := by
  by_cases heq : k = path
  · exact .inr heq
  · exact .inl (of_isPrefix h heq)

theorem concat_iff {s : Step} : k.Above (path ++ [s]) ↔ k <+: path := by
  constructor
  · intro h
    have hinitial := List.prefix_concat_iff.mp h.isPrefix
    rcases hinitial with heq | hinitial
    · exact absurd h.length_lt (by rw [heq]; exact Nat.lt_irrefl _)
    · exact hinitial
  · rintro ⟨rest, rfl⟩
    cases rest with
    | nil => exact ⟨s, [], by simp⟩
    | cons t rest => exact ⟨t, rest ++ [s], by simp⟩

end Path.Above

section Structure

variable {owned known known' more : Path → Prop} {path : Path} {a b : Code}

theorem Path.Rooted.mono (h : path.Rooted known) (hsub : ∀ k, known k → more k) :
    path.Rooted more :=
  fun k hk => hsub k (h k hk)

theorem Expr.ReadsFrom.mono {e : Expr} (h : e.ReadsFrom known) (hsub : ∀ k, known k → more k) :
    e.ReadsFrom more := by
  cases e with
  | append target _ _ => exact ⟨h.1, h.2.mono hsub⟩
  | _ => exact h

/-- To know more does no harm. -/
theorem Grounded.mono (h : Grounded owned known b) (hsub : ∀ k, known k → more k) :
    Grounded owned more b := by
  induction h generalizing more with
  | done => exact .done
  | define hlocal he hknown hrest _ =>
    exact .define hlocal (he.mono hsub) (fun k hk => ⟨hsub k (hknown k hk).1, (hknown k hk).2⟩) hrest
  | assign hlocal he hknown hrest _ =>
    exact .assign hlocal (he.mono hsub) (fun k hk => ⟨hsub k (hknown k hk).1, (hknown k hk).2⟩) hrest
  | write hpath he howned hknown hrest _ =>
    exact .write (hpath.mono hsub) (he.mono hsub) howned
      (fun k hk => (hknown k hk).imp_left fun h => ⟨hsub k h.1, h.2⟩) hrest
  | guard hpath hbelow hknown hrest _ =>
    exact .guard (hpath.mono hsub) hbelow
      (fun k hk => (hknown k hk).imp_left fun h => ⟨hsub k h.1, h.2⟩) hrest
  | test htest hhead _ hknown hrest ihbody _ =>
    exact .test htest hhead (ihbody hsub) (fun k hk => ⟨hsub k (hknown k hk).1, (hknown k hk).2⟩)
      hrest
  | loop hsource hhead hbody hinner hknown hrest _ _ =>
    exact .loop hsource hhead hbody (fun k hk => ⟨hsub k (hinner k hk).1, (hinner k hk).2⟩) hknown
      hrest
  | fork htest hhead _ _ hknown hrest ihyes ihno _ =>
    exact .fork htest hhead (ihyes hsub) (ihno hsub)
      (fun k hk => ⟨hsub k (hknown k hk).1, (hknown k hk).2⟩) hrest

theorem Code.WritesBelow.append (h : Code.WritesBelow path a) : Code.WritesBelow path (a ++ b) := by
  induction a with
  | done => exact h.elim
  | step s rest ih =>
    rw [Block.step_append]
    cases s with
    | assign target e => exact h.imp_right ih
    | _ => exact ih h
  | nest head body rest _ ih => exact ih h
  | fork head yes no rest _ _ ih => exact ih h

theorem Code.WritesBelow.after (h : Code.WritesBelow path b) : Code.WritesBelow path (a ++ b) := by
  induction a with
  | done => exact h
  | step s rest ih =>
    rw [Block.step_append]
    cases s with
    | assign target e => exact .inr ih
    | _ => exact ih
  | nest head body rest _ ih => exact ih
  | fork head yes no rest _ _ ih => exact ih

theorem Code.keeps_append : Code.Keeps path (a ++ b) ↔ Code.Keeps path a ∧ Code.Keeps path b := by
  induction a with
  | done => exact ⟨fun h => ⟨trivial, h⟩, And.right⟩
  | step s rest ih =>
    rw [Block.step_append, Code.Keeps, Code.Keeps, ih, and_assoc]
  | nest head body rest _ ih =>
    rw [Block.nest_append]
    cases head <;> simp only [Code.Keeps, ih, and_assoc]
  | fork head yes no rest _ _ ih =>
    rw [Block.fork_append]
    simp only [Code.Keeps, ih, and_assoc]

/-- A statement that keeps a path and writes below `out` writes further down. -/
theorem Statement.Keeps.length_lt {target : Path} {e : Expr}
    (h : (Statement.assign ⟨.output, target⟩ e).Keeps path) : path.length < target.length := by
  rcases h.2 with h | h
  · exact h.2
  · exact absurd h.1 Bool.false_ne_true

/-- What a block under a head keeps, if the head is no guard. -/
theorem Code.Keeps.nest {head : Head} {body rest : Code}
    (h : Code.Keeps path (.nest head body rest)) (hhead : head.ReadsLocals) :
    (∀ v ∈ head.bound, path.Ignores v) ∧ Code.Keeps path body ∧ Code.Keeps path rest := by
  cases head with
  | ifUnset place =>
    refine ⟨nofun, h.1.resolve_left ?_, h.2⟩
    rintro ⟨hroot, -⟩
    rw [Head.ReadsLocals, hroot] at hhead
    cases hhead
  | _ => exact h

/-- A block that is grounded in what another one keeps, after that one. -/
theorem Grounded.append_or (ha : Grounded owned known a)
    (hkeeps : ∀ k, known' k → Code.Keeps k a) (hb : Grounded owned known' b) :
    Grounded owned (fun k => known k ∨ known' k) (a ++ b) := by
  induction ha with
  -- What the first block knew is forgotten at its end; what it keeps is left to the second.
  | done => exact hb.mono fun _ => .inr
  | define hlocal he hknown hrest ih =>
    refine .define hlocal (he.mono fun _ => .inl) ?_ (ih fun k hk => (hkeeps k hk).2)
    rintro k (hk | hk)
    · exact ⟨.inl (hknown k hk).1, (hknown k hk).2⟩
    · exact ⟨.inr hk, (hkeeps k hk).1.2.2⟩
  | assign hlocal he hknown hrest ih =>
    refine .assign hlocal (he.mono fun _ => .inl) ?_ (ih fun k hk => (hkeeps k hk).2)
    rintro k (hk | hk)
    · exact ⟨.inl (hknown k hk).1, (hknown k hk).2⟩
    · refine ⟨.inr hk, ?_⟩
      -- A variable is no part of the output, so it is one that the path ignores.
      rcases (hkeeps k hk).1.2 with ⟨hroot, -⟩ | hignores
      · cases hroot
        cases hlocal
      · exact hignores.2
  | write hpath he howned hknown hrest ih =>
    refine .write (hpath.mono fun _ => .inl) (he.mono fun _ => .inl) howned ?_
      (ih fun k hk => (hkeeps k hk).2)
    rintro k (hk | hk)
    · exact (hknown k hk).imp_left fun h => ⟨.inl h.1, h.2⟩
    · exact .inl ⟨.inr hk, (hkeeps k hk).1.length_lt⟩
  | guard hpath hbelow hknown hrest ih =>
    refine .guard (hpath.mono fun _ => .inl) hbelow.append ?_ (ih fun k hk => (hkeeps k hk).2)
    rintro k (hk | hk)
    · exact (hknown k hk).imp_left fun h => ⟨.inl h.1, h.2⟩
    · refine .inl ⟨.inr hk, ?_⟩
      rcases (hkeeps k hk).1 with hbeneath | hblock
      · exact .inr hbeneath.2
      · exact .inl hblock.1.length_lt
  | test htest hhead hbody hknown hrest _ ih =>
    refine .test htest hhead (hbody.mono fun _ => .inl) ?_
      (ih fun k hk => ((hkeeps k hk).nest hhead).2.2)
    rintro k (hk | hk)
    · exact ⟨.inl (hknown k hk).1, (hknown k hk).2⟩
    · exact ⟨.inr hk, ((hkeeps k hk).nest hhead).2.1⟩
  | @loop known inner _ head _ body _ hsource hhead hbody hinner hknown hrest _ ih =>
    have hinner' : ∀ k, inner k ∨ known' k → (known k ∨ known' k) ∧
        (∀ v ∈ head.bound, k.Ignores v) ∧ Code.Keeps k body := by
      rintro k (hk | hk)
      · exact ⟨.inl (hinner k hk).1, (hinner k hk).2⟩
      · -- What the loop keeps is known in each round, too.
        have hkept := (hkeeps k hk).nest hhead
        exact ⟨.inr hk, hkept.1, hkept.2.1⟩
    exact .loop hsource hhead (hbody.mono fun _ => .inl) hinner'
      (fun k hk => hk.imp_left (hknown k)) (ih fun k hk => ((hkeeps k hk).nest hhead).2.2)
  | fork htest hhead hyes hno hknown hrest _ _ ih =>
    refine .fork htest hhead (hyes.mono fun _ => .inl) (hno.mono fun _ => .inl) ?_
      (ih fun k hk => (hkeeps k hk).2.2)
    rintro k (hk | hk)
    · exact ⟨.inl (hknown k hk).1, (hknown k hk).2⟩
    · exact ⟨.inr hk, (hkeeps k hk).1, (hkeeps k hk).2.1⟩

theorem Grounded.append (ha : Grounded owned known a) (hb : Grounded owned known' b)
    (hknown : ∀ k, known' k → known k ∧ Code.Keeps k a) : Grounded owned known (a ++ b) :=
  (ha.append_or (fun k hk => (hknown k hk).2) hb).mono fun k hk =>
    hk.elim id fun hk => (hknown k hk).1

end Structure

/-! ## No nil value on the way -/

section Reaching

variable {order : Order} {call : Code → State → Except Fault State} {σ τ : State} {path : Path}
  {x : GoValue} {known : Path → Prop}

/-- A run that ends at a nil value below `out`. -/
abbrev NilTarget : Fault :=
  .nilBelow .output

theorem bind_ne_error {α β : Type} {d : Except Fault α} {f : α → Except Fault β} {fault : Fault}
    (hd : d ≠ .error fault) (hf : ∀ a, d = .ok a → f a ≠ .error fault) :
    (d >>= f) ≠ .error fault := by
  cases d with
  | error other => exact fun h => hd (by cases h; rfl)
  | ok a => exact hf a rfl

theorem State.read_local_ne {p : Place} (h : p.root.isLocal = true) :
    σ.read p ≠ .error NilTarget := by
  intro hread
  rw [← GoValue.get_eq_nilBelow hread] at h
  cases h

/-- What lies beneath something allocated is read without a nil value on the way. -/
theorem State.get_rooted_ne (hknown : ∀ k, known k → σ.Allocated k) (h : path.Rooted known) :
    σ.out.get .output (path.map σ.access) ≠ .error NilTarget := by
  rcases List.eq_nil_or_concat path with rfl | ⟨before, s, rfl⟩
  · exact nofun
  · rw [List.concat_eq_append] at h ⊢
    obtain ⟨v, hget, hset⟩ := hknown _ (h before ⟨s, [], rfl⟩)
    rw [List.map_append]
    exact GoValue.get_ne_nilBelow hget hset

theorem State.assign_rooted_ne (hknown : ∀ k, known k → σ.Allocated k) (h : path.Rooted known) :
    σ.assign ⟨.output, path⟩ x ≠ .error NilTarget := by
  refine bind_ne_error (fun hput => ?_) fun _ _ => nofun
  exact State.get_rooted_ne hknown h (GoValue.put_eq_error.mp hput)

theorem State.assign_local_ne {p : Place} (h : p.root.isLocal = true) :
    σ.assign p x ≠ .error NilTarget := by
  refine bind_ne_error (fun hput => ?_) fun _ _ => nofun
  rw [← GoValue.get_eq_nilBelow (GoValue.put_eq_error.mp hput)] at h
  cases h

theorem State.allSet_ne {places : List Place} (h : ∀ p ∈ places, p.root.isLocal = true) :
    σ.allSet places ≠ .error NilTarget := by
  induction places with
  | nil => exact nofun
  | cons p places ih =>
    refine bind_ne_error (State.read_local_ne (h p List.mem_cons_self)) fun v _ => ?_
    split
    · exact ih fun q hq => h q (List.mem_cons_of_mem _ hq)
    · exact nofun

theorem Cast.apply_ne {root : Var} {c : Cast} (h : root.isLocal = true) {v : GoValue} :
    c.apply root v ≠ .error NilTarget := by
  intro happly
  cases c <;> cases v <;> cases happly
  cases h

theorem Expr.eval_ne {e : Expr} (h : e.ReadsFrom known)
    (hknown : ∀ k, known k → σ.Allocated k) : e.eval call σ ≠ .error NilTarget := by
  cases e with
  | absent | flag _ | present | newRecord _ => exact nofun
  | call _ _ => exact h.elim
  | read source => exact bind_ne_error (State.read_local_ne h) fun _ _ => nofun
  | convert cast source =>
    exact bind_ne_error (State.read_local_ne h) fun v _ =>
      bind_ne_error (Cast.apply_ne h) fun _ _ => nofun
  | make type source | makeRoom type source =>
    refine bind_ne_error (State.read_local_ne h) fun v _ => bind_ne_error ?_ fun _ _ => nofun
    cases v <;> exact nofun
  | append target type v =>
    obtain ⟨root, path⟩ := target
    obtain ⟨rfl, hpath⟩ := h
    refine bind_ne_error (State.get_rooted_ne hknown hpath) fun list _ =>
      bind_ne_error ?_ fun _ _ => nofun
    cases list <;> exact nofun

theorem Expr.ReadsFrom.isCall {e : Expr} (h : e.ReadsFrom known) : e.isCall = false := by
  cases e with
  | call _ _ => exact h.elim
  | _ => rfl

theorem Head.test_ne {head : Head} (h : head.ReadsLocals) : head.test σ ≠ .error NilTarget := by
  cases head with
  | ifSet places => exact State.allSet_ne h
  | ifUnset place => exact bind_ne_error (State.read_local_ne h) fun _ _ => nofun
  | _ => exact nofun

theorem Head.ReadsLocals.source {head : Head} {source : Place} (h : head.ReadsLocals)
    (hsource : head.source? = some source) : source.root.isLocal = true := by
  cases head with
  | each _ _ _ | eachKey _ _ | eachValue _ _ =>
    cases hsource
    exact h
  | _ => cases hsource

theorem Head.readsLocals_of_source {head : Head} {source : Place}
    (hsource : head.source? = some source) (hlocal : source.root.isLocal = true) :
    head.ReadsLocals := by
  cases head with
  | each _ _ _ | eachKey _ _ | eachValue _ _ =>
    cases hsource
    exact hlocal
  | _ => cases hsource

/-- A value that is made is not nil. -/
theorem Expr.isSet_of_isMade {e : Expr} (h : e.isMade = true) (heval : e.eval call σ = .ok (x, τ)) :
    x.isSet = true := by
  cases e with
  | newRecord _ =>
    cases heval
    rfl
  | make type source | makeRoom type source =>
    obtain ⟨v, -, heval⟩ := bind_eq_ok heval
    obtain ⟨k, -, heval⟩ := bind_eq_ok heval
    cases heval
    first
      | rfl
      | cases type <;> rfl
  | _ => cases h

/-- What is known after a write. -/
theorem allocated_write {known' : Path → Prop} {e : Expr}
    (hknown' : ∀ k, known' k → known k ∧ k.length < path.length ∨ k = path ∧ e.isMade = true)
    (hknown : ∀ k, known k → σ.Allocated k) (heval : e.eval call σ = .ok (x, σ))
    (hassign : σ.assign ⟨.output, path⟩ x = .ok τ) : ∀ k, known' k → τ.Allocated k := by
  intro k hk
  rcases hknown' k hk with ⟨hk, hlt⟩ | ⟨rfl, hmade⟩
  · exact (hknown k hk).assign hlt hassign
  · obtain ⟨o, hput, hτ⟩ := bind_eq_ok hassign
    cases hτ
    exact ⟨x, GoValue.get_put hput, Expr.isSet_of_isMade hmade heval⟩

/-- The rounds of a loop do not stop at a nil value if its body never does. -/
theorem foldlM_ne {head : Head} {body : Code} {inner : Path → Prop}
    (hinner : ∀ k, inner k → (∀ v ∈ head.bound, k.Ignores v) ∧ Code.Keeps k body)
    (hbody : ∀ {σ : State}, (∀ k, inner k → σ.Allocated k) →
      exec order call body σ ≠ .error NilTarget) {entries : List (Datum × GoValue)} :
    ∀ {σ : State}, (∀ k, inner k → σ.Allocated k) →
      entries.foldlM (fun σ e => do
        let τ ← exec order call body (head.bind σ e)
        .ok (σ.afterBlock τ)) σ ≠ .error NilTarget := by
  induction entries with
  | nil => exact fun _ => nofun
  | cons e entries ih =>
    intro σ hσ
    rw [List.foldlM_cons]
    have hbind : ∀ k, inner k → (head.bind σ e).Allocated k :=
      fun k hk => (hσ k hk).bind (hinner k hk).1
    refine bind_ne_error (bind_ne_error (hbody hbind) fun _ _ => nofun) fun σ' hround => ih ?_
    obtain ⟨τ, hexec, hσ'⟩ := bind_eq_ok hround
    cases hσ'
    intro k hk
    have hset : τ.Allocated k := Code.Keeps.exec (hinner k hk).2 (hbind k hk) hexec
    exact hset.afterBlock σ

/-- **Grounded statements are safe**: where all that is known to be allocated is allocated, they do
not go through a nil value below `out`. -/
theorem Grounded.exec_ne {owned : Path → Prop} {b : Code} (h : Grounded owned known b)
    (hknown : ∀ k, known k → σ.Allocated k) : exec order call b σ ≠ .error NilTarget := by
  induction h generalizing σ with
  | done => exact nofun
  | define hlocal he hafter _ ih =>
    refine bind_ne_error (bind_ne_error (Expr.eval_ne he hknown) fun _ _ => nofun) fun σ' hs => ih ?_
    obtain ⟨⟨x, σ''⟩, heval, hσ'⟩ := bind_eq_ok hs
    cases Expr.eval_state he.isCall heval
    cases hσ'
    intro k hk
    exact (hknown k (hafter k hk).1).set ⟨hlocal, (hafter k hk).2⟩
  | assign hlocal he hafter _ ih =>
    refine bind_ne_error (bind_ne_error (Expr.eval_ne he hknown) fun a _ =>
      State.assign_local_ne hlocal) fun σ' hs => ih ?_
    obtain ⟨⟨x, σ''⟩, heval, hassign⟩ := bind_eq_ok hs
    cases Expr.eval_state he.isCall heval
    obtain ⟨changed, -, hσ'⟩ := bind_eq_ok hassign
    cases hσ'
    intro k hk
    exact (hknown k (hafter k hk).1).set ⟨hlocal, (hafter k hk).2⟩
  | write hpath he _ hafter _ ih =>
    refine bind_ne_error (bind_ne_error (Expr.eval_ne he hknown) fun a ha => ?_) fun σ' hs => ih ?_
    · obtain ⟨x, σ''⟩ := a
      cases Expr.eval_state he.isCall ha
      exact State.assign_rooted_ne hknown hpath
    · obtain ⟨⟨x, σ''⟩, heval, hassign⟩ := bind_eq_ok hs
      cases Expr.eval_state he.isCall heval
      exact allocated_write hafter hknown heval hassign
  | @guard _ _ path type rest hpath _ hafter _ ih =>
    rw [exec_test rfl]
    refine bind_ne_error (bind_ne_error (State.get_rooted_ne hknown hpath) fun _ _ => nofun)
      fun holds htest => ?_
    obtain ⟨v, hread, hholds⟩ := bind_eq_ok htest
    cases hv : v.isSet with
    | true =>
      -- The record is there, so all stays as it is.
      rw [hv] at hholds
      cases hholds
      refine ih fun k hk => State.Allocated.afterBlock ?_ σ
      rcases hafter k hk with ⟨hk, -⟩ | rfl
      · exact hknown k hk
      · exact ⟨v, hread, hv⟩
    | false =>
      rw [hv] at hholds
      cases hholds
      have hmissing : ¬σ.Allocated path := by
        rintro ⟨u, hu, hset⟩
        rw [show σ.out.get .output (path.map σ.access) = .ok v from hread] at hu
        cases hu
        rw [hv] at hset
        cases hset
      refine bind_ne_error (bind_ne_error (State.assign_rooted_ne hknown hpath) fun _ _ => nofun)
        fun σ' hblock => ih fun k hk => ?_
      obtain ⟨τ, hexec, hσ'⟩ := bind_eq_ok hblock
      cases hσ'
      have hassign : σ.assign ⟨.output, path⟩ .fresh = .ok σ' := hexec
      refine State.Allocated.afterBlock ?_ σ
      rcases hafter k hk with ⟨hk, hlt | hbeneath⟩ | rfl
      · exact (hknown k hk).assign hlt hassign
      · exact absurd ((hknown k hk).above hbeneath) hmissing
      · obtain ⟨o, hput, hτ⟩ := bind_eq_ok hassign
        cases hτ
        exact ⟨.fresh, GoValue.get_put hput, rfl⟩
  | test htest hhead _ hafter _ ihbody ihrest =>
    rw [exec_test htest]
    refine bind_ne_error (Head.test_ne hhead) fun holds _ => bind_ne_error ?_ fun σ' hblock => ?_
    · cases holds with
      | true => exact ihbody hknown
      | false => exact nofun
    · refine ihrest fun k hk => State.Allocated.afterBlock ?_ σ
      obtain ⟨hk, hkeeps⟩ := hafter k hk
      cases holds with
      | true => exact Code.Keeps.exec hkeeps (hknown k hk) hblock
      | false =>
        cases hblock
        exact hknown k hk
  | @loop _ inner _ _ source _ _ hsource hhead _ hinner hafter _ ihbody ihrest =>
    rw [exec_loop hsource]
    have hlocal := hhead.source hsource
    have hstart : ∀ k, inner k → ({ σ with loops := σ.loops + 1 } : State).Allocated k :=
      fun k hk => hknown k (hinner k hk).1
    have hkeeps := fun k hk => (hinner k hk).2
    refine bind_ne_error (State.read_local_ne hlocal) fun v _ => bind_ne_error ?_ fun entries _ =>
      bind_ne_error (foldlM_ne hkeeps ihbody hstart) fun σ' hrounds => ihrest fun k hk => ?_
    · cases v <;> exact nofun
    · have hk := hafter k hk
      exact allocated_foldlM (hkeeps k hk).1 (Code.Keeps.exec (hkeeps k hk).2) (hstart k hk) hrounds
  | fork htest hhead _ _ hafter _ ihyes ihno ihrest =>
    rw [exec_fork]
    refine bind_ne_error (Head.test_ne hhead) fun holds _ => bind_ne_error ?_ fun σ' hblock => ?_
    · cases holds with
      | true => exact ihyes hknown
      | false => exact ihno hknown
    · refine ihrest fun k hk => State.Allocated.afterBlock ?_ σ
      obtain ⟨hk, hyes, hno⟩ := hafter k hk
      cases holds with
      | true => exact Code.Keeps.exec hyes (hknown k hk) hblock
      | false => exact Code.Keeps.exec hno (hknown k hk) hblock

end Reaching

end RecordBridge

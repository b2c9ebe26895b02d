import RecordBridge.Proofs.Execution.Run
import RecordBridge.Proofs.Naming

/-!
# What a run leaves alone

A piece of a conversion fills one place of its target. It keeps all else: the rest of the target, the
whole target around local functions, and every variable whose number was given before. Places that
are spelled with such variables are the same before and after it.
-/

namespace RecordBridge

/-- The number in the name of a variable; 0 for the variables of every conversion. -/
def Var.number : Var → Nat
  | .index n | .key n | .value n | .sourceList n | .overridden n | .helper _ n => n
  | _ => 0

/-- Whether a variable is kept among the locals: all but the two names of the target are. -/
def Var.isLocal : Var → Bool
  | .output | .wholeOutput => false
  | _ => true

/-- The number of the variable in a step. -/
def Step.number : Step → Nat
  | .field _ => 0
  | .index v | .keyAs _ v => v.number

/-- The variables in a path have numbers up to `n`. -/
def Path.Known (n : Nat) (path : Path) : Prop :=
  ∀ s ∈ path, s.number ≤ n

/-- A place to read from, with variables whose numbers are up to `n`. -/
structure Place.IsSource (n : Nat) (p : Place) : Prop where
  isLocal : p.root.isLocal = true
  root : p.root.number ≤ n
  path : p.path.Known n

namespace Path.Known

variable {n m : Nat} {path more : Path}

theorem nil : Path.Known n [] :=
  nofun

/-- What is known under a number is known under a larger one. -/
theorem mono (h : path.Known n) (hle : n ≤ m) : path.Known m :=
  fun s hs => Nat.le_trans (h s hs) hle

/-- A path with more steps, all of them known. -/
theorem append (h : path.Known n) (hmore : more.Known n) : Path.Known n (path ++ more) := by
  intro s hs
  rcases List.mem_append.mp hs with hs | hs
  · exact h s hs
  · exact hmore s hs

/-- A step is known by the variable that it uses. -/
theorem singleton {s : Step} (h : s.number ≤ n) : Path.Known n [s] := by
  intro s' hs
  rw [List.mem_singleton.mp hs]
  exact h

/-- Fields hold no variables. -/
theorem fields (names : List String) : Path.Known n (names.map .field) := by
  intro s hs
  obtain ⟨name, -, rfl⟩ := List.mem_map.mp hs
  exact Nat.zero_le n

end Path.Known

namespace Place.IsSource

variable {n m : Nat} {p : Place}

theorem mono (h : p.IsSource n) (hle : n ≤ m) : p.IsSource m :=
  ⟨h.isLocal, Nat.le_trans h.root hle, h.path.mono hle⟩

/-- A local variable is a source as soon as its number has been given out. -/
theorem ofVar {v : Var} (hlocal : v.isLocal = true) (hle : v.number ≤ n) :
    (Place.ofVar v).IsSource n :=
  ⟨hlocal, hle, .nil⟩

/-- A field of a source is a source. -/
theorem select {name : String} (h : p.IsSource n) (hname : IsIdentifier name) :
    (p.select name).IsSource n := by
  refine ⟨h.isLocal, h.root, ?_⟩
  show Path.Known n (p.path.select name)
  rw [hname.select]
  exact h.path.append (.singleton (Nat.zero_le _))

theorem element {v : Var} (h : p.IsSource n) (hle : v.number ≤ n) : (p.element v).IsSource n :=
  ⟨h.isLocal, h.root, h.path.append (.singleton hle)⟩

end Place.IsSource

/-- A run kept every variable with a number up to `n`. -/
def State.Agree (n : Nat) (σ τ : State) : Prop :=
  ∀ v, v.number ≤ n → τ.locals v = σ.locals v

/-- A run kept the whole target and every variable with a number up to `n`. -/
structure Frame (n : Nat) (σ τ : State) : Prop where
  whole : τ.whole = σ.whole
  locals : σ.Agree n τ

/-- A local variable is read from the variables of the state. -/
theorem State.value_of_isLocal {σ : State} {v : Var} (h : v.isLocal = true) :
    σ.value v = σ.locals v := by
  cases v with
  | output | wholeOutput => cases h
  | _ => rfl

/-- And it is written there. -/
theorem State.set_of_isLocal {σ : State} {v : Var} (h : v.isLocal = true) (x : GoValue) :
    σ.set v x = { σ with locals := Function.update σ.locals v x } := by
  cases v with
  | output | wholeOutput => cases h
  | _ => rfl

theorem State.locals_set_self {σ : State} {v : Var} (h : v.isLocal = true) (x : GoValue) :
    (σ.set v x).locals v = x := by
  rw [set_of_isLocal h]
  exact Function.update_self _ _ _

/-- A write to one variable leaves the others. -/
theorem State.locals_set_of_ne {σ : State} {v w : Var} (hne : w ≠ v) (x : GoValue) :
    (σ.set v x).locals w = σ.locals w := by
  cases v with
  | output => rfl
  | wholeOutput =>
    rw [set]
    split <;> rfl
  | _ => exact Function.update_of_ne hne _ _

/-- Only definitions bring local functions into scope. -/
theorem State.functions_set (σ : State) (v : Var) (x : GoValue) :
    (σ.set v x).functions = σ.functions := by
  cases v with
  | wholeOutput =>
    rw [set]
    split <;> rfl
  | _ => rfl

theorem Head.functions_bind (head : Head) (σ : State) (e : Datum × GoValue) :
    (head.bind σ e).functions = σ.functions := by
  cases head <;> simp [bind, State.functions_set]

/-- A variable with a greater number is set. -/
theorem State.agree_set {n : Nat} {σ : State} {v : Var} (h : n < v.number) (x : GoValue) :
    σ.Agree n (σ.set v x) := by
  intro w hw
  refine locals_set_of_ne ?_ x
  rintro rfl
  exact absurd h (Nat.not_lt.mpr hw)

section Frames

variable {n m : Nat} {σ τ υ : State} {path : Path} {p : Place}

namespace State.Agree

theorem refl : σ.Agree n σ :=
  fun _ _ => rfl

/-- Agreement goes from state to state, for the variables of the first step. -/
theorem trans (h : σ.Agree n τ) (h' : τ.Agree m υ) (hle : n ≤ m) : σ.Agree n υ :=
  fun v hv => (h' v (Nat.le_trans hv hle)).trans (h v hv)

/-- Agreement on more variables is agreement on fewer. -/
theorem mono (h : σ.Agree m τ) (hle : n ≤ m) : σ.Agree n τ :=
  fun v hv => h v (Nat.le_trans hv hle)

/-- Steps that use known variables select the same in both states. -/
theorem access (h : σ.Agree n τ) (hpath : path.Known n) :
    path.map τ.access = path.map σ.access := by
  refine List.map_congr_left fun s hs => ?_
  have hs := hpath s hs
  cases s with
  | field name => rfl
  | index v => exact congrArg (Access.element ·.datum) (h v hs)
  | keyAs type v => exact congrArg (Access.element ·.datum) (h v hs)

/-- So a source is read with the same result. -/
theorem read (h : σ.Agree n τ) (hp : p.IsSource n) : τ.read p = σ.read p := by
  have hvalue := h p.root hp.root
  rw [← State.value_of_isLocal hp.isLocal, ← State.value_of_isLocal hp.isLocal] at hvalue
  rw [State.read, State.read, hvalue, h.access hp.path]

end State.Agree

namespace Frame

theorem refl : Frame n σ σ :=
  ⟨rfl, fun _ _ => rfl⟩

/-- A frame over two parts of a run, each with its own number. -/
theorem trans (h : Frame n σ τ) (h' : Frame m τ υ) (hle : n ≤ m) : Frame n σ υ :=
  ⟨h'.whole.trans h.whole, h.locals.trans h'.locals hle⟩

/-- Within a frame, known steps select the same. -/
theorem access (h : Frame n σ τ) (hpath : path.Known n) :
    path.map τ.access = path.map σ.access :=
  h.locals.access hpath

/-- Within a frame a source is read with the same result. -/
theorem read (h : Frame n σ τ) (hp : p.IsSource n) : τ.read p = σ.read p :=
  h.locals.read hp

end Frame

/-! ## Writing to one place -/

/-- A run put a value at a path below `out` and kept all else. -/
structure Writes (n : Nat) (σ : State) (path : Path) (x : GoValue) (τ : State) : Prop where
  frame : Frame n σ τ
  out : σ.out.put .output (path.map σ.access) x = .ok τ.out

namespace Writes

variable {x y u : GoValue} {more : Path}

/-- A value that is already there. -/
theorem self (h : σ.out.get .output (path.map σ.access) = .ok u) (hset : u.isSet = true) :
    Writes n σ path u σ :=
  ⟨.refl, GoValue.put_self h hset⟩

/-- Two writes to one path are one write, of the last value. -/
theorem trans (h : Writes n σ path x τ) (h' : Writes m τ path y υ) (hpath : path.Known n)
    (hle : n ≤ m) : Writes n σ path y υ := by
  refine ⟨h.frame.trans h'.frame hle, ?_⟩
  have hput := h'.out
  rw [h.frame.access hpath, GoValue.put_put h.out] at hput
  exact hput

/-- A value below a path changes the value at the path. -/
theorem below (h : Writes n σ (path ++ more) x τ)
    (hget : σ.out.get .output (path.map σ.access) = .ok u)
    (hput : u.put .output (more.map σ.access) x = .ok y) : Writes n σ path y τ := by
  refine ⟨h.frame, ?_⟩
  have hout := h.out
  rw [List.map_append, GoValue.put_append hget hput] at hout
  exact hout

/-- What was written is found in the place. -/
theorem get (h : Writes n σ path x τ) (hpath : path.Known n) :
    τ.out.get .output (path.map τ.access) = .ok x := by
  rw [h.frame.access hpath]
  exact GoValue.get_put h.out

/-- The functions in scope and the number of loops do not matter. -/
theorem congr {τ' : State} (h : Writes n σ path x τ) (hout : τ'.out = τ.out)
    (hwhole : τ'.whole = τ.whole) (hlocals : τ'.locals = τ.locals) : Writes n σ path x τ' :=
  ⟨⟨hwhole.trans h.frame.whole, fun v hv => by rw [hlocals]; exact h.frame.locals v hv⟩,
    by rw [hout]; exact h.out⟩

theorem afterBlock (h : Writes n σ path x τ) : Writes n σ path x (υ.afterBlock τ) :=
  h.congr rfl rfl rfl

end Writes

/-- An assignment below `out`. -/
theorem assign_output {x o : GoValue} (h : σ.out.put .output (path.map σ.access) x = .ok o) :
    σ.assign ⟨.output, path⟩ x = .ok { σ with out := o } := by
  show (σ.out.put .output (path.map σ.access) x >>= _) = _
  rw [h]
  rfl

/-- An assignment to a place below `out` where something can be read. -/
theorem exists_assign_output {x u : GoValue}
    (h : σ.out.get .output (path.map σ.access) = .ok u) :
    ∃ o, σ.assign ⟨.output, path⟩ x = .ok { σ with out := o } ∧
      Writes n σ path x { σ with out := o } := by
  obtain ⟨o, hput⟩ := GoValue.put_of_get h x
  exact ⟨o, assign_output hput, ⟨rfl, fun _ _ => rfl⟩, hput⟩

/-- An assignment of a value that is computed without a call. -/
theorem exists_exec_assign {x u : GoValue} {e : Expr}
    (heval : ∀ call, e.eval call σ = .ok (x, σ))
    (h : σ.out.get .output (path.map σ.access) = .ok u) :
    ∃ o, (∀ call, (Statement.assign ⟨.output, path⟩ e).exec call σ = .ok { σ with out := o }) ∧
      Writes n σ path x { σ with out := o } := by
  obtain ⟨o, hassign, hwrites⟩ := exists_assign_output h
  refine ⟨o, fun call => ?_, hwrites⟩
  show (e.eval call σ >>= fun r => r.2.assign ⟨.output, path⟩ r.1) = _
  rw [heval]
  exact hassign

/-- An absent field of a record that is left as it is. -/
theorem Writes.untouched {fields : String → GoValue} {name : String}
    (h : σ.out.get .output (path.map σ.access) = .ok (.record fields))
    (habsent : fields name = .absent) : Writes n σ (path ++ [.field name]) .absent σ := by
  refine ⟨.refl, ?_⟩
  have hput : (GoValue.record fields).put .output [.field name] .absent =
      .ok (.record fields) := by
    show Except.ok (GoValue.record (Function.update fields name .absent)) = _
    rw [← habsent, Function.update_eq_self]
  rw [List.map_append]
  exact (GoValue.put_append h hput).trans (GoValue.put_self h rfl)

/-! ## Tests -/

/-- Places that are all set are tested, and then the others are. -/
theorem State.allSet_append {ps qs : List Place} (h : σ.allSet ps = .ok true) :
    σ.allSet (ps ++ qs) = σ.allSet qs := by
  induction ps with
  | nil => rfl
  | cons p rest ih =>
    rw [State.allSet] at h
    rw [List.cons_append, State.allSet]
    cases hread : σ.read p with
    | error fault => rw [hread] at h; cases h
    | ok v =>
      rw [hread] at h
      show (if v.isSet then _ else _) = _
      change (if v.isSet then _ else _) = _ at h
      split at h
      · rename_i hset
        rw [if_pos hset]
        exact ih h
      · cases h

/-- The places on the way to a place that can be read are set. -/
theorem State.allSet_of_read {p : Place} {v : GoValue} (h : σ.read p = .ok v) {ps : List Place}
    (hps : ∀ q ∈ ps, q.root = p.root ∧ ∃ s rest, p.path = q.path ++ s :: rest) :
    σ.allSet ps = .ok true := by
  induction ps with
  | nil => rfl
  | cons q ps ih =>
    obtain ⟨hroot, s, rest, hpath⟩ := hps q List.mem_cons_self
    rw [State.read, hpath, List.map_append, List.map_cons] at h
    obtain ⟨u, hu, hrest⟩ := GoValue.get_prefix h
    have hread : σ.read q = .ok u := by
      rw [State.read, hroot]
      exact hu
    rw [State.allSet, hread]
    show (if u.isSet then _ else _) = _
    rw [if_pos (GoValue.isSet_of_get_cons hrest)]
    exact ih (fun q hq => hps q (List.mem_cons_of_mem _ hq))

/-- The fields on the way to a field, and then the field itself. -/
theorem Path.selections_select {name : String} (hname : (Step.field name).takesElement = false)
    (before path : Path) :
    ∃ l, Path.selections before (path ++ [.field name]) =
        l ++ [before ++ path ++ [.field name]] ∧
      ∀ q ∈ l, ∃ s rest, before ++ path ++ [.field name] = q ++ s :: rest := by
  induction path generalizing before with
  | nil =>
    refine ⟨[], ?_, nofun⟩
    simp [selections, hname, startsIndexed]
  | cons s path ih =>
    obtain ⟨l, hl, hprefix⟩ := ih (before ++ [s])
    have hassoc : before ++ s :: path ++ [.field name] =
        before ++ [s] ++ path ++ [.field name] := by simp
    rw [List.cons_append, selections, hl, hassoc]
    -- The first step is a selection of its own, unless an element is taken there.
    split
    · refine ⟨(before ++ [s]) :: l, rfl, fun q hq => ?_⟩
      rcases List.mem_cons.mp hq with rfl | hq
      · obtain ⟨s', rest, hrest⟩ :=
          List.exists_cons_of_ne_nil (l := path ++ [Step.field name]) (by simp)
        exact ⟨s', rest, by rw [List.append_assoc, hrest]⟩
      · exact hprefix q hq
    · exact ⟨l, rfl, hprefix⟩

end Frames

end RecordBridge

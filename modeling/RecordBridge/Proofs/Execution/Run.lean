import RecordBridge.Conversion.Statement
import RecordBridge.Proofs.Execution.Value

/-!
# Runs of a conversion

What the statements of a conversion do, read as Go. A run goes from state to state or stops at a
fault. Calls of local functions are bounded in depth, and `Runs` says what a run comes to where the
bound does not matter. Maps are walked through in any order: an `Order` tells the one that is taken,
which may be another one at each loop.

Local functions see the variables that were in scope where they are defined. They have an `in` and
an `out` of their own, and reach the whole target by its second name.
-/

namespace RecordBridge

/-- The order in which a loop walks through the keys of a table, by the number of loops before. -/
abbrev Order := Nat → List Datum → List Datum

/-- A local function in scope, with the variables that it sees. -/
structure LocalFunction where
  name : Var
  body : Code
  locals : Var → GoValue

/-- The state of a run. -/
structure State where
  /-- The target record of the innermost local function. -/
  out : GoValue
  /-- The whole target, within local functions. -/
  whole : Option GoValue := none
  locals : Var → GoValue
  /-- The local functions in scope, the innermost first. -/
  functions : List LocalFunction := []
  /-- The number of loops so far. -/
  loops : Nat := 0

namespace State

/-- The value of a variable. -/
def value (σ : State) : Var → GoValue
  | .output => σ.out
  | .wholeOutput => σ.whole.getD σ.out
  | v => σ.locals v

/-- The state with another value of a variable. -/
def set (σ : State) (v : Var) (x : GoValue) : State :=
  match v with
  | .output => { σ with out := x }
  | .wholeOutput =>
    if σ.whole.isSome then { σ with whole := some x } else { σ with out := x }
  | v => { σ with locals := Function.update σ.locals v x }

/-- What a step selects or takes. -/
def access (σ : State) : Step → Access
  | .field name => .field name
  | .index v | .keyAs _ v => .element (σ.locals v).datum

/-- The value at a place. -/
def read (σ : State) (p : Place) : Except Fault GoValue :=
  (σ.value p.root).get p.root (p.path.map σ.access)

/-- The state with another value at a place. -/
def assign (σ : State) (p : Place) (x : GoValue) : Except Fault State := do
  let changed ← (σ.value p.root).put p.root (p.path.map σ.access) x
  .ok (σ.set p.root changed)

/-- Whether all places are set; each is tested after those before it. -/
def allSet (σ : State) : List Place → Except Fault Bool
  | [] => .ok true
  | p :: rest => do
    let v ← σ.read p
    if v.isSet then σ.allSet rest else .ok false

/-- The state in which a call of the first one of some local functions starts. -/
def enter (σ : State) (f : LocalFunction) (visible : List LocalFunction) (argument : GoValue) :
    State where
  out := .absent
  whole := some (σ.whole.getD σ.out)
  locals := Function.update f.locals .input argument
  functions := visible
  loops := σ.loops

/-- The state after a call that has ended in the state `τ`. -/
def leave (σ τ : State) : State :=
  let whole := τ.whole.getD σ.out
  if σ.whole.isSome then { σ with whole := some whole, loops := τ.loops }
  else { σ with out := whole, loops := τ.loops }

/-- The state after a block that has ended in the state `τ`: its local functions are out of
scope. -/
def afterBlock (σ τ : State) : State :=
  { τ with functions := σ.functions }

end State

/-- The value of a cast applied to the value at a place below a variable. -/
def Cast.apply (root : Var) : Cast → GoValue → Except Fault GoValue
  | .plain _, v | .bytes _, v | .pointer _, v => .ok v
  | .address _, .plain d => .ok (.pointer d)
  | .load, .pointer d => .ok (.plain d)
  | .load, .absent => .error (.nilBelow root)
  | _, _ => .error .illTyped

/-- The number of elements of a container. -/
def GoValue.size : GoValue → Except Fault Nat
  | .absent => .ok 0
  | .list length _ => .ok length
  | .table keys _ => .ok keys.length
  | _ => .error .illTyped

/-- A new container for a number of elements. -/
def GoType.made : GoType → Nat → GoValue
  | .slice _, n => .list n fun _ => .absent
  | _, _ => .table [] fun _ => .absent

/-- A slice with one more element. -/
def GoValue.push : GoValue → GoValue → Except Fault GoValue
  | .absent, x => .ok (.list 1 fun _ => x)
  | .list length item, x => .ok (.list (length + 1) (Function.update item length x))
  | _, _ => .error .illTyped

/-- The elements of a container with their indices or keys, as a loop walks through them. -/
def GoValue.entries (order : Order) (loops : Nat) : GoValue → Except Fault (List (Datum × GoValue))
  | .absent => .ok []
  | .list length item => .ok ((List.range length).map fun i => (.index i, item i))
  | .table keys entry => .ok ((order loops keys).map fun k => (k, entry k))
  | _ => .error .illTyped

/-- The value of an expression, and the state after it. `call` runs the body of a function. -/
def Expr.eval (call : Code → State → Except Fault State) (σ : State) :
    Expr → Except Fault (GoValue × State)
  | .absent => .ok (.absent, σ)
  | .flag on => .ok (.plain (.flag on), σ)
  | .present => .ok (.plain .mark, σ)
  | .read source => do .ok (← σ.read source, σ)
  | .newRecord _ => .ok (.fresh, σ)
  | .convert cast source => do
    let v ← σ.read source
    .ok (← cast.apply source.root v, σ)
  | .call helper source => do
    let argument ← σ.read source
    match σ.functions.dropWhile (·.name ≠ helper) with
    | [] => .error (.undefined helper)
    | f :: visible =>
      let τ ← call f.body (σ.enter f (f :: visible) argument)
      .ok (τ.out, σ.leave τ)
  | .make type source => do
    let v ← σ.read source
    .ok (type.made (← v.size), σ)
  | .makeRoom _ source => do
    let v ← σ.read source
    let _ ← v.size
    .ok (.list 0 fun _ => .absent, σ)
  | .append target _ v => do
    let list ← σ.read target
    .ok (← list.push (σ.locals v), σ)

/-- What a simple statement does. A second name for the target needs no value of its own, and a
local function is nil only between its declaration and its definition, which follows at once. A
`return` ends the body of a local function, where nothing follows. -/
def Statement.exec (call : Code → State → Except Fault State) (σ : State) :
    Statement → Except Fault State
  | .keep _ .output => .ok σ
  | .keep name known => .ok (σ.set name (σ.value known))
  | .assign target e => do
    let (x, τ) ← e.eval call σ
    τ.assign target x
  | .define v e => do
    let (x, τ) ← e.eval call σ
    .ok (τ.set v x)
  | .declare _ => .ok σ
  | .giveBack => .ok σ

/-- An assignment runs its expression and puts the value in its place. -/
theorem Statement.exec_assign {call : Code → State → Except Fault State} {σ : State}
    {target : Place} {e : Expr} :
    (Statement.assign target e).exec call σ = (do
      let (x, τ) ← e.eval call σ
      τ.assign target x) :=
  rfl

/-- A call runs the body of the function in scope. -/
theorem Expr.eval_call {call : Code → State → Except Fault State} {σ : State} {helper : Var}
    {source : Place} :
    (Expr.call helper source).eval call σ = (do
      let argument ← σ.read source
      match σ.functions.dropWhile (·.name ≠ helper) with
      | [] => .error (.undefined helper)
      | f :: visible =>
        let τ ← call f.body (σ.enter f (f :: visible) argument)
        .ok (τ.out, σ.leave τ)) :=
  rfl

namespace Head

/-- The container that a loop runs over. -/
def source? : Head → Option Place
  | .each _ _ source | .eachKey _ source | .eachValue _ source => some source
  | _ => none

/-- Whether a head is a test. -/
def isTest : Head → Bool
  | .ifSet _ | .ifUnset _ | .ifFlag _ => true
  | _ => false

/-- The state in which the body of a loop starts with an element. -/
def bind (σ : State) (e : Datum × GoValue) : Head → State
  | .each position value _ => (σ.set position (.plain e.1)).set value e.2
  | .eachKey v _ => σ.set v (.plain e.1)
  | .eachValue v _ => σ.set v e.2
  | _ => σ

/-- Whether the block of a head that is no loop runs. -/
def test (σ : State) : Head → Except Fault Bool
  | .ifSet places => σ.allSet places
  | .ifUnset place => do .ok (!(← σ.read place).isSet)
  | .ifFlag v => .ok ((σ.locals v).datum = .flag true)
  | _ => .error .illTyped

end Head

/-- Runs a block. `call` runs the body of a local function. -/
def exec (order : Order) (call : Code → State → Except Fault State) :
    Code → State → Except Fault State
  | .done, σ => .ok σ
  | .step s rest, σ => do
    let τ ← s.exec call σ
    exec order call rest τ
  | .nest (.helperBody h) body rest, σ =>
    exec order call rest { σ with functions := ⟨h.name, body, σ.locals⟩ :: σ.functions }
  | .nest head body rest, σ =>
    match head.source? with
    | some source => do
      let v ← σ.read source
      let entries ← v.entries order σ.loops
      let τ ← entries.foldlM (fun σ e => do
        let τ ← exec order call body (head.bind σ e)
        .ok (σ.afterBlock τ)) { σ with loops := σ.loops + 1 }
      exec order call rest τ
    | none => do
      let holds ← head.test σ
      let τ ← (if holds then exec order call body σ else .ok σ)
      exec order call rest (σ.afterBlock τ)
  | .fork head yes no rest, σ => do
    let holds ← head.test σ
    let τ ← (if holds then exec order call yes σ else exec order call no σ)
    exec order call rest (σ.afterBlock τ)

/-- Runs a block, with calls of local functions up to a depth. -/
def run (order : Order) : (depth : Nat) → Code → State → Except Fault State
  | 0 => exec order fun _ _ => .error .exhausted
  | depth + 1 => exec order (run order depth)

/-! ## Runs without a bound -/

/-- A block runs from one state to another, however deep the calls may be beyond some bound. -/
def Runs (order : Order) (b : Code) (σ τ : State) : Prop :=
  ∃ n, ∀ m, n ≤ m → run order m b σ = .ok τ

/-- The body of a loop runs once for each of some elements. -/
inductive RunsEach (order : Order) (head : Head) (body : Code) :
    List (Datum × GoValue) → State → State → Prop where
  | nil {σ : State} : RunsEach order head body [] σ σ
  | cons {σ τ υ : State} {e : Datum × GoValue} {rest : List (Datum × GoValue)}
    (hfirst : Runs order body (head.bind σ e) τ)
    (hrest : RunsEach order head body rest (σ.afterBlock τ) υ) :
    RunsEach order head body (e :: rest) σ υ

section Rules

variable {order : Order} {σ τ υ : State} {b b₁ b₂ body yes no rest : Code}

@[simp] theorem exec_done {call : Code → State → Except Fault State} :
    exec order call .done σ = .ok σ :=
  rfl

@[simp] theorem exec_step {call : Code → State → Except Fault State} {s : Statement} :
    exec order call (.step s rest) σ = (do
      let τ ← s.exec call σ
      exec order call rest τ) :=
  rfl

/-- The definition of a local function. -/
theorem exec_define {call : Code → State → Except Fault State} {helper : HelperSignature} :
    exec order call (.nest (.helperBody helper) body rest) σ =
      exec order call rest
        { σ with functions := ⟨helper.name, body, σ.locals⟩ :: σ.functions } :=
  rfl

theorem exec_fork {call : Code → State → Except Fault State} {head : Head} :
    exec order call (.fork head yes no rest) σ = (do
      let holds ← head.test σ
      let τ ← (if holds then exec order call yes σ else exec order call no σ)
      exec order call rest (σ.afterBlock τ)) :=
  rfl

/-- A block under a test. -/
theorem exec_test {call : Code → State → Except Fault State} {head : Head}
    (hhead : head.isTest = true) :
    exec order call (.nest head body rest) σ = (do
      let holds ← head.test σ
      let τ ← (if holds then exec order call body σ else .ok σ)
      exec order call rest (σ.afterBlock τ)) := by
  cases head with
  | ifSet _ | ifUnset _ | ifFlag _ => rfl
  | helperBody _ | each _ _ _ | eachKey _ _ | eachValue _ _ => cases hhead

/-- A loop over the elements of a container. -/
theorem exec_loop {call : Code → State → Except Fault State} {head : Head} {source : Place}
    (hhead : head.source? = some source) :
    exec order call (.nest head body rest) σ = (do
      let v ← σ.read source
      let entries ← v.entries order σ.loops
      let τ ← entries.foldlM (fun σ e => do
        let τ ← exec order call body (head.bind σ e)
        .ok (σ.afterBlock τ)) { σ with loops := σ.loops + 1 }
      exec order call rest τ) := by
  cases head with
  | ifSet _ | ifUnset _ | ifFlag _ | helperBody _ => cases hhead
  | each _ _ _ | eachKey _ _ | eachValue _ _ =>
    cases hhead
    rfl

theorem exec_append (call : Code → State → Except Fault State) (a b : Code) (σ : State) :
    exec order call (a ++ b) σ = (exec order call a σ >>= fun τ => exec order call b τ) := by
  induction a generalizing σ with
  | done => rfl
  | step s rest ih =>
    simp only [Block.step_append, exec_step, ih, bind_assoc]
  | nest head body rest _ ih =>
    rw [Block.nest_append]
    cases hsource : head.source? with
    | some source => simp only [exec_loop hsource, ih, bind_assoc]
    | none =>
      cases htest : head.isTest with
      | true => simp only [exec_test htest, ih, bind_assoc]
      | false =>
        cases head with
        | helperBody h => simp only [exec_define, ih]
        | ifSet _ | ifUnset _ | ifFlag _ => cases htest
        | each _ _ _ | eachKey _ _ | eachValue _ _ => cases hsource
  | fork head yes no rest _ _ ih =>
    simp only [Block.fork_append, exec_fork, ih, bind_assoc]

/-- A run of some depth is one step of the interpreter, over the runs of one level less. -/
theorem exists_run_eq_exec (order : Order) (m : Nat) :
    ∃ call, run order m = exec order call ∧ (∀ n, m = n + 1 → call = run order n) := by
  cases m with
  | zero => exact ⟨_, rfl, fun n h => nomatch h⟩
  | succ n =>
    refine ⟨_, rfl, fun n' h => ?_⟩
    cases h
    rfl

namespace Runs

theorem done : Runs order .done σ σ :=
  ⟨0, fun m _ => by
    obtain ⟨call, h, -⟩ := exists_run_eq_exec order m
    rw [h, exec_done]⟩

/-- Statements that do the same whatever their calls do. -/
theorem of_exec (h : ∀ call, exec order call b σ = .ok τ) : Runs order b σ τ :=
  ⟨0, fun m _ => by
    obtain ⟨call, hcall, -⟩ := exists_run_eq_exec order m
    rw [hcall, h]⟩

theorem append (h₁ : Runs order b₁ σ τ) (h₂ : Runs order b₂ τ υ) :
    Runs order (b₁ ++ b₂) σ υ := by
  obtain ⟨n₁, h₁⟩ := h₁
  obtain ⟨n₂, h₂⟩ := h₂
  refine ⟨max n₁ n₂, fun m hm => ?_⟩
  have h₁ := h₁ m (by omega)
  have h₂ := h₂ m (by omega)
  obtain ⟨call, h, -⟩ := exists_run_eq_exec order m
  rw [h] at h₁ h₂ ⊢
  rw [exec_append, h₁]
  exact h₂

/-- A statement that calls no local function. -/
theorem step {s : Statement} (hs : ∀ call, s.exec call σ = .ok τ) (hrest : Runs order rest τ υ) :
    Runs order (.step s rest) σ υ := by
  obtain ⟨n, hrest⟩ := hrest
  refine ⟨n, fun m hm => ?_⟩
  have hrest := hrest m hm
  obtain ⟨call, h, -⟩ := exists_run_eq_exec order m
  rw [h] at hrest ⊢
  rw [exec_step, hs]
  exact hrest

/-- An assignment of the result of a local function in scope. -/
theorem call {target source : Place} {helper : Var} {argument : GoValue} {f : LocalFunction}
    {visible : List LocalFunction} {ρ : State} (hread : σ.read source = .ok argument)
    (hscope : σ.functions.dropWhile (·.name ≠ helper) = f :: visible)
    (hbody : Runs order f.body (σ.enter f (f :: visible) argument) ρ)
    (hassign : (σ.leave ρ).assign target ρ.out = .ok τ) (hrest : Runs order rest τ υ) :
    Runs order (.step (.assign target (.call helper source)) rest) σ υ := by
  obtain ⟨n, hbody⟩ := hbody
  obtain ⟨n', hrest⟩ := hrest
  -- One level of calls more than the body takes, or as many as the rest takes.
  refine ⟨max (n + 1) n', fun m hm => ?_⟩
  obtain ⟨m, rfl⟩ : ∃ k, m = k + 1 := ⟨m - 1, by omega⟩
  have hbody := hbody m (by omega)
  have hrest := hrest (m + 1) (by omega)
  rw [run] at hrest ⊢
  rw [exec_step]
  have heval : (Expr.call helper source).eval (run order m) σ = .ok (ρ.out, σ.leave ρ) := by
    rw [Expr.eval_call, hread]
    show (match σ.functions.dropWhile (·.name ≠ helper) with | [] => _ | f :: visible => _) = _
    rw [hscope]
    exact congrArg (· >>= fun τ => Except.ok (τ.out, σ.leave τ)) hbody
  rw [Statement.exec_assign, heval]
  show ((σ.leave ρ).assign target ρ.out >>= _) = _
  rw [hassign]
  exact hrest

theorem define {helper : HelperSignature}
    (hrest : Runs order rest
      { σ with functions := ⟨helper.name, body, σ.locals⟩ :: σ.functions } τ) :
    Runs order (.nest (.helperBody helper) body rest) σ τ := by
  obtain ⟨n, hrest⟩ := hrest
  refine ⟨n, fun m hm => ?_⟩
  have hrest := hrest m hm
  obtain ⟨call, h, -⟩ := exists_run_eq_exec order m
  rw [h] at hrest ⊢
  rw [exec_define]
  exact hrest

/-- A block under a test runs if the test holds. -/
theorem nestTrue {head : Head} (hhead : head.isTest = true) (htest : head.test σ = .ok true)
    (hbody : Runs order body σ τ) (hrest : Runs order rest (σ.afterBlock τ) υ) :
    Runs order (.nest head body rest) σ υ := by
  obtain ⟨n, hbody⟩ := hbody
  obtain ⟨n', hrest⟩ := hrest
  refine ⟨max n n', fun m hm => ?_⟩
  have hbody := hbody m (by omega)
  have hrest := hrest m (by omega)
  obtain ⟨call, h, -⟩ := exists_run_eq_exec order m
  rw [h] at hbody hrest ⊢
  rw [exec_test hhead, htest]
  show (exec order call body σ >>= _) = _
  rw [hbody]
  exact hrest

theorem nestFalse {head : Head} (hhead : head.isTest = true) (htest : head.test σ = .ok false)
    (hrest : Runs order rest σ υ) : Runs order (.nest head body rest) σ υ := by
  obtain ⟨n, hrest⟩ := hrest
  refine ⟨n, fun m hm => ?_⟩
  have hrest := hrest m hm
  obtain ⟨call, h, -⟩ := exists_run_eq_exec order m
  rw [h] at hrest ⊢
  rw [exec_test hhead, htest]
  exact hrest

theorem forkTrue {head : Head} (htest : head.test σ = .ok true) (hyes : Runs order yes σ τ)
    (hrest : Runs order rest (σ.afterBlock τ) υ) : Runs order (.fork head yes no rest) σ υ := by
  obtain ⟨n, hyes⟩ := hyes
  obtain ⟨n', hrest⟩ := hrest
  refine ⟨max n n', fun m hm => ?_⟩
  have hyes := hyes m (by omega)
  have hrest := hrest m (by omega)
  obtain ⟨call, h, -⟩ := exists_run_eq_exec order m
  rw [h] at hyes hrest ⊢
  rw [exec_fork, htest]
  show (exec order call yes σ >>= _) = _
  rw [hyes]
  exact hrest

theorem forkFalse {head : Head} (htest : head.test σ = .ok false) (hno : Runs order no σ τ)
    (hrest : Runs order rest (σ.afterBlock τ) υ) : Runs order (.fork head yes no rest) σ υ := by
  obtain ⟨n, hno⟩ := hno
  obtain ⟨n', hrest⟩ := hrest
  refine ⟨max n n', fun m hm => ?_⟩
  have hno := hno m (by omega)
  have hrest := hrest m (by omega)
  obtain ⟨call, h, -⟩ := exists_run_eq_exec order m
  rw [h] at hno hrest ⊢
  rw [exec_fork, htest]
  show (exec order call no σ >>= _) = _
  rw [hno]
  exact hrest

/-- The bound of a loop is that of all its rounds. -/
theorem fold {head : Head} {entries : List (Datum × GoValue)}
    (h : RunsEach order head body entries σ τ) :
    ∃ n, ∀ m, n ≤ m → entries.foldlM (fun σ e => do
      let τ ← run order m body (head.bind σ e)
      .ok (σ.afterBlock τ)) σ = .ok τ := by
  induction h with
  | nil => exact ⟨0, fun m _ => rfl⟩
  | cons hfirst _ ih =>
    obtain ⟨n, hfirst⟩ := hfirst
    obtain ⟨n', ih⟩ := ih
    refine ⟨max n n', fun m hm => ?_⟩
    have hfirst := hfirst m (by omega)
    have ih := ih m (by omega)
    rw [List.foldlM_cons, hfirst]
    exact ih

theorem loop {head : Head} {source : Place} {v : GoValue} {entries : List (Datum × GoValue)}
    (hhead : head.source? = some source) (hread : σ.read source = .ok v)
    (hentries : v.entries order σ.loops = .ok entries)
    (heach : RunsEach order head body entries { σ with loops := σ.loops + 1 } τ)
    (hrest : Runs order rest τ υ) : Runs order (.nest head body rest) σ υ := by
  obtain ⟨n, heach⟩ := fold heach
  obtain ⟨n', hrest⟩ := hrest
  refine ⟨max n n', fun m hm => ?_⟩
  have heach := heach m (by omega)
  have hrest := hrest m (by omega)
  obtain ⟨call, h, -⟩ := exists_run_eq_exec order m
  rw [h] at heach hrest ⊢
  rw [exec_loop hhead, hread]
  show (v.entries order σ.loops >>= _) = _
  rw [hentries]
  exact (congrArg (· >>= exec order call rest) heach).trans hrest

end Runs

end Rules

end RecordBridge

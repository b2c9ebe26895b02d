import RecordBridge.Proofs.Execution.Reads

/-!
# Targets that only grow

A guard writes only where it finds nothing, so all that is set in a target stays set. The local functions
of a conversion touch the target around their own result only through guards: between a call and its
return that target has grown (`State.WholeGrows`). A piece of a conversion that fills a part of its
`out` keeps what lies above that part (`Kept`).
-/

namespace RecordBridge

/-! ## Values -/

namespace Access

/-- What a step leads to does not depend on the variable that it starts from. -/
theorem read_root {root other : Var} {a : Access} {u v : GoValue} (h : a.read root v = .ok u) :
    a.read other v = .ok u := by
  cases a with
  | field name =>
    cases v with
    | record fields => exact h
    | _ => cases h
  | element k =>
    cases v with
    | list length item => exact h
    | table keys entry => exact h
    | _ => cases h

end Access

namespace GoValue

variable {root other : Var} {path more : List Access} {u v w x : GoValue}

/-- All that is set in a value is set in the other one, too. -/
def Covers (w v : GoValue) : Prop :=
  ∀ root path u, v.get root path = .ok u → u.isSet = true →
    ∃ u', w.get root path = .ok u' ∧ u'.isSet = true

theorem Covers.refl : v.Covers v :=
  fun _ _ u hget hset => ⟨u, hget, hset⟩

theorem Covers.trans (h : w.Covers v) (h' : x.Covers w) : x.Covers v := by
  intro root path u hget hset
  obtain ⟨u', hget', hset'⟩ := h root path u hget hset
  exact h' root path u' hget' hset'

/-- A value that is put where there is nothing leaves all else set. -/
theorem covers_of_put (hget : v.get root path = .ok .absent) (hput : v.put root path x = .ok w) :
    w.Covers v := by
  intro other more u hmore hset
  induction path generalizing v w more with
  | nil =>
    cases hget
    cases more with
    | nil =>
      cases hmore
      cases hset
    | cons a more => exact absurd (isSet_of_get_cons hmore) Bool.false_ne_true
  | cons a path ih =>
    obtain ⟨inner, hread, hinner⟩ := get_cons_ok.mp hget
    obtain ⟨inner', changed, hread', hchanged, rfl⟩ := put_cons_ok.mp hput
    rw [hread] at hread'
    cases hread'
    cases more with
    | nil => exact ⟨_, rfl, Access.isSet_write (Access.isSet_of_read hread)⟩
    | cons b more =>
      obtain ⟨part, hpart, hrest⟩ := get_cons_ok.mp hmore
      by_cases hab : a = b
      · -- Both go through one part, which covers what it was by induction.
        subst hab
        rw [Access.read_root hread] at hpart
        cases hpart
        obtain ⟨u', hu', hset'⟩ := ih hinner hchanged _ hrest
        exact ⟨u', get_cons_ok.mpr ⟨changed, Access.read_write (Access.read_root hread), hu'⟩, hset'⟩
      · exact ⟨u, get_cons_ok.mpr
          ⟨part, Access.read_write_of_ne hab (Access.read_root hread) hpart, hrest⟩, hset⟩

end GoValue

/-! ## States -/

namespace State

variable {σ τ υ : State} {v : Var} {x : GoValue} {k path : Path}

/-- The target around a local function has grown, if there is one. -/
def WholeGrows (σ τ : State) : Prop :=
  ∀ w, σ.whole = some w → ∃ w', τ.whole = some w' ∧ w'.Covers w

/-- The targets have grown, and all else is as before. -/
structure Swells (σ τ : State) : Prop where
  out : τ.out.Covers σ.out
  whole : σ.WholeGrows τ
  locals : τ.locals = σ.locals
  functions : τ.functions = σ.functions

theorem WholeGrows.of_eq (h : τ.whole = σ.whole) : σ.WholeGrows τ :=
  fun w hw => ⟨w, h.trans hw, .refl⟩

theorem WholeGrows.trans (h : σ.WholeGrows τ) (h' : τ.WholeGrows υ) : σ.WholeGrows υ := by
  intro w hw
  obtain ⟨w', hw', hcovers⟩ := h w hw
  obtain ⟨w'', hw'', hcovers'⟩ := h' w' hw'
  exact ⟨w'', hw'', hcovers.trans hcovers'⟩

/-- The steps of a path depend on the variables only. -/
theorem access_eq (h : τ.locals = σ.locals) : τ.access = σ.access := by
  funext s
  cases s with
  | field name => rfl
  | index v | keyAs _ v => exact congrArg (Access.element ·.datum) (congrFun h v)

namespace Swells

theorem refl : σ.Swells σ :=
  ⟨.refl, .of_eq rfl, rfl, rfl⟩

/-- Functions go out of scope at the end of a block. -/
theorem afterBlock (h : σ.Swells τ) : σ.Swells (σ.afterBlock τ) :=
  ⟨h.out, h.whole, h.locals, rfl⟩

theorem trans (h : σ.Swells τ) (h' : τ.Swells υ) : σ.Swells υ :=
  ⟨h.out.trans h'.out, h.whole.trans h'.whole, h'.locals.trans h.locals,
    h'.functions.trans h.functions⟩

/-- All that is allocated stays so. -/
theorem allocated (h : σ.Swells τ) (hk : σ.Allocated k) : τ.Allocated k := by
  obtain ⟨u, hget, hset⟩ := hk
  rw [Allocated, access_eq h.locals]
  exact h.out .output _ u hget hset

end Swells

/-- The value of one of the targets after it is set. -/
theorem value_set_self (h : v.isLocal = false) (x : GoValue) : (σ.set v x).value v = x := by
  cases v with
  | output => rfl
  | wholeOutput =>
    cases hwhole : σ.whole with
    | none =>
      show (if σ.whole.isSome then _ else _ : State).value .wholeOutput = x
      simp [hwhole, value]
    | some w =>
      show (if σ.whole.isSome then _ else _ : State).value .wholeOutput = x
      simp [hwhole, value]
  | _ => cases h

theorem locals_set (h : v.isLocal = false) (x : GoValue) : (σ.set v x).locals = σ.locals := by
  cases v with
  | output => rfl
  | wholeOutput =>
    rw [set]
    split <;> rfl
  | _ => cases h

/-- One of the targets is set to a value that covers it. -/
theorem swells_set (h : v.isLocal = false) (hcovers : x.Covers (σ.value v)) :
    σ.Swells (σ.set v x) := by
  refine ⟨?_, ?_, locals_set h x, functions_set σ v x⟩
  · cases v with
    | output => exact hcovers
    | wholeOutput =>
      -- Outside of helpers the whole output is the output itself.
      cases hwhole : σ.whole with
      | none =>
        rw [value, hwhole] at hcovers
        show (if σ.whole.isSome then _ else _ : State).out.Covers _
        simpa [hwhole] using hcovers
      | some w =>
        show (if σ.whole.isSome then _ else _ : State).out.Covers _
        simpa [hwhole] using GoValue.Covers.refl
    | _ => cases h
  · cases v with
    | output => exact .of_eq rfl
    | wholeOutput =>
      intro w hwhole
      rw [value, hwhole] at hcovers
      refine ⟨x, ?_, hcovers⟩
      show (if σ.whole.isSome then _ else _ : State).whole = _
      simp [hwhole]
    | _ => cases h

/-- After a call that lets the target grow, so has the state. -/
theorem swells_leave {f : LocalFunction} {visible : List LocalFunction} {argument : GoValue}
    (h : (σ.enter f visible argument).WholeGrows τ) : σ.Swells (σ.leave τ) := by
  obtain ⟨w, hw, hcovers⟩ := h _ rfl
  rw [leave, hw]
  cases hwhole : σ.whole with
  | none =>
    rw [hwhole] at hcovers
    refine ⟨hcovers, fun w' hw' => ?_, rfl, rfl⟩
    rw [hwhole] at hw'
    cases hw'
  | some whole =>
    rw [hwhole] at hcovers
    refine ⟨.refl, fun w' hw' => ⟨w, rfl, ?_⟩, rfl, rfl⟩
    rw [hwhole] at hw'
    cases hw'
    exact hcovers

end State

/-! ## Guards -/

section Guards

variable {order : Order} {call : Code → State → Except Fault State} {σ : State} {place : Place}
  {type : GoType}

/-- A guard allocates what it finds absent, and nothing else changes. -/
theorem settles_guard (hroot : place.root.isLocal = false) (hread : σ.read place ≠ .error NilTarget) :
    Settles (· = NilTarget) (fun τ => σ.Swells τ ∧ τ.IsSet place)
      (exec order call (guard place type) σ) := by
  have hread' : Avoids (· = NilTarget) (σ.read place) := fun _ h => h ▸ hread
  refine Settles.test (Q := fun τ => σ.Swells τ ∧ τ.IsSet place) rfl (hread'.bind fun _ _ => .ok _)
    (fun hholds => ?_) (fun hholds => ?_) fun τ hτ => .ok ⟨hτ.1.afterBlock, hτ.2⟩
  · -- Nothing is there, and so a record is put there.
    obtain ⟨v, hv, hset⟩ := bind_eq_ok hholds
    have habsent : v = .absent := GoValue.eq_absent (by simpa using hset)
    subst habsent
    obtain ⟨w, hput⟩ := GoValue.put_of_get hv .fresh
    have hassign : (Statement.assign place (.newRecord type)).exec call σ =
        .ok (σ.set place.root w) := by
      show (((σ.value place.root).put place.root (place.path.map σ.access) .fresh) >>= _) = _
      rw [hput]
      rfl
    rw [exec_step, hassign]
    refine .ok ⟨State.swells_set hroot (GoValue.covers_of_put hv hput), .fresh, ?_, rfl⟩
    rw [State.read, State.value_set_self hroot, State.access_eq (State.locals_set hroot w)]
    exact GoValue.get_put hput
  · obtain ⟨v, hv, hset⟩ := bind_eq_ok hholds
    exact ⟨.refl, v, hv, by simpa using hset⟩

end Guards

/-! ## Pieces that fill a part of their target -/

/-- What a piece of a run keeps that fills a part of `out`: the variables with numbers up to `n`, what is
allocated at the paths in `F`, which lie above that part, and all that is set in the target around it. `P`
holds of the functions that it leaves in scope. -/
structure Kept (n : Nat) (F : Path → Prop) (P : List LocalFunction → Prop) (σ τ : State) : Prop where
  agree : σ.Agree n τ
  allocated : ∀ k, F k → σ.Allocated k → τ.Allocated k
  whole : σ.WholeGrows τ
  functions : P τ.functions

namespace Kept

variable {n m : Nat} {F G : Path → Prop} {P : List LocalFunction → Prop} {σ τ υ : State}

theorem refl (hP : P σ.functions) : Kept n F P σ σ :=
  ⟨.refl, fun _ _ => id, .of_eq rfl, hP⟩

theorem trans (h : Kept n F P σ τ) (h' : Kept m G P τ υ) (hle : n ≤ m) (hF : ∀ k, F k → G k) :
    Kept n F P σ υ :=
  ⟨h.agree.trans h'.agree hle, fun k hk hσ => h'.allocated k (hF k hk) (h.allocated k hk hσ),
    h.whole.trans h'.whole, h'.functions⟩

theorem mono (h : Kept m G P σ τ) (hle : n ≤ m) (hF : ∀ k, F k → G k) : Kept n F P σ τ :=
  ⟨h.agree.mono hle, fun k hk => h.allocated k (hF k hk), h.whole, h.functions⟩

/-- Functions go out of scope at the end of a block. -/
theorem afterBlock (h : Kept n F P σ τ) (hP : P σ.functions) : Kept n F P σ (σ.afterBlock τ) :=
  ⟨h.agree, h.allocated, h.whole, hP⟩

theorem of_swells (h : σ.Swells τ) (hP : P σ.functions) : Kept n F P σ τ :=
  ⟨fun v _ => congrFun h.locals v, fun _ _ => h.allocated, h.whole, h.functions.symm ▸ hP⟩

/-- A value is put below all that is kept. -/
theorem of_assign {path : Path} {x : GoValue} (hF : ∀ k, F k → k.length < path.length)
    (hassign : σ.assign ⟨.output, path⟩ x = .ok τ) (hP : P σ.functions) : Kept n F P σ τ := by
  obtain ⟨o, -, hτ⟩ := bind_eq_ok hassign
  refine ⟨?_, fun k hk hσ => hσ.assign (hF k hk) hassign, ?_, ?_⟩
  all_goals cases hτ
  · exact .refl
  · exact .of_eq rfl
  · exact hP

end Kept

end RecordBridge

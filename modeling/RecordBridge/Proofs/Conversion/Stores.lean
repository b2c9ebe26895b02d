import RecordBridge.Proofs.Conversion.Emission
import RecordBridge.Proofs.Deferred

/-!
# Where statements store

The statements that are written for a part of the target store at its path and beneath it. Before a store
they may allocate records that were deferred, each under a test that it is absent; these lie on the way of
the path (`Path.OnWay`), above it or beneath. Local functions that are defined among the statements are
left out (`Code.withoutFunctions`): they fill a result of their own.

`Code.FillsOnly` says this of a block, `Emits.fillsOnly` of all statements that are emitted. No name has to
be an identifier for it, so the way of a path is told by its spelling.
-/

namespace RecordBridge

/-! ## Statements that store -/

/-- The place in a target at which a statement stores. Other variables are local. -/
def Statement.stored? : Statement → Option Place
  | .assign place _ => if place.root.isLocal then none else some place
  | _ => none

namespace Code

/-- The statements without the local functions that are defined among them. -/
def withoutFunctions : Code → Code
  | .done => .done
  | .step (.declare _) rest => withoutFunctions rest
  | .step s rest => .step s (withoutFunctions rest)
  | .nest (.helperBody _) _ rest => withoutFunctions rest
  | .nest head body rest => .nest head (withoutFunctions body) (withoutFunctions rest)
  | .fork head yes no rest =>
    .fork head (withoutFunctions yes) (withoutFunctions no) (withoutFunctions rest)

/-- Definitions of functions are left out of each part. -/
theorem withoutFunctions_append (a b : Code) :
    (a ++ b).withoutFunctions = a.withoutFunctions ++ b.withoutFunctions := by
  induction a with
  | done => rfl
  | step s rest ih => cases s <;> simp [withoutFunctions, ih]
  | nest head body rest _ ih => cases head <;> simp [withoutFunctions, ih]
  | fork head yes no rest _ _ ih => simp [withoutFunctions, ih]

/-- Statements store in a target at places of a kind only. What is stored otherwise is a new record at a
place of another kind, under a test that it is absent. -/
def StoresIn (own allocates : Place → Prop) : Code → Prop
  | .done => True
  | .step s rest => (∀ place ∈ s.stored?, own place) ∧ StoresIn own allocates rest
  | .nest head body rest =>
    ((∃ place type, allocates place ∧ Block.nest head body .done = guard place type) ∨
      StoresIn own allocates body) ∧ StoresIn own allocates rest
  | .fork _ yes no rest =>
    StoresIn own allocates yes ∧ StoresIn own allocates no ∧ StoresIn own allocates rest

namespace StoresIn

variable {own own' allocates allocates' : Place → Prop} {a b : Code}

/-- Statements that store, after others that do. -/
theorem append (ha : StoresIn own allocates a) (hb : StoresIn own allocates b) :
    StoresIn own allocates (a ++ b) := by
  induction a with
  | done => exact hb
  | step s rest ih => exact ⟨ha.1, ih ha.2⟩
  | nest head body rest _ ih => exact ⟨ha.1, ih ha.2⟩
  | fork head yes no rest _ _ ih => exact ⟨ha.1, ha.2.1, ih ha.2.2⟩

/-- Code that stores in some places stores in more. -/
theorem mono (hown : ∀ place, own place → own' place)
    (hallocates : ∀ place, allocates place → allocates' place) (h : StoresIn own allocates b) :
    StoresIn own' allocates' b := by
  induction b with
  | done => trivial
  | step s rest ih => exact ⟨fun place hplace => hown place (h.1 place hplace), ih h.2⟩
  | nest head body rest ihBody ih =>
    refine ⟨h.1.imp ?_ ihBody, ih h.2⟩
    rintro ⟨place, type, hplace, heq⟩
    exact ⟨place, type, hallocates place hplace, heq⟩
  | fork head yes no rest ihYes ihNo ih => exact ⟨ihYes h.1, ihNo h.2.1, ih h.2.2⟩

end StoresIn

end Code

/-! ## The part of a target -/

/-- A place at a path of the target being filled, or beneath it. -/
def Path.Holds (path : Path) (place : Place) : Prop :=
  ∃ more, place = ⟨.output, path ++ more⟩

/-- A deferred record on the way of a path in the record at `scope`, as it is seen from there. -/
def Deferred.Allocates (d : Deferred) (scope path : Path) (place : Place) : Prop :=
  ∃ parent, parent.text ∈ d.keys ∧ parent.OnWay (scope ++ path) ∧ place = seenFrom scope parent

/-- Local functions aside, statements store at a path of the record at `scope` and beneath it only, but
for deferred records on its way, which they may allocate. -/
def Code.FillsOnly (d : Deferred) (scope path : Path) (b : Code) : Prop :=
  b.withoutFunctions.StoresIn path.Holds (d.Allocates scope path)

/-- Deferred records stay deferred, and are keyed by their spelling if they were. -/
structure Deferred.Grows (d d' : Deferred) : Prop where
  keys : d.keys ⊆ d'.keys
  spelled : Within (fun _ => True) d → Within (fun _ => True) d'

namespace Deferred.Grows

variable {d d' d'' : Deferred}

theorem refl (d : Deferred) : Grows d d :=
  ⟨List.Subset.refl _, id⟩

/-- Tables that grow by steps grow. -/
theorem trans (h : Grows d d') (h' : Grows d' d'') : Grows d d'' :=
  ⟨List.Subset.trans h.keys h'.keys, h'.spelled ∘ h.spelled⟩

/-- A record that is put off is added to the table, and no other leaves it. -/
theorem defer (d : Deferred) (path : Path) (type : GoType) : Grows d (d.defer path type) where
  keys key hkey := by
    obtain ⟨e, he, rfl⟩ := List.mem_map.mp hkey
    by_cases heq : e.1 = path.text
    · exact List.mem_map.mpr ⟨_, Table.mem_place_self _ _ _, heq.symm⟩
    · exact List.mem_map.mpr ⟨e, Table.mem_place he heq, rfl⟩
  spelled h := h.defer trivial

end Deferred.Grows

/-- What is emitted only adds to the deferred records. -/
theorem Emits.grows {c : Settings} {task : Task} {p q : Progress} {b : Code}
    (h : Emits c task p b q) : p.deferred.Grows q.deferred := by
  induction h with
  | moreFields _ _ ih₁ ih₂ | eitherElement _ _ _ _ _ _ _ ih₁ ih₂ => exact ih₁.trans ih₂
  | deferred _ _ _ _ _ _ ih => exact (Deferred.Grows.defer _ _ _).trans ih
  | noFields | leaf | unset | call | keys | leafElement => exact .refl _
  | recordField _ _ _ _ ih | containerField _ _ _ ih | allocated _ _ _ _ _ _ ih | inline _ _ _ ih
  | define _ _ _ _ _ ih | loop _ _ _ ih | recordElement _ _ _ _ ih | containerElement _ _ ih =>
    exact ih

/-! ## Pieces of code -/

namespace Code.FillsOnly

variable {d d' : Deferred} {scope path more : Path} {a b guards body : Code} {type : GoType}

theorem done : FillsOnly d scope path .done :=
  trivial

/-- Code after code. -/
theorem append (ha : FillsOnly d scope path a) (hb : FillsOnly d scope path b) :
    FillsOnly d scope path (a ++ b) := by
  rw [FillsOnly, withoutFunctions_append]
  exact StoresIn.append ha hb

/-- A part of a part, with fewer records deferred. -/
theorem of_append (hd : d.keys ⊆ d'.keys) (h : FillsOnly d scope (path ++ more) b) :
    FillsOnly d' scope path b := by
  refine StoresIn.mono ?_ ?_ h
  · rintro place ⟨rest, rfl⟩
    exact ⟨more ++ rest, by rw [List.append_assoc]⟩
  · rintro place ⟨parent, hparent, hway, rfl⟩
    rw [← List.append_assoc] at hway
    exact ⟨parent, hd hparent, hway.of_append, rfl⟩

/-- More records may wait than the code allocates. -/
theorem mono (hd : d.keys ⊆ d'.keys) (h : FillsOnly d scope path b) : FillsOnly d' scope path b := by
  rw [← List.append_nil path] at h
  exact h.of_append hd

/-- A store at the path or beneath it. -/
theorem assign {e : Expr} (hb : FillsOnly d scope path b) :
    FillsOnly d scope path (.step (.assign ⟨.output, path ++ more⟩ e) b) := by
  refine ⟨fun place hplace => ?_, hb⟩
  cases hplace
  exact ⟨more, rfl⟩

/-- A write to the path itself. -/
theorem assignSelf {e : Expr} (hb : FillsOnly d scope path b) :
    FillsOnly d scope path (.step (.assign ⟨.output, path⟩ e) b) := by
  have h : FillsOnly d scope path (.step (.assign ⟨.output, path ++ []⟩ e) b) := assign hb
  rwa [List.append_nil] at h

/-- Local variables are no part of a target. -/
theorem assignLocal {v : Var} (hv : v.isLocal = true) {e : Expr} (hb : FillsOnly d scope path b) :
    FillsOnly d scope path (.step (.assign (.ofVar v) e) b) := by
  refine ⟨fun place hplace => ?_, hb⟩
  rw [Statement.stored?, if_pos (show (Place.ofVar v).root.isLocal = true from hv)] at hplace
  cases hplace

/-- Variables are not stored in the target. -/
theorem define {v : Var} {e : Expr} (hb : FillsOnly d scope path b) :
    FillsOnly d scope path (.step (.define v e) b) :=
  ⟨nofun, hb⟩

/-- A head stores nothing. -/
theorem nest {head : Head} (hbody : FillsOnly d scope path body) (hb : FillsOnly d scope path b) :
    FillsOnly d scope path (.nest head body b) := by
  cases head with
  | helperBody helper => exact hb
  | _ => exact ⟨.inr hbody, hb⟩

theorem fork {head : Head} {yes no : Code} (hyes : FillsOnly d scope path yes)
    (hno : FillsOnly d scope path no) (hb : FillsOnly d scope path b) :
    FillsOnly d scope path (.fork head yes no b) :=
  ⟨hyes, hno, hb⟩

/-- Guards before a store allocate records on its way. -/
theorem ofGuards (hspelled : d.Within fun _ => True) :
    FillsOnly d scope path (d.guards scope path) := by
  have hallocates : ∀ e ∈ d.waiting ['.', '['] (scope ++ path),
      d.Allocates scope path (seenFrom scope e.1) := by
    intro e he
    obtain ⟨entry, hentry, rfl⟩ := List.mem_map.mp he
    obtain ⟨hmem, hgoes⟩ := List.mem_filter.mp hentry
    have hkey := hspelled.key entry hmem
    refine ⟨entry.2.1, hkey ▸ List.mem_map_of_mem hmem, .inl ?_, rfl⟩
    rw [isAtOrBeneath, ← hkey, hgoes, Bool.or_true]
  rw [Deferred.guards]
  -- The list of guards forgets where it comes from, for an induction over it.
  generalize d.waiting ['.', '['] (scope ++ path) = l at hallocates
  induction l with
  | nil => exact done
  | cons e l ih =>
    obtain ⟨he, hl⟩ := List.forall_mem_cons.mp hallocates
    exact ⟨.inl ⟨seenFrom scope e.1, e.2, he, rfl⟩, ih hl⟩

/-- Guards that are left out store nothing. -/
theorem ofGuardsAbove {p : Progress} {pos : Position} (hspelled : p.deferred.Within fun _ => True)
    (needed : Bool) : FillsOnly p.deferred pos.scope path (guardsAbove p pos path needed) := by
  cases needed with
  | false => exact done
  | true => exact ofGuards hspelled

/-- An assignment stores at its target, under guards. -/
theorem assignment (hg : FillsOnly d scope path guards) {x : Assignment} (hx : x.target = path) :
    FillsOnly d scope path (x.code guards) := by
  subst hx
  rw [Assignment.code]
  split
  · exact nest (hg.append (assignSelf done)) done
  · exact hg.append (assignSelf done)

/-- Both assignments of a leaf have the leaf as their target. -/
theorem leafCode {pos : Position} {f : Field} (hg : FillsOnly d scope (pos.path f) guards)
    {primary : Source} {standIn : Option Source} :
    FillsOnly d scope (pos.path f) (leafCode guards pos f type primary standIn) := by
  cases standIn with
  | none => exact hg.assignment rfl
  | some x => exact (hg.assignment rfl).append (hg.assignment rfl)

/-- A record in place is stored, or nil in its stead, and its fields lie beneath. -/
theorem inlineCode (hg : FillsOnly d scope path guards) {tested : Place}
    (hbody : FillsOnly d scope path body) :
    FillsOnly d scope path (inlineCode guards path type tested body) := by
  have hfilled : FillsOnly d scope path
      (guards ++ .step (.assign ⟨.output, path⟩ (.newRecord type)) body) :=
    hg.append (assignSelf hbody)
  rw [RecordBridge.inlineCode]
  split
  · exact fork hfilled (assignSelf done) done
  · exact nest hfilled done

theorem callCode (hg : FillsOnly d scope path guards) {helper : Var} {argument : Place} :
    FillsOnly d scope path (callCode guards path helper argument) :=
  hg.append (assignSelf done)

/-- A local function is left out. -/
theorem helperCode (helper : HelperSignature) :
    FillsOnly d scope path (helperCode helper body) :=
  done

/-- The choice of a container stores in variables of its own. -/
theorem selection (n : Nat) (primary : Place) (standIn : Option Place) (flagged : Bool) :
    FillsOnly d scope path (Selection.of n primary standIn flagged).code := by
  cases standIn with
  | none => exact done
  | some x =>
    cases flagged with
    | false => exact define (nest (assignLocal rfl done) done)
    | true => exact define (define (nest (assignLocal rfl (assignLocal rfl done)) done))

/-- Keys that are taken over are stored in the set. -/
theorem keysCode (hg : FillsOnly d scope path guards) {intoKeys fromKeys : Bool}
    {chosen : Selection} (hchosen : FillsOnly d scope path chosen.code) :
    FillsOnly d scope path (keysCode guards path type intoKeys fromKeys chosen) := by
  refine hchosen.append (hg.append (assignSelf (nest ?_ done)))
  cases intoKeys with
  | false => exact assignSelf done
  | true => exact assign done

/-- The container is made, and its elements lie beneath it. -/
theorem loopCode {job : ContainerJob} (hg : FillsOnly d scope job.path guards) {loop : Loop}
    {chosen : Selection} (hchosen : FillsOnly d scope job.path chosen.code)
    (hbody : FillsOnly d scope job.path body) :
    FillsOnly d scope job.path (loop.code guards job chosen body) :=
  hchosen.append (hg.append (assignSelf (nest hbody done)))

end Code.FillsOnly

/-! ## The derivation -/

namespace Task

/-- The position at which a task stands. -/
def position : Task → Position
  | .fields pos _ | .field pos _ | .record pos _ _ _ _ _ | .container pos _ _ | .element pos _ _ _ => pos

/-- The path of the part of the target that a task fills. -/
def filled : Task → Path
  | .fields pos _ => pos.target
  | .field pos f => pos.path f
  | .record _ job _ _ _ _ => job.path
  | .container _ _ job => job.path
  | .element _ _ _ slot => slot.path

end Task

/-- What is emitted for a task stores at the path of its part of the target and beneath it only, but for
deferred records on the way. -/
theorem Emits.fillsOnly {c : Settings} {task : Task} {p q : Progress} {b : Code}
    (h : Emits c task p b q) (hspelled : p.deferred.Within fun _ => True) :
    b.FillsOnly q.deferred task.position.scope task.filled := by
  induction h with
  | noFields => exact .done
  | @moreFields pos f fs p q r b₁ b₂ hfirst hrest ih₁ ih₂ =>
    -- The path of a field goes on from that of its record.
    exact .append (.of_append hrest.grows.keys (ih₁ hspelled)) (ih₂ (hfirst.grows.spelled hspelled))
  | leaf => exact .leafCode (.ofGuards hspelled)
  | recordField _ _ _ _ ih | containerField _ _ _ ih => exact ih hspelled
  | allocated _ _ _ _ _ hfields ih =>
    exact .append (.mono hfields.grows.keys (.ofGuards hspelled)) (.assignSelf (ih hspelled))
  | deferred _ _ _ _ _ _ ih => exact ih (hspelled.defer trivial)
  | unset => exact .done
  | inline _ _ hfields ih =>
    exact .inlineCode (.mono hfields.grows.keys (.ofGuards hspelled)) (ih hspelled)
  | call => exact .callCode (.ofGuardsAbove hspelled _)
  | define _ _ _ _ hfields =>
    have hafter := hfields.grows.spelled hspelled
    exact .append (.helperCode _) (.callCode (.ofGuardsAbove hafter _))
  | @loop pos type job p q b loop chosen _ hchosen helement ih =>
    rw [hchosen]
    -- The slot of an element lies beneath the container.
    refine .loopCode (.mono helement.grows.keys (.ofGuards hspelled)) (.selection _ _ _ _) ?_
    exact .of_append (List.Subset.refl _) (ih hspelled)
  | keys _ _ _ _ _ hchosen =>
    rw [hchosen]
    exact .keysCode (.ofGuards hspelled) (.selection _ _ _ _)
  | leafElement => exact .assignSelf .done
  | recordElement _ _ _ _ ih | containerElement _ _ ih => exact ih hspelled
  | eitherElement _ _ _ _ _ hprimary hother ih₁ ih₂ =>
    exact .fork (.mono hother.grows.keys (ih₁ hspelled)) (ih₂ (hprimary.grows.spelled hspelled)) .done

end RecordBridge

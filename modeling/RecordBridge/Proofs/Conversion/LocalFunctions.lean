import RecordBridge.Proofs.Conversion.Numbers

/-!
# Local functions in scope

A local function is in scope from its declaration to the end of its block, and in its own body. The
generator keeps a list of those that it takes to be in scope, which it cuts back at the end of some
blocks. `Functions` reads the scopes off the blocks instead: `Emits.functions` says that both agree,
so that no function is declared where another one for the same two records is in scope.
-/

namespace RecordBridge

/-- Whether a statement declares a local function. -/
def Statement.isDeclaration : Statement → Bool
  | .declare _ => true
  | _ => false

/-- Whether the block under a head is the body of a local function. -/
def Head.isFunction : Head → Bool
  | .helperBody _ => true
  | _ => false

/-- Statements that start where the local functions `hs` are in scope and end where `hs'` are. A
function is in scope up to the end of the block that declares it. It is declared for two records that
no function in scope converts between, and its body is what is emitted for these. -/
inductive Functions (c : Settings) : (hs : List Helper) → Code → (hs' : List Helper) → Prop where
  | done {hs : List Helper} : Functions c hs .done hs
  | step {hs hs' : List Helper} {s : Statement} {rest : Code}
      (hplain : s.isDeclaration = false)
      (hrest : Functions c hs rest hs') : Functions c hs (.step s rest) hs'
  | declare {hs hs' inside : List Helper} {pos : Position} {job : RecordJob} {p q : Progress}
      {body rest : Code} {helper : HelperSignature} {n : Nat}
      (hname : helper.name = .helper (pascal job.target.name) n)
      (htarget : (FieldType.record job.target).goType c.resolve = .ok helper.target)
      (hsource : (FieldType.record job.source).goType c.resolve = .ok helper.source)
      (hnew : ∀ h ∈ hs, ¬(h.target = job.target.id ∧ h.source = job.source.id))
      (hemits : Emits c (.fields (pos.inHelper c job) (c.schema.fields job.target)) p body q)
      (hbody : Functions c (⟨job.target.id, job.source.id, helper.name⟩ :: hs)
        (helperBlock helper.target body) inside)
      (hrest : Functions c (⟨job.target.id, job.source.id, helper.name⟩ :: hs) rest hs') :
      Functions c hs (.step (.declare helper)
        (.nest (.helperBody helper) (helperBlock helper.target body) rest)) hs'
  | nest {hs hs' inside : List Helper} {head : Head} {body rest : Code}
      (hhead : head.isFunction = false) (hbody : Functions c hs body inside)
      (hrest : Functions c hs rest hs') : Functions c hs (.nest head body rest) hs'
  | fork {hs hs' inside inside' : List Helper} {head : Head} {yes no rest : Code}
      (hhead : head.isFunction = false) (hyes : Functions c hs yes inside)
      (hno : Functions c hs no inside') (hrest : Functions c hs rest hs') :
      Functions c hs (.fork head yes no rest) hs'

/-- A flag is there to choose between two sources of an element. If so, the primary one is a record
that is converted in place. -/
def Task.Flagged (c : Settings) : Task → Prop
  | .element _ _ type slot => slot.selector.isSome = true →
    choosesPerElement c type slot.primary.type = true ∧ slot.standIn.isSome = true
  | _ => True

section Pieces

variable {c : Settings} {hs hs' hs'' : List Helper} {a b guards body : Code} {path : Path}
  {type : GoType}

namespace Functions

theorem append (ha : Functions c hs a hs') (hb : Functions c hs' b hs'') :
    Functions c hs (a ++ b) hs'' := by
  induction ha with
  | done => exact hb
  | step hplain _ ih => exact .step hplain (ih hb)
  | declare hname htarget hsource hnew hemits hbody _ _ ih =>
    exact .declare hname htarget hsource hnew hemits hbody (ih hb)
  | nest hhead hbody _ _ ih => exact .nest hhead hbody (ih hb)
  | fork hhead hyes hno _ _ _ ih => exact .fork hhead hyes hno (ih hb)

/-- One more statement that declares no local function. -/
theorem assign (hg : Functions c hs guards hs') {target : Place} {e : Expr}
    (hrest : Functions c hs' b hs'') :
    Functions c hs (guards ++ .step (.assign target e) b) hs'' :=
  hg.append (.step rfl hrest)

theorem ofGuards (d : Deferred) (scope target : Path) : Functions c hs (d.guards scope target) hs := by
  rw [Deferred.guards]
  induction d.waiting ['.', '['] (scope ++ target) with
  | nil => exact .done
  | cons e l ih => exact .nest rfl (.step rfl .done) ih

theorem ofGuardsAbove (p : Progress) (pos : Position) (path : Path) (needed : Bool) :
    Functions c hs (guardsAbove p pos path needed) hs := by
  cases needed with
  | false => exact .done
  | true => exact ofGuards _ _ _

theorem assignment (hg : Functions c hs guards hs) (x : Assignment) :
    Functions c hs (x.code guards) hs := by
  rw [Assignment.code]
  split
  · exact .nest rfl (hg.assign .done) .done
  · exact hg.assign .done

theorem leafCode (hg : Functions c hs guards hs) {pos : Position} {f : Field} {primary : Source}
    {standIn : Option Source} :
    Functions c hs (leafCode guards pos f type primary standIn) hs := by
  cases standIn with
  | none => exact hg.assignment _
  | some x => exact (hg.assignment _).append (hg.assignment _)

theorem inlineCode (hg : Functions c hs guards hs) {tested : Place}
    (hbody : Functions c hs body hs') :
    Functions c hs (inlineCode guards path type tested body) hs := by
  rw [RecordBridge.inlineCode]
  split
  · exact .fork rfl (hg.assign hbody) (.step rfl .done) .done
  · exact .nest rfl (hg.assign hbody) .done

theorem callCode (hg : Functions c hs guards hs) {helper : Var} {argument : Place} :
    Functions c hs (callCode guards path helper argument) hs :=
  hg.assign .done

/-- The body of a local function, around the statements for the fields of its result. -/
theorem helperBlock (hbody : Functions c hs body hs') : Functions c hs (helperBlock type body) hs :=
  .fork rfl (.step rfl hbody) (.step rfl .done) (.step rfl .done)

theorem selection (n : Nat) (primary : Place) (standIn : Option Place) (flagged : Bool) :
    Functions c hs (Selection.of n primary standIn flagged).code hs := by
  cases standIn with
  | none => exact .done
  | some x =>
    cases flagged with
    | false => exact .step rfl (.nest rfl (.step rfl .done) .done)
    | true =>
      exact .step rfl (.step rfl (.nest rfl (.step rfl (.step rfl .done)) .done))

theorem keysCode (hg : Functions c hs guards hs) {intoKeys fromKeys : Bool} {chosen : Selection}
    (hchosen : Functions c hs chosen.code hs) :
    Functions c hs (keysCode guards path type intoKeys fromKeys chosen) hs := by
  refine hchosen.append (hg.assign (.nest ?_ (.step ?_ .done) .done))
  · cases fromKeys <;> rfl
  · cases intoKeys <;> rfl

theorem loopCode (hg : Functions c hs guards hs) {loop : Loop} {job : ContainerJob}
    {chosen : Selection} (hchosen : Functions c hs chosen.code hs)
    (hbody : Functions c hs body hs') : Functions c hs (loop.code guards job chosen body) hs :=
  hchosen.append (hg.assign (.nest rfl hbody .done))

end Functions

/-- The flag of a loop chooses between two sources of its elements. -/
theorem Loop.Converts.flagged {loop : Loop} {job : ContainerJob} {containerType : FieldType}
    (h : loop.Converts c job containerType) (pos : Position) (n m : Nat) :
    (Task.element pos job.field loop.element
      (loop.slot job (loop.selection c job n).flag m)).Flagged c := by
  intro hflag
  have hselection : job.standIn.isSome = true ∧
      choosesPerElement c loop.element loop.primary = true := by
    change (Selection.of n job.primary.place (job.standIn.map (·.place))
      (choosesPerElement c loop.element loop.primary)).flag.isSome = true at hflag
    cases hjob : job.standIn with
    | none => rw [hjob] at hflag; cases hflag
    | some x =>
      cases hchooses : choosesPerElement c loop.element loop.primary with
      | false => rw [hjob, hchooses] at hflag; cases hflag
      | true => exact ⟨rfl, rfl⟩
  refine ⟨hselection.2, ?_⟩
  obtain ⟨x, hx⟩ := Option.isSome_iff_exists.mp hselection.1
  -- What stands in for the container has the shape that is asked for.
  have hshape : ∀ {α : Type} {part? : Operand → Option α} {part : Option α},
      standInPart part? job.standIn = some part → part.isSome = true := by
    intro α part? part hpart
    rw [hx] at hpart
    obtain ⟨a, -, rfl⟩ := Option.map_eq_some_iff.mp hpart
    rfl
  have hloop : loop.standIn.isSome = true := by
    cases h with
    | list _ hstandIn | map _ _ _ hstandIn => exact hshape hstandIn
    | set _ hstandIn => rw [Option.isSome_map, hshape hstandIn]
  obtain ⟨type', htype⟩ := Option.isSome_iff_exists.mp hloop
  simp [Loop.slot, hx, htype]

/-- A record that needs no local function brings none into scope. -/
theorem Emits.helpers_eq {pos : Position} {job : RecordJob} {t : FieldType} {tested base : Place}
    {inField : Bool} {p q : Progress}
    (h : Emits c (.record pos job t tested base inField) p b q)
    (hneeds : c.needsHelper job.target job.source = false) : q.helpers = p.helpers := by
  cases h with
  | inline | call => rfl
  | define hneeds' => exact absurd (hneeds.symm.trans hneeds') Bool.false_ne_true

/-- The primary source of an element that has two is converted in place. -/
theorem Task.Flagged.needsHelper {pos : Position} {field : String} {t : FieldType} {slot : Slot}
    {target origin : RecordRef} (h : (Task.element pos field t slot).Flagged c) {flag : Var}
    (hflag : slot.selector = some flag) (hroot : t.root = .record target)
    (horigin : slot.primary.type.record? = some origin) : c.needsHelper target origin = false := by
  have hchooses := (h (by rw [hflag]; rfl)).1
  have htarget : t.record? = some target := by rw [FieldType.record?, hroot]
  rw [choosesPerElement, htarget, horigin] at hchooses
  exact Bool.not_eq_eq_eq_not.mp hchooses

/-- Only for records are there flags. -/
theorem Task.Flagged.selector_eq_none {pos : Position} {field : String} {t : FieldType} {slot : Slot}
    (h : (Task.element pos field t slot).Flagged c) (ht : ∀ ref, t.root ≠ .record ref) :
    slot.selector = none := by
  by_contra hne
  obtain ⟨flag, hflag⟩ := Option.ne_none_iff_exists'.mp hne
  have hchooses := (h (by rw [hflag]; rfl)).1
  have hnone : t.record? = none := by
    cases hrecord : t.record? with
    | none => rfl
    | some ref => exact absurd (FieldType.root_of_record hrecord) (ht ref)
  rw [choosesPerElement, hnone] at hchooses
  cases hchooses

/-- Where there is only one source, there is no flag. -/
theorem Task.Flagged.selector_eq_none_of_one {pos : Position} {field : String} {t : FieldType}
    {slot : Slot} (h : (Task.element pos field t slot).Flagged c)
    (hone : slot.selector = none ∨ slot.standIn = none) : slot.selector = none := by
  rcases hone with hnone | hnone
  · exact hnone
  · by_contra hne
    obtain ⟨flag, hflag⟩ := Option.ne_none_iff_exists'.mp hne
    have hstandIn := (h (by rw [hflag]; rfl)).2
    rw [hnone] at hstandIn
    cases hstandIn

end Pieces

/-- No function in scope is for the two records if none is found. -/
theorem Progress.not_of_helper?_eq_none {p : Progress} {job : RecordJob} (h : p.helper? job = none) :
    ∀ g ∈ p.helpers, ¬(g.target = job.target.id ∧ g.source = job.source.id) := by
  rintro g hg ⟨htarget, hsource⟩
  have := List.find?_eq_none.mp h g hg
  simp [htarget, hsource] at this

/-- The task is that of an element, whose local functions go out of scope with the loop. -/
def Task.isElement : Task → Bool
  | .element _ _ _ _ => true
  | _ => false

/-- **The generator knows the local functions in scope**: those that it takes to be in scope before and
after a task are in scope before and after what is emitted for it, by its blocks. -/
theorem Emits.functions {c : Settings} {task : Task} {p q : Progress} {b : Code}
    (h : Emits c task p b q) (hflagged : task.Flagged c) :
    ∃ hs, Functions c p.helpers b hs ∧ (task.isElement = false → hs = q.helpers) := by
  induction h with
  | noFields | unset => exact ⟨_, .done, fun _ => rfl⟩
  | leaf => exact ⟨_, (Functions.ofGuards _ _ _).leafCode, fun _ => rfl⟩
  | leafElement => exact ⟨_, .step rfl .done, fun _ => rfl⟩
  | moreFields _ _ ih₁ ih₂ =>
    obtain ⟨hs, hfirst, heq⟩ := ih₁ trivial
    obtain ⟨hs', hrest, heq'⟩ := ih₂ trivial
    cases heq rfl
    exact ⟨hs', hfirst.append hrest, fun _ => heq' rfl⟩
  | recordField _ _ _ _ ih | containerField _ _ _ ih =>
    obtain ⟨hs, hb, heq⟩ := ih trivial
    exact ⟨hs, hb, fun _ => heq rfl⟩
  | recordElement _ _ _ _ ih | containerElement _ _ ih =>
    obtain ⟨hs, hb, -⟩ := ih trivial
    exact ⟨hs, hb, nofun⟩
  | allocated _ _ _ _ _ _ ih =>
    obtain ⟨hs, hb, heq⟩ := ih trivial
    exact ⟨hs, (Functions.ofGuards _ _ _).assign hb, fun _ => heq rfl⟩
  | deferred _ _ _ _ _ _ ih =>
    obtain ⟨hs, hb, heq⟩ := ih trivial
    exact ⟨hs, hb, fun _ => heq rfl⟩
  | inline _ _ _ ih =>
    obtain ⟨hs, hb, -⟩ := ih trivial
    exact ⟨_, (Functions.ofGuards _ _ _).inlineCode hb, fun _ => rfl⟩
  | call => exact ⟨_, (Functions.ofGuardsAbove _ _ _ _).callCode, fun _ => rfl⟩
  | define _ hnew htarget hsource hfields ih =>
    obtain ⟨hs, hb, -⟩ := ih trivial
    refine ⟨_, .declare rfl htarget hsource (Progress.not_of_helper?_eq_none hnew) hfields
      hb.helperBlock ?_, fun _ => rfl⟩
    exact (Functions.ofGuardsAbove _ _ _ _).callCode
  | loop hloop hchosen _ ih =>
    subst hchosen
    obtain ⟨hs, hb, -⟩ := ih (hloop.flagged _ _ _)
    exact ⟨_, (Functions.ofGuards _ _ _).loopCode (.selection _ _ _ _) hb, fun _ => rfl⟩
  | keys _ _ _ _ _ hchosen =>
    subst hchosen
    exact ⟨_, (Functions.ofGuards _ _ _).keysCode (.selection _ _ _ _), fun _ => rfl⟩
  | eitherElement hroot hflag _ horigin _ hprimary _ ih₁ ih₂ =>
    -- The functions of the first branch would not be in scope in the second one, but it has none.
    obtain ⟨hs, hb₁, -⟩ := ih₁ trivial
    obtain ⟨hs', hb₂, -⟩ := ih₂ trivial
    rw [hprimary.helpers_eq (hflagged.needsHelper hflag hroot horigin)] at hb₂
    exact ⟨_, .fork rfl hb₁ hb₂ .done, nofun⟩

end RecordBridge

import RecordBridge.Proofs.Conversion.Correctness
import RecordBridge.Proofs.Deferred

/-!
# Mappings act on their own paths

What is written for a part of the target depends on the mappings of its path and of the paths
beneath it, and on no others (`Emits.unique`). So mappings of one field of the target leave the
statements before it alone, and if it is a leaf, all statements but its own (`run_local`).

That is the path at which a part is written first. A record that a local function in scope converts
is not written again: nothing that is mapped beneath it is looked at (`Emits.call_unique`).
-/

namespace RecordBridge

/-! ## Mappings at a path and beneath it -/

/-- The settings with other mappings. -/
def Settings.remap (c : Settings) (m : List (String × MappedField)) : Settings :=
  { c with mapped := m }

/-- At a path and beneath it, other mappings are the same. -/
def Settings.SameBeneath (c : Settings) (m : List (String × MappedField)) (path : Path) : Prop :=
  ∀ more, (c.remap m).mapping? (Path.bare (path ++ more)) = c.mapping? (Path.bare (path ++ more)) ∧
    (c.remap m).mapsBelow (Path.bare (path ++ more)) = c.mapsBelow (Path.bare (path ++ more))

/-- A mapping is found among those that are kept, if its key is. -/
theorem lookup_filter {α : Type} {P : String → Bool} {key : String} (hkey : P key = true)
    (l : List (String × α)) : (l.filter fun e => P e.1).lookup key = l.lookup key := by
  induction l with
  | nil => rfl
  | cons e l ih =>
    obtain ⟨k, a⟩ := e
    by_cases hk : key = k
    · subst hk
      simp [hkey]
    · have hne : (key == k) = false := beq_false_of_ne hk
      cases hP : P k <;> simp [hP, List.lookup_cons, hne, ih]

/-- Mappings are the same at a path and beneath it if those are that are spelled so. -/
theorem Settings.sameBeneath_of_filter {c : Settings} {m : List (String × MappedField)}
    {path : Path} (hpath : path ≠ []) (h : (m.filter fun e => isAtOrBeneath path.bare e.1) =
      c.mapped.filter fun e => isAtOrBeneath path.bare e.1) : c.SameBeneath m path := by
  intro more
  have hat : ∀ {key}, isAtOrBeneath (Path.bare (path ++ more)) key = true →
      isAtOrBeneath path.bare key = true := isAtOrBeneath_of_append hpath
  constructor
  · -- The entry at the path itself is one of those that the filter keeps.
    have hself : isAtOrBeneath (Path.bare (path ++ more)) (Path.bare (path ++ more)) = true := by
      simp [isAtOrBeneath]
    show m.lookup _ = c.mapped.lookup _
    rw [← lookup_filter (P := isAtOrBeneath path.bare) (hat hself) m, h, lookup_filter (hat hself)]
  · -- So are those further down: a dot after the path ends it at a whole step.
    have hbelow : ∀ e : String × MappedField,
        Text.startsWith (Path.bare (path ++ more) ++ ".") e.1 = true →
          isAtOrBeneath path.bare e.1 = true := by
      intro e he
      obtain ⟨rest, hrest⟩ := List.isPrefixOf_iff_prefix.mp he
      have htext : e.1.toList = (Path.bare (path ++ more)).toList ++ '.' :: rest := by
        rw [← hrest, String.toList_append, List.append_assoc]
        rfl
      have hends : EndsAt isInStep ('.' :: rest) := by
        intro c' rest' heq
        cases heq
        rfl
      exact hat (isAtOrBeneath_iff.mpr ⟨_, hends, htext⟩)
    have hboth : (fun e : String × MappedField => isAtOrBeneath path.bare e.1 &&
        Text.startsWith (Path.bare (path ++ more) ++ ".") e.1) =
          fun e => Text.startsWith (Path.bare (path ++ more) ++ ".") e.1 := by
      funext e
      cases he : Text.startsWith (Path.bare (path ++ more) ++ ".") e.1 with
      | true => rw [hbelow e he, Bool.and_self]
      | false => rw [Bool.and_false]
    have hany : ∀ l : List (String × MappedField),
        (l.any fun e => Text.startsWith (Path.bare (path ++ more) ++ ".") e.1) =
          (l.filter fun e => isAtOrBeneath path.bare e.1).any
            fun e => Text.startsWith (Path.bare (path ++ more) ++ ".") e.1 := by
      intro l
      rw [List.any_filter, hboth]
    show m.any _ = c.mapped.any _
    rw [hany m, h, ← hany]

/-! ## The same mappings, the same statements -/

/-- What is mapped at the paths that a task writes to, and beneath them, is the same. -/
def Task.Same (c : Settings) (m : List (String × MappedField)) : Task → Prop
  | .fields pos fs => ∀ f ∈ fs, c.SameBeneath m (pos.scope ++ pos.path f)
  | .field pos f => c.SameBeneath m (pos.scope ++ pos.path f)
  | .record pos job _ _ _ _ => c.SameBeneath m (pos.scope ++ job.path)
  | .container pos _ job => c.SameBeneath m (pos.scope ++ job.path)
  | .element pos _ _ slot => c.SameBeneath m (pos.scope ++ slot.path)

section Unique

variable {c : Settings} {m : List (String × MappedField)} {pos : Position} {f : Field} {path : Path}

theorem Settings.SameBeneath.append (h : c.SameBeneath m path) (more : Path) :
    c.SameBeneath m (path ++ more) := by
  intro rest
  rw [List.append_assoc]
  exact h (more ++ rest)

/-- The fields of a record are beneath it. -/
theorem Settings.SameBeneath.fields (h : c.SameBeneath m (pos.scope ++ pos.target))
    (fs : List Field) : (Task.fields pos fs).Same c m := by
  intro f _
  rw [Position.path, Path.select, ← List.append_assoc]
  exact h.append _

theorem Settings.SameBeneath.unsourced (h : c.SameBeneath m (pos.scope ++ path)) (fs : List Field) :
    (Task.fields (pos.unsourced path) fs).Same c m :=
  have hbeneath : c.SameBeneath m ((pos.unsourced path).scope ++ (pos.unsourced path).target) := h
  hbeneath.fields fs

theorem Settings.SameBeneath.sourcesOf (h : c.SameBeneath m (pos.scope ++ pos.path f)) :
    sourcesOf (c.remap m) pos f (pos.key f) = RecordBridge.sourcesOf c pos f (pos.key f) := by
  have hmapping := (h []).1
  rw [List.append_nil] at hmapping
  rw [RecordBridge.sourcesOf, RecordBridge.sourcesOf, Position.key, hmapping]
  rfl

theorem Settings.SameBeneath.mapsBelow (h : c.SameBeneath m (pos.scope ++ pos.path f)) :
    (c.remap m).mapsBelow (pos.key f) = c.mapsBelow (pos.key f) := by
  have hbelow := (h []).2
  rwa [List.append_nil] at hbelow

/-- A container is converted by one loop. -/
theorem Loop.Converts.unique {job : ContainerJob} {type : FieldType} {loop loop' : Loop}
    (h : loop.Converts c job type) (h' : loop'.Converts (c.remap m) job type) : loop' = loop := by
  -- The operands are read off the job, and the Go types depend on the resolver alone.
  cases h with
  | list hprimary hstandIn htype =>
    cases h' with
    | list hprimary' hstandIn' htype' =>
      rw [hprimary] at hprimary'
      rw [hstandIn] at hstandIn'
      cases hprimary'
      cases hstandIn'
      cases htype.symm.trans htype'
      rfl
  | set hprimary hstandIn _ _ htype =>
    cases h' with
    | set hprimary' hstandIn' _ _ htype' =>
      rw [hprimary] at hprimary'
      rw [hstandIn] at hstandIn'
      cases hprimary'
      cases hstandIn'
      cases htype.symm.trans htype'
      rfl
  | map _ hkey hprimary hstandIn htype =>
    cases h' with
    | map _ hkey' hprimary' hstandIn' htype' =>
      rw [hprimary] at hprimary'
      rw [hstandIn] at hstandIn'
      cases hprimary'
      cases hstandIn'
      cases hkey.symm.trans hkey'
      cases htype.symm.trans htype'
      rfl

/-- A set with the keys of a map on one side is not converted by a loop over elements. -/
theorem Loop.Converts.not_keyed {job : ContainerJob} {element primary : FieldType}
    {form primaryForm : SetForm} {loop : Loop} (h : loop.Converts c job (.set element form))
    (hprimary : job.primary.setElements? = some (primary, primaryForm)) :
    (isKeyed element form || isKeyed primary primaryForm) = false := by
  cases h with
  | set hprimary' _ hkeyed hkeyed' =>
    rw [hprimary] at hprimary'
    cases hprimary'
    rw [hkeyed, hkeyed']
    rfl

/-- Nothing else is written for a task with other mappings that are the same for it. -/
def Task.Sole (c : Settings) (m : List (String × MappedField)) (task : Task) (p : Progress)
    (b : Code) (q : Progress) : Prop :=
  task.Same c m → ∀ b' q', Emits (c.remap m) task p b' q' → b' = b ∧ q' = q

namespace Task.Sole

variable {p q r : Progress} {b b₁ b₂ : Code} {fs : List Field} {primary : Source}
  {standIn other : Option Source} {target origin record : RecordRef} {go : GoType} {job : RecordJob}
  {type : FieldType} {tested base : Place} {inField : Bool} {slot : Slot} {field : String}

theorem moreFields (hfirst : Sole c m (.field pos f) p b₁ q)
    (hrest : Sole c m (.fields pos fs) q b₂ r) :
    Sole c m (.fields pos (f :: fs)) p (b₁ ++ b₂) r := by
  intro hsame b' q' h
  cases h with
  | moreFields hfirst' hrest' =>
    obtain ⟨rfl, rfl⟩ := hfirst (hsame _ List.mem_cons_self) _ _ hfirst'
    obtain ⟨rfl, rfl⟩ := hrest (fun g hg => hsame g (List.mem_cons_of_mem _ hg)) _ _ hrest'
    exact ⟨rfl, rfl⟩

/-! ### Fields -/

theorem leaf (hsources : sourcesOf c pos f (pos.key f) = (some primary, standIn))
    (hleaf : f.type.root.isLeaf = true) (htype : f.type.goType c.resolve = .ok go) :
    Sole c m (.field pos f) p
      (leafCode (p.deferred.guards pos.scope (pos.path f)) pos f go primary standIn) p := by
  intro hsame b' q' h
  rw [← hsame.sourcesOf] at hsources
  cases h with
  | leaf hsources' _ htype' =>
    cases hsources.symm.trans hsources'
    cases htype.symm.trans htype'
    exact ⟨rfl, rfl⟩
  | recordField _ hroot =>
    rw [hroot] at hleaf
    cases hleaf
  | containerField _ hroot =>
    rw [FieldType.isLeaf_of_isContainer hroot] at hleaf
    cases hleaf
  | allocated hsources' | deferred hsources' | unset hsources' =>
    cases hsources.symm.trans hsources'

theorem recordField (hsources : sourcesOf c pos f (pos.key f) = (some primary, standIn))
    (hroot : f.type.root = .record target) (horigin : primary.field.type.record? = some origin)
    (hrecord : Sole c m (.record pos ⟨target, origin, pos.path f⟩ f.type primary.place
      primary.place true) p b q) : Sole c m (.field pos f) p b q := by
  intro hsame b' q' h
  rw [← hsame.sourcesOf] at hsources
  cases h with
  | leaf _ hleaf =>
    rw [hroot] at hleaf
    cases hleaf
  | recordField hsources' hroot' horigin' hrecord' =>
    cases hsources.symm.trans hsources'
    cases hroot.symm.trans hroot'
    cases horigin.symm.trans horigin'
    exact hrecord hsame _ _ hrecord'
  | containerField _ hcontainer =>
    rw [hroot] at hcontainer
    cases hcontainer
  | allocated hsources' | deferred hsources' | unset hsources' =>
    cases hsources.symm.trans hsources'

theorem containerField (hsources : sourcesOf c pos f (pos.key f) = (some primary, standIn))
    (hroot : f.type.root.isContainer = true)
    (hcontainer : Sole c m (.container pos f.type.root
      ⟨f.name, pos.path f, .ofSource primary, standIn.map .ofSource⟩) p b q) :
    Sole c m (.field pos f) p b q := by
  intro hsame b' q' h
  rw [← hsame.sourcesOf] at hsources
  cases h with
  | leaf _ hleaf =>
    rw [FieldType.isLeaf_of_isContainer hroot] at hleaf
    cases hleaf
  | recordField _ hrecord =>
    rw [hrecord] at hroot
    cases hroot
  | containerField hsources' _ hcontainer' =>
    cases hsources.symm.trans hsources'
    exact hcontainer hsame _ _ hcontainer'
  | allocated hsources' | deferred hsources' | unset hsources' =>
    cases hsources.symm.trans hsources'

theorem allocated (hsources : sourcesOf c pos f (pos.key f) = (none, other))
    (hrecord : f.type.record? = some record) (hmaps : c.mapsBelow (pos.key f) = true)
    (htype : f.type.goType c.resolve = .ok go) (hrequired : f.required = true)
    (hfields : Sole c m (.fields (pos.unsourced (pos.path f)) (c.schema.fields record)) p b q) :
    Sole c m (.field pos f) p (p.deferred.guards pos.scope (pos.path f) ++
      .step (.assign ⟨.output, pos.path f⟩ (.newRecord go)) b) q := by
  intro hsame b' q' h
  rw [← hsame.sourcesOf] at hsources
  rw [← hsame.mapsBelow] at hmaps
  cases h with
  | leaf hsources' | recordField hsources' | containerField hsources' =>
    cases hsources.symm.trans hsources'
  | allocated _ hrecord' _ htype' _ hfields' =>
    cases hrecord.symm.trans hrecord'
    cases htype.symm.trans htype'
    obtain ⟨rfl, rfl⟩ := hfields (hsame.unsourced _) _ _ hfields'
    exact ⟨rfl, rfl⟩
  | deferred _ _ _ _ hoptional => cases hrequired.symm.trans hoptional
  | unset _ hmaps' =>
    rw [hrecord, hmaps] at hmaps'
    cases hmaps' <;> contradiction

theorem deferred (hsources : sourcesOf c pos f (pos.key f) = (none, other))
    (hrecord : f.type.record? = some record) (hmaps : c.mapsBelow (pos.key f) = true)
    (htype : f.type.goType c.resolve = .ok go) (hoptional : f.required = false)
    (hfields : Sole c m (.fields (pos.unsourced (pos.path f)) (c.schema.fields record))
      { p with deferred := p.deferred.defer (pos.scope ++ pos.path f) go } b q) :
    Sole c m (.field pos f) p b q := by
  intro hsame b' q' h
  rw [← hsame.sourcesOf] at hsources
  rw [← hsame.mapsBelow] at hmaps
  cases h with
  | leaf hsources' | recordField hsources' | containerField hsources' =>
    cases hsources.symm.trans hsources'
  | allocated _ _ _ _ hrequired => cases hrequired.symm.trans hoptional
  | deferred _ hrecord' _ htype' _ hfields' =>
    cases hrecord.symm.trans hrecord'
    cases htype.symm.trans htype'
    exact hfields (hsame.unsourced _) _ _ hfields'
  | unset _ hmaps' =>
    rw [hrecord, hmaps] at hmaps'
    cases hmaps' <;> contradiction

theorem unset (hsources : sourcesOf c pos f (pos.key f) = (none, other))
    (hmaps : f.type.record? = none ∨ c.mapsBelow (pos.key f) = false) :
    Sole c m (.field pos f) p .done p := by
  intro hsame b' q' h
  rw [← hsame.sourcesOf] at hsources
  rw [← hsame.mapsBelow] at hmaps
  cases h with
  | leaf hsources' | recordField hsources' | containerField hsources' =>
    cases hsources.symm.trans hsources'
  | allocated _ hrecord hmaps' | deferred _ hrecord hmaps' =>
    rw [hrecord, hmaps'] at hmaps
    cases hmaps <;> contradiction
  | unset => exact ⟨rfl, rfl⟩

/-! ### Records -/

theorem inline (hneeds : c.needsHelper job.target job.source = false)
    (htype : type.goType c.resolve = .ok go)
    (hfields : Sole c m (.fields (pos.inline c job base) (c.schema.fields job.target)) p b q) :
    Sole c m (.record pos job type tested base inField) p
      (inlineCode (p.deferred.guards pos.scope job.path) job.path go tested b)
      { q with helpers := p.helpers } := by
  intro hsame b' q' h
  cases h with
  | inline _ htype' hfields' =>
    cases htype.symm.trans htype'
    have hbeneath : c.SameBeneath m
        ((pos.inline c job base).scope ++ (pos.inline c job base).target) := hsame
    obtain ⟨rfl, rfl⟩ := hfields (hbeneath.fields _) _ _ hfields'
    exact ⟨rfl, rfl⟩
  | call hneeds' | define hneeds' => cases hneeds.symm.trans hneeds'

theorem define {targetGo sourceGo : GoType} (hneeds : c.needsHelper job.target job.source = true)
    (hnew : p.helper? job = none)
    (htarget : (FieldType.record job.target).goType c.resolve = .ok targetGo)
    (hsource : (FieldType.record job.source).goType c.resolve = .ok sourceGo)
    (hfields : Sole c m (.fields (pos.inHelper c job) (c.schema.fields job.target))
      (p.define job) b q) :
    Sole c m (.record pos job type tested base inField) p
      (helperCode ⟨.helper (pascal job.target.name) (p.counter + 1), sourceGo, targetGo⟩ b ++
        callCode (guardsAbove q pos job.path inField) job.path
          (.helper (pascal job.target.name) (p.counter + 1)) tested)
      { q with helpers := (p.define job).helpers } := by
  intro hsame b' q' h
  cases h with
  | inline hneeds' => cases hneeds.symm.trans hneeds'
  | call _ hknown => cases hnew.symm.trans hknown
  | define _ _ htarget' hsource' hfields' =>
    cases htarget.symm.trans htarget'
    cases hsource.symm.trans hsource'
    -- The fields of the result stand where the record does.
    have hbeneath : c.SameBeneath m
        ((pos.inHelper c job).scope ++ (pos.inHelper c job).target) := by
      rw [Position.inHelper, List.append_nil]
      exact hsame
    obtain ⟨rfl, rfl⟩ := hfields (hbeneath.fields _) _ _ hfields'
    exact ⟨rfl, rfl⟩

/-! ### Containers and elements -/

theorem loop {job : ContainerJob} {loop : Loop} {chosen : Selection}
    (hloop : loop.Converts c job type) (hchosen : chosen = loop.selection c job p.counter)
    (helement : Sole c m (.element pos job.field loop.element
      (loop.slot job chosen.flag chosen.counter)) { p with counter := chosen.counter + 2 } b q) :
    Sole c m (.container pos type job) p
      (loop.code (p.deferred.guards pos.scope job.path) job chosen b)
      { q with helpers := p.helpers } := by
  intro hsame b' q' h
  cases h with
  | loop hloop' hchosen' helement' =>
    cases hloop.unique hloop'
    cases hchosen
    cases hchosen'
    -- An element lies beneath its container, where the entries are the same.
    have hbeneath : (Task.element pos job.field loop.element (loop.slot job
        (loop.selection c job p.counter).flag (loop.selection c job p.counter).counter)).Same
        c m := by
      show c.SameBeneath m (pos.scope ++ (job.path ++ _))
      rw [← List.append_assoc]
      exact hsame.append _
    obtain ⟨rfl, rfl⟩ := helement hbeneath _ _ helement'
    exact ⟨rfl, rfl⟩
  | keys hprimary _ hkeyed =>
    -- The keys of a map are no loop over elements.
    rw [hloop.not_keyed hprimary] at hkeyed
    cases hkeyed

theorem keys {element primary : FieldType} {form primaryForm : SetForm} {job : ContainerJob}
    {chosen : Selection} (hprimary : job.primary.setElements? = some (primary, primaryForm))
    (hkeyed : (isKeyed element form || isKeyed primary primaryForm) = true)
    (htype : element.goType c.resolve = .ok go)
    (hchosen : chosen = .of p.counter job.primary.place (job.standIn.map (·.place)) false) :
    Sole c m (.container pos (.set element form) job) p
      (keysCode (p.deferred.guards pos.scope job.path) job.path go (isKeyed element form)
        (isKeyed primary primaryForm) chosen)
      { p with counter := chosen.counter + 1 } := by
  intro hsame b' q' h
  cases h with
  | loop hloop =>
    rw [hloop.not_keyed hprimary] at hkeyed
    cases hkeyed
  | keys hprimary' _ _ _ htype' hchosen' =>
    cases hprimary.symm.trans hprimary'
    cases htype.symm.trans htype'
    cases hchosen
    cases hchosen'
    exact ⟨rfl, rfl⟩

theorem leafElement (hleaf : type.root.isLeaf = true) (htype : type.goType c.resolve = .ok go) :
    Sole c m (.element pos field type slot) p
      (.step (.assign ⟨.output, slot.path⟩ (.convert (.plain go) (.ofVar slot.value))) .done)
      p := by
  intro hsame b' q' h
  cases h with
  | leafElement _ htype' =>
    cases htype.symm.trans htype'
    exact ⟨rfl, rfl⟩
  | recordElement hroot | eitherElement hroot =>
    rw [hroot] at hleaf
    cases hleaf
  | containerElement hroot =>
    rw [FieldType.isLeaf_of_isContainer hroot] at hleaf
    cases hleaf

theorem recordElement (hroot : type.root = .record target)
    (hone : slot.selector = none ∨ slot.standIn = none)
    (horigin : slot.primary.type.record? = some origin)
    (hrecord : Sole c m (.record pos ⟨target, origin, slot.path⟩ type (.ofVar slot.value)
      slot.primary.place false) p b q) : Sole c m (.element pos field type slot) p b q := by
  intro hsame b' q' h
  cases h with
  | leafElement hleaf =>
    rw [hroot] at hleaf
    cases hleaf
  | recordElement hroot' _ horigin' hrecord' =>
    cases hroot.symm.trans hroot'
    cases horigin.symm.trans horigin'
    exact hrecord hsame _ _ hrecord'
  | eitherElement _ hflag hstandIn =>
    rw [hflag, hstandIn] at hone
    cases hone <;> contradiction
  | containerElement hcontainer =>
    rw [hroot] at hcontainer
    cases hcontainer

theorem eitherElement {origin' : RecordRef} {flag : Var} {x : Operand}
    (hroot : type.root = .record target) (hflag : slot.selector = some flag)
    (hstandIn : slot.standIn = some x) (horigin : slot.primary.type.record? = some origin)
    (horigin' : x.type.record? = some origin')
    (hprimary : Sole c m (.record pos ⟨target, origin, slot.path⟩ type (.ofVar slot.value)
      slot.primary.place false) p b₁ q)
    (hother : Sole c m (.record pos ⟨target, origin', slot.path⟩ type (.ofVar slot.value)
      x.place false) q b₂ r) :
    Sole c m (.element pos field type slot) p (.fork (.ifFlag flag) b₁ b₂ .done) r := by
  intro hsame b' q' h
  cases h with
  | leafElement hleaf =>
    rw [hroot] at hleaf
    cases hleaf
  | recordElement _ hone =>
    rw [hflag, hstandIn] at hone
    -- There are a flag and a stand-in, so the primary source is not the only one.
    cases hone <;> contradiction
  | eitherElement hroot' hflag' hstandIn' hfirst hsecond hprimary' hother' =>
    cases hroot.symm.trans hroot'
    cases hflag.symm.trans hflag'
    cases hstandIn.symm.trans hstandIn'
    cases horigin.symm.trans hfirst
    cases horigin'.symm.trans hsecond
    obtain ⟨rfl, rfl⟩ := hprimary hsame _ _ hprimary'
    obtain ⟨rfl, rfl⟩ := hother hsame _ _ hother'
    exact ⟨rfl, rfl⟩
  | containerElement hcontainer =>
    rw [hroot] at hcontainer
    cases hcontainer

theorem containerElement (hroot : type.root.isContainer = true)
    (hcontainer : Sole c m (.container pos type.root (slot.job field)) p b q) :
    Sole c m (.element pos field type slot) p b q := by
  intro hsame b' q' h
  cases h with
  | leafElement hleaf =>
    rw [FieldType.isLeaf_of_isContainer hroot] at hleaf
    cases hleaf
  | recordElement hrecord | eitherElement hrecord =>
    rw [hrecord] at hroot
    cases hroot
  | containerElement _ hcontainer' => exact hcontainer hsame _ _ hcontainer'

end Task.Sole

/-- A call of a local function in scope is all that is written for a record, whatever is mapped
beneath it. -/
theorem Emits.call_unique {job : RecordJob} {type : FieldType} {tested base : Place}
    {inField : Bool} {helper : Helper} {p q : Progress} {b : Code}
    (hneeds : c.needsHelper job.target job.source = true) (hknown : p.helper? job = some helper)
    (h : Emits (c.remap m) (.record pos job type tested base inField) p b q) :
    b = callCode (guardsAbove p pos job.path inField) job.path helper.name tested ∧ q = p := by
  cases h with
  | inline hneeds' => cases hneeds.symm.trans hneeds'
  | call _ hknown' =>
    cases hknown.symm.trans hknown'
    exact ⟨rfl, rfl⟩
  | define _ hnew => cases hknown.symm.trans hnew

/-- **What is written depends on the mappings at a path and beneath it only**: with other mappings
that are the same there, the same is written. -/
theorem Emits.unique {task : Task} {p q q' : Progress} {b b' : Code} (h : Emits c task p b q)
    (hsame : task.Same c m) (h' : Emits (c.remap m) task p b' q') : b' = b ∧ q' = q := by
  -- By induction on the first derivation, for every second one.
  have hsole : task.Sole c m p b q := by
    clear h' hsame
    induction h with
    | noFields =>
      intro _ _ _ h
      cases h
      exact ⟨rfl, rfl⟩
    | moreFields _ _ ihfirst ihrest => exact .moreFields ihfirst ihrest
    | leaf hsources hleaf htype => exact .leaf hsources hleaf htype
    | recordField hsources hroot horigin _ ih => exact .recordField hsources hroot horigin ih
    | containerField hsources hroot _ ih => exact .containerField hsources hroot ih
    | allocated hsources hrecord hmaps htype hrequired _ ih =>
      exact .allocated hsources hrecord hmaps htype hrequired ih
    | deferred hsources hrecord hmaps htype hoptional _ ih =>
      exact .deferred hsources hrecord hmaps htype hoptional ih
    | unset hsources hmaps _ => exact .unset hsources hmaps
    | inline hneeds htype _ ih => exact .inline hneeds htype ih
    | call hneeds hknown => exact fun _ _ _ h => h.call_unique hneeds hknown
    | define hneeds hnew htarget hsource _ ih => exact .define hneeds hnew htarget hsource ih
    | loop hloop hchosen _ ih => exact .loop hloop hchosen ih
    | keys hprimary _ hkeyed _ htype hchosen => exact .keys hprimary hkeyed htype hchosen
    | leafElement hleaf htype => exact .leafElement hleaf htype
    | recordElement hroot hone horigin _ ih => exact .recordElement hroot hone horigin ih
    | eitherElement hroot hflag hstandIn horigin horigin' _ _ ihprimary ihother =>
      exact .eitherElement hroot hflag hstandIn horigin horigin' ihprimary ihother
    | containerElement hroot _ ih => exact .containerElement hroot ih
  exact hsole hsame b' q' h'

/-- Fields are written one after the other. -/
theorem Emits.fields_append {before after : List Field} {p q : Progress} {b : Code}
    (h : Emits c (.fields pos (before ++ after)) p b q) :
    ∃ b₁ b₂ r, b = b₁ ++ b₂ ∧ Emits c (.fields pos before) p b₁ r ∧
      Emits c (.fields pos after) r b₂ q := by
  induction before generalizing p b with
  | nil => exact ⟨.done, b, p, rfl, .noFields, h⟩
  | cons f before ih =>
    cases h with
    | moreFields hfirst hrest =>
      obtain ⟨b₁, b₂, r, rfl, hbefore, hafter⟩ := ih hrest
      exact ⟨_, b₂, r, (Block.append_assoc _ _ _).symm, .moreFields hfirst hbefore, hafter⟩

/-- Assignments to a leaf change nothing that matters to later statements. -/
theorem Emits.progress_of_isLeaf {p q : Progress} {b : Code} (hleaf : f.type.root.isLeaf = true)
    (h : Emits c (.field pos f) p b q) : q = p := by
  cases h with
  | leaf | unset => rfl
  | recordField _ hroot =>
    rw [hroot] at hleaf
    cases hleaf
  | containerField _ hroot =>
    rw [FieldType.isLeaf_of_isContainer hroot] at hleaf
    cases hleaf
  | allocated _ hrecord | deferred _ hrecord =>
    rw [FieldType.root_of_record hrecord] at hleaf
    cases hleaf

end Unique

/-! ## Conversions -/

/-- Some of the mappings lead where they lead among all of them. -/
theorem Schema.followMappings_filter {s : Schema} {fields : List Field} (P : String → Bool) :
    ∀ {mappings : List (String × Mapping)} {mapped : List (String × MappedField)},
      s.followMappings fields mappings = .ok mapped →
        s.followMappings fields (mappings.filter fun e => P e.1) =
          .ok (mapped.filter fun e => P e.1)
  | [], _, h => by
    cases h
    rfl
  | (target, mapping) :: rest, mapped, h => by
    rw [followMappings] at h
    split at h
    · cases h
    · rename_i path field hfound
      cases hrest : s.followMappings fields rest with
      | error cause =>
        rw [hrest] at h
        cases h
      | ok others =>
        rw [hrest] at h
        cases h
        have ih := followMappings_filter P hrest
        -- An entry that is left out was followed without an error, so leaving it out changes no other.
        cases hP : P target with
        | true =>
          rw [List.filter_cons_of_pos (by exact hP), List.filter_cons_of_pos (by exact hP),
            followMappings, hfound]
          show (s.followMappings fields (rest.filter fun e => P e.1) >>= _) = _
          rw [ih]
          rfl
        | false =>
          rw [List.filter_cons_of_neg (by simp [hP]), List.filter_cons_of_neg (by simp [hP]), ih]

namespace ConversionRequest

variable {r : ConversionRequest}

/-- The same conversion with other mappings. -/
def remap (r : ConversionRequest) (mappings : Mappings) : ConversionRequest :=
  { r with mappings }

/-- The mappings of a target field and of what is beneath it. -/
def mappedAt (r : ConversionRequest) (f : Field) : List (String × Mapping) :=
  r.mappings.entries.filter fun e => isAtOrBeneath (r.start.key f) e.1

/-- Fields with the same mappings are written in the same way. -/
theorem same_of_mappedAt {mappings : Mappings} {mapped mapped' : List (String × MappedField)}
    (hmapped : r.schema.followMappings r.source r.mappings.entries = .ok mapped)
    (hmapped' : r.schema.followMappings r.source mappings.entries = .ok mapped') {f : Field}
    (h : (r.remap mappings).mappedAt f = r.mappedAt f) :
    (r.settings mapped).SameBeneath mapped' (r.start.scope ++ r.start.path f) := by
  have hpath : r.start.path f ≠ [] := by
    obtain ⟨s, rest, hselect⟩ := Path.exists_select_eq_append r.start.target (pascal f.name)
    rw [Position.path, hselect]
    exact List.append_ne_nil_of_right_ne_nil _ (List.cons_ne_nil _ _)
  have hwhole : r.start.scope ++ r.start.path f = r.start.path f := List.nil_append _
  have hkey : r.start.key f = (r.start.path f).bare := by rw [Position.key, hwhole]
  have heq : (mappings.entries.filter fun e => isAtOrBeneath (r.start.key f) e.1) =
    r.mappedAt f := h
  have hsame := Schema.followMappings_filter (isAtOrBeneath (r.start.key f)) hmapped'
  rw [heq, mappedAt, Schema.followMappings_filter _ hmapped, hkey] at hsame
  rw [hwhole]
  exact Settings.sameBeneath_of_filter hpath (Except.ok.inj hsame).symm

/-- **Mappings of a field act on that field**: with other mappings of one field of the target, or
beneath it, the statements before it are the same, and so are those after it if it is a leaf. -/
theorem run_local {mappings : Mappings} {before after : List Field} {f : Field}
    (htarget : r.target = before ++ f :: after)
    (hsame : ∀ g ∈ before ++ after, (r.remap mappings).mappedAt g = r.mappedAt g)
    {text text' : List String} (hrun : r.run = .lines text)
    (hrun' : (r.remap mappings).run = .lines text') :
    ∃ (mapped mapped' : List (String × MappedField)) (first own own' last last' : Code)
      (p q q' : Progress),
      text = (preamble (r.settings mapped) ++ (first ++ (own ++ last))).lines.map Line.indented ∧
      text' = (preamble (r.settings mapped') ++
        (first ++ (own' ++ last'))).lines.map Line.indented ∧
      Emits (r.settings mapped) (.field r.start f) p own q ∧
      Emits (r.settings mapped') (.field r.start f) p own' q' ∧
      (f.type.root.isLeaf = true → last' = last) := by
  obtain ⟨b, z, hdraft, rfl⟩ := draft_of_run hrun
  obtain ⟨mapped, body, hmapped, rfl, hemits⟩ := emits_of_draft hdraft
  obtain ⟨b', z', hdraft', rfl⟩ := draft_of_run hrun'
  obtain ⟨mapped', body', hmapped', rfl, hemits'⟩ := emits_of_draft hdraft'
  have hbeneath : ∀ g ∈ before ++ after,
      (r.settings mapped).SameBeneath mapped' (r.start.scope ++ r.start.path g) :=
    fun g hg => same_of_mappedAt hmapped hmapped' (hsame g hg)
  rw [htarget] at hemits
  rw [show (r.remap mappings).target = before ++ f :: after from htarget] at hemits'
  obtain ⟨first, _, p, rfl, hfirst, hrest⟩ := hemits.fields_append
  obtain ⟨first', _, p', rfl, hfirst', hrest'⟩ := hemits'.fields_append
  -- Up to the field both runs emit the same and come to the same progress.
  obtain ⟨hcode, hprogress⟩ :=
    hfirst.unique (fun g hg => hbeneath g (List.mem_append_left _ hg)) hfirst'
  subst hcode hprogress
  cases hrest with
  | @moreFields _ _ _ _ q _ own last hown hlast =>
  cases hrest' with
  | @moreFields _ _ _ _ q' _ own' last' hown' hlast' =>
  refine ⟨mapped, mapped', first', own, own', last, last', p', q, q', rfl, rfl, hown, hown',
    fun hleaf => ?_⟩
  -- A leaf leaves the progress as it was, so the fields after it start from one state again.
  obtain rfl := hown.progress_of_isLeaf hleaf
  obtain rfl := hown'.progress_of_isLeaf hleaf
  exact (hlast.unique (fun g hg => hbeneath g (List.mem_append_right _ hg)) hlast').1

/-! ### A mapping beneath a local function -/

/-- A conversion of two chains, in the second of which a title goes to the name. -/
def twoChains : ConversionRequest :=
  let chain (id : Nat) (name : String) : List Field :=
    [⟨0, "name", false, .text, []⟩, ⟨1, "next", false, .record ⟨id, name, "structs"⟩, []⟩]
  let foo : FieldType := .record ⟨0, "Foo", "structs"⟩
  let bar : FieldType := .record ⟨1, "Bar", "structs"⟩
  { schema := ⟨[(0, chain 0 "Foo"), (1, chain 1 "Bar")]⟩
    resolve := fun _ => .ok "structs"
    source := [⟨0, "first", false, foo, []⟩, ⟨1, "second", false, foo, []⟩,
      ⟨2, "title", false, .text, []⟩]
    target := [⟨0, "first", false, bar, []⟩, ⟨1, "second", false, bar, []⟩]
    mappings := Table.empty.insert "Second.Name" ⟨"Title", true⟩
    optional := [] }

/-- The statements of that conversion. One local function converts both chains. -/
def twoChainsCode : Code :=
  let bar : HelperSignature := ⟨.helper "Bar" 1, .named "structs" "Foo", .named "structs" "Bar"⟩
  .ofList [.keep .wholeInput .input, .keep .wholeOutput .output] ++
    helperCode bar (.ofList [
      .assign ⟨.output, [.field "Name"]⟩ (.convert (.pointer .string) ⟨.input, [.field "Name"]⟩),
      .assign ⟨.output, [.field "Next"]⟩ (.call bar.name ⟨.input, [.field "Next"]⟩)]) ++
    .ofList [
      .assign ⟨.output, [.field "First"]⟩ (.call bar.name ⟨.input, [.field "First"]⟩),
      .assign ⟨.output, [.field "Second"]⟩ (.call bar.name ⟨.input, [.field "Second"]⟩)]

/-- A record of a chain with a name and nothing next. -/
def named (name : String) : GoValue :=
  .record (Function.update (fun _ => .absent) "Name" (.pointer (.leaf .text name)))

/-- Two chains and a title. -/
def titled : String → GoValue :=
  Function.update (Function.update (Function.update (fun _ => .absent)
    "First" (named "f")) "Second" (named "s")) "Title" (.pointer (.leaf .text "t"))

/-- The local function that converts the first chain gives the second one its own name, and the
title is lost. -/
theorem twoChains_title_lost : (∃ q, twoChains.draft {} = .ok ((), twoChainsCode, q)) ∧
    ∀ order depth, (do
      let σ ← RecordBridge.run order (depth + 3) twoChainsCode (.start (.record titled))
      σ.out.get .output [.field "Second", .field "Name"]) = .ok (.pointer (.leaf .text "s")) :=
  ⟨⟨_, by with_unfolding_all rfl⟩, fun order depth => by with_unfolding_all rfl⟩

end ConversionRequest

end RecordBridge

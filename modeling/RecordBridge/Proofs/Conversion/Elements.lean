import RecordBridge.Proofs.Conversion.Chunks

/-!
# What containers are made for

The records in a container are stored there as pointers: to new records, or as they are returned by a local
function (`Code.StoresPointers`). A container of records is made for pointers exactly if the type of its
elements is the record itself, and no alias of it (`ConversionRequest.run_made`). An alias has a Go type of
its own, for which the container is made, so pointers are stored where none belong
(`ConversionRequest.aliasedItems_run`).
-/

namespace RecordBridge

open Draft

/-! ## Types of elements -/

/-- The type of what a Go container is made for. -/
def GoType.element? : GoType → Option GoType
  | .slice element => some element
  | .map _ value => some value
  | _ => none

namespace FieldType

/-- The type of the elements of a container, or of the values of a map. -/
def element? : FieldType → Option FieldType
  | .list element | .set element _ => some element
  | .map _ value => some value
  | _ => none

variable {t : FieldType} {ref : RecordRef} {resolve : Resolver} {go : GoType}

/-- Records cannot be keys. -/
theorem isHashable_of_record (h : t.root = .record ref) : t.isHashable = false := by
  rw [isHashable, h]

/-- A record has a named type in Go, and so has an alias of one. -/
theorem exists_named (hroot : t.root = .record ref) (hgo : t.goType resolve = .ok go) :
    ∃ package name, go = .named package name := by
  have hnamed : ∀ {name file : String}, namedType resolve name file = .ok go →
      ∃ package name, go = .named package name := by
    intro name file h
    rw [namedType] at h
    split at h
    · cases h
      exact ⟨_, _, rfl⟩
    · cases h
  cases t with
  | «alias» _ _ _ => exact hnamed hgo
  | record _ => exact hnamed hgo
  | _ => cases hroot

/-- A record is held by pointer exactly if it does not go by an alias. -/
theorem held_eq_pointer_iff (hroot : t.root = .record ref) (hgo : t.goType resolve = .ok go) :
    t.held go = .pointer go ↔ t = .record ref := by
  obtain ⟨package, name, rfl⟩ := exists_named hroot hgo
  cases t with
  | «alias» _ _ _ => exact ⟨nofun, nofun⟩
  | record _ =>
    cases hroot
    exact ⟨fun _ => rfl, fun _ => rfl⟩
  | _ => cases hroot

end FieldType

/-- The container of a loop is made for what its elements are held as. -/
theorem Loop.Converts.made {c : Settings} {job : ContainerJob} {type : FieldType} {loop : Loop}
    (h : loop.Converts c job type) : type.element? = some loop.element ∧
      ∃ go, loop.element.goType c.resolve = .ok go ∧ loop.made.element? = some (loop.element.held go) := by
  have hheld : ∀ {t : FieldType} {held : GoType}, t.heldType c.resolve = .ok held →
      ∃ go, t.goType c.resolve = .ok go ∧ held = t.held go := by
    intro t held h
    rw [FieldType.heldType] at h
    cases hgo : t.goType c.resolve with
    | error e =>
      rw [hgo] at h
      cases h
    | ok go =>
      rw [hgo] at h
      cases h
      exact ⟨go, rfl, rfl⟩
  cases h with
  | list _ _ htype | set _ _ _ _ htype | map _ _ _ _ htype =>
    obtain ⟨go, hgo, rfl⟩ := hheld htype
    exact ⟨rfl, go, hgo, rfl⟩

/-! ## Local functions that are declared -/

section Declared

variable {c : Settings} {task : Task} {p q : Progress} {a b : Code} {g : Helper} {result : GoType}

/-- The local function `g` is declared, for the record that it converts into, with a result of a type. -/
def Code.Declares (c : Settings) (b : Code) (g : Helper) (result : GoType) : Prop :=
  ∃ signature ref, .declare signature ∈ b.steps ∧ signature.name = g.name ∧ signature.target = result ∧
    ref.id = g.target ∧ (FieldType.record ref).goType c.resolve = .ok result

theorem Code.Declares.mono (h : Code.Declares c a g result) (hsub : a.steps ⊆ b.steps) :
    Code.Declares c b g result := by
  obtain ⟨signature, ref, hmem, h⟩ := h
  exact ⟨signature, ref, hsub hmem, h⟩

/-- A record that is filled in place is made there, and its fields are filled. -/
theorem steps_inlineCode {guards body : Code} {path : Path} {type : GoType} {tested : Place} :
    .assign ⟨.output, path⟩ (.newRecord type) ∈ (inlineCode guards path type tested body).steps ∧
      body.steps ⊆ (inlineCode guards path type tested body).steps := by
  have hfilled : .assign ⟨.output, path⟩ (.newRecord type) :: body.steps ⊆
      (guards ++ .step (.assign ⟨.output, path⟩ (.newRecord type)) body : Code).steps := by
    rw [Block.steps_append, Block.steps_step]
    exact List.subset_append_right _ _
  have hall : .assign ⟨.output, path⟩ (.newRecord type) :: body.steps ⊆
      (inlineCode guards path type tested body).steps := by
    rw [inlineCode]
    split
    · rw [Block.steps_fork]
      exact List.subset_append_of_subset_left _ hfilled
    · rw [Block.steps_nest]
      exact List.subset_append_of_subset_left _ hfilled
  exact List.cons_subset.mp hall

theorem steps_helperCode {helper : HelperSignature} {body : Code} :
    .declare helper ∈ (helperCode helper body).steps ∧ body.steps ⊆ (helperCode helper body).steps := by
  refine ⟨List.mem_cons_self, fun s hs => ?_⟩
  simp [helperCode, helperBlock, hs]

theorem mem_steps_callCode (guards : Code) (path : Path) (helper : Var) (argument : Place) :
    .assign ⟨.output, path⟩ (.call helper argument) ∈ (callCode guards path helper argument).steps := by
  simp [callCode]

theorem Loop.steps_code {loop : Loop} {guards body : Code} {job : ContainerJob} {chosen : Selection} :
    body.steps ⊆ (loop.code guards job chosen body).steps := by
  intro s hs
  simp [Loop.code, hs]

/-- The local functions that come into scope are declared. -/
theorem Emits.declares (h : Emits c task p b q) :
    ∀ g ∈ q.helpers, g ∈ p.helpers ∨ ∃ result, Code.Declares c b g result := by
  induction h with
  | noFields | leaf | unset | call | keys | leafElement | inline | loop => exact fun g hg => .inl hg
  | recordField _ _ _ _ ih | containerField _ _ _ ih | deferred _ _ _ _ _ _ ih
  | recordElement _ _ _ _ ih | containerElement _ _ ih => exact ih
  | moreFields _ _ ih₁ ih₂ =>
    intro g hg
    rcases ih₂ g hg with hg | ⟨result, hresult⟩
    · exact (ih₁ g hg).imp_right fun ⟨result, hresult⟩ => ⟨result, hresult.mono (by simp)⟩
    · exact .inr ⟨result, hresult.mono (by simp)⟩
  | allocated _ _ _ _ _ _ ih =>
    exact fun g hg => (ih g hg).imp_right fun ⟨result, hresult⟩ => ⟨result, hresult.mono (by simp)⟩
  | @define pos job _ _ _ _ p q b targetGo sourceGo _ _ htarget =>
    intro g hg
    -- hg | The helper is declared by the statements before the call; others were declared in its own
    -- block.
    rcases List.mem_cons.mp hg with rfl | hg
    · refine .inr ⟨targetGo, ⟨.helper (pascal job.target.name) (p.counter + 1), sourceGo, targetGo⟩,
        job.target, ?_, rfl, rfl, rfl, htarget⟩
      rw [Block.steps_append]
      exact List.mem_append_left _ steps_helperCode.1
    · exact .inl hg
  | eitherElement _ _ _ _ _ _ _ ih₁ ih₂ =>
    intro g hg
    rcases ih₂ g hg with hg | ⟨result, hresult⟩
    · exact (ih₁ g hg).imp_right fun ⟨result, hresult⟩ => ⟨result, hresult.mono (by simp)⟩
    · exact .inr ⟨result, hresult.mono (by simp)⟩

end Declared

/-- A passage is a part of some statements, which declare all local functions that it finds in scope. -/
structure Passage.StandsIn (c : Settings) (whole : Code) (x : Passage) : Prop where
  steps : x.code.steps ⊆ whole.steps
  declares : ∀ g ∈ x.before.helpers, ∃ result, Code.Declares c whole g result

/-- A part of a passage stands where the passage does. -/
theorem Part.standsIn {c : Settings} {b : Code} {whole part : Passage} (h : Part c whole part)
    (hwhole : whole.Emitted c) (hb : whole.StandsIn c b) : part.StandsIn c b := by
  obtain ⟨hsteps, hdeclares⟩ := hb
  -- What is in scope after a first part was in scope before it, or it is declared there.
  have hafter : ∀ {task : Task} {q : Progress} {b₁ : Code}, Emits c task whole.before b₁ q →
      b₁.steps ⊆ whole.code.steps → ∀ g ∈ q.helpers, ∃ result, Code.Declares c b g result := by
    intro task q b₁ hemits hsub g hg
    rcases hemits.declares g hg with hg | ⟨result, hresult⟩
    · exact hdeclares g hg
    · exact ⟨result, hresult.mono (List.Subset.trans hsub hsteps)⟩
  cases h with
  | firstField => exact ⟨List.Subset.trans (by simp) hsteps, hdeclares⟩
  | otherFields hfirst _ => exact ⟨List.Subset.trans (by simp) hsteps, hafter hfirst (by simp)⟩
  | record | container | deferred | recordElement | containerElement => exact ⟨hsteps, hdeclares⟩
  | allocated => exact ⟨List.Subset.trans (by simp) hsteps, hdeclares⟩
  | inline => exact ⟨List.Subset.trans steps_inlineCode.2 hsteps, hdeclares⟩
  | @define _ _ _ _ _ _ _ _ defined _ helper _ =>
    have hsub : defined.steps ⊆ (helperCode helper defined).steps := steps_helperCode.2
    have hdefined := hafter hwhole.emits (List.Subset.refl _)
    refine ⟨List.Subset.trans (List.Subset.trans hsub ?_) hsteps, hdefined⟩
    rw [Block.steps_append]
    exact List.subset_append_left _ _
  | element => exact ⟨List.Subset.trans Loop.steps_code hsteps, hdeclares⟩
  | primaryElement => exact ⟨List.Subset.trans (by simp) hsteps, hdeclares⟩
  | otherElement hprimary _ => exact ⟨List.Subset.trans (by simp) hsteps, hafter hprimary (by simp)⟩

/-- So does a part of a part. -/
theorem Passage.Emitted.standsIn {c : Settings} {whole part : Passage} (hwhole : whole.Emitted c)
    (hbare : whole.before.helpers = []) (h : Relation.ReflTransGen (Part c) whole part) :
    part.StandsIn c whole.code := by
  induction h with
  | refl => exact ⟨List.Subset.refl _, by simp [hbare]⟩
  | tail hparts hpart ih => exact hpart.standsIn (hwhole.part hparts) ih

/-! ## What is stored -/

section Stored

variable {c : Settings} {whole b : Code} {path : Path} {type : FieldType} {target : RecordRef}

/-- Statements that store records of a type at a path. They store a pointer to a new one, or the pointer
that a local function for the record returns, which is declared among the statements `whole`. -/
inductive Code.StoresPointers (c : Settings) (whole : Code) (path : Path) (type : FieldType)
    (target : RecordRef) : Code → Prop where
  | new {b : Code} {go : GoType} (htype : type.goType c.resolve = .ok go)
      (hstored : .assign ⟨.output, path⟩ (.newRecord go) ∈ b.steps) :
      StoresPointers c whole path type target b
  | returned {b : Code} {g : Helper} {argument : Place} {result : GoType}
      (hdeclared : Code.Declares c whole g result) (htarget : g.target = target.id)
      (hstored : .assign ⟨.output, path⟩ (.call g.name argument) ∈ b.steps) :
      StoresPointers c whole path type target b
  | either {b₁ b₂ : Code} {flag : Var} (h₁ : StoresPointers c whole path type target b₁)
      (h₂ : StoresPointers c whole path type target b₂) :
      StoresPointers c whole path type target (.fork (.ifFlag flag) b₁ b₂ .done)

/-- The statements for a record store pointers. -/
theorem Emits.storesPointers_record {pos : Position} {job : RecordJob} {tested base : Place}
    {inField : Bool} {p q : Progress} (h : Emits c (.record pos job type tested base inField) p b q)
    (hstands : Passage.StandsIn c whole ⟨.record pos job type tested base inField, p, b, q⟩) :
    Code.StoresPointers c whole job.path type job.target b := by
  obtain ⟨hsteps, hdeclares⟩ := hstands
  have hafter := h.declares
  cases h with
  | inline _ htype => exact .new htype steps_inlineCode.1
  | @call _ _ _ _ _ _ _ g _ hknown =>
    obtain ⟨hmem, htarget, -⟩ := Progress.of_helper?_eq_some hknown
    obtain ⟨result, hresult⟩ := hdeclares g hmem
    exact .returned hresult htarget (mem_steps_callCode _ _ _ _)
  | define =>
    obtain ⟨result, hresult⟩ : ∃ result, Code.Declares c whole
        ⟨job.target.id, job.source.id, .helper (pascal job.target.name) (p.counter + 1)⟩ result := by
      rcases hafter _ List.mem_cons_self with hg | ⟨result, hresult⟩
      · exact hdeclares _ hg
      · exact ⟨result, hresult.mono hsteps⟩
    exact .returned hresult rfl ((Block.steps_append _ _).symm ▸
      List.mem_append_right _ (mem_steps_callCode _ _ _ _))

/-- So do the statements for an element that is a record. -/
theorem Emits.storesPointers_element {pos : Position} {field : String} {slot : Slot} {p q : Progress}
    (h : Emits c (.element pos field type slot) p b q) (hroot : type.root = .record target)
    (hspelled : p.deferred.Within fun _ => True)
    (hstands : Passage.StandsIn c whole ⟨.element pos field type slot, p, b, q⟩) :
    Code.StoresPointers c whole slot.path type target b := by
  have hemitted : Passage.Emitted c ⟨.element pos field type slot, p, b, q⟩ := ⟨h, hspelled⟩
  cases h with
  | leafElement hleaf =>
    rw [hroot] at hleaf
    cases hleaf
  | containerElement hcontainer =>
    rw [hroot] at hcontainer
    cases hcontainer
  | recordElement hroot' _ _ hrecord =>
    obtain rfl := FieldType.record.inj (hroot.symm.trans hroot')
    exact hrecord.storesPointers_record ((Part.recordElement hrecord).standsIn hemitted hstands)
  | eitherElement hroot' _ _ _ _ hprimary hother =>
    obtain rfl := FieldType.record.inj (hroot.symm.trans hroot')
    exact .either
      (hprimary.storesPointers_record ((Part.primaryElement hprimary).standsIn hemitted hstands))
      (hother.storesPointers_record ((Part.otherElement hprimary hother).standsIn hemitted hstands))

end Stored

/-! ## Whole conversions -/

/-- A container of records is converted by a loop. It is made for pointers to the Go type of its elements
exactly if they do not go by an alias, and pointers are what the loop stores in its slots. -/
theorem Emits.made {c : Settings} {whole b : Code} {pos : Position} {type element : FieldType}
    {job : ContainerJob} {p q : Progress} {target : RecordRef} (h : Emits c (.container pos type job) p b q)
    (hspelled : p.deferred.Within fun _ => True)
    (hstands : Passage.StandsIn c whole ⟨.container pos type job, p, b, q⟩)
    (helement : type.element? = some element) (hroot : element.root = .record target) :
    ∃ loop guards chosen inner go, b = Loop.code loop guards job chosen inner ∧
      element.goType c.resolve = .ok go ∧ loop.made.element? = some (element.held go) ∧
      (element.held go = .pointer go ↔ element = .record target) ∧
      Code.StoresPointers c whole (loop.slot job chosen.flag chosen.counter).path element target inner := by
  have hemitted : Passage.Emitted c ⟨.container pos type job, p, b, q⟩ := ⟨h, hspelled⟩
  cases h with
  | keys _ _ _ hhashable =>
    cases helement
    rw [FieldType.isHashable_of_record hroot] at hhashable
    cases hhashable
  | @loop _ _ _ _ _ inner loop chosen hloop _ hinner =>
    obtain ⟨hsame, go, hgo, hmade⟩ := hloop.made
    obtain rfl := Option.some.inj (hsame.symm.trans helement)
    exact ⟨loop, _, chosen, inner, go, rfl, hgo, hmade, FieldType.held_eq_pointer_iff hroot hgo,
      hinner.storesPointers_element hroot hspelled ((Part.element hinner).standsIn hemitted hstands)⟩

namespace ConversionRequest

/-- **What containers are made for.** Wherever a conversion that finishes converts a container of records,
it does so by a loop that stores pointers in the slots, and the container is made for pointers exactly if
the type of its elements is the record itself and no alias of it. -/
theorem run_made {r : ConversionRequest} {text : List String} (hrun : r.run = .lines text) :
    ∃ mapped body last, r.schema.followMappings r.source r.mappings.entries = .ok mapped ∧
      text = (preamble (r.settings mapped) ++ body).lines.map Line.indented ∧
      Emits (r.settings mapped) (.fields r.start r.target) {} body last ∧
      ∀ pos type job p b q element target,
        Relation.ReflTransGen (Part (r.settings mapped)) ⟨.fields r.start r.target, {}, body, last⟩
          ⟨.container pos type job, p, b, q⟩ →
        type.element? = some element → element.root = .record target →
        ∃ loop guards chosen inner go, b = Loop.code loop guards job chosen inner ∧
          element.goType r.resolve = .ok go ∧ loop.made.element? = some (element.held go) ∧
          (element.held go = .pointer go ↔ element = .record target) ∧
          Code.StoresPointers (r.settings mapped) body
            (loop.slot job chosen.flag chosen.counter).path element target inner := by
  obtain ⟨b, last, hdraft, rfl⟩ := draft_of_run hrun
  obtain ⟨mapped, body, hmapped, rfl, hemits⟩ := emits_of_draft hdraft
  refine ⟨mapped, body, last, hmapped, rfl, hemits, ?_⟩
  intro pos type job p b q element target hpart helement hroot
  have hbegin : Passage.Emitted (r.settings mapped) ⟨.fields r.start r.target, {}, body, last⟩ :=
    ⟨hemits, .empty⟩
  have hemitted := hbegin.part hpart
  exact hemitted.emits.made hemitted.spelled (hbegin.standsIn rfl hpart) helement hroot

/-! ### Records that go by an alias -/

/-- A conversion of a list of records to a list of the same records under an alias. -/
def aliasedItems : ConversionRequest :=
  let item : RecordRef := ⟨0, "Foo", "structs.thrift"⟩
  { schema := ⟨[(0, [⟨1, "name", true, .text, []⟩])]⟩
    resolve := fun _ => .ok "structs"
    source := [⟨0, "one", false, .list (.record item), []⟩]
    target := [⟨0, "one", false, .list (.alias "Bar" "structs.thrift" (.record item)), []⟩]
    mappings := .empty
    optional := [] }

/-- Pointers are stored in a slice that is made for records. -/
theorem aliasedItems_run : aliasedItems.run = .lines
    ["out.One = make([]structs.Bar, len(in.One))",
      "for index1, value2 := range in.One \x7b",
      "\tif value2 != nil \x7b",
      "\t\tout.One[index1] = &structs.Bar\x7b\x7d",
      "\t\tout.One[index1].Name = string(in.One[index1].Name)",
      "\t\x7d else \x7b",
      "\t\tout.One[index1] = nil",
      "\t\x7d",
      "\x7d"] := by
  decide +kernel

end ConversionRequest

end RecordBridge

import RecordBridge.Proofs.Descriptor.Lowering

/-!
# What failures of lowering leave behind

A call that fails leaves the messages that it was entering: they stay entered, without fields, and
no later call lowers them. So the invariant between calls is the one that holds while messages are
being entered, with those of all failed calls on the stack for good (`Resting`).

- `descend_fails`: a failure leaves a longer stack, and has a reason in what is declared. No image
  can be given of the message even with the messages on the stack left without fields;
- `Resting.lower`, `Resting.calls`: one call, and any number of them;
- `exists_lower_iff`: a call after any others fails exactly if no images can be given of its message
  and of those met from it, other than past the messages that failed before;
- `lower_of_failed`: so a message fails once. From then on it is a record without fields;
- `lower_of_lower_nil`: failures do no harm to what could be lowered to begin with.
-/

namespace RecordBridge

/-- Images can be given of a message and of all messages that are met from it, except for some that
need none. -/
def Lowerable (files : List FileDescriptor) (failed : List String) (name : String) : Prop :=
  ∃ known : String → Prop, known name ∧ ∀ n, known n → n ∉ failed → HasImage files known n

namespace Registry

/-- The messages that are entered and have no fields. -/
def abandoned (r : Registry) (l : Lowered) : List String :=
  l.entered.filter fun name => (l.schema.records.lookup (r.position name)).isNone

/-- What has been lowered after calls in order, of which any may have failed. -/
def calls (r : Registry) (names : List String) (l : Lowered) : Lowered :=
  names.foldl (fun l name => (r.lower name l).2) l

end Registry

section Lowerable

variable {files : List FileDescriptor} {failed failed' : List String} {name : String}

/-- An image stays one if more names are known. -/
theorem HasImage.mono {known known' : String → Prop} (h : HasImage files known name)
    (hsub : ∀ n, known n → known' n) : HasImage files known' name := by
  obtain ⟨m, fields, hm, hfields⟩ := h
  exact ⟨m, fields, hm, hfields.imp fun _ _ hf => hf.mono fun n _ => hsub n⟩

/-- With more names that have failed before, no fewer can be lowered: a failed name counts as known. -/
theorem Lowerable.mono (h : Lowerable files failed name) (hsub : failed ⊆ failed') :
    Lowerable files failed' name := by
  obtain ⟨known, hname, hknown⟩ := h
  exact ⟨known, hname, fun n hn hfailed => hknown n hn fun hmem => hfailed (hsub hmem)⟩

/-- The messages that can be lowered have images with each other's records. -/
theorem Lowerable.hasImage (h : Lowerable files failed name) (hname : name ∉ failed) :
    HasImage files (Lowerable files failed) name := by
  obtain ⟨known, hknown, himage⟩ := h
  exact (himage name hknown hname).mono fun n hn => ⟨known, hn, himage⟩

end Lowerable

namespace Lowering

/-! ## Failures -/

section Failures

variable (files : List FileDescriptor) (known : String → Prop)

/-- What a failure leaves while the messages on a stack are being entered: more messages on the
stack, none of them known. -/
def Left (stack : List String) (l : Lowered) : Prop :=
  ∃ more, Sound files (more ++ stack) l ∧ ∀ name ∈ more, ¬ known name

/-- From some state on a way of lowering fails only for a reason, and leaves a longer stack. -/
structure Fails {α : Type} (stack : List String) (x : Lowering α) (l : Lowered) (reason : Prop) :
    Prop where
  fails : ∀ {e l'}, x.run l = (.error e, l') → Left files known stack l' ∧ reason

end Failures

section Steps

variable {files : List FileDescriptor} {known : String → Prop} {stack failed : List String}
  {depth : Nat} {l l' : Lowered}

namespace Fails

variable {α β : Type} {reason reason' : Prop}

theorem pure {a : α} : Fails files known stack (pure a : Lowering α) l reason :=
  ⟨fun heq => nomatch heq⟩

/-- A failure with its reason. -/
theorem throw {e : PluginError} (hl : Within files stack depth l) (h : reason) :
    Fails files known stack (throw e : Lowering α) l reason := by
  refine ⟨fun heq => ?_⟩
  cases heq
  exact ⟨⟨[], hl.sound, fun _ hn => absurd hn List.not_mem_nil⟩, h⟩

theorem get {f : Lowered → Lowering β} (h : Fails files known stack (f l) l reason) :
    Fails files known stack (MonadState.get >>= f) l reason :=
  ⟨h.fails⟩

/-- A failure after a name was entered. -/
theorem enter {name : String} {f : Unit → Lowering β}
    (h : Fails files known stack (f ()) { l with entered := name :: l.entered } reason) :
    Fails files known stack (Lowering.enter name >>= f) l reason :=
  ⟨h.fails⟩

/-- A failure after fields were attached. -/
theorem attach {ref : RecordRef} {fields : List Field} {f : Unit → Lowering β}
    (h : Fails files known stack (f ())
      { l with schema := ⟨l.schema.records ++ [(ref.id, fields)]⟩ } reason) :
    Fails files known stack (Lowering.attach ref fields >>= f) l reason :=
  ⟨h.fails⟩

/-- The reason for a failure may be weakened. -/
theorem imp {x : Lowering α} (hx : Fails files known stack x l reason) (h : reason → reason') :
    Fails files known stack x l reason' :=
  ⟨fun heq => (hx.fails heq).imp_right h⟩

/-- A message that is not known stays on the stack after a failure within it. -/
theorem pop {x : Lowering α} {name : String} (hx : Fails files known (name :: stack) x l reason)
    (h : reason → ¬ known name) : Fails files known stack x l (¬ known name) := by
  refine ⟨fun heq => ?_⟩
  obtain ⟨⟨more, hmore, hnot⟩, hreason⟩ := hx.fails heq
  refine ⟨⟨more ++ [name], by simpa using hmore, fun n hn => ?_⟩, h hreason⟩
  rcases List.mem_append.mp hn with hn | hn
  · exact hnot n hn
  · rw [List.mem_singleton.mp hn]
    exact h hreason

/-- Steps one after the other, of which the first is known to keep the invariant. -/
theorem after {x : Lowering α} {f : α → Lowering β} {Q : α → Lowered → Prop}
    (hl : Within files stack depth l) (hagree : Agree x x l fun a => After files stack l (Q a))
    (hx : Fails files known stack x l reason)
    (hf : ∀ a l', Within files stack depth l' → Fails files known stack (f a) l' reason) :
    Fails files known stack (x >>= f) l reason := by
  refine ⟨fun {e l''} heq => ?_⟩
  rw [run_bind] at heq
  rcases hxl : x.run l with ⟨e' | a, l'⟩
  · rw [hxl] at heq
    cases heq
    exact hx.fails hxl
  · rw [hxl] at heq
    have ha := hagree.ends hxl
    have hl' : Within files stack depth l' :=
      ⟨ha.sound, Nat.lt_of_le_of_lt (unentered_mono ha.entered) hl.unentered⟩
    exact (hf a l' hl').fails heq

end Fails

/-! ## Fields -/

section Fields

variable {lower : String → Lowering RecordRef} (h : Unambiguous files)
  (hlower : ∀ name l, Within files stack depth l → Agree (lower name) (lower name) l
    fun ref => After files stack l fun l' => IsEntered files l' name ref)
  (hfails : ∀ name l, Within files stack depth l →
    Fails files known stack (lower name) l (¬ known name))
  (owner : String) (field : FieldDescriptor)

include h hlower hfails

/-- The scalar types have images, whatever is known, so only the other ones can fail. -/
theorem valueType_fails (hl : Within files stack depth l) :
    Fails files known stack (valueType (.ofFiles files) lower owner field) l
      (¬ ∃ t, ValueImage files (fun n _ => known n) field t) := by
  unfold valueType
  cases htype : field.type
  -- An enum fails if it is not declared.
  case enum =>
    cases he : (Registry.ofFiles files).enum? field.typeName with
    | none =>
      refine .throw hl ?_
      rintro ⟨_, ht⟩
      obtain ⟨e, he'⟩ := ht.of_enum htype
      rw [(Registry.enum?_ofFiles h).mpr he'] at he
      cases he
    | some e => exact .pure
  case message =>
    have hmessage := hfails field.typeName l hl
    refine .after hl (hlower field.typeName l hl) (hmessage.imp fun hnot => ?_) fun _ _ _ => .pure
    rintro ⟨_, ht⟩
    obtain ⟨-, hknown⟩ := ht.of_message htype
    exact hnot hknown
  case group => exact .throw hl fun ⟨_, ht⟩ => ht.not_group htype
  all_goals exact .pure

/-- An entry fails for the field that it lacks, or for the type of one of its two fields. -/
theorem entryType_fails (entry : MessageDescriptor) (number : Nat)
    (hl : Within files stack depth l) :
    Fails files known stack (entryType (.ofFiles files) lower owner field entry number) l
      (¬ ∃ inner t, entry.fields.find? (·.number == Int.ofNat number) = some inner ∧
        ValueImage files (fun n _ => known n) inner t) := by
  unfold entryType
  cases hfind : entry.fields.find? fun inner => inner.number == Int.ofNat number with
  | none => exact .throw hl (by simp)
  | some inner =>
    refine (valueType_fails h hlower hfails owner inner hl).imp fun hnot => ?_
    rintro ⟨inner', t, hinner, ht⟩
    obtain rfl := Option.some.inj hinner
    exact hnot ⟨t, ht⟩

/-- A field fails if it has no image: a map by its entry, and any other by its value. -/
theorem typeOf_fails (hl : Within files stack depth l) :
    Fails files known stack (typeOf (.ofFiles files) lower owner field) l
      (¬ ∃ t, TypeImage files (fun n _ => known n) field t) := by
  unfold typeOf
  cases hentry : mapEntry? (.ofFiles files) field with
  | some entry =>
    -- Any image of the field is a map, so what is missing is the image of its key or of its value.
    have hrepeats := (mapEntry?_eq_some h).mp hentry
    refine .after hl (entryType_agree h hlower owner field entry 1 hl)
      ((entryType_fails h hlower hfails owner field entry 1 hl).imp fun hnot => ?_)
      fun _ l₁ hl₁ => ?_
    · rintro ⟨t, ht⟩
      obtain ⟨key, _, keyType, _, hkey, -, hkeyType, -⟩ := ht.of_repeatsEntry h hrepeats
      exact hnot ⟨key, keyType, hkey, hkeyType⟩
    refine .after hl₁ (entryType_agree h hlower owner field entry 2 hl₁)
      ((entryType_fails h hlower hfails owner field entry 2 hl₁).imp fun hnot => ?_)
      fun _ _ _ => .pure
    rintro ⟨t, ht⟩
    obtain ⟨_, value, _, valueType, -, hvalue, -, hvalueType⟩ := ht.of_repeatsEntry h hrepeats
    exact hnot ⟨value, valueType, hvalue, hvalueType⟩
  | none =>
    refine .after hl (valueType_agree h hlower owner field hl)
      ((valueType_fails h hlower hfails owner field hl).imp fun hnot => ?_) fun _ _ _ => .pure
    rintro ⟨t, ht⟩
    refine hnot (ht.value fun entry hrepeats => ?_)
    rw [(mapEntry?_eq_some h).mpr hrepeats] at hentry
    cases hentry

/-- Fields fail as the first of them does that has no image. -/
theorem fieldsOf_fails (proto3 : Bool) (first : Nat) (fields : List FieldDescriptor)
    (hl : Within files stack depth l) :
    Fails files known stack (fieldsOf (.ofFiles files) lower owner proto3 first fields) l
      (¬ ∃ fs, List.Forall₂ (FieldImage files fun n _ => known n) fields fs) := by
  induction fields generalizing first l with
  | nil => exact .pure
  | cons field rest ih =>
    refine .after hl (typeOf_agree h hlower owner field hl)
      ((typeOf_fails h hlower hfails owner field hl).imp fun hnot => ?_) fun _ l₁ hl₁ => ?_
    · rintro ⟨_, _ | ⟨⟨-, ht⟩, -⟩⟩
      exact hnot ⟨_, ht⟩
    refine .after hl₁ (fieldsOf_agree h hlower owner proto3 (first + 1) rest hl₁)
      ((ih (first + 1) hl₁).imp fun hnot => ?_) fun _ _ _ => .pure
    rintro ⟨_, _ | ⟨-, hrest⟩⟩
    exact hnot ⟨_, hrest⟩

end Fields

/-! ## Messages -/

variable (h : Unambiguous files) (hknown : ∀ n, known n → n ∉ failed → HasImage files known n)

include h hknown

section Step

variable {lower : String → Lowering RecordRef} {name : String}
  (hl : Within files stack (depth + 1) l) (hfailed : failed ⊆ stack)
  (hlower : ∀ n l, Within files (name :: stack) depth l → Agree (lower n) (lower n) l
    fun ref => After files (name :: stack) l fun l' => IsEntered files l' n ref)
  (hfails : ∀ n l, Within files (name :: stack) depth l →
    Fails files known (name :: stack) (lower n) l (¬ known n))

include hl hfailed hlower hfails

/-- A message that fails while it is being entered stays on the stack. It is none of those that can
be lowered, for these have images. -/
theorem step_fails_of_declares {m : RegisteredMessage} (hm : Declares files name m) :
    Fails files known (name :: stack) (step (.ofFiles files) lower name) l (¬ known name) := by
  unfold step
  rw [(Registry.message?_ofFiles h).mpr hm]
  refine .get ?_
  by_cases hname : name ∈ l.entered
  · rw [if_pos (List.contains_iff_mem.mpr hname)]
    exact .pure
  · rw [if_neg (mt List.contains_iff_mem.mp hname)]
    have hl' := hl.enter hm hname
    -- The message is not among the failed ones, which have all been entered, so it has an image if
    -- it is known. This is what its fields have none of.
    refine .enter (.after hl'
      (fieldsOf_agree h hlower name m.proto3 _ m.descriptor.fields hl')
      ((fieldsOf_fails h hlower hfails name m.proto3 _ m.descriptor.fields hl').imp
        fun hnot hname' => ?_) fun _ _ _ => .attach .pure)
    obtain ⟨m', fields, hm', hfields⟩ := hknown name hname' fun hmem =>
      hname (hl.sound.stacked (hfailed hmem))
    rw [h.messages _ _ _ hm' hm] at hfields
    exact hnot ⟨fields, hfields⟩

/-- One level of lowering fails for a name that is not declared, or for its fields. Names that have
failed before do not fail again. -/
theorem step_fails :
    Fails files known stack (step (.ofFiles files) lower name) l (¬ known name) := by
  by_cases hm : ∃ m, Declares files name m
  · obtain ⟨m, hm⟩ := hm
    exact (step_fails_of_declares h hknown hl hfailed hlower hfails hm).pop id
  · have hnone : (Registry.ofFiles files).message? name = none :=
      Option.eq_none_iff_forall_ne_some.mpr fun m hfound =>
        hm ⟨m, (Registry.message?_ofFiles h).mp hfound⟩
    unfold step
    rw [hnone]
    refine .throw hl fun hname => hm ?_
    obtain ⟨m, -, hm', -⟩ := hknown name hname fun hmem =>
      hm (hl.sound.declared name (hl.sound.stacked (hfailed hmem)))
    exact ⟨m, hm'⟩

end Step

/-- By induction on the levels, of which there are at least as many as messages to be entered. -/
theorem descend_fails (bottom : String → Lowering RecordRef) {levels : Nat} {name : String}
    (hl : Within files stack depth l) (hfailed : failed ⊆ stack) (hlevels : depth ≤ levels) :
    Fails files known stack (descend (.ofFiles files) bottom levels name) l (¬ known name) := by
  -- On the number of messages left to enter, as for the calls that end.
  induction depth generalizing levels stack name l with
  | zero => exact absurd hl.unentered (Nat.not_lt_zero _)
  | succ depth ih =>
    obtain ⟨levels, rfl⟩ := Nat.exists_eq_add_of_le' hlevels
    have hlevels : depth ≤ levels + depth := Nat.le_add_left _ _
    exact step_fails h hknown hl hfailed
      (fun _ _ hl => descend_agree h bottom bottom hl hlevels hlevels)
      fun _ _ hl => ih hl (fun _ hn => List.mem_cons_of_mem _ (hfailed hn)) hlevels

/-- A failure below a message, which is on the stack then. -/
theorem descend_fails_of_declares (bottom : String → Lowering RecordRef) {levels : Nat}
    {name : String} {m : RegisteredMessage} (hm : Declares files name m)
    (hl : Within files stack (depth + 1) l) (hfailed : failed ⊆ stack) (hlevels : depth ≤ levels) :
    Fails files known (name :: stack) (descend (.ofFiles files) bottom (levels + 1) name) l
      (¬ known name) :=
  step_fails_of_declares h hknown hl hfailed
    (fun _ _ hl => descend_agree h bottom bottom hl hlevels hlevels)
    (fun _ _ hl => descend_fails h hknown bottom hl
      (fun _ hn => List.mem_cons_of_mem _ (hfailed hn)) hlevels) hm

end Steps

/-! ## The state between calls -/

section Calls

variable {files : List FileDescriptor} {stack failed : List String} {l l' : Lowered} {name : String}

/-- The messages without fields are those on the stack. -/
theorem Sound.mem_abandoned (h : Unambiguous files) (hl : Sound files stack l) :
    name ∈ (Registry.ofFiles files).abandoned l ↔ name ∈ stack := by
  rw [Registry.abandoned, List.mem_filter, Option.isNone_iff_eq_none]
  constructor
  · rintro ⟨hname, hlookup⟩
    by_contra hstack
    obtain ⟨m, fields, -, hfields, -⟩ := hl.attached name hname hstack
    rw [hlookup] at hfields
    cases hfields
  · exact fun hname => ⟨hl.stacked hname, hl.unattached h hname⟩

/-- Only which names are on the stack matters. -/
theorem Sound.congr {stack' : List String} (hl : Sound files stack l)
    (hstack : ∀ n, n ∈ stack' ↔ n ∈ stack) : Sound files stack' l where
  declared := hl.declared
  stacked _ hn := hl.stacked ((hstack _).mp hn)
  attached n hn hn' := hl.attached n hn (mt (hstack n).mpr hn')
  keys entry hentry := by
    obtain ⟨n, hn, hn', hkey⟩ := hl.keys entry hentry
    exact ⟨n, hn, mt (hstack n).mp hn', hkey⟩
  once := hl.once

/-- The state between calls of which any may have failed. The messages that failed have no fields,
and they could not have been lowered. -/
structure Resting (files : List FileDescriptor) (l : Lowered) : Prop where
  sound : Sound files ((Registry.ofFiles files).abandoned l) l
  failed : ∀ name ∈ (Registry.ofFiles files).abandoned l, ¬ Lowerable files [] name

/-- The invariant of a stack whose messages all failed. -/
theorem Sound.resting (h : Unambiguous files) (hl : Sound files stack l)
    (hstack : ∀ name ∈ stack, ¬ Lowerable files [] name) : Resting files l where
  sound := hl.congr fun _ => hl.mem_abandoned h
  failed name hname := hstack name ((hl.mem_abandoned h).mp hname)

/-- Before the first call nothing was abandoned. -/
theorem resting_nil (h : Unambiguous files) : Resting files {} :=
  between_nil.sound.resting h fun _ hn => absurd hn List.not_mem_nil

/-- What a call does that ends. -/
theorem Resting.ends (h : Unambiguous files) (hl : Resting files l) {ref : RecordRef}
    (hrun : (Registry.ofFiles files).lower name l = (.ok ref, l')) :
    After files ((Registry.ofFiles files).abandoned l) l
      (fun l' => IsEntered files l' (fullName name) ref) l' := by
  rw [Registry.lower, named, message_eq_descend] at hrun
  exact (descend_agree h (message _ 0) (message (.ofFiles files) 0) hl.sound.within (Nat.le_refl _)
    (Nat.le_refl _)).ends hrun

/-- What a call does that fails. -/
theorem Resting.fails (h : Unambiguous files) (hl : Resting files l) {e : PluginError}
    (hrun : (Registry.ofFiles files).lower name l = (.error e, l')) :
    Left files (Lowerable files ((Registry.ofFiles files).abandoned l))
      ((Registry.ofFiles files).abandoned l) l' ∧
    ¬ Lowerable files ((Registry.ofFiles files).abandoned l) (fullName name) := by
  rw [Registry.lower, named, message_eq_descend] at hrun
  exact (descend_fails h (fun n hn hn' => hn.hasImage hn') _ hl.sound.within (List.Subset.refl _)
    (Nat.le_refl _)).fails hrun

/-- A declared message that fails is left without fields. -/
theorem Resting.mem_abandoned (h : Unambiguous files) (hl : Resting files l)
    {m : RegisteredMessage} (hm : Declares files (fullName name) m) {e : PluginError}
    (hrun : (Registry.ofFiles files).lower name l = (.error e, l')) :
    fullName name ∈ (Registry.ofFiles files).abandoned l' := by
  rw [Registry.lower, named, message_eq_descend] at hrun
  have hfails := descend_fails_of_declares h
    (fun n (hn : Lowerable files [] n) hn' => hn.hasImage hn') (message (.ofFiles files) 0) hm
    hl.sound.within (List.nil_subset _) (Nat.le_refl _)
  obtain ⟨⟨more, hmore, -⟩, -⟩ := hfails.fails hrun
  exact (hmore.mem_abandoned h).mpr (List.mem_append_right _ List.mem_cons_self)

/-- A message without fields is not lowered again. -/
theorem Resting.lower_of_abandoned (h : Unambiguous files) (hl : Resting files l)
    (hname : fullName name ∈ (Registry.ofFiles files).abandoned l) :
    (Registry.ofFiles files).lower name l = (.ok (recordOf files (fullName name)), l) ∧
      l.schema.records.lookup (recordOf files (fullName name)).id = none := by
  have hentered := hl.sound.stacked hname
  obtain ⟨m, hm⟩ := hl.sound.declared _ hentered
  -- The message is found and has been entered, which ends the call before anything is changed.
  rw [recordOf_eq h hm, Registry.lower, named, message]
  simp only [(Registry.message?_ofFiles h).mpr hm]
  refine ⟨?_, hl.sound.unattached h hname⟩
  show (ite _ _ _ : Lowering RecordRef).run l = _
  rw [if_pos (List.contains_iff_mem.mpr hentered)]
  rfl

/-- A message without fields stays so. -/
theorem Resting.abandoned_lower (h : Unambiguous files) (hl : Resting files l) (name : String) :
    (Registry.ofFiles files).abandoned l ⊆
      (Registry.ofFiles files).abandoned ((Registry.ofFiles files).lower name l).2 := by
  intro n hn
  rcases hrun : (Registry.ofFiles files).lower name l with ⟨e | ref, l'⟩
  · obtain ⟨⟨more, hmore, -⟩, -⟩ := hl.fails h hrun
    exact (hmore.mem_abandoned h).mpr (List.mem_append_right _ hn)
  · exact ((hl.ends h hrun).sound.mem_abandoned h).mpr hn

/-- One call. -/
theorem Resting.lower (h : Unambiguous files) (hl : Resting files l) (name : String) :
    Resting files ((Registry.ofFiles files).lower name l).2 := by
  rcases hrun : (Registry.ofFiles files).lower name l with ⟨e | ref, l'⟩
  · obtain ⟨⟨more, hmore, hnot⟩, -⟩ := hl.fails h hrun
    refine hmore.resting h fun n hn => ?_
    rcases List.mem_append.mp hn with hn | hn
    · exact mt (fun hn => hn.mono (List.nil_subset _)) (hnot n hn)
    · exact hl.failed n hn
  · exact (hl.ends h hrun).sound.resting h hl.failed

/-- Any number of calls. -/
theorem Resting.calls (h : Unambiguous files) (hl : Resting files l) (names : List String) :
    Resting files ((Registry.ofFiles files).calls names l) := by
  induction names generalizing l with
  | nil => exact hl
  | cons name rest ih => exact ih (hl.lower h name)

/-- What was abandoned stays so, whatever is called later. -/
theorem Resting.abandoned_calls (h : Unambiguous files) (hl : Resting files l)
    (names : List String) : (Registry.ofFiles files).abandoned l ⊆
      (Registry.ofFiles files).abandoned ((Registry.ofFiles files).calls names l) := by
  induction names generalizing l with
  | nil => exact List.Subset.refl _
  | cons name rest ih =>
    exact fun n hn => ih (hl.lower h name) (hl.abandoned_lower h name hn)

/-- A call fails exactly if no images can be given of what it is to lower. -/
theorem Resting.exists_lower_iff (h : Unambiguous files) (hl : Resting files l) :
    (∃ ref l', (Registry.ofFiles files).lower name l = (.ok ref, l')) ↔
      Lowerable files ((Registry.ofFiles files).abandoned l) (fullName name) := by
  constructor
  · rintro ⟨ref, l', hrun⟩
    have hafter := hl.ends h hrun
    exact ⟨(· ∈ l'.entered), hafter.holds.1, fun n hn hn' => hafter.sound.hasImage hn hn'⟩
  · intro hname
    rcases hrun : (Registry.ofFiles files).lower name l with ⟨e | ref, l'⟩
    · exact absurd hname (hl.fails h hrun).2
    · exact ⟨ref, l', rfl⟩

end Calls

end Lowering

/-! ## Calls after failures -/

namespace Registry

open Lowering

variable {files : List FileDescriptor} (h : Unambiguous files) (names : List String)
  {name : String}

include h

/-- A call after any others gives a record exactly if images can be given of its message and of the
messages that are met from it, past those that were left without fields. -/
theorem exists_lower_iff :
    (∃ ref l', (ofFiles files).lower name ((ofFiles files).calls names {}) = (.ok ref, l')) ↔
      Lowerable files ((ofFiles files).abandoned ((ofFiles files).calls names {}))
        (fullName name) :=
  ((resting_nil h).calls h names).exists_lower_iff h

/-- Failures do no harm to a message that can be lowered by a first call: after any calls it gets the
same record, which is an image of what is declared. -/
theorem lower_of_lower_nil {ref : RecordRef} {l : Lowered}
    (hrun : (ofFiles files).lower name {} = (.ok ref, l)) :
    ∃ l', (ofFiles files).lower name ((ofFiles files).calls names {}) = (.ok ref, l') ∧
      l'.schema.ImageOf files (recordOf files) [fullName name] := by
  have hl := (resting_nil h).calls h names
  have hname : Lowerable files [] (fullName name) := ((resting_nil h).exists_lower_iff h).mp
    ⟨ref, l, hrun⟩
  obtain ⟨ref', l', hrun'⟩ := (hl.exists_lower_iff h).mpr (hname.mono (List.nil_subset _))
  have hafter := hl.ends h hrun'
  -- None of the messages that failed is met, for these could not have been lowered by a first call.
  have hknown : ∀ n, Lowerable files [] n → n ∉ (ofFiles files).abandoned _ ∧
      HasImage files (Lowerable files []) n :=
    fun n hn => ⟨fun hmem => hl.failed n hmem hn, hn.hasImage List.not_mem_nil⟩
  have href : ref' = ref := ((hafter.holds.eq_recordOf h).1).trans
    (((resting_nil h).ends h hrun).holds.eq_recordOf h).1.symm
  refine ⟨l', href ▸ hrun', hafter.sound.imageOf h hknown fun n hn => ?_⟩
  rw [List.mem_singleton.mp hn]
  exact ⟨hname, hafter.holds.1⟩

/-- A message fails once. Whatever is called after the failure, it is then a record without fields,
and so is every other message that was left while it was being entered. -/
theorem lower_of_failed {n : String} {m : RegisteredMessage} {e : PluginError} {l : Lowered}
    (hm : Declares files (fullName name) m)
    (hrun : (ofFiles files).lower name ((ofFiles files).calls names {}) = (.error e, l))
    (hn : fullName n = fullName name ∨ fullName n ∈ (ofFiles files).abandoned l)
    (later : List String) :
    ∃ ref, (ofFiles files).lower n ((ofFiles files).calls later l) =
        (.ok ref, (ofFiles files).calls later l) ∧
      ((ofFiles files).calls later l).schema.records.lookup ref.id = none := by
  have hl := (resting_nil h).calls h names
  have hfailed : fullName name ∈ (ofFiles files).abandoned l := hl.mem_abandoned h hm hrun
  have hresting : Resting files l := by
    have hlower := hl.lower h name
    rwa [hrun] at hlower
  have hleft : fullName n ∈ (ofFiles files).abandoned l := hn.elim (fun heq => heq ▸ hfailed) id
  exact ⟨_, (hresting.calls h later).lower_of_abandoned h (hresting.abandoned_calls h later hleft)⟩

end Registry

/-- A message with a group, which has no image, and a message that refers to it. -/
def grouped : List FileDescriptor :=
  [{ name := "old.proto", package := "", syntaxName := "proto2", goPackage := "", enums := []
     messages :=
      [.mk "Old" [⟨"data", 1, .optional, .group, ".Old.Data", false, false⟩] [] [] false,
        .mk "Holder" [⟨"old", 1, .optional, .message, ".Old", false, false⟩] [] [] false] }]

/-- The message with the group fails, and so does its holder. After that the holder is lowered, and so is
the message, without any fields. -/
theorem Registry.grouped_lowered :
    ((ofFiles grouped).lower "Holder" {}).1 =
      .error (.unsupported ".Old.data" "groups have no Go field mapping") ∧
    ((ofFiles grouped).lower "Old" {}).1 =
      .error (.unsupported ".Old.data" "groups have no Go field mapping") ∧
    ((ofFiles grouped).lower "Holder" ((ofFiles grouped).calls ["Holder"] {})).1 =
      .ok ⟨0, "Holder", "old.proto"⟩ ∧
    ((ofFiles grouped).lower "Old" ((ofFiles grouped).calls ["Holder"] {})).1 =
      .ok ⟨1, "Old", "old.proto"⟩ ∧
    ((ofFiles grouped).calls ["Holder"] {}).schema.records = [] := by
  decide +kernel

end RecordBridge

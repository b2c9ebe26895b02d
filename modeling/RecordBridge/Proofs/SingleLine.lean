import RecordBridge.Conversion.Statement
import RecordBridge.Deferred
import RecordBridge.Header.Statement
import RecordBridge.Proofs.Naming
import RecordBridge.Proofs.Spelling

/-!
# Texts without line feeds

A text that holds no line feed is a single line (`IsSingle`). Go names and pieces of single lines are
single lines, and so is what is spelled with them: variables, types, places, statements and heads.
-/

namespace RecordBridge

/-- A text that holds no line feed. -/
def IsSingle (s : String) : Prop :=
  '\n' ∉ s.toList

instance (s : String) : Decidable (IsSingle s) :=
  inferInstanceAs (Decidable (_ ∉ _))

/-! ## Texts -/

section Texts

variable {s t : String}

/-- A text put together from two holds no line feed if neither of them does. -/
@[simp] theorem isSingle_append : IsSingle (s ++ t) ↔ IsSingle s ∧ IsSingle t := by
  simp [IsSingle, String.toList_append, not_or]

theorem isSingle_ofList {l : List Char} : IsSingle (String.ofList l) ↔ '\n' ∉ l := by
  rw [IsSingle, String.toList_ofList]

/-- A text made of characters of a single line. -/
theorem IsSingle.ofList (h : IsSingle s) {l : List Char} (hsub : l ⊆ s.toList) :
    IsSingle (String.ofList l) :=
  isSingle_ofList.mpr fun hmem => h (hsub hmem)

/-- Texts that are joined bring in nothing of their own. -/
theorem isSingle_join {l : List String} (h : ∀ s ∈ l, IsSingle s) : IsSingle (String.join l) := by
  induction l with
  | nil => decide
  | cons s l ih =>
    rw [String.join_cons, isSingle_append]
    exact ⟨h s List.mem_cons_self, ih fun t ht => h t (List.mem_cons_of_mem _ ht)⟩

/-- A separator between texts has to hold no line feed either. -/
theorem isSingle_intercalate (hs : IsSingle s) {l : List String} (h : ∀ t ∈ l, IsSingle t) :
    IsSingle (String.intercalate s l) := by
  induction l with
  | nil => simp +decide
  | cons t l ih =>
    cases l with
    | nil => simpa using h
    | cons u l =>
      rw [String.intercalate_cons_cons, isSingle_append, isSingle_append]
      exact ⟨⟨h t List.mem_cons_self, hs⟩, ih fun v hv => h v (List.mem_cons_of_mem _ hv)⟩

/-- A text of letters and digits holds no line feed, since that is neither. -/
theorem isSingle_of_isAlphanum (h : ∀ c ∈ s.toList, c.isAlphanum = true) : IsSingle s :=
  fun hmem => absurd (h _ hmem) (by decide)

@[simp] theorem isSingle_repr (n : Nat) : IsSingle n.repr :=
  fun hmem => absurd (isDigit_of_mem_toString _ hmem) (by decide)

/-- Whatever a package is called, only letters and digits of its name are kept. -/
theorem isSingle_packageWord (name : String) : IsSingle (packageWord name) :=
  isSingle_of_isAlphanum (isAlphanum_of_mem_packageWord name)

/-- Pascal case takes characters over or changes their case, and a line feed has no other case. -/
theorem IsSingle.pascal (h : IsSingle s) : IsSingle (pascal s) :=
  caseless_lineFeed.not_mem_pascal h

/-- The pieces between marks hold only what the whole text holds. -/
theorem IsSingle.of_mem_split (h : IsSingle s) {mark : Char} {piece : String}
    (hpiece : piece ∈ Text.split mark s) : IsSingle piece := by
  obtain ⟨chars, hchars, rfl⟩ := List.mem_map.mp hpiece
  exact h.ofList fun _ => mem_of_mem_splitWhere _ hchars

end Texts

/-! ## Variables, types and places -/

/-- The name of a variable holds a line feed only if it is made from a text that does. -/
theorem Var.isSingle_text {v : Var} (h : ∀ record n, v = .helper record n → IsSingle record) :
    IsSingle v.text := by
  cases v with
  | input | wholeInput | output | wholeOutput | requestBody => decide
  | index n | key n | value n | sourceList n | overridden n =>
    exact isSingle_append.mpr ⟨by decide, isSingle_repr n⟩
  | helper record n =>
    have hrecord := h record n rfl
    simpa +decide [text] using hrecord

namespace GoType

variable {target element key value : GoType} {package name : String}

@[simp] theorem isSingle_named :
    IsSingle (named package name).text ↔ IsSingle package ∧ IsSingle name := by
  show IsSingle (package ++ "." ++ name) ↔ _
  simp +decide

@[simp] theorem isSingle_pointer : IsSingle (pointer target).text ↔ IsSingle target.text := by
  show IsSingle ("*" ++ target.text) ↔ _
  simp +decide

@[simp] theorem isSingle_slice : IsSingle (slice element).text ↔ IsSingle element.text := by
  show IsSingle ("[]" ++ element.text) ↔ _
  simp +decide

@[simp] theorem isSingle_keySet : IsSingle (keySet element).text ↔ IsSingle element.text := by
  show IsSingle ("map[" ++ element.text ++ "]struct\x7b\x7d") ↔ _
  simp +decide

@[simp] theorem isSingle_map :
    IsSingle (map key value).text ↔ IsSingle key.text ∧ IsSingle value.text := by
  show IsSingle ("map[" ++ key.text ++ "]" ++ value.text) ↔ _
  simp +decide

@[simp] theorem isSingle_pairs :
    IsSingle (pairs key value).text ↔ IsSingle key.text ∧ IsSingle value.text := by
  show IsSingle ("[]struct\x7bKey " ++ key.text ++ "; Value " ++ value.text ++ "\x7d") ↔ _
  simp +decide

end GoType

/-- No step of a path holds a line feed. -/
def Path.IsSingle (p : Path) : Prop :=
  ∀ s ∈ p, RecordBridge.IsSingle s.text

namespace Path.IsSingle

variable {p q : Path}

theorem nil : IsSingle [] :=
  fun _ hs => absurd hs List.not_mem_nil

/-- The steps of two paths, one after the other. -/
theorem append (hp : p.IsSingle) (hq : q.IsSingle) : IsSingle (p ++ q) := fun s hs =>
  (List.mem_append.mp hs).elim (hp s) (hq s)

/-- A path with a step after it. -/
theorem snoc (hp : p.IsSingle) {s : Step} (hs : RecordBridge.IsSingle s.text) :
    IsSingle (p ++ [s]) :=
  hp.append fun _ ht => List.mem_singleton.mp ht ▸ hs

/-- The spelling of a path is that of its steps, joined. -/
theorem text (hp : p.IsSingle) : RecordBridge.IsSingle p.text :=
  isSingle_join fun t ht => by
    obtain ⟨s, hs, rfl⟩ := List.mem_map.mp ht
    exact hp s hs

/-- A name that is selected may be cut at dots into several steps, which hold no more than the name
does. -/
theorem select (hp : p.IsSingle) {name : String} (h : RecordBridge.IsSingle name) :
    IsSingle (p.select name) := by
  refine hp.append fun s hs => ?_
  obtain ⟨piece, hpiece, rfl⟩ := List.mem_map.mp hs
  have hsingle := h.of_mem_split hpiece
  simpa +decide [Step.text] using hsingle

/-- What a path selects on its way is made of its steps. -/
theorem selections {before : Path} (hbefore : before.IsSingle) (hp : p.IsSingle) :
    ∀ path ∈ Path.selections before p, IsSingle path := by
  induction p generalizing before with
  | nil => exact fun _ h => absurd h List.not_mem_nil
  | cons step rest ih =>
    have hhere := hbefore.snoc (hp step List.mem_cons_self)
    have hrest := ih hhere fun s hs => hp s (List.mem_cons_of_mem _ hs)
    rw [Path.selections]
    split
    · exact List.forall_mem_cons.mpr ⟨hhere, hrest⟩
    · exact hrest

/-- What is left of a text after a start of it lies within the text. -/
theorem afterStart {start s rest : List Char} (h : Text.afterStart? start s = some rest) :
    rest ⊆ s := by
  induction start generalizing s with
  | nil =>
    cases h
    exact List.Subset.refl _
  | cons c start ih =>
    cases s with
    | nil => cases h
    | cons d s =>
      rw [Text.afterStart?] at h
      split at h
      · exact List.Subset.trans (ih h) (List.subset_cons_self _ _)
      · cases h

/-- What goes on beneath a start is made of the steps of a path, the first of which may be cut. -/
theorem beneath {start : List Char} {inside : Path} (hp : p.IsSingle)
    (h : Path.beneath? start p = some inside) : inside.IsSingle := by
  induction p generalizing start with
  | nil =>
    rw [Path.beneath?] at h
    cases h
  | cons step rest ih =>
    have hrest : Path.IsSingle rest := fun s hs => hp s (List.mem_cons_of_mem _ hs)
    cases start with
    | nil =>
      rw [Path.beneath?] at h
      split at h
      · cases h
        exact hp
      · cases h
    | cons c start =>
      -- The start goes on: past the whole step, or it ends within this one.
      rw [Path.beneath?] at h
      split at h
      · exact ih hrest h
      · split at h
        · rename_i name hname
          cases h
          refine List.forall_mem_cons.mpr ⟨?_, hrest⟩
          have hsub := List.Subset.trans (List.subset_cons_self '.' name) (afterStart hname)
          have hsingle := (hp step List.mem_cons_self).ofList hsub
          simpa +decide [Step.text] using hsingle
        · cases h

end Path.IsSingle

/-- Neither the variable nor the path of a place holds a line feed. -/
structure Place.IsSingle (p : Place) : Prop where
  root : RecordBridge.IsSingle p.root.text
  path : p.path.IsSingle

namespace Place.IsSingle

variable {p : Place}

/-- The spelling of a place has no more than its variable and its path. -/
theorem text (h : p.IsSingle) : RecordBridge.IsSingle p.text :=
  isSingle_append.mpr ⟨h.root, h.path.text⟩

theorem ofVar {v : Var} (h : RecordBridge.IsSingle v.text) : (Place.ofVar v).IsSingle :=
  ⟨h, .nil⟩

theorem select (h : p.IsSingle) {name : String} (hname : RecordBridge.IsSingle name) :
    (p.select name).IsSingle :=
  ⟨h.root, h.path.select hname⟩

theorem element (h : p.IsSingle) {v : Var} (hv : RecordBridge.IsSingle v.text) :
    (p.element v).IsSingle :=
  ⟨h.root, h.path.snoc (by simpa +decide [Step.text] using hv)⟩

theorem selections (h : p.IsSingle) : ∀ q ∈ p.selections, q.IsSingle := by
  intro q hq
  obtain ⟨path, hpath, rfl⟩ := List.mem_map.mp hq
  exact ⟨h.root, Path.IsSingle.selections .nil h.path path hpath⟩

end Place.IsSingle

/-! ## Statements and heads -/

/-- A cast without line feeds. -/
def Cast.IsSingle (c : Cast) : Prop :=
  ∀ x, RecordBridge.IsSingle x → RecordBridge.IsSingle (c.text x)

/-- Casts that write a type write nothing else. -/
theorem Cast.isSingle_plain {type : GoType} (h : RecordBridge.IsSingle type.text) :
    (plain type).IsSingle := by
  intro x hx
  simp +decide [text, h, hx]

theorem Cast.isSingle_bytes {type : GoType} (h : RecordBridge.IsSingle type.text) :
    (bytes type).IsSingle := by
  intro x hx
  simp +decide [text, h, hx]

/-- Whatever presence a cast is chosen for, it writes at most the type. -/
theorem Cast.isSingle_forPresence {type : GoType} (h : RecordBridge.IsSingle type.text)
    (sourceRequired targetRequired : Bool) :
    (forPresence type sourceRequired targetRequired).IsSingle := by
  intro x hx
  cases sourceRequired <;> cases targetRequired <;> simp +decide [forPresence, text, h, hx]

namespace Expr

variable {p : Place} {type : GoType} {v : Var}

@[simp] theorem isSingle_absent : IsSingle absent.text := by
  decide

@[simp] theorem isSingle_flag (on : Bool) : IsSingle (flag on).text := by
  cases on <;> decide

@[simp] theorem isSingle_present : IsSingle present.text := by
  decide

@[simp] theorem isSingle_newRecord : IsSingle (newRecord type).text ↔ IsSingle type.text := by
  simp +decide [text]

@[simp] theorem isSingle_call : IsSingle (call v p).text ↔ IsSingle v.text ∧ IsSingle p.text := by
  simp +decide [text]

@[simp] theorem isSingle_make :
    IsSingle (make type p).text ↔ IsSingle type.text ∧ IsSingle p.text := by
  simp +decide [text]

@[simp] theorem isSingle_makeRoom :
    IsSingle (makeRoom type p).text ↔ IsSingle type.text ∧ IsSingle p.text := by
  simp +decide [text]

@[simp] theorem isSingle_append :
    IsSingle (append p type v).text ↔ IsSingle p.text ∧ IsSingle type.text ∧ IsSingle v.text := by
  simp +decide [text, and_assoc]

/-- A conversion is spelled by its cast around a place. -/
theorem isSingle_convert {c : Cast} (hc : c.IsSingle) (hp : IsSingle p.text) :
    IsSingle (convert c p).text :=
  hc _ hp

end Expr

namespace Statement

@[simp] theorem isSingle_assign {target : Place} {e : Expr} :
    IsSingle (assign target e).text ↔ IsSingle target.text ∧ IsSingle e.text := by
  simp +decide [text]

@[simp] theorem isSingle_define {v : Var} {e : Expr} :
    IsSingle (define v e).text ↔ IsSingle v.text ∧ IsSingle e.text := by
  simp +decide [text]

end Statement

/-- The name and the types of a local function hold no line feed. -/
structure HelperSignature.IsSingle (h : HelperSignature) : Prop where
  name : RecordBridge.IsSingle h.name.text
  source : RecordBridge.IsSingle h.source.text
  target : RecordBridge.IsSingle h.target.text

/-- The line that declares a local function spells its name and its two types. -/
theorem HelperSignature.IsSingle.declare {h : HelperSignature} (hh : h.IsSingle) :
    RecordBridge.IsSingle (Statement.declare h).text := by
  simp +decide [Statement.text, HelperSignature.text, hh.name, hh.source, hh.target]

/-- So does the line that opens its body. -/
theorem HelperSignature.IsSingle.body {h : HelperSignature} (hh : h.IsSingle) :
    RecordBridge.IsSingle (Head.helperBody h).text := by
  simp +decide [Head.text, HelperSignature.text, hh.name, hh.source, hh.target]

namespace Head

/-- A test of several places joins their spellings. -/
theorem isSingle_ifSet {places : List Place} (h : ∀ p ∈ places, p.IsSingle) :
    IsSingle (ifSet places).text := by
  refine isSingle_append.mpr ⟨by decide, isSingle_intercalate (by decide) fun t ht => ?_⟩
  obtain ⟨p, hp, rfl⟩ := List.mem_map.mp ht
  simpa +decide using (h p hp).text

@[simp] theorem isSingle_ifUnset {p : Place} : IsSingle (ifUnset p).text ↔ IsSingle p.text := by
  simp +decide [text]

@[simp] theorem isSingle_ifFlag {v : Var} : IsSingle (ifFlag v).text ↔ IsSingle v.text := by
  simp +decide [text]

@[simp] theorem isSingle_each {position value : Var} {p : Place} :
    IsSingle (each position value p).text ↔
      IsSingle position.text ∧ IsSingle value.text ∧ IsSingle p.text := by
  simp +decide [text, and_assoc]

@[simp] theorem isSingle_eachKey {v : Var} {p : Place} :
    IsSingle (eachKey v p).text ↔ IsSingle v.text ∧ IsSingle p.text := by
  simp +decide [text]

@[simp] theorem isSingle_eachValue {v : Var} {p : Place} :
    IsSingle (eachValue v p).text ↔ IsSingle v.text ∧ IsSingle p.text := by
  simp +decide [text]

end Head

end RecordBridge

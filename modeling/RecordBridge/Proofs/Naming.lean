import Mathlib.Data.List.Forall2
import RecordBridge.Proofs.Place

/-!
# Go names of identifiers

A schema name made of ASCII letters, digits and underscores has a Go name of the same kind. It holds
no dot, so that it selects one field, and no bracket, so that it is no element that is taken.

What the characters of a name have in common is kept by its Go name if case mappings keep it
(`Text.CaseClosed`).
-/

namespace RecordBridge

open Text

/-- ASCII letters, digits and the underscore. -/
def isWordChar (c : Char) : Bool :=
  c.isAlphanum || c == '_'

/-- Names of ASCII letters, digits and underscores. -/
def IsIdentifier (name : String) : Prop :=
  ∀ c ∈ name.toList, isWordChar c = true

instance (name : String) : Decidable (IsIdentifier name) :=
  decidable_of_iff (name.toList.all isWordChar = true) List.all_eq_true

theorem lt_of_isWordChar {c : Char} (h : isWordChar c = true) : c.toNat < 128 := by
  have h : (((c.isUpper || c.isLower) || c.isDigit) || c == '_') = true := h
  simp only [Bool.or_eq_true, beq_iff_eq] at h
  rcases h with ((h | h) | h) | rfl
  · have hle : c.toNat ≤ 90 := (of_decide_eq_true h).2
    omega
  · have hle : c.toNat ≤ 122 := of_decide_eq_true (Bool.and_eq_true_iff.mp h).2
    omega
  · have hle : c.toNat ≤ 57 := of_decide_eq_true (Bool.and_eq_true_iff.mp h).2
    omega
  · decide

/-! ## Properties that case mappings keep -/

/-- A property of characters that case mappings keep. -/
structure Text.CaseClosed (P : Char → Prop) : Prop where
  upperChar : ∀ {c d}, P c → d ∈ Text.upperChar c → P d
  lowerChar : ∀ {c d}, P c → d ∈ Text.lowerChar c → P d
  sigma : P 'Σ' → P 'σ' ∧ P 'ς'

/-- A property of ASCII characters alone need only be kept among these. -/
theorem Text.CaseClosed.of_ascii {P : Char → Bool} (hascii : ∀ c, P c = true → c.toNat < 128)
    (hcase : ∀ n < 128, P (Char.ofNat n) = true →
      P (Char.ofNat n).toUpper = true ∧ P (Char.ofNat n).toLower = true) :
    CaseClosed (P · = true) where
  upperChar := by
    intro c d hc hd
    have hlt := hascii c hc
    rw [Text.upperChar, if_pos hlt, List.mem_singleton] at hd
    have hupper := (hcase c.toNat hlt (by rwa [Char.ofNat_toNat])).1
    rwa [hd, ← c.ofNat_toNat]
  lowerChar := by
    intro c d hc hd
    have hlt := hascii c hc
    rw [Text.lowerChar, if_pos hlt, List.mem_singleton] at hd
    have hlower := (hcase c.toNat hlt (by rwa [Char.ofNat_toNat])).2
    rwa [hd, ← c.ofNat_toNat]
  sigma h := absurd (hascii 'Σ' h) (by decide)

/-- Case mappings keep these classes of ASCII characters, as is checked one by one. -/
theorem kept_of_ascii : ∀ P ∈ [isWordChar, Char.isAlphanum, fun c => decide (c.toNat < 128)],
    ∀ n < 128, P (Char.ofNat n) = true →
      P (Char.ofNat n).toUpper = true ∧ P (Char.ofNat n).toLower = true := by
  decide +kernel

theorem caseClosed_isWordChar : CaseClosed (isWordChar · = true) :=
  .of_ascii (fun _ => lt_of_isWordChar) (kept_of_ascii isWordChar (by simp))

theorem caseClosed_isAlphanum : CaseClosed (Char.isAlphanum · = true) :=
  .of_ascii (fun c h => lt_of_isWordChar (by simp [isWordChar, h]))
    (kept_of_ascii Char.isAlphanum (by simp))

theorem caseClosed_isAscii : CaseClosed (·.toNat < 128) := by
  have h : CaseClosed fun c => decide (c.toNat < 128) = true :=
    .of_ascii (fun _ => of_decide_eq_true)
      (kept_of_ascii (fun c => decide (c.toNat < 128)) (by simp))
  simpa only [decide_eq_true_eq] using h

/-- A code point that yields a character other than the null character is that of the character. -/
theorem toNat_ofNat_of_ne_zero {n : Nat} (h : (Char.ofNat n).toNat ≠ 0) : (Char.ofNat n).toNat = n := by
  by_cases hvalid : n.isValidChar
  · rw [Char.ofNat, dif_pos hvalid]
    rfl
  · rw [Char.ofNat, dif_neg hvalid] at h
    exact absurd rfl h

/-- A shift table leads to a character only from the spans that reach it. -/
theorem shiftBy_ne {shifts : List (CharSpan × Int)} {c d : Char} (hd : d.toNat ≠ 0) (hc : c ≠ d)
    (h : ∀ e ∈ shifts, e.1.last + e.2 < d.toNat ∨ (d.toNat : Int) < e.1.first + e.2) :
    shiftBy shifts c ≠ d := by
  rw [shiftBy]
  split
  · rename_i span distance heq
    rintro rfl
    have hcontains := List.find?_some heq
    simp only [CharSpan.contains, Bool.and_eq_true, decide_eq_true_eq] at hcontains
    have hreach := h _ (List.mem_of_find?_eq_some heq)
    dsimp only at hcontains hreach
    rw [toNat_ofNat_of_ne_zero hd] at hreach
    rw [toNat_ofNat_of_ne_zero hd] at hd
    omega
  · exact hc

/-- A character to which no case mapping leads from another one. -/
structure Text.Caseless (d : Char) : Prop where
  ascii : ∀ n < 128, Char.ofNat n ≠ d → (Char.ofNat n).toUpper ≠ d ∧ (Char.ofNat n).toLower ≠ d
  expansions : ∀ e ∈ uppercaseExpansions, ∀ code ∈ e.2, Char.ofNat code ≠ d
  upperShifts : ∀ e ∈ uppercaseShifts, e.1.last + e.2 < d.toNat ∨ (d.toNat : Int) < e.1.first + e.2
  lowerShifts : ∀ e ∈ lowercaseShifts, e.1.last + e.2 < d.toNat ∨ (d.toNat : Int) < e.1.first + e.2
  dotted : d ∉ ['i', Char.ofNat 0x307]
  sigma : d ∉ ['σ', 'ς']
  ne_zero : d.toNat ≠ 0

theorem caseless_brace : Caseless '\x7b' where
  ascii := by decide +kernel
  expansions := by decide +kernel
  upperShifts := by decide +kernel
  lowerShifts := by decide +kernel
  dotted := by decide
  sigma := by decide
  ne_zero := by decide

theorem caseless_lineFeed : Caseless '\n' where
  ascii := by decide +kernel
  expansions := by decide +kernel
  upperShifts := by decide +kernel
  lowerShifts := by decide +kernel
  dotted := by decide
  sigma := by decide
  ne_zero := by decide

/-- No other character becomes one to which no case mapping leads. -/
theorem Text.Caseless.caseClosed {d : Char} (h : Caseless d) : CaseClosed (· ≠ d) := by
  constructor
  · intro c e hc he
    -- Characters of ASCII are checked one by one, those that expand are listed, and the others are
    -- shifted.
    rw [Text.upperChar] at he
    split at he
    · rename_i hlt
      have hupper := (h.ascii c.toNat hlt (by rwa [Char.ofNat_toNat])).1
      rw [Char.ofNat_toNat] at hupper
      rwa [List.mem_singleton.mp he]
    · split at he
      · rename_i heq
        obtain ⟨code, hcode, rfl⟩ := List.mem_map.mp he
        exact h.expansions _ (List.mem_of_find?_eq_some heq) code hcode
      · rw [List.mem_singleton.mp he]
        exact shiftBy_ne h.ne_zero hc h.upperShifts
  · intro c e hc he
    rw [Text.lowerChar] at he
    split at he
    · rename_i hlt
      have hlower := (h.ascii c.toNat hlt (by rwa [Char.ofNat_toNat])).2
      rw [Char.ofNat_toNat] at hlower
      rwa [List.mem_singleton.mp he]
    · split at he
      · exact fun heq => h.dotted (heq ▸ he)
      · rw [List.mem_singleton.mp he]
        exact shiftBy_ne h.ne_zero hc h.lowerShifts
  · intro _
    exact ⟨fun heq => h.sigma (by simp [← heq]), fun heq => h.sigma (by simp [← heq])⟩

/-! ## Names -/

section Words

variable {s : List Char}

namespace Text.CaseClosed

variable {P : Char → Prop}

theorem upper (h : CaseClosed P) (hs : ∀ c ∈ s, P c) : ∀ c ∈ Text.upper s, P c := by
  intro d hd
  obtain ⟨c, hc, hd⟩ := List.mem_flatMap.mp hd
  exact h.upperChar (hs c hc) hd

theorem upperFirst (h : CaseClosed P) (hs : ∀ c ∈ s, P c) : ∀ c ∈ Text.upperFirst s, P c := by
  cases s with
  | nil => exact hs
  | cons c rest =>
    intro d hd
    rcases List.mem_append.mp hd with hd | hd
    · exact h.upperChar (hs c List.mem_cons_self) hd
    · exact hs d (List.mem_cons_of_mem _ hd)

theorem lowerFirst (h : CaseClosed P) (hs : ∀ c ∈ s, P c) : ∀ c ∈ Text.lowerFirst s, P c := by
  cases s with
  | nil => exact hs
  | cons c rest =>
    intro d hd
    rcases List.mem_append.mp hd with hd | hd
    · exact h.lowerChar (hs c List.mem_cons_self) hd
    · exact hs d (List.mem_cons_of_mem _ hd)

theorem lowerAfter (h : CaseClosed P) (before : List Char) (hs : ∀ c ∈ s, P c) :
    ∀ c ∈ Text.lowerAfter before s, P c := by
  induction s generalizing before with
  | nil => exact hs
  | cons c rest ih =>
    intro d hd
    rcases List.mem_append.mp hd with hd | hd
    · split at hd
      · rename_i hsigma
        obtain ⟨hmid, hend⟩ := h.sigma (hsigma ▸ hs c List.mem_cons_self)
        rw [List.mem_singleton.mp hd, lowerSigma]
        split
        · exact hend
        · exact hmid
      · exact h.lowerChar (hs c List.mem_cons_self) hd
    · exact ih _ (fun e he => hs e (List.mem_cons_of_mem _ he)) d hd

theorem pascalWord (h : CaseClosed P) (whole : Bool) (hs : ∀ c ∈ s, P c) :
    ∀ c ∈ RecordBridge.pascalWord whole s, P c := by
  rw [RecordBridge.pascalWord]
  split
  · exact h.upper hs
  · split
    · exact h.upperFirst (h.lowerAfter [] hs)
    · exact h.upperFirst hs

/-- It is enough to look at the words between underscores. -/
theorem pascalChars_of_pieces (h : CaseClosed P)
    (hpieces : ∀ piece ∈ splitWhere (· == '_') s, ∀ c ∈ piece, P c) :
    ∀ c ∈ RecordBridge.pascalChars s, P c := by
  rw [RecordBridge.pascalChars]
  split
  · rename_i word heq
    exact h.pascalWord true (hpieces word (heq ▸ List.mem_singleton_self word))
  · intro c hc
    obtain ⟨piece, hpiece, hc⟩ := List.mem_flatMap.mp hc
    exact h.pascalWord false (hpieces piece hpiece) c hc

theorem pascalChars (h : CaseClosed P) (hs : ∀ c ∈ s, P c) :
    ∀ c ∈ RecordBridge.pascalChars s, P c :=
  h.pascalChars_of_pieces fun _ hpiece c hc => hs c (mem_of_mem_splitWhere _ hpiece hc)

theorem capitalizeInitialism (h : CaseClosed P) (hs : ∀ c ∈ s, P c) :
    ∀ c ∈ RecordBridge.capitalizeInitialism s, P c := by
  rw [RecordBridge.capitalizeInitialism]
  split
  · exact h.upper hs
  · split
    · intro c hc
      rcases List.mem_append.mp hc with hc | hc
      · exact h.upper hs c (List.mem_of_mem_take hc)
      · exact hs c (List.mem_of_mem_drop hc)
    · exact hs

end Text.CaseClosed

end Words

/-- The Go name of an identifier is an identifier. -/
theorem IsIdentifier.pascal {name : String} (h : IsIdentifier name) :
    IsIdentifier (pascal name) := by
  rw [IsIdentifier, RecordBridge.pascal, String.toList_ofList]
  exact caseClosed_isWordChar.pascalChars h

/-- The Go name of a name holds no character to which no case mapping leads, if the name holds
none. -/
theorem Text.Caseless.not_mem_pascal {d : Char} (hd : Caseless d) {name : String}
    (h : d ∉ name.toList) : d ∉ (pascal name).toList := by
  rw [RecordBridge.pascal, String.toList_ofList]
  intro hmem
  exact hd.caseClosed.pascalChars (fun c hc heq => h (heq ▸ hc)) _ hmem rfl

theorem isAlphanum_of_mem_asciiWords {s word : List Char} (hword : word ∈ asciiWords s) :
    ∀ c ∈ word, c.isAlphanum = true := by
  intro c hc
  have hpiece := (List.mem_filter.mp hword).1
  simpa using isSeparator_of_mem_splitWhere _ hpiece hc

/-- The characters of a name in camel case are ASCII letters and digits. -/
theorem isAlphanum_of_mem_camelChars (s : List Char) :
    ∀ c ∈ camelChars s, c.isAlphanum = true := by
  have hwords : ∀ word ∈ asciiWords s, ∀ c ∈ word, c.isAlphanum = true :=
    fun _ => isAlphanum_of_mem_asciiWords
  rw [camelChars]
  split
  · intro c hc
    cases hc
  · rename_i word words heq
    rw [heq] at hwords
    intro c hc
    rcases List.mem_append.mp hc with hc | hc
    · exact caseClosed_isAlphanum.lowerFirst (hwords word List.mem_cons_self) c hc
    · obtain ⟨w, hw, hc⟩ := List.mem_flatMap.mp hc
      exact caseClosed_isAlphanum.capitalizeInitialism
        (caseClosed_isAlphanum.upperFirst (hwords w (List.mem_cons_of_mem _ hw))) c hc

/-- The characters of a package name are ASCII letters and digits. -/
theorem isAlphanum_of_mem_packageWord (name : String) :
    ∀ c ∈ (packageWord name).toList, c.isAlphanum = true := by
  intro c hc
  rw [packageWord, String.toList_ofList] at hc
  obtain ⟨word, hword, hc⟩ := List.mem_flatMap.mp hc
  exact caseClosed_isAlphanum.lowerAfter [] (isAlphanum_of_mem_asciiWords hword) c hc

/-! ## Up to letter case -/

/-- Lower case changes letters only, and into letters. -/
theorem toLower_eq_iff {c mark : Char} (hmark : mark.isAlpha = false) :
    c.toLower = mark ↔ c = mark := by
  obtain ⟨hupper, hlower⟩ := Bool.or_eq_false_iff.mp hmark
  constructor
  · intro h
    change dite _ _ _ = mark at h
    split at h
    · -- A capital becomes a small letter, which the mark is not.
      rename_i hcapital
      have hlow : 65 ≤ c.val.toNat := UInt32.le_iff_toNat_le.mp hcapital.1
      have hhigh : c.val.toNat ≤ 90 := UInt32.le_iff_toNat_le.mp hcapital.2
      have hval : (c.val.toNat + 32) % 2 ^ 32 = mark.val.toNat :=
        congrArg (fun d : Char => d.val.toNat) h
      have hsmall : mark.isLower = true := by
        refine Bool.and_eq_true_iff.mpr ⟨decide_eq_true (UInt32.le_iff_toNat_le.mpr ?_),
          decide_eq_true (UInt32.le_iff_toNat_le.mpr ?_)⟩
        · show 97 ≤ mark.val.toNat
          omega
        · show mark.val.toNat ≤ 122
          omega
      rw [hlower] at hsmall
      cases hsmall
    · exact h
  · rintro rfl
    change dite _ _ _ = c
    split
    · rename_i hcapital
      exact absurd hcapital (of_decide_eq_false hupper)
    · rfl

/-- Names that agree up to case hold underscores alike. -/
theorem underscore_mem_of_sameIgnoringCase {a b : String} (h : sameIgnoringCase a b = true)
    (ha : '_' ∈ a.toList) : '_' ∈ b.toList := by
  have hlower : '_' ∈ a.toList.map Char.toLower := List.mem_map.mpr ⟨'_', ha, rfl⟩
  rw [eq_of_beq h] at hlower
  obtain ⟨c, hc, heq⟩ := List.mem_map.mp hlower
  rwa [(toLower_eq_iff (by decide)).mp heq] at hc

/-- Cutting at dots does not depend on case. -/
theorem split_sameIgnoringCase {a b : String} (h : sameIgnoringCase a b = true) :
    List.Forall₂ (fun x y => sameIgnoringCase x y = true) (split '.' a) (split '.' b) := by
  have hdot : ∀ c : Char, c.toLower = '.' ↔ c = '.' := fun c => toLower_eq_iff (by decide)
  have hpieces : List.Forall₂ (· = ·)
      ((splitWhere (· == '.') a.toList).map (List.map Char.toLower))
      ((splitWhere (· == '.') b.toList).map (List.map Char.toLower)) := by
    rw [← splitWhere_map hdot, ← splitWhere_map hdot, eq_of_beq h, List.forall₂_eq_eq_eq]
  rw [List.forall₂_map_left_iff, List.forall₂_map_right_iff] at hpieces
  rw [split, split, List.forall₂_map_left_iff, List.forall₂_map_right_iff]
  refine hpieces.imp fun x y hxy => ?_
  rw [sameIgnoringCase, String.toList_ofList, String.toList_ofList, hxy]
  exact beq_self_eq_true _

theorem sameIgnoringCase_comm {a b : String} : sameIgnoringCase a b = sameIgnoringCase b a :=
  Bool.beq_comm

theorem sameIgnoringCase_trans {a b c : String} (hab : sameIgnoringCase a b = true)
    (hbc : sameIgnoringCase b c = true) : sameIgnoringCase a c = true := by
  rw [sameIgnoringCase, eq_of_beq hab]
  exact hbc

/-- The Go name of an identifier holds no underscore. -/
theorem IsIdentifier.underscore_not_mem_pascal {name : String} (h : IsIdentifier name) :
    '_' ∉ (RecordBridge.pascal name).toList := by
  have hpieces : ∀ piece ∈ splitWhere (· == '_') name.toList, ∀ c ∈ piece, c.isAlphanum = true := by
    intro piece hpiece c hc
    have hword := h c (mem_of_mem_splitWhere _ hpiece hc)
    rw [isWordChar, isSeparator_of_mem_splitWhere _ hpiece hc, Bool.or_false] at hword
    exact hword
  rw [RecordBridge.pascal, String.toList_ofList]
  exact fun hmem => absurd (caseClosed_isAlphanum.pascalChars_of_pieces hpieces _ hmem) (by decide)

section Letters

variable {s : List Char}

/-- To change the case of an ASCII character first does not change what it is lowered to. -/
theorem toLower_of_ascii {c : Char} (h : c.toNat < 128) :
    c.toUpper.toLower = c.toLower ∧ c.toLower.toLower = c.toLower := by
  have hascii : ∀ n < 128, (Char.ofNat n).toUpper.toLower = (Char.ofNat n).toLower ∧
      (Char.ofNat n).toLower.toLower = (Char.ofNat n).toLower := by
    decide +kernel
  have hc := hascii c.toNat h
  rwa [Char.ofNat_toNat] at hc

theorem upperChar_toLower {c : Char} (h : c.toNat < 128) :
    (upperChar c).map Char.toLower = [c.toLower] := by
  rw [upperChar, if_pos h, List.map_singleton, (toLower_of_ascii h).1]

theorem upper_toLower (h : ∀ c ∈ s, c.toNat < 128) :
    (upper s).map Char.toLower = s.map Char.toLower := by
  induction s with
  | nil => rfl
  | cons c rest ih =>
    obtain ⟨hc, hrest⟩ := List.forall_mem_cons.mp h
    rw [upper, List.flatMap_cons, List.map_append, upperChar_toLower hc, List.map_cons,
      List.singleton_append]
    exact congrArg _ (ih hrest)

theorem upperFirst_toLower (h : ∀ c ∈ s, c.toNat < 128) :
    (upperFirst s).map Char.toLower = s.map Char.toLower := by
  cases s with
  | nil => rfl
  | cons c rest =>
    rw [upperFirst, List.map_append, upperChar_toLower (h c List.mem_cons_self)]
    rfl

/-- ASCII characters are lowered one by one. -/
theorem lowerAfter_eq_map (before : List Char) (h : ∀ c ∈ s, c.toNat < 128) :
    lowerAfter before s = s.map Char.toLower := by
  induction s generalizing before with
  | nil => rfl
  | cons c rest ih =>
    obtain ⟨hc, hrest⟩ := List.forall_mem_cons.mp h
    have hsigma : c ≠ 'Σ' := fun heq => absurd hc (by rw [heq]; decide)
    rw [lowerAfter, if_neg hsigma, lowerChar, if_pos hc, ih _ hrest]
    rfl

theorem lower_eq_map (h : ∀ c ∈ s, c.toNat < 128) : lower s = s.map Char.toLower :=
  lowerAfter_eq_map [] h

theorem lower_toLower (h : ∀ c ∈ s, c.toNat < 128) :
    (lower s).map Char.toLower = s.map Char.toLower := by
  rw [lower_eq_map h, List.map_map]
  exact List.map_congr_left fun c hc => (toLower_of_ascii (h c hc)).2

/-- A word of a Go name is the word of the name, up to case. -/
theorem pascalWord_toLower (whole : Bool) (h : ∀ c ∈ s, c.toNat < 128) :
    (pascalWord whole s).map Char.toLower = s.map Char.toLower := by
  rw [pascalWord]
  split
  · exact upper_toLower h
  · split
    · have hlower : ∀ c ∈ lower s, c.toNat < 128 := caseClosed_isAscii.lowerAfter [] h
      rw [upperFirst_toLower hlower, lower_toLower h]
    · exact upperFirst_toLower h

/-- A Go name is the name without its underscores, up to case. -/
theorem pascalChars_toLower (h : ∀ c ∈ s, c.toNat < 128) :
    (pascalChars s).map Char.toLower = (s.filter (· != '_')).map Char.toLower := by
  have hpieces : ∀ piece ∈ splitWhere (· == '_') s, ∀ c ∈ piece, c.toNat < 128 :=
    fun _ hpiece c hc => h c (mem_of_mem_splitWhere _ hpiece hc)
  have hwords : ∀ words : List (List Char), (∀ word ∈ words, ∀ c ∈ word, c.toNat < 128) →
      (words.flatMap (pascalWord false)).map Char.toLower = words.flatten.map Char.toLower := by
    intro words hall
    induction words with
    | nil => rfl
    | cons word rest ih =>
      obtain ⟨hword, hrest⟩ := List.forall_mem_cons.mp hall
      rw [List.flatMap_cons, List.map_append, pascalWord_toLower false hword, ih hrest,
        List.flatten_cons, List.map_append]
  have hflatten : (splitWhere (· == '_') s).flatten = s.filter (· != '_') := flatten_splitWhere _ s
  rw [← hflatten, pascalChars]
  split
  · rename_i word heq
    rw [heq] at hpieces ⊢
    rw [pascalWord_toLower true (hpieces word (List.mem_singleton_self word)), List.flatten_singleton]
  · exact hwords _ hpieces

end Letters

/-- A name without its underscores. -/
def squeezed (name : String) : String :=
  String.ofList (name.toList.filter (· != '_'))

/-- The Go name of an identifier is the identifier without its underscores, up to case. -/
theorem IsIdentifier.sameIgnoringCase_squeezed {name : String} (h : IsIdentifier name) :
    sameIgnoringCase (squeezed name) (RecordBridge.pascal name) = true := by
  rw [sameIgnoringCase, squeezed, RecordBridge.pascal, String.toList_ofList, String.toList_ofList,
    pascalChars_toLower fun c hc => lt_of_isWordChar (h c hc)]
  exact beq_self_eq_true _

/-- An identifier of a single word has itself for its Go name, up to case. -/
theorem IsIdentifier.sameIgnoringCase_pascal {name : String} (h : IsIdentifier name)
    (hword : '_' ∉ name.toList) :
    sameIgnoringCase name (RecordBridge.pascal name) = true := by
  have hwhole : squeezed name = name := by
    have hall : ∀ c ∈ name.toList, (c != '_') = true := fun c hc =>
      bne_iff_ne.mpr fun heq => hword (heq ▸ hc)
    rw [squeezed, List.filter_eq_self.mpr hall, String.ofList_toList]
  have hsame := h.sameIgnoringCase_squeezed
  rwa [hwhole] at hsame

/-- A name without a dot selects one field. -/
theorem Path.select_of_not_mem {name : String} (h : '.' ∉ name.toList) (p : Path) :
    p.select name = p ++ [.field name] := by
  rw [select, split_of_not_mem h, List.map_singleton]

theorem IsIdentifier.select {name : String} (h : IsIdentifier name) (p : Path) :
    p.select name = p ++ [.field name] :=
  Path.select_of_not_mem (fun hdot => absurd (h _ hdot) (by decide)) p

/-- A field with an identifier for its name is no element that is taken. -/
theorem IsIdentifier.takesElement {name : String} (h : IsIdentifier name) :
    (Step.field name).takesElement = false := by
  refine Bool.eq_false_iff.mpr fun hends => ?_
  rw [Step.takesElement, Step.text, String.toList_append, beq_iff_eq] at hends
  have hmem := List.mem_of_getLast? hends
  rcases List.mem_append.mp hmem with hmem | hmem
  · exact absurd hmem (by decide)
  · exact absurd (h _ hmem) (by decide)

end RecordBridge

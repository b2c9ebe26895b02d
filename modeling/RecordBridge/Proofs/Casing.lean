import RecordBridge.Proofs.Bytes
import RecordBridge.Proofs.Naming

/-!
# What casing keeps

The spelling of names in Go changes the case of letters and drops separators, and nothing else. In lower
case, a text in camel case is its package name, which is made of its ASCII letters and digits
(`lower_camel`, `packageWord_toList`); and an ASCII text in Pascal case is the text without its underscores
(`lower_pascal`).

An initialism is looked for in the capitals of a word, and what follows it is taken from the word as it
is. As words hold ASCII characters only, the two are equally long, also in bytes (`Text.cutsAtInitialism`).
-/

namespace RecordBridge

open Text

/-- Texts of ASCII characters. -/
def IsAscii (s : String) : Prop :=
  ∀ c ∈ s.toList, c.toNat < 128

instance (s : String) : Decidable (IsAscii s) :=
  List.decidableBAll (fun c : Char => c.toNat < 128) s.toList

/-! ## Words -/

section Words

variable {s word : List Char}

theorem isAscii_of_isAlphanum (h : ∀ c ∈ s, c.isAlphanum = true) : ∀ c ∈ s, c.toNat < 128 :=
  fun c hc => lt_of_isWordChar (by rw [isWordChar, h c hc, Bool.true_or])

/-- The runs of a class of characters hold all characters of the class. -/
theorem Text.flatten_runs (inClass : Char → Bool) (s : List Char) :
    (runs inClass s).flatten = s.filter inClass := by
  rw [runs, List.flatten_filter_not_isEmpty, flatten_splitWhere]
  simp only [Bool.not_not]

theorem flatten_asciiWords (s : List Char) : (asciiWords s).flatten = s.filter Char.isAlphanum :=
  flatten_runs _ s

theorem lowerFirst_toLower (h : ∀ c ∈ s, c.toNat < 128) :
    (lowerFirst s).map Char.toLower = s.map Char.toLower := by
  cases s with
  | nil => rfl
  | cons c rest =>
    have hc := h c List.mem_cons_self
    have hsigma : c ≠ 'Σ' := fun heq => absurd hc (by rw [heq]; decide)
    have hlower : lower [c] = lowerChar c := by
      rw [lower, lowerAfter, if_neg hsigma]
      exact List.append_nil _
    rw [lowerFirst, List.map_append, ← hlower, lower_toLower fun d hd => by
      rwa [List.mem_singleton.mp hd]]
    rfl

/-- Capitals for an initialism change the case of letters only. -/
theorem capitalizeInitialism_toLower (h : ∀ c ∈ word, c.toNat < 128) :
    (capitalizeInitialism word).map Char.toLower = word.map Char.toLower := by
  rw [capitalizeInitialism]
  split
  · exact upper_toLower h
  · split
    · rename_i n _
      rw [List.map_append, List.map_take, upper_toLower h, List.map_drop, List.take_append_drop]
    · rfl

/-- A text in camel case is its letters and digits, up to case. -/
theorem camelChars_toLower (s : List Char) :
    (camelChars s).map Char.toLower = (s.filter Char.isAlphanum).map Char.toLower := by
  have hwords : ∀ word ∈ asciiWords s, ∀ c ∈ word, c.toNat < 128 :=
    fun _ hword => isAscii_of_isAlphanum (isAlphanum_of_mem_asciiWords hword)
  -- Words after the first change the case of letters at most, whether they are initialisms or not.
  have hlater : ∀ words : List (List Char), (∀ word ∈ words, ∀ c ∈ word, c.toNat < 128) →
      (words.flatMap (capitalizeInitialism ∘ upperFirst)).map Char.toLower =
        words.flatten.map Char.toLower := by
    intro words hall
    induction words with
    | nil => rfl
    | cons word rest ih =>
      obtain ⟨hword, hrest⟩ := List.forall_mem_cons.mp hall
      rw [List.flatMap_cons, List.map_append, ih hrest, Function.comp_apply,
        capitalizeInitialism_toLower (caseClosed_isAscii.upperFirst hword),
        upperFirst_toLower hword, List.flatten_cons, List.map_append]
  -- The characters that are kept are those of the words, put together again.
  rw [← flatten_asciiWords, camelChars]
  split
  · rename_i hnone
    rw [hnone]
    rfl
  · rename_i word words heq
    rw [heq] at hwords ⊢
    obtain ⟨hword, hwords⟩ := List.forall_mem_cons.mp hwords
    rw [List.map_append, lowerFirst_toLower hword, hlater words hwords, List.flatten_cons,
      List.map_append]

end Words

/-! ## Names -/

/-- A package name is the letters and digits of the text in lower case. -/
theorem packageWord_toList (s : String) :
    (packageWord s).toList = lower (s.toList.filter Char.isAlphanum) := by
  have hwords : ∀ word ∈ asciiWords s.toList, ∀ c ∈ word, c.toNat < 128 :=
    fun _ hword => isAscii_of_isAlphanum (isAlphanum_of_mem_asciiWords hword)
  have hall : ∀ c ∈ s.toList.filter Char.isAlphanum, c.toNat < 128 :=
    isAscii_of_isAlphanum fun _ hc => (List.mem_filter.mp hc).2
  rw [packageWord, String.toList_ofList, lower_eq_map hall, ← flatten_asciiWords, List.map_flatten,
    List.flatMap_def]
  exact congrArg List.flatten (List.map_congr_left fun word hword => lower_eq_map (hwords word hword))

/-- A text in camel case is its package name, in lower case. -/
theorem lower_camel (s : String) : lower (camel s).toList = (packageWord s).toList := by
  have hcamel : ∀ c ∈ camelChars s.toList, c.toNat < 128 :=
    isAscii_of_isAlphanum (isAlphanum_of_mem_camelChars s.toList)
  have hall : ∀ c ∈ s.toList.filter Char.isAlphanum, c.toNat < 128 :=
    isAscii_of_isAlphanum fun _ hc => (List.mem_filter.mp hc).2
  rw [camel, String.toList_ofList, lower_eq_map hcamel, camelChars_toLower, packageWord_toList,
    lower_eq_map hall]

/-- The Go name of an ASCII text is the text without its underscores, up to case. -/
theorem IsAscii.pascal_toLower {s : String} (h : IsAscii s) :
    (pascal s).toList.map Char.toLower = (squeezed s).toList.map Char.toLower := by
  rw [pascal, squeezed, String.toList_ofList, String.toList_ofList]
  exact pascalChars_toLower h

/-- So it is in lower case. -/
theorem IsAscii.lower_pascal {s : String} (h : IsAscii s) :
    lower (pascal s).toList = lower (squeezed s).toList := by
  have hpascal : ∀ c ∈ (pascal s).toList, c.toNat < 128 := by
    rw [pascal, String.toList_ofList]
    exact caseClosed_isAscii.pascalChars h
  have hsqueezed : ∀ c ∈ (squeezed s).toList, c.toNat < 128 := by
    rw [squeezed, String.toList_ofList]
    exact fun c hc => h c (List.mem_filter.mp hc).1
  rw [lower_eq_map hpascal, lower_eq_map hsqueezed, h.pascal_toLower]

example : camel "x-größe-urls" = "xGrEURLs" ∧ packageWord "x-größe-urls" = "xgreurls" := by
  decide +kernel

/-! ## Where initialisms end -/

/-- The initialism with which a word begins in capitals ends, in bytes, at a position of the word; there
begins what follows it in characters. -/
def Text.CutsAtInitialism (word : List Char) : Prop :=
  ∀ n, initialismStart? (upper word) = some n →
    (String.ofList ((upper word).take n)).rawEndPos.IsValid (String.ofList word) ∧
      ∃ start : String, start.rawEndPos = (String.ofList ((upper word).take n)).rawEndPos ∧
        String.ofList word = start ++ String.ofList (word.drop n)

/-- Capitals of ASCII characters are as many. -/
theorem Text.length_upper {s : List Char} (h : ∀ c ∈ s, c.toNat < 128) :
    (upper s).length = s.length := by
  have hlength := congrArg List.length (upper_toLower h)
  rwa [List.length_map, List.length_map] at hlength

/-- ASCII words are cut at a position of theirs. -/
theorem Text.cutsAtInitialism {word : List Char} (h : ∀ c ∈ word, c.toNat < 128) :
    CutsAtInitialism word := by
  intro n hn
  have hle : n ≤ (upper word).length := by
    have hfound := List.find?_some hn
    rw [Bool.and_eq_true, decide_eq_true_eq] at hfound
    exact hfound.1
  have hstart : ∀ c ∈ word.take n, c.toNat < 128 := fun c hc => h c (List.mem_of_mem_take hc)
  have hcapitals : ∀ c ∈ (upper word).take n, c.toNat < 128 :=
    fun c hc => caseClosed_isAscii.upper h c (List.mem_of_mem_take hc)
  have hend : (String.ofList (word.take n)).rawEndPos =
      (String.ofList ((upper word).take n)).rawEndPos := by
    refine String.Pos.Raw.ext ?_
    show (String.ofList (word.take n)).utf8ByteSize = (String.ofList ((upper word).take n)).utf8ByteSize
    rw [utf8ByteSize_ofList hstart, utf8ByteSize_ofList hcapitals, List.length_take, List.length_take,
      length_upper h]
  have hword : String.ofList word = String.ofList (word.take n) ++ String.ofList (word.drop n) := by
    rw [← String.ofList_append, List.take_append_drop]
  refine ⟨?_, _, hend, hword⟩
  rw [String.Pos.Raw.isValid_iff_exists_append]
  exact ⟨_, _, hword, hend.symm⟩

/-! ## The laws of casing -/

/-- **Casing changes letter case and separators only.** In lower case, the camel case of any text is its
package name, which is its ASCII letters and digits in lower case; and where capitals are put for an
initialism at the start of a later word, its end is a position of the word. In lower case, the Pascal case
of an ASCII text is the text without its underscores; so two of them have one Go name, up to case, exactly
if they agree up to case and underscores. -/
theorem casing_keeps_letters :
    (∀ s : String, lower (camel s).toList = (packageWord s).toList ∧
      (packageWord s).toList = lower (s.toList.filter Char.isAlphanum) ∧
      ∀ word ∈ (asciiWords s.toList).tail, CutsAtInitialism (upperFirst word)) ∧
    (∀ s : String, IsAscii s → lower (pascal s).toList = lower (squeezed s).toList) ∧
    ∀ a b : String, IsAscii a → IsAscii b →
      (sameIgnoringCase (pascal a) (pascal b) = true ↔
        sameIgnoringCase (squeezed a) (squeezed b) = true) := by
  refine ⟨fun s => ⟨lower_camel s, packageWord_toList s, fun word hword => ?_⟩,
    fun s hs => hs.lower_pascal, fun a b ha hb => ?_⟩
  · have hascii : ∀ c ∈ word, c.toNat < 128 :=
      isAscii_of_isAlphanum (isAlphanum_of_mem_asciiWords (List.mem_of_mem_tail hword))
    exact cutsAtInitialism (caseClosed_isAscii.upperFirst hascii)
  · rw [sameIgnoringCase, sameIgnoringCase, ha.pascal_toLower, hb.pascal_toLower]

/-- Two names of a user, of which one is in capitals and cut by an underscore. -/
theorem userId_casing_kept :
    IsAscii "USER_id" ∧ IsAscii "userId" ∧
      pascal "USER_id" = "UserID" ∧ pascal "userId" = "UserId" ∧
      lower (pascal "USER_id").toList = lower (squeezed "USER_id").toList ∧
      sameIgnoringCase (pascal "USER_id") (pascal "userId") = true := by
  have hfirst : IsAscii "USER_id" := by decide
  have hsecond : IsAscii "userId" := by decide
  refine ⟨hfirst, hsecond, by decide +kernel, by decide +kernel,
    casing_keeps_letters.2.1 _ hfirst, ?_⟩
  exact (casing_keeps_letters.2.2 _ _ hfirst hsecond).mpr (by decide +kernel)

end RecordBridge

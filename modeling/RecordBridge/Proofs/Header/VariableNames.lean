import Mathlib.Data.List.Nodup
import RecordBridge.Proofs.Header.Bound
import RecordBridge.Proofs.Spelling

/-!
# The variables for headers

The variables that hold the texts of headers are all declared in one block, each with its companion that
tells whether the header is there. They are numbered by a counter for each name in camel case. The
counter of a name does not know of the names that have got a number, so the variables of a run differ
from each other exactly if no header has for its name what another one gets by its number
(`run_declares`). Where one has, a variable is declared twice (`tripledFoo_declaredTwice`).
-/

namespace RecordBridge

/-! ## Numbered names -/

/-- A name is told by itself with a number after it, and so is the number. -/
theorem eq_of_numbered {a b : String} {m n : Nat}
    (h : a ++ "No" ++ toString m = b ++ "No" ++ toString n) : a = b ∧ m = n := by
  -- Read from the end, the digits come first.
  have hreverse : (toString m).toList.reverse ++ 'o' :: 'N' :: a.toList.reverse =
      (toString n).toList.reverse ++ 'o' :: 'N' :: b.toList.reverse := by
    have hlist := congrArg (fun s => s.toList.reverse) h
    simpa [String.toList_append] using hlist
  have hends : ∀ l : List Char, EndsAt Char.isDigit ('o' :: l) := by
    intro l c rest hc
    cases hc
    rfl
  have hdigits : ∀ k : Nat, ∀ c ∈ (toString k).toList.reverse, c.isDigit = true :=
    fun k c hc => isDigit_of_mem_toString c (List.mem_reverse.mp hc)
  have hnumber := eq_of_append_eq (hdigits m) (hdigits n) (hends _) (hends _) hreverse
  have hsame : (toString m).toList = (toString n).toList := List.reverse_injective hnumber
  rw [hnumber] at hreverse
  have hname := List.append_cancel_left hreverse
  refine ⟨String.toList_injective (List.reverse_injective ?_), ?_⟩
  · exact (List.cons.inj (List.cons.inj hname).2).2
  · exact eq_of_digits (x := []) (y := []) nofun nofun (congrArg (· ++ []) hsame)

/-- A name that is another one with its number has the variable of the other one. -/
theorem headerVariable_of_numbered (name : String) {k : Nat} (hk : k ≠ 0) :
    headerVariable (name ++ "No" ++ toString k) 0 = headerVariable name k := by
  rw [headerVariable, headerVariable, if_pos rfl, if_neg hk]

/-- Otherwise two variables are the same only for the same name and number. -/
theorem eq_of_headerVariable {a b : String} {m n : Nat}
    (h : headerVariable a m = headerVariable b n) (hm : m ≠ 0 → b ≠ a ++ "No" ++ toString m)
    (hn : n ≠ 0 → a ≠ b ++ "No" ++ toString n) : a = b ∧ m = n := by
  rw [headerVariable, headerVariable] at h
  by_cases hfirst : m = 0 <;> by_cases hfirst' : n = 0
  · rw [if_pos hfirst, if_pos hfirst', String.append_left_inj] at h
    exact ⟨h, hfirst.trans hfirst'.symm⟩
  · rw [if_pos hfirst, if_neg hfirst', String.append_left_inj] at h
    exact absurd h (hn hfirst')
  · rw [if_neg hfirst, if_pos hfirst', String.append_left_inj] at h
    exact absurd h.symm (hm hfirst)
  · rw [if_neg hfirst, if_neg hfirst', String.append_left_inj] at h
    exact eq_of_numbered h

/-- A variable for a header is not the companion of one. -/
theorem headerVariable_ne_companion (a b : String) (m n : Nat) :
    headerVariable a m ≠ headerVariable b n ++ "Exists" := by
  have hends : ∃ stem, headerVariable a m = stem ++ "Value" := by
    rw [headerVariable]
    split
    · exact ⟨_, rfl⟩
    · exact ⟨_, rfl⟩
  obtain ⟨stem, hstem⟩ := hends
  rw [hstem]
  intro h
  have hlast := congrArg (fun s => s.toList.getLast?) h
  simp [String.toList_append] at hlast

/-! ## Numbers -/

namespace BoundVisit

/-- The name and the number by which the variable for a header is told. -/
def key (b : BoundVisit × Nat) : String × Nat :=
  (camel b.1.header, b.2)

variable {met : List String} {l : List BoundVisit}

/-- A name has the numbers from what was met before to what is met in the end. -/
theorem mem_keys {name : String} {k : Nat} : (name, k) ∈ (numbered met l).map key ↔
    met.count name ≤ k ∧ k < met.count name + (l.map fun b => camel b.header).count name := by
  induction l generalizing met with
  | nil =>
    rw [numbered, List.map_nil, List.map_nil, List.count_nil]
    exact ⟨fun h => absurd h List.not_mem_nil, fun h => absurd h.2 (Nat.not_lt.mpr h.1)⟩
  | cons b rest ih =>
    rw [numbered, List.map_cons, List.mem_cons, ih, List.map_cons, key, Prod.mk.injEq,
      List.count_cons, List.count_cons]
    by_cases hname : name = camel b.header
    · subst hname
      simp only [beq_self_eq_true, if_true, true_and]
      omega
    · rw [if_neg (by simpa using Ne.symm hname)]
      simp [hname]

theorem nodup_keys : ((numbered met l).map key).Nodup := by
  induction l generalizing met with
  | nil => exact List.nodup_nil
  | cons b rest ih =>
    refine List.nodup_cons.mpr ⟨fun hmem => ?_, ih⟩
    have hlater : (camel b.header :: met).count (camel b.header) ≤ met.count (camel b.header) :=
      (mem_keys.mp hmem).1
    rw [List.count_cons_self] at hlater
    omega

end BoundVisit

/-! ## Declarations -/

/-- The variables that a statement declares for a header. -/
def HeaderStatement.declares : HeaderStatement → List String
  | .fetch v _ => [v.spelling]
  | .fetchTested v _ => [v.spelling, v.presence]
  | .allocate .. | .store .. | .storeAs .. | .convert .. => []

/-- The variables that are declared for headers in the block of some code itself, in order. -/
def HeaderCode.declared (code : HeaderCode) : List String :=
  ((HeaderCode.uses [] code).filter (·.1.isEmpty)).flatMap (·.2.declares)

namespace BoundVisit

/-- The variables that are declared for a bound field. -/
def declares (b : BoundVisit × Nat) : List String :=
  (b.1.visit.field.fetch b.1.header (b.1.var b.2)).declares

theorem IsRead.declared {b : BoundVisit × Nat} {uses : List HeaderUse}
    (h : b.1.IsRead (b.1.var b.2) uses) :
    (uses.filter (·.1.isEmpty)).flatMap (·.2.declares) = declares b := by
  obtain ⟨write, place, rfl, hwritten, -⟩ := h
  have hnone : write.declares = [] := by
    cases write with
    | fetch v header => cases hwritten
    | fetchTested v header => cases hwritten
    | _ => rfl
  rw [List.filter_cons_of_pos rfl, List.flatMap_cons, List.filter_cons]
  split
  · simp [hnone, declares]
  · simp [declares]

theorem declared_of_reads {l : List (BoundVisit × Nat)} {chunks : List (List HeaderUse)}
    (h : List.Forall₂ (fun b uses => b.1.IsRead (b.1.var b.2) uses) l chunks) :
    (chunks.flatten.filter (·.1.isEmpty)).flatMap (·.2.declares) = l.flatMap declares := by
  induction h with
  | nil => rfl
  | cons hread _ ih =>
    rw [List.flatten_cons, List.filter_append, List.flatMap_append, hread.declared, ih,
      List.flatMap_cons]

/-- Declared variables differ from each other if those that hold the texts do. -/
theorem nodup_declares {l : List (BoundVisit × Nat)} : (l.flatMap declares).Nodup ↔
    (l.map fun b => headerVariable (key b).1 (key b).2).Nodup := by
  -- A companion has a suffix that no variable ends in, so the two kinds never meet.
  have hcompanion : ∀ b c : BoundVisit × Nat, headerVariable (key b).1 (key b).2 ≠
      headerVariable (key c).1 (key c).2 ++ "Exists" :=
    fun _ _ => headerVariable_ne_companion _ _ _ _
  have hmem : ∀ (b : BoundVisit × Nat) x, x ∈ declares b ↔
      x = headerVariable (key b).1 (key b).2 ∨
        b.1.visit.field.required = false ∧
          x = headerVariable (key b).1 (key b).2 ++ "Exists" := by
    intro b x
    rw [declares, Field.fetch]
    split
    · rename_i hrequired
      simp [hrequired, HeaderStatement.declares, var, HeaderVar.spelling, key]
    · rename_i hoptional
      simp [hoptional, HeaderStatement.declares, var, HeaderVar.spelling, HeaderVar.presence, key]
  rw [List.nodup_flatMap, List.Nodup, List.pairwise_map]
  refine ⟨fun h => h.2.imp ?_, fun h => ⟨fun b _ => ?_, h.imp ?_⟩⟩
  · intro b c hdisjoint heq
    exact List.disjoint_left.mp hdisjoint ((hmem b _).mpr (.inl rfl)) ((hmem c _).mpr (.inl heq))
  · rw [declares, Field.fetch]
    split
    · exact List.nodup_singleton _
    · refine List.nodup_cons.mpr ⟨fun hself => ?_, List.nodup_singleton _⟩
      exact hcompanion b b (List.mem_singleton.mp hself)
  · intro b c hne
    refine List.disjoint_left.mpr fun x hb hc => ?_
    rcases (hmem b x).mp hb with rfl | ⟨-, rfl⟩
    · rcases (hmem c _).mp hc with heq | ⟨-, heq⟩
      · exact hne heq
      · exact hcompanion b c heq
    · rcases (hmem c _).mp hc with heq | ⟨-, heq⟩
      · exact hcompanion c b heq.symm
      · exact hne ((String.append_left_inj _).mp heq)

end BoundVisit

namespace ReadingRequest

variable {r : ReadingRequest}

/-- The variables that are declared for headers differ from each other exactly if no header has for its
name in camel case the numbered name of another one. -/
theorem run_declares {text : List String} (h : r.run = .lines text) :
    ∃ code : HeaderCode, text = code.lines.map Line.indented ∧
      ((HeaderCode.declared code).Nodup ↔ ∀ b ∈ r.bound, ∀ b' ∈ r.bound, ∀ k, 1 ≤ k →
        k < (r.bound.map fun b => camel b.header).count (camel b.header) →
          camel b'.header ≠ camel b.header ++ "No" ++ toString k) := by
  obtain ⟨code, hlines, -, chunks, huses, hreads⟩ := run_uses h
  refine ⟨code, hlines, ?_⟩
  have hkey : ∀ name k, (name, k) ∈ (BoundVisit.numbered [] r.bound).map BoundVisit.key ↔
      k < (r.bound.map fun b => camel b.header).count name := by
    intro name k
    rw [BoundVisit.mem_keys, List.count_nil]
    omega
  have hmap : ((BoundVisit.numbered [] r.bound).map fun b =>
      headerVariable (BoundVisit.key b).1 (BoundVisit.key b).2) =
        ((BoundVisit.numbered [] r.bound).map BoundVisit.key).map fun e =>
          headerVariable e.1 e.2 := by
    rw [List.map_map]
    rfl
  rw [HeaderCode.declared, huses, BoundVisit.declared_of_reads hreads, BoundVisit.nodup_declares,
    hmap, List.nodup_map_iff_inj_on BoundVisit.nodup_keys]
  -- A numbered name is taken twice exactly if some header is spelled as another one with its number.
  constructor
  · intro hinjective b hb b' hb' k hk hlt hname
    have hpos : 0 < (r.bound.map fun b => camel b.header).count (camel b'.header) :=
      List.count_pos_iff.mpr (List.mem_map.mpr ⟨b', hb', rfl⟩)
    have heq := hinjective (camel b.header, k) ((hkey _ _).mpr hlt) (camel b'.header, 0)
      ((hkey _ _).mpr hpos) (by
        dsimp only
        rw [hname, headerVariable_of_numbered _ (by omega)])
    rw [Prod.mk.injEq] at heq
    omega
  · rintro hclash ⟨a, m⟩ ha ⟨a', n⟩ ha' heq
    rw [hkey] at ha ha'
    obtain ⟨b, hb, rfl⟩ := List.mem_map.mp (List.count_pos_iff.mp (Nat.zero_lt_of_lt ha))
    obtain ⟨b', hb', rfl⟩ := List.mem_map.mp (List.count_pos_iff.mp (Nat.zero_lt_of_lt ha'))
    rw [Prod.mk.injEq]
    exact eq_of_headerVariable heq (fun hm => hclash b hb b' hb' m (Nat.one_le_iff_ne_zero.mpr hm) ha)
      fun hn => hclash b' hb' b hb n (Nat.one_le_iff_ne_zero.mpr hn) ha'

/-- Three required fields, two of which are bound to one header and the third to a header that is called
like its second variable. -/
def tripledFoo : ReadingRequest :=
  { schema := ⟨[]⟩
    resolve := fun _ => .ok "structs"
    fields := [⟨0, "a", true, .text, [("gateway.http.ref", "headers.x-foo")]⟩,
      ⟨1, "b", true, .text, [("gateway.http.ref", "headers.x-foo")]⟩,
      ⟨2, "c", true, .text, [("gateway.http.ref", "headers.x-foo-no1")]⟩]
    annotationSpace := defaultSpace }

/-- The variables that a request declares for headers, if it reads any. -/
def declared? (r : ReadingRequest) : Option (List String) :=
  match r.draft {} with
  | .ok (true, code, _) => some (HeaderCode.declared code)
  | _ => none

/-- The variable for the second header and that for the third one have the same name. -/
theorem tripledFoo_declaredTwice :
    tripledFoo.run = .lines
        ["xFooValue, _ := req.Header.Get(\"x-foo\")",
          "requestBody.A = xFooValue",
          "xFooNo1Value, _ := req.Header.Get(\"x-foo\")",
          "requestBody.B = xFooNo1Value",
          "xFooNo1Value, _ := req.Header.Get(\"x-foo-no1\")",
          "requestBody.C = xFooNo1Value"] ∧
      tripledFoo.declared? = some ["xFooValue", "xFooNo1Value", "xFooNo1Value"] ∧
      ¬["xFooValue", "xFooNo1Value", "xFooNo1Value"].Nodup := by
  refine ⟨?_, ?_, ?_⟩ <;> decide +kernel

end ReadingRequest

end RecordBridge

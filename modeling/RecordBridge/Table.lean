/-!
# Tables

Values keyed by text, kept in increasing order of their keys. The order of texts is that of their
code points. `insert` keeps the order, so listing a table never depends on how it was filled.
-/

namespace RecordBridge

/-- Values keyed by text, in increasing order of the keys. -/
structure Table (α : Type) where
  entries : List (String × α)
  sorted : entries.Pairwise fun a b => a.1 < b.1

namespace Table

variable {α β : Type}

/-- The table without entries. -/
def empty : Table α :=
  ⟨[], .nil⟩

instance : Inhabited (Table α) :=
  ⟨empty⟩

/-- Puts a value at its place in a sorted list, over the value of an equal key. -/
def place (key : String) (value : α) : List (String × α) → List (String × α)
  | [] => [(key, value)]
  | entry :: rest =>
    if key < entry.1 then (key, value) :: entry :: rest
    else if entry.1 < key then entry :: place key value rest
    else (key, value) :: rest

/-- Placing an entry brings in no key but its own. -/
theorem fst_of_mem_place {key : String} {value : α} {l : List (String × α)} {e : String × α}
    (h : e ∈ place key value l) : e = (key, value) ∨ e ∈ l := by
  induction l with
  | nil => simpa [place] using h
  | cons entry rest ih =>
    unfold place at h
    split at h
    · simpa using h
    · split at h
      · rcases List.mem_cons.1 h with h | h
        · exact .inr (by simp [h])
        · exact (ih h).imp_right (List.mem_cons_of_mem _)
      · rcases List.mem_cons.1 h with h | h
        · exact .inl h
        · exact .inr (List.mem_cons_of_mem _ h)

/-- Placing an entry keeps a list sorted. -/
theorem sorted_place {key : String} {value : α} {l : List (String × α)}
    (h : l.Pairwise fun a b => a.1 < b.1) :
    (place key value l).Pairwise fun a b => a.1 < b.1 := by
  induction l with
  | nil => simp [place]
  | cons entry rest ih =>
    have ⟨hentry, hrest⟩ := List.pairwise_cons.1 h
    unfold place
    split
    · rename_i hlt
      refine List.pairwise_cons.2 ⟨fun e he => ?_, h⟩
      rcases List.mem_cons.1 he with rfl | he
      · exact hlt
      · exact String.lt_trans hlt (hentry e he)
    · split
      · rename_i hgt
        refine List.pairwise_cons.2 ⟨fun e he => ?_, ih hrest⟩
        rcases fst_of_mem_place he with rfl | he
        · exact hgt
        · exact hentry e he
      · -- Neither key is the smaller one, so they are the same, and the new value takes the place of the
        -- old.
        rename_i hlt hgt
        have heq : key = entry.1 := String.le_antisymm (String.not_lt.1 hgt) (String.not_lt.1 hlt)
        exact List.pairwise_cons.2 ⟨fun e he => heq ▸ hentry e he, hrest⟩

/-- The table with a value at a key, in place of the value that was there. -/
def insert (t : Table α) (key : String) (value : α) : Table α :=
  ⟨place key value t.entries, sorted_place t.sorted⟩

/-- The table of a list of entries, of which the last wins at each key. -/
def ofList (entries : List (String × α)) : Table α :=
  entries.foldl (fun t e => t.insert e.1 e.2) empty

/-- The value at a key. -/
def get? (t : Table α) (key : String) : Option α :=
  t.entries.lookup key

/-- The keys in increasing order. -/
def keys (t : Table α) : List String :=
  t.entries.map (·.1)

end Table

end RecordBridge

import HeapEngine.SortedMap

/-! Looking up keys: what each operation does to the values found, and maps told apart by them. -/

namespace HeapEngine.SortedMap

variable {κ ν : Type}

section Entries

variable [DecidableEq κ]

/-- What is found stands in the entries. -/
theorem mem_of_lookupIn {key : κ} {value : ν} {entries : List (κ × ν)}
    (found : lookupIn key entries = some value) : (key, value) ∈ entries := by
  induction entries with
  | nil => simp [lookupIn] at found
  | cons head rest ih =>
    by_cases same : head.1 = key
    · simp only [lookupIn, same, ↓reduceIte, Option.some.injEq] at found
      subst same found
      exact List.mem_cons_self
    · simp only [lookupIn, same, ↓reduceIte] at found
      exact List.mem_cons_of_mem _ (ih found)

/-- In ascending entries every entry is the one found for its key. -/
theorem lookupIn_of_mem [LT κ] [KeyOrder κ] {key : κ} {value : ν} {entries : List (κ × ν)}
    (ascending : entries.Pairwise (fun a b => a.1 < b.1)) (member : (key, value) ∈ entries) :
    lookupIn key entries = some value := by
  induction entries with
  | nil => simp at member
  | cons head rest ih =>
    obtain ⟨above, tail⟩ := List.pairwise_cons.1 ascending
    rcases List.mem_cons.1 member with same | inner
    · subst same
      simp [lookupIn]
    -- A later entry has a larger key than the head, so the head is passed over.
    · have different : head.1 ≠ key := by
        intro same
        exact KeyOrder.irrefl key (by simpa [same] using above (key, value) inner)
      simp [lookupIn, different, ih tail inner]

end Entries

section Maps

variable [LT κ] [DecidableEq κ] [KeyOrder κ]

/-- The entries are the keys with the values found for them. -/
theorem mem_entries_iff {map : SortedMap κ ν} {key : κ} {value : ν} :
    (key, value) ∈ map.entries ↔ map.find? key = some value :=
  ⟨lookupIn_of_mem map.ascending, mem_of_lookupIn⟩

omit [DecidableEq κ] in
/-- No entry stands twice. -/
theorem nodup_entries (map : SortedMap κ ν) : map.entries.Nodup :=
  map.ascending.imp fun {a b} before same => by
    subst same
    exact KeyOrder.irrefl a.1 before

omit [DecidableEq κ] [KeyOrder κ] in
/-- The keys ascend. -/
theorem pairwise_keys (map : SortedMap κ ν) : map.keys.Pairwise (· < ·) :=
  List.pairwise_map.2 map.ascending

/-- The keys are those that have a value. -/
theorem mem_keys_iff {map : SortedMap κ ν} {key : κ} :
    key ∈ map.keys ↔ map.contains key = true := by
  simp only [keys, List.mem_map, contains, Option.isSome_iff_exists]
  constructor
  · rintro ⟨⟨other, value⟩, member, rfl⟩
    exact ⟨value, mem_entries_iff.1 member⟩
  · rintro ⟨value, found⟩
    exact ⟨(key, value), mem_entries_iff.2 found, rfl⟩

omit [KeyOrder κ] in
/-- The empty map has no value for any key. -/
@[simp] theorem find?_empty (key : κ) : (empty : SortedMap κ ν).find? key = none := rfl

/-- Values are found after filtering if they pass the test. -/
theorem find?_filter (map : SortedMap κ ν) (keep : κ → ν → Bool) (key : κ) :
    (map.filter keep).find? key = (map.find? key).filter (keep key) := by
  refine Option.ext fun value => ?_
  rw [← mem_entries_iff]
  simp only [filter, List.mem_filter, Option.filter_eq_some_iff, mem_entries_iff]

/-- A key that was erased has no value. -/
@[simp] theorem find?_erase_self (map : SortedMap κ ν) (key : κ) :
    (map.erase key).find? key = none := by
  simp only [erase, find?_filter, ne_eq, not_true_eq_false, decide_false]
  cases map.find? key <;> rfl

/-- Erasing a key leaves the values of the others. -/
theorem find?_erase_other (map : SortedMap κ ν) {key other : κ} (different : other ≠ key) :
    (map.erase key).find? other = map.find? other := by
  simp only [erase, find?_filter, ne_eq, different, not_false_eq_true, decide_true]
  cases map.find? other <;> rfl

variable [DecidableLT κ]

/-- The value just inserted is found. -/
@[simp] theorem find?_insert_self (map : SortedMap κ ν) (key : κ) (value : ν) :
    (map.insert key value).find? key = some value := by
  -- The new entry stands among the entries, and each of these is found.
  refine mem_entries_iff.1 ?_
  simp only [insert]
  induction map.entries with
  | nil => simp [insertIn]
  | cons head rest ih =>
    simp only [insertIn]
    split
    · exact List.mem_cons_self
    · split
      · exact List.mem_cons_of_mem _ ih
      · exact List.mem_cons_self

/-- Inserting a key leaves the values of the others. -/
theorem find?_insert_other (map : SortedMap κ ν) {key other : κ} (value : ν)
    (different : other ≠ key) : (map.insert key value).find? other = map.find? other := by
  simp only [insert, find?]
  induction map.entries with
  | nil => simp [insertIn, lookupIn, different.symm]
  | cons head rest ih =>
    simp only [insertIn]
    split
    · simp [lookupIn, different.symm]
    · split
      · simp [lookupIn, ih]
      -- The entry that gave way had the same key, so the other one is not it.
      · rename_i notBefore notAfter
        have same : key = head.1 := KeyOrder.connected notBefore notAfter
        simp [lookupIn, ← same, different.symm]

omit [DecidableLT κ] in
/-- Maps that give every key the same value are the same map. -/
theorem ext_find? {a b : SortedMap κ ν} (agree : ∀ key, a.find? key = b.find? key) : a = b := by
  -- Both lists ascend and have the same members, so they are permutations in the same order.
  refine ext (List.Perm.eq_of_pairwise (fun x y _ _ below above => ?_) a.ascending b.ascending ?_)
  · exact absurd (KeyOrder.trans below above) (KeyOrder.irrefl x.1)
  · refine (List.perm_ext_iff_of_nodup a.nodup_entries b.nodup_entries).2 fun ⟨key, value⟩ => ?_
    rw [mem_entries_iff, mem_entries_iff, agree key]

end Maps

end HeapEngine.SortedMap

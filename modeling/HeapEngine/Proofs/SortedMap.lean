import HeapEngine.SortedMap.Lookup

/-! What is found in a map after a change, as one rule for all keys. -/

namespace HeapEngine

namespace SortedMap

variable {κ ν : Type} [LT κ] [DecidableEq κ] [KeyOrder κ]

/-- An entry that was set is found under its key, and all others as before. -/
theorem find?_insert [DecidableLT κ] (map : SortedMap κ ν) (key other : κ) (value : ν) :
    (map.insert key value).find? other = if other = key then some value else map.find? other := by
  by_cases same : other = key
  · subst same
    simp
  · simp [find?_insert_other map value same, same]

/-- Nothing is found under an erased key, and all else as before. -/
theorem find?_erase (map : SortedMap κ ν) (key other : κ) :
    (map.erase key).find? other = if other = key then none else map.find? other := by
  by_cases same : other = key
  · subst same
    simp
  · simp [find?_erase_other map same, same]

/-- An entry that is there can be set again. -/
theorem insert_of_find? [DecidableLT κ] {map : SortedMap κ ν} {key : κ} {value : ν}
    (found : map.find? key = some value) : map.insert key value = map := by
  refine ext_find? fun other => ?_
  rw [find?_insert]
  by_cases same : other = key
  · rw [if_pos same, same, found]
  · rw [if_neg same]

/-- Of two values that are set under one key the second stays. -/
theorem insert_insert [DecidableLT κ] (map : SortedMap κ ν) (key : κ) (first second : ν) :
    (map.insert key first).insert key second = map.insert key second := by
  refine ext_find? fun other => ?_
  rw [find?_insert, find?_insert, find?_insert]
  split <;> rfl

/-- Values that are set under two keys may be set in either order. -/
theorem insert_comm [DecidableLT κ] (map : SortedMap κ ν) {key other : κ} (apart : key ≠ other) (value third : ν) :
    (map.insert key value).insert other third = (map.insert other third).insert key value := by
  refine ext_find? fun asked => ?_
  simp only [find?_insert]
  by_cases here : asked = key
  · subst here
    simp [apart]
  · simp [here]

/-- A value may be set before or after another key is erased. -/
theorem erase_insert [DecidableLT κ] (map : SortedMap κ ν) {key other : κ} (apart : key ≠ other) (value : ν) :
    (map.insert key value).erase other = (map.erase other).insert key value := by
  refine ext_find? fun asked => ?_
  simp only [find?_insert, find?_erase]
  by_cases here : asked = key
  · subst here
    simp [apart]
  · simp [here]

theorem erase_comm (map : SortedMap κ ν) (key other : κ) :
    (map.erase key).erase other = (map.erase other).erase key := by
  refine ext_find? fun asked => ?_
  simp only [find?_erase]
  split
  · split <;> rfl
  · rfl

/-- Setting a key that is there gives no key to the map. -/
theorem contains_insert [DecidableLT κ] {map : SortedMap κ ν} {key : κ} {old : ν}
    (found : map.find? key = some old) (value : ν) : (map.insert key value).contains = map.contains := by
  funext other
  rw [contains, contains, find?_insert]
  by_cases same : other = key
  · rw [if_pos same, same, found]
    rfl
  · rw [if_neg same]

omit [DecidableEq κ] in
/-- Keys that ascend stand only once. -/
theorem nodup_of_ascending {keys : List κ} (ascending : keys.Pairwise (· < ·)) : keys.Nodup := by
  refine ascending.imp fun {a b} below => ?_
  rintro rfl
  exact KeyOrder.irrefl a below

omit [DecidableEq κ] in
/-- Keys that ascend are told by which they are. -/
theorem eq_of_ascending {keys others : List κ} (ascending : keys.Pairwise (· < ·))
    (ascendingToo : others.Pairwise (· < ·)) (same : ∀ key, key ∈ keys ↔ key ∈ others) : keys = others := by
  refine List.Perm.eq_of_pairwise (fun a b _ _ below above => ?_) ascending ascendingToo ?_
  · exact absurd (KeyOrder.trans below above) (KeyOrder.irrefl a)
  · exact (List.perm_ext_iff_of_nodup (nodup_of_ascending ascending) (nodup_of_ascending ascendingToo)).2 same

/-- As many different keys as have a value are at most as many as there are. -/
theorem length_le_size {map : SortedMap κ ν} {keys : List κ} (nodup : keys.Nodup)
    (inside : ∀ key ∈ keys, map.contains key = true) : keys.length ≤ map.size := by
  have among : keys ⊆ map.keys := fun key member => mem_keys_iff.2 (inside key member)
  have fewer := nodup.length_le_of_subset among
  rwa [SortedMap.keys, List.length_map] at fewer

/-- A map has no more keys than another one that has all of its keys. -/
theorem size_le {a b : SortedMap κ ν} (inside : ∀ key, a.contains key = true → b.contains key = true) :
    a.size ≤ b.size := by
  have fewer := length_le_size (nodup_of_ascending a.pairwise_keys) fun key member =>
    inside key (mem_keys_iff.1 member)
  rwa [SortedMap.keys, List.length_map] at fewer

/-- A key that only the other map has makes that one larger. -/
theorem size_lt {a b : SortedMap κ ν} {key : κ} (gone : a.contains key = false) (there : b.contains key = true)
    (inside : ∀ other, a.contains other = true → b.contains other = true) : a.size < b.size := by
  have nodup : (key :: a.keys).Nodup := by
    refine List.nodup_cons.2 ⟨fun member => ?_, nodup_of_ascending a.pairwise_keys⟩
    rw [mem_keys_iff, gone] at member
    cases member
  have fewer : (key :: a.keys).length ≤ b.size := by
    refine length_le_size nodup fun other member => ?_
    rcases List.mem_cons.1 member with rfl | old
    · exact there
    · exact inside other (mem_keys_iff.1 old)
  rwa [List.length_cons, SortedMap.keys, List.length_map] at fewer

omit [DecidableEq κ] in
/-- Setting a value adds at most one key. -/
theorem size_insert_le [DecidableLT κ] (map : SortedMap κ ν) (key : κ) (value : ν) :
    (map.insert key value).size ≤ map.size + 1 := by
  have general : ∀ entries : List (κ × ν), (insertIn key value entries).length ≤ entries.length + 1 := by
    intro entries
    induction entries with
    | nil => simp [insertIn]
    | cons head rest ih =>
      simp only [insertIn]
      -- The new entry goes before the head, behind it or in its place.
      split
      · simp
      · split
        · simpa using ih
        · simp
  exact general map.entries

/-- In a map of one entry only one key is found. -/
theorem eq_of_size_one {map : SortedMap κ ν} (one : map.size = 1) {a b : κ}
    (hasA : map.contains a = true) (hasB : map.contains b = true) : a = b := by
  rw [← mem_keys_iff, keys] at hasA hasB
  obtain ⟨entry, only⟩ := List.length_eq_one_iff.1 one
  simp only [only, List.map_cons, List.map_nil, List.mem_singleton] at hasA hasB
  rw [hasA, hasB]

omit [KeyOrder κ] in
/-- A map without entries has no value for any key. -/
theorem find?_of_size_zero {map : SortedMap κ ν} (nothing : map.size = 0) (key : κ) :
    map.find? key = none := by
  have noEntries := List.length_eq_zero_iff.1 nothing
  simp [find?, noEntries, lookupIn]

end SortedMap

namespace SortedSet

variable {κ : Type} [LT κ] [DecidableEq κ] [DecidableLT κ] [KeyOrder κ]

/-- The set of the keys in a list has exactly these keys. -/
theorem mem_ofList {keys : List κ} {key : κ} : key ∈ (ofList keys).keys ↔ key ∈ keys := by
  -- The set is built from the front of the list, so the set to begin with varies.
  have general : ∀ (keys : List κ) (start : SortedSet κ),
      (keys.foldl (fun set key => set.insert key ()) start).contains key = true
        ↔ key ∈ keys ∨ start.contains key = true := by
    intro keys
    induction keys with
    | nil => simp
    | cons head rest ih =>
      intro start
      rw [List.foldl_cons, ih, List.mem_cons]
      by_cases same : key = head
      · simp [same, SortedMap.contains]
      · simp [same, SortedMap.contains, SortedMap.find?_insert]
  rw [SortedMap.mem_keys_iff, ofList, general]
  simp [SortedMap.contains]

omit [DecidableLT κ] in
/-- Sets with the same members are the same set. -/
theorem ext_contains {a b : SortedSet κ} (agree : ∀ key, a.contains key = b.contains key) : a = b := by
  refine SortedMap.ext_find? fun key => ?_
  have same := agree key
  -- A member has no value but the one that all members have.
  unfold SortedMap.contains at same
  cases first : a.find? key <;> cases second : b.find? key <;> simp_all

end SortedSet

end HeapEngine

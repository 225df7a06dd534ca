/-! Finite maps kept as entries in ascending key order, so that equal maps are equal values. -/

namespace HeapEngine

/-- Keys are ordered strictly and any two different keys are ordered. -/
class KeyOrder (κ : Type) [LT κ] : Prop where
  irrefl : ∀ a : κ, ¬ a < a
  trans : ∀ {a b c : κ}, a < b → b < c → a < c
  connected : ∀ {a b : κ}, ¬ a < b → ¬ b < a → a = b

instance : KeyOrder Nat where
  irrefl := Nat.lt_irrefl
  trans := Nat.lt_trans
  connected := by intro a b; omega

instance : KeyOrder String where
  irrefl := String.lt_irrefl
  trans := String.lt_trans
  connected := fun left right => String.le_antisymm right left

/-- A finite map from keys to values. -/
structure SortedMap (κ ν : Type) [LT κ] where
  /-- The entries, in ascending key order. -/
  entries : List (κ × ν)
  /-- Keys ascend strictly, so no key has two entries. -/
  ascending : entries.Pairwise (fun a b => a.1 < b.1)

/-- A finite set of keys. -/
abbrev SortedSet (κ : Type) [LT κ] := SortedMap κ Unit

namespace SortedMap

variable {κ ν : Type} [LT κ]

/-- Two maps with the same entries are the same map. -/
@[ext] theorem ext {a b : SortedMap κ ν} (same : a.entries = b.entries) : a = b := by
  cases a
  cases b
  simp only at same
  subst same
  rfl

instance [DecidableEq κ] [DecidableEq ν] : DecidableEq (SortedMap κ ν) := fun a b =>
  if same : a.entries = b.entries then .isTrue (ext same)
  else .isFalse fun equal => same (by rw [equal])

/-- The map with no entry. -/
def empty : SortedMap κ ν := ⟨[], .nil⟩

instance : EmptyCollection (SortedMap κ ν) := ⟨empty⟩

instance : Inhabited (SortedMap κ ν) := ⟨empty⟩

/-- The keys, ascending. -/
def keys (map : SortedMap κ ν) : List κ := map.entries.map Prod.fst

/-- How many keys have a value. -/
def size (map : SortedMap κ ν) : Nat := map.entries.length

/-- The entries whose key and value pass a test. -/
def filter (map : SortedMap κ ν) (keep : κ → ν → Bool) : SortedMap κ ν :=
  ⟨map.entries.filter fun entry => keep entry.1 entry.2, map.ascending.filter _⟩

/-- The value the first entry of a key holds. -/
def lookupIn [DecidableEq κ] (key : κ) : List (κ × ν) → Option ν
  | [] => none
  | (other, value) :: rest => if other = key then some value else lookupIn key rest

/-- The value of a key, if it has one. -/
def find? [DecidableEq κ] (map : SortedMap κ ν) (key : κ) : Option ν := lookupIn key map.entries

/-- Whether a key has a value. -/
def contains [DecidableEq κ] (map : SortedMap κ ν) (key : κ) : Bool := (map.find? key).isSome

/-- The map without a key. -/
def erase [DecidableEq κ] (map : SortedMap κ ν) (key : κ) : SortedMap κ ν :=
  map.filter fun other _ => other ≠ key

/-- Puts an entry in its place among ascending entries, over an entry of the same key. -/
def insertIn [DecidableLT κ] (key : κ) (value : ν) : List (κ × ν) → List (κ × ν)
  | [] => [(key, value)]
  | (other, old) :: rest =>
    if key < other then (key, value) :: (other, old) :: rest
    else if other < key then (other, old) :: insertIn key value rest
    else (key, value) :: rest

/-- Inserting brings in no entry but its own. -/
theorem mem_insertIn [DecidableLT κ] {key : κ} {value : ν} {entries : List (κ × ν)}
    {entry : κ × ν} (member : entry ∈ insertIn key value entries) :
    entry = (key, value) ∨ entry ∈ entries := by
  induction entries with
  | nil => simpa [insertIn] using member
  | cons head rest ih =>
    simp only [insertIn] at member
    split at member
    -- The new entry went to the front.
    · simpa using member
    · split at member
      -- The new entry went into the rest.
      · rcases List.mem_cons.1 member with rfl | inner
        · simp
        · rcases ih inner with same | old
          · exact .inl same
          · exact .inr (List.mem_cons_of_mem _ old)
      -- The new entry took the place of the head.
      · rcases List.mem_cons.1 member with same | old
        · exact .inl same
        · exact .inr (List.mem_cons_of_mem _ old)

/-- Inserting keeps the entries ascending. -/
theorem ascending_insertIn [DecidableLT κ] [KeyOrder κ] {key : κ} {value : ν}
    {entries : List (κ × ν)} (ascending : entries.Pairwise (fun a b => a.1 < b.1)) :
    (insertIn key value entries).Pairwise (fun a b => a.1 < b.1) := by
  induction entries with
  | nil => simp [insertIn]
  | cons head rest ih =>
    obtain ⟨above, tail⟩ := List.pairwise_cons.1 ascending
    simp only [insertIn]
    split
    · rename_i before
      refine List.pairwise_cons.2 ⟨fun entry member => ?_, ascending⟩
      rcases List.mem_cons.1 member with rfl | inner
      · exact before
      · exact KeyOrder.trans before (above entry inner)
    · split
      · rename_i after
        refine List.pairwise_cons.2 ⟨fun entry member => ?_, ih tail⟩
        rcases mem_insertIn member with rfl | old
        · exact after
        · exact above entry old
      · rename_i notBefore notAfter
        have same : key = head.1 := KeyOrder.connected notBefore notAfter
        refine List.pairwise_cons.2 ⟨fun entry member => ?_, tail⟩
        rw [same]
        exact above entry member

/-- The map with a key's value set. -/
def insert [DecidableLT κ] [KeyOrder κ] (map : SortedMap κ ν) (key : κ) (value : ν) :
    SortedMap κ ν :=
  ⟨insertIn key value map.entries, ascending_insertIn map.ascending⟩

end SortedMap

/-- The set of the keys in a list. -/
def SortedSet.ofList {κ : Type} [LT κ] [DecidableLT κ] [KeyOrder κ] (keys : List κ) :
    SortedSet κ :=
  keys.foldl (fun set key => set.insert key ()) .empty

end HeapEngine

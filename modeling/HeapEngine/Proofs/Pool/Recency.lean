import Mathlib.Data.List.Sort
import Mathlib.Logic.Relation
import HeapEngine.Proofs.Pool

/-!
The order of last use: the resident pages in a list, the one that was used last first.

What is stored is when each page was last used. While no two pages share a time, the times tell one list, and
what is done to memory does to it what is done to a list from which the last one that may go makes room.
-/

namespace HeapEngine

/-- A page goes to the front of a list, wherever it was before. -/
def moveToFront (id : PageId) (order : List PageId) : List PageId := id :: order.erase id

/--
The list after a page was used, where it may have `capacity` members.

A page that is not there yet takes the place of the one nearest the end that may go, if there is no room. If
none may go, the page cannot be used.
-/
def useInOrder (capacity : Nat) (mayGo : PageId → Bool) (order : List PageId) (id : PageId) : Option (List PageId) :=
  if id ∈ order then some (moveToFront id order)
  else if order.length < capacity then some (id :: order)
  else (order.filter mayGo).getLast?.map fun victim => id :: order.erase victim

namespace Pool

variable {pool after : Pool} {id other : PageId} {copy : CopyId}

/-- When a resident page was last used. -/
def lastUse? (pool : Pool) (id : PageId) : Option Nat := (pool.frames.find? id).map Frame.lastUse

/-- No page was used after now, and no two were last used at the same time. -/
structure Ticking (pool : Pool) : Prop where
  past : ∀ id use, pool.lastUse? id = some use → use ≤ pool.clock
  apart : ∀ id other use, pool.lastUse? id = some use → pool.lastUse? other = some use → id = other

/-- Whether the first of two entries was used no earlier than the second. -/
def NoEarlier (entry other : PageId × Frame) : Prop := other.2.lastUse ≤ entry.2.lastUse

instance decideNoEarlier : DecidableRel NoEarlier := fun entry other =>
  inferInstanceAs (Decidable (other.2.lastUse ≤ entry.2.lastUse))

instance totalNoEarlier : Std.Total NoEarlier := ⟨fun entry other => Nat.le_total other.2.lastUse entry.2.lastUse⟩

instance transNoEarlier : IsTrans (PageId × Frame) NoEarlier := ⟨fun _ _ _ first second => Nat.le_trans second first⟩

/-- The resident pages, the one that was used last first. -/
def byRecency (pool : Pool) : List PageId := (pool.frames.entries.insertionSort NoEarlier).map Prod.fst

/-- Whether a page may go for another one, as one with changes may not. -/
def mayGo (pool : Pool) (id : PageId) : Bool := !(pool.page? id).any Page.isDirty

/-- Both pages are resident, and the first was used after the second. -/
def UsedAfter (pool : Pool) (id other : PageId) : Prop :=
  ∃ later earlier, pool.lastUse? id = some later ∧ pool.lastUse? other = some earlier ∧ earlier < later

/-- A page has a time of last use if it is resident. -/
theorem isResident_iff : pool.isResident id = true ↔ ∃ use, pool.lastUse? id = some use := by
  rw [isResident, SortedMap.contains, lastUse?]
  cases pool.frames.find? id <;> simp

theorem isResident_of_lastUse?_eq (same : after.lastUse? id = pool.lastUse? id) :
    after.isResident id = pool.isResident id := by
  rw [Bool.eq_iff_iff, isResident_iff, isResident_iff, same]

theorem mem_byRecency : id ∈ pool.byRecency ↔ pool.isResident id = true := by
  rw [byRecency, List.mem_map, isResident_iff, lastUse?]
  constructor
  · rintro ⟨⟨_, frame⟩, member, rfl⟩
    rw [SortedMap.mem_entries_iff.1 ((List.mem_insertionSort _).1 member)]
    exact ⟨_, rfl⟩
  · rintro ⟨_, used⟩
    obtain ⟨frame, found, _⟩ := Option.map_eq_some_iff.1 used
    exact ⟨(id, frame), (List.mem_insertionSort _).2 (SortedMap.mem_entries_iff.2 found), rfl⟩

theorem length_byRecency (pool : Pool) : pool.byRecency.length = pool.residentCount := by
  rw [byRecency, List.length_map, List.length_insertionSort, residentCount, SortedMap.size]

namespace Ticking

/-- Nothing is in memory, so nothing was used. -/
theorem empty : Ticking .empty := ⟨by rintro id use ⟨⟩, by rintro id other use ⟨⟩⟩

/-- The order of last use is strict: every page was used after those behind it. -/
theorem pairwise_byRecency (ticking : pool.Ticking) : pool.byRecency.Pairwise pool.UsedAfter := by
  have sorted := List.pairwise_insertionSort NoEarlier pool.frames.entries
  have nodup := (List.perm_insertionSort NoEarlier pool.frames.entries).nodup_iff.2 pool.frames.nodup_entries
  rw [byRecency, List.pairwise_map]
  refine (sorted.and nodup).imp_of_mem fun {entry other} member memberToo ordered => ?_
  have found := SortedMap.mem_entries_iff.1 ((List.mem_insertionSort _).1 member)
  have foundToo := SortedMap.mem_entries_iff.1 ((List.mem_insertionSort _).1 memberToo)
  refine ⟨entry.2.lastUse, other.2.lastUse, by rw [lastUse?, found]; rfl, by rw [lastUse?, foundToo]; rfl, ?_⟩
  refine Nat.lt_of_le_of_ne ordered.1 fun same => ordered.2 ?_
  -- Pages that were last used at the same time are the same page, which has one frame.
  have here : entry.1 = other.1 := ticking.apart _ _ entry.2.lastUse (by rw [lastUse?, found]; rfl)
    (by rw [lastUse?, foundToo, ← same]; rfl)
  rw [here, foundToo] at found
  exact Prod.ext here (Option.some.inj found).symm

/-- No page is twice in the order of last use. -/
theorem nodup_byRecency (ticking : pool.Ticking) : pool.byRecency.Nodup := by
  refine ticking.pairwise_byRecency.imp fun {id other} usedAfter => ?_
  rintro rfl
  obtain ⟨later, earlier, used, again, before⟩ := usedAfter
  cases used.symm.trans again
  exact Nat.lt_irrefl _ before

end Ticking

/-- The order of last use is told by which pages are resident and which of them was used after which. -/
theorem byRecency_eq (ticking : pool.Ticking) {order : List PageId} (ordered : order.Pairwise pool.UsedAfter)
    (members : ∀ id, id ∈ order ↔ pool.isResident id = true) : pool.byRecency = order := by
  have asymm : ∀ {id other}, pool.UsedAfter id other → ¬ pool.UsedAfter other id := by
    rintro id other ⟨_, _, used, usedToo, before⟩ ⟨_, _, again, againToo, after⟩
    cases used.symm.trans againToo
    cases usedToo.symm.trans again
    exact Nat.lt_asymm before after
  refine List.Perm.eq_of_pairwise (fun id other _ _ first second => absurd second (asymm first))
    ticking.pairwise_byRecency ordered ?_
  refine (List.perm_ext_iff_of_nodup ticking.nodup_byRecency ?_).2 fun id => mem_byRecency.trans (members id).symm
  refine ordered.imp fun {id other} usedAfter => ?_
  rintro rfl
  exact asymm usedAfter usedAfter

/-! What changes of the times do to the order. -/

namespace Ticking

/-- If no page was used the order is as before, however far the clock went on. -/
theorem of_same (ticking : pool.Ticking) (uses : ∀ id, after.lastUse? id = pool.lastUse? id)
    (clock : pool.clock ≤ after.clock) : after.Ticking ∧ after.byRecency = pool.byRecency := by
  have still : after.Ticking := by
    refine ⟨fun id use used => ?_, fun id other use used usedToo => ?_⟩
    · exact Nat.le_trans (ticking.past id use (uses id ▸ used)) clock
    · exact ticking.apart id other use (uses id ▸ used) (uses other ▸ usedToo)
  refine ⟨still, byRecency_eq still ?_ fun id => ?_⟩
  · refine ticking.pairwise_byRecency.imp fun {id other} usedAfter => ?_
    rw [UsedAfter, uses, uses]
    exact usedAfter
  · rw [mem_byRecency, isResident_of_lastUse?_eq (uses id)]

/-- A page that goes leaves the order of the others. -/
theorem of_gone (ticking : pool.Ticking)
    (uses : ∀ other, after.lastUse? other = if other = id then none else pool.lastUse? other)
    (clock : pool.clock ≤ after.clock) : after.Ticking ∧ after.byRecency = pool.byRecency.erase id := by
  have still : after.Ticking := by
    refine ⟨fun other use used => ?_, fun other another use used usedToo => ?_⟩
    · rw [uses] at used
      split at used
      · cases used
      · exact Nat.le_trans (ticking.past other use used) clock
    · rw [uses] at used usedToo
      split at used
      · cases used
      · split at usedToo
        · cases usedToo
        · exact ticking.apart other another use used usedToo
  refine ⟨still, byRecency_eq still ?_ fun other => ?_⟩
  · refine (ticking.pairwise_byRecency.erase id).imp_of_mem fun {other another} member memberToo usedAfter => ?_
    rw [UsedAfter, uses, uses, if_neg (ticking.nodup_byRecency.mem_erase_iff.1 member).1,
      if_neg (ticking.nodup_byRecency.mem_erase_iff.1 memberToo).1]
    exact usedAfter
  · rw [ticking.nodup_byRecency.mem_erase_iff, mem_byRecency, isResident_iff, isResident_iff, uses]
    split
    · rename_i here
      simp [here]
    · rename_i apart
      simp [apart]

/-- A page that is used now goes to the front. -/
theorem of_used (ticking : pool.Ticking) (clock : after.clock = pool.clock + 1)
    (uses : ∀ other, after.lastUse? other = if other = id then some (pool.clock + 1) else pool.lastUse? other) :
    after.Ticking ∧ after.byRecency = moveToFront id pool.byRecency := by
  -- Nothing was used at the time that it is now.
  have past : ∀ other use, pool.lastUse? other = some use → use < pool.clock + 1 := fun other use used =>
    Nat.lt_succ_of_le (ticking.past other use used)
  have still : after.Ticking := by
    refine ⟨fun other use used => ?_, fun other another use used usedToo => ?_⟩
    · rw [uses] at used
      rw [clock]
      split at used
      · cases used
        exact Nat.le_refl _
      · exact Nat.le_of_lt (past other use used)
    · rw [uses] at used usedToo
      split at used
      · rename_i here
        split at usedToo
        · rename_i there
          rw [here, there]
        · cases used
          exact absurd (past another _ usedToo) (Nat.lt_irrefl _)
      · split at usedToo
        · cases usedToo
          exact absurd (past other _ used) (Nat.lt_irrefl _)
        · exact ticking.apart other another use used usedToo
  have others : ∀ {other}, other ∈ pool.byRecency.erase id →
      other ≠ id ∧ after.lastUse? other = pool.lastUse? other := by
    intro other member
    have apart := (ticking.nodup_byRecency.mem_erase_iff.1 member).1
    exact ⟨apart, by rw [uses, if_neg apart]⟩
  refine ⟨still, byRecency_eq still (List.pairwise_cons.2 ⟨fun other member => ?_, ?_⟩) fun other => ?_⟩
  · obtain ⟨apart, same⟩ := others member
    obtain ⟨use, used⟩ := isResident_iff.1 (mem_byRecency.1 (List.mem_of_mem_erase member))
    exact ⟨pool.clock + 1, use, by rw [uses, if_pos rfl], same.trans used, past other use used⟩
  · refine (ticking.pairwise_byRecency.erase id).imp_of_mem fun {other another} member memberToo usedAfter => ?_
    rw [UsedAfter, (others member).2, (others memberToo).2]
    exact usedAfter
  · rw [moveToFront, List.mem_cons, ticking.nodup_byRecency.mem_erase_iff, mem_byRecency, isResident_iff,
      isResident_iff, uses]
    split
    · rename_i here
      simp [here]
    · rename_i apart
      simp [apart]

end Ticking

/-! What is done to memory, as changes of the times. -/

/-- Asking for a page uses it if it is resident, and lets the clock go on in any case. -/
theorem lastUse?_touch (pool : Pool) (id : PageId) : (pool.touch id).2.clock = pool.clock + 1
    ∧ ∀ other, (pool.touch id).2.lastUse? other
      = if other = id ∧ pool.isResident id = true then some (pool.clock + 1) else pool.lastUse? other := by
  unfold touch
  cases found : pool.frames.find? id with
  | none => simp [lastUse?, isResident, SortedMap.contains, found]
  | some frame =>
    refine ⟨rfl, fun other => ?_⟩
    simp only [lastUse?, isResident, SortedMap.contains, found, SortedMap.find?_insert]
    by_cases here : other = id <;> simp [here]

theorem lastUse?_drop (pool : Pool) (id : PageId) : (pool.drop id).clock = pool.clock
    ∧ ∀ other, (pool.drop id).lastUse? other = if other = id then none else pool.lastUse? other := by
  refine ⟨?_, fun other => ?_⟩
  · unfold drop
    split <;> rfl
  · split
    · rename_i here
      rw [here, lastUse?, find?_drop_self]
      rfl
    · rename_i apart
      rw [lastUse?, find?_drop_other pool apart, lastUse?]

/-- A copy that is made resident is used with that. -/
theorem lastUse?_seat (pool : Pool) (copy : CopyId) (page : Page) : (pool.seat copy page).clock = pool.clock + 1
    ∧ ∀ other, (pool.seat copy page).lastUse? other
      = if other = copy.page then some (pool.clock + 1) else pool.lastUse? other := by
  obtain ⟨clock, uses⟩ := lastUse?_drop pool copy.page
  refine ⟨congrArg (· + 1) clock, fun other => ?_⟩
  have dropped := uses other
  simp only [seat, lastUse?, SortedMap.find?_insert, clock] at dropped ⊢
  split
  · rfl
  · rename_i apart
    rwa [if_neg apart] at dropped

theorem lastUse?_load (pool : Pool) (id : PageId) (page : Page) : (pool.load id page).2.clock = pool.clock + 1
    ∧ ∀ other, (pool.load id page).2.lastUse? other
      = if other = id then some (pool.clock + 1) else pool.lastUse? other :=
  lastUse?_seat { pool with nextSerial := pool.nextSerial + 1 } ⟨id, pool.nextSerial⟩ page

/-- Changing what pages hold uses none. -/
theorem lastUse?_editResident (pool : Pool) (id : PageId) (change : Page → Page) :
    (pool.editResident id change).clock = pool.clock
      ∧ ∀ other, (pool.editResident id change).lastUse? other = pool.lastUse? other := by
  unfold editResident
  cases found : pool.frames.find? id with
  | none => exact ⟨rfl, fun _ => rfl⟩
  | some frame =>
    refine ⟨rfl, fun other => ?_⟩
    simp only [lastUse?, SortedMap.find?_insert]
    by_cases here : other = id <;> simp [here, found]

theorem lastUse?_edit (pool : Pool) (copy : CopyId) (change : Page → Page) :
    (pool.edit copy change).clock = pool.clock
      ∧ ∀ other, (pool.edit copy change).lastUse? other = pool.lastUse? other := by
  cases current : pool.isCurrent copy with
  | true =>
    rw [edit_of_current current]
    exact lastUse?_editResident pool copy.page change
  | false =>
    simp only [edit, current, Bool.false_eq_true, if_false]
    split <;> exact ⟨rfl, fun _ => rfl⟩

/-! What is done to memory, as changes of the order. -/

namespace Ticking

variable (ticking : pool.Ticking)

include ticking

/-- A resident page that is asked for goes to the front. -/
theorem touch (resident : pool.isResident id = true) :
    (pool.touch id).2.Ticking ∧ (pool.touch id).2.byRecency = moveToFront id pool.byRecency := by
  obtain ⟨clock, uses⟩ := lastUse?_touch pool id
  exact ticking.of_used clock fun other => by rw [uses, resident]; simp

/-- A page that is asked for and not there changes no order. -/
theorem touch_absent (absent : pool.isResident id = false) :
    (pool.touch id).2.Ticking ∧ (pool.touch id).2.byRecency = pool.byRecency := by
  obtain ⟨clock, uses⟩ := lastUse?_touch pool id
  exact ticking.of_same (fun other => by rw [uses, absent]; simp) (by omega)

theorem drop (id : PageId) : (pool.drop id).Ticking ∧ (pool.drop id).byRecency = pool.byRecency.erase id := by
  obtain ⟨clock, uses⟩ := lastUse?_drop pool id
  exact ticking.of_gone uses (Nat.le_of_eq clock.symm)

theorem seat (copy : CopyId) (page : Page) :
    (pool.seat copy page).Ticking ∧ (pool.seat copy page).byRecency = moveToFront copy.page pool.byRecency := by
  obtain ⟨clock, uses⟩ := lastUse?_seat pool copy page
  exact ticking.of_used clock uses

theorem load (id : PageId) (page : Page) :
    (pool.load id page).2.Ticking ∧ (pool.load id page).2.byRecency = moveToFront id pool.byRecency := by
  obtain ⟨clock, uses⟩ := lastUse?_load pool id page
  exact ticking.of_used clock uses

theorem editResident (id : PageId) (change : Page → Page) : (pool.editResident id change).Ticking
    ∧ (pool.editResident id change).byRecency = pool.byRecency := by
  obtain ⟨clock, uses⟩ := lastUse?_editResident pool id change
  exact ticking.of_same uses (Nat.le_of_eq clock.symm)

theorem edit (copy : CopyId) (change : Page → Page) :
    (pool.edit copy change).Ticking ∧ (pool.edit copy change).byRecency = pool.byRecency := by
  obtain ⟨clock, uses⟩ := lastUse?_edit pool copy change
  exact ticking.of_same uses (Nat.le_of_eq clock.symm)

end Ticking

/-! Small changes of memory, one after the other. -/

/-- One small change of the pages in memory. Every operation makes some of them, one after the other. -/
inductive Step (pool : Pool) : Pool → Prop
  | touch (id : PageId) : Step pool (pool.touch id).2
  | drop (id : PageId) : Step pool (pool.drop id)
  | load (id : PageId) (page : Page) : Step pool (pool.load id page).2
  | seat (copy : CopyId) (page : Page) : Step pool (pool.seat copy page)
  | addStray (page : Page) : Step pool (pool.addStray page).2
  | edit (copy : CopyId) (change : Page → Page) : Step pool (pool.edit copy change)
  | editResident (id : PageId) (change : Page → Page) : Step pool (pool.editResident id change)

/-- Some small changes, one after the other. -/
abbrev Steps : Pool → Pool → Prop := Relation.ReflTransGen Step

/-- What some resident pages hold was changed, one after the other. -/
abbrev Edits : Pool → Pool → Prop :=
  Relation.ReflTransGen fun before after => ∃ id change, after = before.editResident id change

theorem Edits.steps (edits : Edits pool after) : Steps pool after := by
  refine Relation.ReflTransGen.mono ?_ _ _ edits
  rintro before _ ⟨id, change, rfl⟩
  exact .editResident id change

/-- Pages that are changed in place keep the order. -/
theorem Ticking.edits (ticking : pool.Ticking) (edits : Edits pool after) :
    after.Ticking ∧ after.byRecency = pool.byRecency := by
  induction edits with
  | refl => exact ⟨ticking, rfl⟩
  | tail _ edit ih =>
    obtain ⟨id, change, rfl⟩ := edit
    obtain ⟨still, same⟩ := ih.1.editResident id change
    exact ⟨still, same.trans ih.2⟩

/-- Whatever is done to memory, the times go on telling one order. -/
theorem Ticking.step (ticking : pool.Ticking) (step : Step pool after) : after.Ticking := by
  cases step with
  | touch id =>
    cases resident : pool.isResident id with
    | true => exact (ticking.touch resident).1
    | false => exact (ticking.touch_absent resident).1
  | drop id => exact (ticking.drop id).1
  | load id page => exact (ticking.load id page).1
  | seat copy page => exact (ticking.seat copy page).1
  | addStray page =>
    have same : ∀ id, (pool.addStray page).2.lastUse? id = pool.lastUse? id := fun _ => rfl
    exact (ticking.of_same same (Nat.le_refl _)).1
  | edit copy change => exact (ticking.edit copy change).1
  | editResident id change => exact (ticking.editResident id change).1

theorem Ticking.steps (ticking : pool.Ticking) (steps : Steps pool after) : after.Ticking := by
  induction steps with
  | refl => exact ticking
  | tail _ step ih => exact ih.step step

/-! Which page goes for another one. -/

/-- The frame that was used longest ago was used before all others. -/
theorem lastUse_le_of_stalest {entries : List (PageId × Frame)} {oldest entry : PageId × Frame}
    (stale : stalest entries = some oldest) (member : entry ∈ entries) : oldest.2.lastUse ≤ entry.2.lastUse := by
  induction entries generalizing oldest with
  | nil => cases member
  | cons head rest ih =>
    unfold stalest at stale
    cases later : stalest rest with
    | none =>
      -- Behind the only entry there is none.
      rw [later] at stale
      cases stale
      rcases List.mem_cons.1 member with rfl | behind
      · exact Nat.le_refl _
      · obtain ⟨_, found⟩ := exists_stalest behind
        cases later.symm.trans found
    | some second =>
      rw [later] at stale
      simp only at stale
      rcases List.mem_cons.1 member with rfl | behind
      · split at stale <;> cases stale <;> omega
      · have least := ih later behind
        split at stale <;> cases stale <;> omega

/-- An entry is the oldest of those that may go if no other one of them was used as early. -/
theorem stalest_eq_some {entries : List (PageId × Frame)} {entry : PageId × Frame} (member : entry ∈ entries)
    (oldest : ∀ other ∈ entries, other ≠ entry → entry.2.lastUse < other.2.lastUse) :
    stalest entries = some entry := by
  obtain ⟨found, stale⟩ := exists_stalest member
  by_cases same : found = entry
  · rw [stale, same]
  · have below := oldest found (mem_of_stalest stale) same
    have above := lastUse_le_of_stalest stale member
    omega

/--
The page that goes is the one without changes nearest the end of the order of last use.

It does not matter in which order the frames are gone through.
-/
theorem Ticking.stalest_eq (ticking : pool.Ticking) {entries : List (PageId × Frame)}
    (same : entries.Perm pool.frames.entries) :
    (stalest (entries.filter fun entry => !entry.2.page.isDirty)).map Prod.fst
      = (pool.byRecency.filter pool.mayGo).getLast? := by
  have members : ∀ {id frame}, (id, frame) ∈ entries ↔ pool.frames.find? id = some frame := fun {id frame} =>
    same.mem_iff.trans SortedMap.mem_entries_iff
  have clean : ∀ {id frame}, pool.frames.find? id = some frame →
      pool.mayGo id = !frame.page.isDirty := by
    intro id frame found
    rw [mayGo, page?, found]
    rfl
  cases last : (pool.byRecency.filter pool.mayGo).getLast? with
  | none =>
    -- No page may go, so no frame is looked at.
    rw [List.getLast?_eq_none_iff, List.filter_eq_nil_iff] at last
    have nothing : (entries.filter fun entry => !entry.2.page.isDirty) = [] := by
      refine List.filter_eq_nil_iff.2 fun entry member may => ?_
      have found := members.1 member
      refine last entry.1 (mem_byRecency.2 ?_) (by rwa [clean found])
      rw [isResident, SortedMap.contains, found]
      rfl
    rw [nothing]
    rfl
  | some victim =>
    obtain ⟨before, split⟩ := List.getLast?_eq_some_iff.1 last
    have member : victim ∈ pool.byRecency.filter pool.mayGo := by
      rw [split]
      exact List.mem_append_right _ List.mem_cons_self
    obtain ⟨resident, may⟩ := List.mem_filter.1 member
    obtain ⟨frame, found⟩ := Option.isSome_iff_exists.1 (mem_byRecency.1 resident)
    have first : stalest (entries.filter fun entry => !entry.2.page.isDirty) = some (victim, frame) := by
      refine stalest_eq_some (List.mem_filter.2 ⟨members.2 found, by rwa [clean found] at may⟩) ?_
      rintro ⟨id, another⟩ listed apart
      obtain ⟨there, goes⟩ := List.mem_filter.1 listed
      have foundToo := members.1 there
      -- Any other page that may go is before this one in the order.
      have among : id ∈ before := by
        have listed : id ∈ pool.byRecency.filter pool.mayGo := by
          refine List.mem_filter.2 ⟨mem_byRecency.2 ?_, by rwa [clean foundToo]⟩
          rw [isResident, SortedMap.contains, foundToo]
          rfl
        rw [split, List.mem_append, List.mem_singleton] at listed
        refine listed.resolve_right fun here => apart ?_
        rw [here, found] at foundToo
        exact Prod.ext here (Option.some.inj foundToo).symm
      have ordered := ticking.pairwise_byRecency.filter pool.mayGo
      rw [split] at ordered
      obtain ⟨later, earlier, used, usedToo, after⟩ :=
        (List.pairwise_append.1 ordered).2.2 id among victim List.mem_cons_self
      rw [lastUse?, foundToo] at used
      rw [lastUse?, found] at usedToo
      cases used
      cases usedToo
      exact after
    rw [first]
    rfl

theorem Ticking.stalestClean_eq (ticking : pool.Ticking) :
    pool.stalestClean = (pool.byRecency.filter pool.mayGo).getLast? := ticking.stalest_eq (.refl _)

end Pool

end HeapEngine

import HeapEngine.Pool
import HeapEngine.Proofs.SortedMap

/-!
Which pages are resident after the pool has changed, and what they hold.

The order of last use decides only which clean page goes first.
-/

namespace HeapEngine.Pool

variable {pool : Pool} {id other : PageId} {copy : CopyId}

/-- A page is resident if its frame is there. -/
theorem page?_eq_some {page : Page} :
    pool.page? id = some page ↔ ∃ frame, pool.frames.find? id = some frame ∧ frame.page = page := by
  simp [page?]

/-- The copy that a frame holds is the current one. -/
theorem isCurrent_iff : pool.isCurrent copy = true
    ↔ ∃ frame, pool.frames.find? copy.page = some frame ∧ frame.serial = copy.serial := by
  simp [isCurrent, Option.any_eq_true]

/-- A page has one current copy at most. -/
theorem eq_of_current {copy other : CopyId} (current : pool.isCurrent copy = true) (also : pool.isCurrent other = true)
    (same : copy.page = other.page) : copy = other := by
  obtain ⟨frame, found, serial⟩ := isCurrent_iff.1 current
  obtain ⟨_, again, serialToo⟩ := isCurrent_iff.1 also
  -- One frame holds both, so they have one number as well as one page.
  rw [same, again] at found
  cases found
  cases copy
  cases other
  cases same
  cases serial.symm.trans serialToo
  rfl

/-- The current copy of a page holds what is resident. -/
theorem copy?_of_current (current : pool.isCurrent copy = true) :
    pool.copy? copy = pool.page? copy.page := by
  rw [copy?, if_pos current]

theorem edit_of_current (current : pool.isCurrent copy = true) (change : Page → Page) :
    pool.edit copy change = pool.editResident copy.page change := by
  rw [edit, if_pos current]

/-- Setting a frame sets the page that is resident, and no other. -/
theorem page?_insert (frame : Frame) :
    page? { pool with frames := pool.frames.insert id frame } other
      = if other = id then some frame.page else pool.page? other := by
  simp only [page?, SortedMap.find?_insert]
  split <;> rfl

/-- Asking for a page gives its resident copy and changes no page. -/
theorem touch_eq (pool : Pool) (id : PageId) :
    (∀ other, (pool.touch id).2.page? other = pool.page? other)
      ∧ (∀ copy, (pool.touch id).2.isCurrent copy = pool.isCurrent copy)
      ∧ match (pool.touch id).1 with
        | some copy => copy.page = id ∧ pool.isCurrent copy = true
        | none => pool.page? id = none := by
  -- Besides the clock only the time of last use is set, and only where there is a frame.
  unfold touch
  cases found : pool.frames.find? id with
  | none =>
    refine ⟨fun _ => rfl, fun _ => rfl, ?_⟩
    simp [page?, found]
  | some frame =>
    refine ⟨fun other => ?_, fun copy => ?_, rfl, ?_⟩
    · -- The frame is set again with a later use, and with the same page.
      simp only [page?, SortedMap.find?_insert]
      by_cases here : other = id
      · simp [here, found]
      · simp [here]
    · simp only [isCurrent, SortedMap.find?_insert]
      by_cases here : copy.page = id
      · simp [here, found]
      · simp [here]
    · exact isCurrent_iff.2 ⟨frame, found, rfl⟩

/-- Dropping a page leaves all others. -/
theorem page?_drop (pool : Pool) (id other : PageId) :
    (pool.drop id).page? other = if other = id then none else pool.page? other := by
  unfold drop
  -- A page without a frame is not there to be dropped.
  cases found : pool.frames.find? id with
  | none =>
    by_cases here : other = id
    · simp [page?, here, found]
    · simp [here]
  | some frame =>
    simp only [page?, SortedMap.find?_erase]
    split <;> rfl

/-- A page that is dropped has no frame. -/
theorem find?_drop_self (pool : Pool) (id : PageId) : (pool.drop id).frames.find? id = none := by
  unfold drop
  split
  · exact SortedMap.find?_erase_self _ _
  · assumption

/-- Dropping a page leaves the frames of all others. -/
theorem find?_drop_other (pool : Pool) (apart : other ≠ id) :
    (pool.drop id).frames.find? other = pool.frames.find? other := by
  unfold drop
  split
  · exact SortedMap.find?_erase_other _ apart
  · rfl

/-- A copy that is made resident takes the place of its page, and no other. -/
theorem page?_seat (pool : Pool) (copy : CopyId) (page : Page) (other : PageId) :
    (pool.seat copy page).page? other
      = if other = copy.page then some page else pool.page? other := by
  by_cases here : other = copy.page
  · simp [seat, page?, here]
  · -- The page that was there is dropped first, which no other page notices.
    have dropped := pool.page?_drop copy.page other
    rw [if_neg here] at dropped ⊢
    rw [← dropped]
    simp [seat, page?, SortedMap.find?_insert, here]

theorem isCurrent_seat (pool : Pool) (copy : CopyId) (page : Page) :
    (pool.seat copy page).isCurrent copy = true := by
  simp [seat, isCurrent]

/-- A page that is loaded is resident afterwards, and its copy is the current one. -/
theorem load_eq (pool : Pool) (id : PageId) (page : Page) :
    (∀ other, (pool.load id page).2.page? other = if other = id then some page else pool.page? other)
      ∧ (pool.load id page).1.page = id
      ∧ (pool.load id page).2.isCurrent (pool.load id page).1 = true :=
  ⟨fun other => page?_seat _ ⟨id, pool.nextSerial⟩ page other, rfl, isCurrent_seat _ _ _⟩

/-- Changing a resident page changes what it holds, and no other page. -/
theorem page?_editResident (pool : Pool) (id : PageId) (change : Page → Page) (other : PageId) :
    (pool.editResident id change).page? other
      = if other = id then (pool.page? id).map change else pool.page? other := by
  -- A page without a frame has nothing to be changed.
  unfold editResident
  cases found : pool.frames.find? id with
  | none =>
    by_cases here : other = id
    · simp [page?, here, found]
    · simp [here]
  | some frame =>
    rw [page?_insert]
    simp [page?, found]

/-- Changing a resident page leaves the frames of all others. -/
theorem find?_editResident_other (pool : Pool) (change : Page → Page) (apart : other ≠ id) :
    (pool.editResident id change).frames.find? other = pool.frames.find? other := by
  unfold editResident
  split
  · exact SortedMap.find?_insert_other _ _ apart
  · rfl

/-- Changing what a page holds makes no other copy current. -/
theorem isCurrent_editResident (pool : Pool) (id : PageId) (change : Page → Page) (copy : CopyId) :
    (pool.editResident id change).isCurrent copy = pool.isCurrent copy := by
  unfold editResident
  cases found : pool.frames.find? id with
  | none => rfl
  | some frame =>
    -- The frame keeps its number, and the frames of other pages are not touched.
    simp only [isCurrent, SortedMap.find?_insert]
    by_cases here : copy.page = id
    · simp [here, found]
    · simp [here]

/-- A change of a copy that is not resident leaves all resident pages. -/
theorem page?_edit_of_stray (stray : pool.isCurrent copy = false) (change : Page → Page) (other : PageId) :
    (pool.edit copy change).page? other = pool.page? other := by
  simp only [edit, stray, Bool.false_eq_true, if_false]
  split <;> rfl

/-- Changing what a copy holds makes no other copy current. -/
theorem isCurrent_edit (pool : Pool) (copy other : CopyId) (change : Page → Page) :
    -- A resident copy is changed in its frame, and any other one in a list that no frame looks at.
    (pool.edit copy change).isCurrent other = pool.isCurrent other := by
  cases current : pool.isCurrent copy with
  | true => rw [edit_of_current current, isCurrent_editResident]
  | false =>
    simp only [edit, current, Bool.false_eq_true, if_false]
    split <;> rfl

theorem copy?_of_stray (stray : pool.isCurrent copy = false) : pool.copy? copy = pool.stray? copy := by
  simp [copy?, stray]

/-- A copy that is not resident is one of the page that it holds. -/
theorem id_of_copy? {page : Page} (stray : pool.isCurrent copy = false) (held : pool.copy? copy = some page) :
    page.id = copy.page := by
  rw [copy?_of_stray stray] at held
  simpa using (Option.filter_eq_some_iff.1 held).2

/-- What a copy holds is what it was changed to, if it is still a copy of its page. -/
theorem copy?_edit (pool : Pool) (copy : CopyId) {change : Page → Page}
    (keeps : ∀ page, pool.copy? copy = some page → (change page).id = page.id) :
    (pool.edit copy change).copy? copy = (pool.copy? copy).map change := by
  -- A copy is resident before and after, or it is a stray one before and after.
  cases current : pool.isCurrent copy with
  | true =>
    rw [copy?_of_current ((isCurrent_edit pool copy copy change).trans current), copy?_of_current current,
      edit_of_current current, page?_editResident, if_pos rfl]
  | false =>
    have held := copy?_of_stray current
    rw [copy?_of_stray ((isCurrent_edit pool copy copy change).trans current), held]
    simp only [edit, current, Bool.false_eq_true, if_false]
    cases found : pool.stray? copy with
    | none => simp [found]
    | some page =>
      -- The page that was changed has the name by which it is looked for.
      have there : pool.copy? copy = some page := held.trans found
      have named : (change page).id = copy.page := (keeps page there).trans (id_of_copy? current there)
      simp [stray?, named]

/-- A page is resident if it is found. -/
theorem isResident_eq (pool : Pool) (id : PageId) : pool.isResident id = (pool.page? id).isSome := by
  simp [isResident, page?, SortedMap.contains]

/-- Changing what pages hold makes none resident. -/
theorem isResident_editResident (pool : Pool) (id : PageId) (change : Page → Page) (other : PageId) :
    (pool.editResident id change).isResident other = pool.isResident other := by
  -- A page that is changed is there still, whatever it holds.
  rw [isResident_eq, isResident_eq, page?_editResident]
  split
  · rename_i here
    rw [here, Option.isSome_map]
  · rfl

theorem isResident_edit (pool : Pool) (copy : CopyId) (change : Page → Page) (other : PageId) :
    (pool.edit copy change).isResident other = pool.isResident other := by
  cases current : pool.isCurrent copy with
  | true => rw [edit_of_current current, isResident_editResident]
  | false => rw [isResident_eq, isResident_eq, page?_edit_of_stray current]

/-- If no page became resident there are no more resident pages than before. -/
theorem residentCount_le {before after : Pool}
    (inside : ∀ id, after.isResident id = true → before.isResident id = true) :
    after.residentCount ≤ before.residentCount := SortedMap.size_le inside

/-- A resident page that is dropped leaves room for another one. -/
theorem residentCount_drop_lt (resident : pool.isResident id = true) :
    -- What is resident afterwards was so before, and the dropped page was and is not.
    (pool.drop id).residentCount < pool.residentCount := by
  refine SortedMap.size_lt ?_ resident fun other there => ?_
  · simp [SortedMap.contains, find?_drop_self]
  · by_cases here : other = id
    · exact here ▸ resident
    · rwa [SortedMap.contains, find?_drop_other pool here] at there

/-- Making a copy the resident one of its page takes room for one page at most. -/
theorem residentCount_seat_le (pool : Pool) (copy : CopyId) (page : Page) :
    (pool.seat copy page).residentCount ≤ pool.residentCount + 1 := by
  -- A frame is dropped before one is set, so the count grows by one at most.
  have dropped : (pool.drop copy.page).residentCount ≤ pool.residentCount := by
    refine residentCount_le fun other there => ?_
    rw [isResident_eq, page?_drop] at there
    rw [isResident_eq]
    split at there
    · cases there
    · exact there
  exact Nat.le_trans (SortedMap.size_insert_le _ _ _) (Nat.succ_le_succ dropped)

/-- The frame that was used longest ago is one of the frames. -/
theorem mem_of_stalest {entries : List (PageId × Frame)} {entry : PageId × Frame}
    -- The induction follows how the entries are compared: each with the stalest of those after it.
    (found : stalest entries = some entry) : entry ∈ entries := by
  induction entries generalizing entry with
  | nil => cases found
  | cons head rest ih =>
    unfold stalest at found
    -- The first entry competes with the stalest of the others, if there is one.
    cases later : stalest rest with
    | none =>
      rw [later] at found
      cases found
      exact List.mem_cons_self
    | some other =>
      rw [later] at found
      simp only at found
      split at found
      · cases found
        exact List.mem_cons_of_mem _ (ih later)
      · cases found
        exact List.mem_cons_self

/-- The page to drop for another one is resident and has no changes. -/
theorem stalestClean_eq_some (found : pool.stalestClean = some id) :
    ∃ page, pool.page? id = some page ∧ page.isDirty = false := by
  obtain ⟨⟨key, frame⟩, stale, same⟩ := Option.map_eq_some_iff.1 found
  subst same
  obtain ⟨member, clean⟩ := List.mem_filter.1 (mem_of_stalest stale)
  refine ⟨frame.page, page?_eq_some.2 ⟨frame, SortedMap.mem_entries_iff.1 member, rfl⟩, ?_⟩
  simpa using clean

/-- If there are pages in memory, one of them can be named. -/
theorem exists_resident (several : 0 < pool.residentCount) : ∃ id page, pool.page? id = some page := by
  -- The count is that of the frames, so there is one.
  obtain ⟨⟨id, frame⟩, member⟩ := List.exists_mem_of_length_pos several
  exact ⟨id, frame.page, page?_eq_some.2 ⟨frame, SortedMap.mem_entries_iff.1 member, rfl⟩⟩

/-- Of some frames one was used longest ago. -/
theorem exists_stalest {entries : List (PageId × Frame)} {entry : PageId × Frame} (member : entry ∈ entries) :
    ∃ found, stalest entries = some found := by
  cases entries with
  | nil => cases member
  | cons head rest =>
    unfold stalest
    split
    · split
      · exact ⟨_, rfl⟩
      · exact ⟨_, rfl⟩
    · exact ⟨_, rfl⟩

/-- There is no page to drop only if all that are resident have changes. -/
theorem isDirty_of_stalestClean {page : Page} (none : pool.stalestClean = none) (resident : pool.page? id = some page) :
    page.isDirty = true := by
  obtain ⟨frame, found, rfl⟩ := page?_eq_some.1 resident
  -- A clean page in memory would be among the candidates, and one of them is the stalest.
  refine eq_true_of_ne_false fun clean => ?_
  have member : (id, frame) ∈ pool.frames.entries.filter fun entry => !entry.2.page.isDirty :=
    List.mem_filter.2 ⟨SortedMap.mem_entries_iff.2 found, by simp [clean]⟩
  obtain ⟨stale, found⟩ := exists_stalest member
  rw [stalestClean, found] at none
  cases none

/-- The pages that a transaction has changed are those that carry its mark. -/
theorem mem_changedBy {transaction : TransactionId} : id ∈ pool.changedBy transaction
    ↔ ∃ page, pool.page? id = some page ∧ page.changedBy = some transaction := by
  rw [changedBy, SortedMap.mem_keys_iff, SortedMap.contains, SortedMap.find?_filter, page?]
  cases pool.frames.find? id with
  | none => simp
  | some frame => by_cases mark : frame.page.changedBy = some transaction <;> simp [mark]

/-- A copy that is current after a page was dropped was so before. -/
theorem isCurrent_of_drop (current : (pool.drop id).isCurrent copy = true) : pool.isCurrent copy = true := by
  -- The dropped page has no current copy, and the frames of all others are as they were.
  obtain ⟨frame, found, same⟩ := isCurrent_iff.1 current
  by_cases here : copy.page = id
  · rw [here, find?_drop_self] at found
    cases found
  · rw [find?_drop_other pool here] at found
    exact isCurrent_iff.2 ⟨frame, found, same⟩

/-- A copy that is current after a page was loaded is the one with the new number, or was so before. -/
theorem isCurrent_of_load {page : Page} (current : (pool.load id page).2.isCurrent copy = true) :
    copy = ⟨id, pool.nextSerial⟩ ∨ pool.isCurrent copy = true := by
  -- The new frame holds the new copy, and all others were there before.
  obtain ⟨frame, found, same⟩ := isCurrent_iff.1 current
  simp only [load, seat, SortedMap.find?_insert] at found
  split at found
  · rename_i here
    cases found
    exact .inl (by cases copy; cases here; cases same; rfl)
  · -- All other frames are those that are there after the page was dropped.
    have before : isCurrent { pool with nextSerial := pool.nextSerial + 1 } copy = true :=
      isCurrent_of_drop (isCurrent_iff.2 ⟨frame, found, same⟩)
    exact .inr before

/-- No two resident copies have one number, and the next copy gets a number of its own. -/
structure Numbered (pool : Pool) : Prop where
  below : ∀ copy, pool.isCurrent copy = true → copy.serial < pool.nextSerial
  different : ∀ copy other, pool.isCurrent copy = true → pool.isCurrent other = true → copy.serial = other.serial →
    copy.page = other.page

namespace Numbered

theorem empty : Numbered Pool.empty :=
  ⟨fun _ current => (by cases current), fun _ _ current _ _ => (by cases current)⟩

/-- Copies that go leave the numbers of the others. -/
theorem of_fewer (numbered : pool.Numbered) {after : Pool}
    (fewer : ∀ copy, after.isCurrent copy = true → pool.isCurrent copy = true)
    (next : after.nextSerial = pool.nextSerial) : after.Numbered where
  -- Both properties speak of current copies only, so fewer of them cannot break either.
  below copy current := next ▸ numbered.below copy (fewer copy current)
  different copy other here there := numbered.different copy other (fewer copy here) (fewer other there)

theorem touch (numbered : pool.Numbered) (id : PageId) : (pool.touch id).2.Numbered := by
  refine numbered.of_fewer (fun copy current => (touch_eq pool id).2.1 copy ▸ current) ?_
  unfold Pool.touch
  split <;> rfl

theorem editResident (numbered : pool.Numbered) (id : PageId) (change : Page → Page) :
    (pool.editResident id change).Numbered := by
  refine numbered.of_fewer (fun copy current => isCurrent_editResident pool id change copy ▸ current) ?_
  unfold Pool.editResident
  split <;> rfl

theorem drop (numbered : pool.Numbered) (id : PageId) : (pool.drop id).Numbered := by
  refine numbered.of_fewer (fun copy current => isCurrent_of_drop current) ?_
  unfold Pool.drop
  split <;> rfl

/-- A page that is loaded gets a number that no copy has. -/
theorem load (numbered : pool.Numbered) (id : PageId) (page : Page) : (pool.load id page).2.Numbered := by
  have next : (pool.load id page).2.nextSerial = pool.nextSerial + 1 := by
    simp only [Pool.load, seat]
    unfold Pool.drop
    split <;> rfl
  -- The new number lies above all that are in use, so it is shared with none of them.
  refine ⟨fun copy current => ?_, fun copy other here there same => ?_⟩
  · rw [next]
    rcases isCurrent_of_load current with rfl | old
    · exact Nat.lt_succ_self _
    · exact Nat.lt_succ_of_lt (numbered.below copy old)
  · rcases isCurrent_of_load here with rfl | old
    · rcases isCurrent_of_load there with rfl | oldToo
      · rfl
      · exact absurd same (Nat.ne_of_gt (numbered.below other oldToo))
    · rcases isCurrent_of_load there with rfl | oldToo
      · exact absurd same (Nat.ne_of_lt (numbered.below copy old))
      · exact numbered.different copy other old oldToo same

end Numbered

/-- Copies that stay current while others come and go hold what they held. -/
structure Outlasts (after before : Pool) : Prop where
  held : ∀ copy, after.isCurrent copy = true → copy.serial < before.nextSerial →
    before.isCurrent copy = true ∧ after.page? copy.page = before.page? copy.page
  serials : before.nextSerial ≤ after.nextSerial

namespace Outlasts

theorem refl (pool : Pool) : Outlasts pool pool := ⟨fun _ current _ => ⟨current, rfl⟩, Nat.le_refl _⟩

theorem trans {first middle last : Pool} (later : Outlasts last middle) (earlier : Outlasts middle first) :
    Outlasts last first where
  held copy current old := by
    -- A copy that is current at the end and was there at first was current in between.
    obtain ⟨between, same⟩ := later.held copy current (Nat.lt_of_lt_of_le old earlier.serials)
    obtain ⟨before, sameToo⟩ := earlier.held copy between old
    exact ⟨before, same.trans sameToo⟩
  serials := Nat.le_trans earlier.serials later.serials

theorem touch (pool : Pool) (id : PageId) : Outlasts (pool.touch id).2 pool where
  held copy current _ := ⟨(touch_eq pool id).2.1 copy ▸ current, (touch_eq pool id).1 copy.page⟩
  serials := by
    unfold Pool.touch
    split <;> exact Nat.le_refl _

theorem drop (pool : Pool) (id : PageId) : Outlasts (pool.drop id) pool where
  held copy current _ := by
    refine ⟨isCurrent_of_drop current, ?_⟩
    -- The page that is dropped has no current copy any more.
    have other : copy.page ≠ id := by
      rintro rfl
      obtain ⟨_, found, _⟩ := isCurrent_iff.1 current
      rw [find?_drop_self] at found
      cases found
    rw [page?_drop, if_neg other]
  serials := by
    unfold Pool.drop
    split <;> exact Nat.le_refl _

/-- A page that is loaded gets a copy of its own. -/
theorem load (pool : Pool) (id : PageId) (page : Page) : Outlasts (pool.load id page).2 pool where
  -- The copy is older than the loaded one, so it is the copy of another page.
  held copy current old := by
    obtain ⟨pages, _, new⟩ := pool.load_eq id page
    have other : copy.page ≠ id := by
      intro same
      have equal := eq_of_current current new same
      exact absurd (congrArg CopyId.serial equal) (Nat.ne_of_lt old)
    refine ⟨(isCurrent_of_load current).resolve_left fun equal => other (congrArg CopyId.page equal), ?_⟩
    rw [pages, if_neg other]
  serials := by
    simp only [Pool.load, seat]
    unfold Pool.drop
    split <;> exact Nat.le_succ _

end Outlasts

/-- Different pages can be changed in either order. -/
theorem editResident_comm (pool : Pool) (apart : id ≠ other) (change another : Page → Page) :
    (pool.editResident id change).editResident other another
      = (pool.editResident other another).editResident id change := by
  -- Either page may not be there; if both are, their frames stand under different keys.
  unfold editResident
  cases found : pool.frames.find? id with
  | none =>
    cases foundOther : pool.frames.find? other with
    | none => simp [found]
    | some frame => simp [found, SortedMap.find?_insert, apart]
  | some frame =>
    cases foundOther : pool.frames.find? other with
    | none => simp [found, foundOther, SortedMap.find?_insert, Ne.symm apart]
    | some second =>
      simp [found, foundOther, SortedMap.find?_insert, apart, Ne.symm apart, SortedMap.insert_comm _ apart]

/-- A page can be changed before or after another one is dropped. -/
theorem drop_editResident (pool : Pool) (apart : id ≠ other) (change : Page → Page) :
    (pool.editResident id change).drop other = (pool.drop other).editResident id change := by
  -- The frames stand under different keys, and only the dropped one is kept among the strays.
  unfold editResident drop
  cases found : pool.frames.find? id with
  | none =>
    cases foundOther : pool.frames.find? other with
    | none => simp [found]
    | some frame => simp [found, SortedMap.find?_erase, apart]
  | some frame =>
    cases foundOther : pool.frames.find? other with
    | none => simp [found, foundOther, SortedMap.find?_insert, Ne.symm apart]
    | some second =>
      simp [found, foundOther, SortedMap.find?_insert, SortedMap.find?_erase, apart, Ne.symm apart,
        SortedMap.erase_insert _ apart]

/-- Different pages can be dropped in either order, since their copies have numbers of their own. -/
theorem Numbered.drop_comm (numbered : pool.Numbered) (apart : id ≠ other) :
    (pool.drop id).drop other = (pool.drop other).drop id := by
  -- What is dropped is kept among the strays by its number, and these numbers differ.
  unfold Pool.drop
  cases found : pool.frames.find? id with
  | none =>
    cases foundOther : pool.frames.find? other with
    | none => simp [found]
    | some frame => simp [found, SortedMap.find?_erase, apart]
  | some frame =>
    cases foundOther : pool.frames.find? other with
    | none => simp [found, foundOther, SortedMap.find?_erase, Ne.symm apart]
    | some second =>
      have numbers : frame.serial ≠ second.serial := fun same =>
        apart (numbered.different ⟨id, frame.serial⟩ ⟨other, second.serial⟩ (isCurrent_iff.2 ⟨frame, found, rfl⟩)
          (isCurrent_iff.2 ⟨second, foundOther, rfl⟩) same)
      simp [found, foundOther, SortedMap.find?_erase, apart, Ne.symm apart, SortedMap.erase_comm _ id other,
        SortedMap.insert_comm _ numbers]

end HeapEngine.Pool

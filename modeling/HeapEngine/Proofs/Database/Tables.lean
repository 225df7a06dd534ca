import HeapEngine.Proofs.Database.Cache

/-! Registering heaps, and asking stores to fail: the pages stay what they are. -/

namespace HeapEngine

/-- A heap registered under a new name is found by its number, and all others as before. -/
theorem Catalog.heap?_registerHeap {catalog next : Catalog} {name : String} {store : StoreId}
    {pageSize : Nat} {heap : Heap} (fresh : catalog.numbers.find? name = none)
    (registered : catalog.registerHeap name store pageSize = .ok (heap, next)) :
    pageSize = catalog.pageSize ∧ next.pageSize = catalog.pageSize
      ∧ heap = ⟨catalog.nextNumber, store⟩
      ∧ next.tables = catalog.tables.insert catalog.nextNumber (.heap heap)
      ∧ ∀ number, next.heap? number
        = if number = catalog.nextNumber then some heap else catalog.heap? number := by
  unfold registerHeap at registered
  -- A store with pages of another size is refused.
  by_cases size : pageSize = catalog.pageSize
  · simp only [size, ne_eq, not_true_eq_false, ↓reduceIte, register, bind, fresh, Except.ok.injEq,
      Prod.mk.injEq] at registered
    obtain ⟨rfl, rfl⟩ := registered
    refine ⟨size, rfl, rfl, rfl, fun number => ?_⟩
    simp only [heap?, SortedMap.find?_insert]
    by_cases here : number = catalog.nextNumber
    · rw [if_pos here, if_pos here]
    · rw [if_neg here, if_neg here]
  · rw [if_pos size] at registered
    cases registered

/-- A table that is registered is found by its number, and the one that its name stood for is not found any more. -/
theorem Catalog.find?_register (catalog : Catalog) (name : String) (build : Nat → Table) (number : Nat) :
    (catalog.register name build).2.tables.find? number
      = if number = catalog.nextNumber then some (build catalog.nextNumber)
        else if catalog.numbers.find? name = some number then none else catalog.tables.find? number := by
  simp only [register, bind]
  rw [SortedMap.find?_insert]
  -- Beside the new number only the one that the name stood for may be another.
  cases catalog.numbers.find? name with
  | none => simp
  | some old =>
    simp only [SortedMap.find?_erase, Option.some.injEq]
    by_cases here : number = old
    · simp [here]
    · simp [here, Ne.symm here]

/-- A name that stood for a table gives it up, and all other tables stay. -/
theorem Catalog.find?_registerHeap {catalog next : Catalog} {name : String} {store : StoreId}
    {pageSize : Nat} {heap : Heap}
    (registered : catalog.registerHeap name store pageSize = .ok (heap, next)) :
    pageSize = catalog.pageSize ∧ next.pageSize = catalog.pageSize
      ∧ heap = ⟨catalog.nextNumber, store⟩
      ∧ ∀ number, next.tables.find? number = if number = catalog.nextNumber then some (.heap heap)
        else if catalog.numbers.find? name = some number then none else catalog.tables.find? number := by
  unfold registerHeap at registered
  by_cases size : pageSize = catalog.pageSize
  · rw [if_neg (not_not_intro size)] at registered
    cases registered
    exact ⟨size, rfl, rfl, find?_register catalog name fun number => .heap ⟨number, store⟩⟩
  · rw [if_pos size] at registered
    cases registered

/-- A heap that is found after registering another is that one, or was found before. -/
theorem Catalog.heap?_eq_some_of_registerHeap {catalog next : Catalog} {name : String} {store : StoreId}
    {pageSize number : Nat} {heap other : Heap}
    (registered : catalog.registerHeap name store pageSize = .ok (heap, next))
    (known : next.heap? number = some other) :
    number = catalog.nextNumber ∧ other = heap
      ∨ number ≠ catalog.nextNumber ∧ catalog.numbers.find? name ≠ some number
        ∧ catalog.heap? number = some other := by
  obtain ⟨_, _, _, tables⟩ := find?_registerHeap registered
  unfold heap? at known ⊢
  rw [tables] at known
  by_cases new : number = catalog.nextNumber
  · rw [if_pos new] at known
    cases known
    exact .inl ⟨new, rfl⟩
  · rw [if_neg new] at known
    by_cases old : catalog.numbers.find? name = some number
    · rw [if_pos old] at known
      cases known
    · rw [if_neg old] at known
      exact .inr ⟨new, old, known⟩

/-- What holds of the tables and of a heap holds of the tables once that heap is registered. -/
theorem Catalog.forall_registerHeap {catalog next : Catalog} {name : String} {store : StoreId} {pageSize : Nat}
    {heap : Heap} {holds : Nat → Table → Prop}
    (registered : catalog.registerHeap name store pageSize = .ok (heap, next))
    (new : holds catalog.nextNumber (.heap heap))
    (old : ∀ number table, catalog.tables.find? number = some table → holds number table) :
    ∀ number table, next.tables.find? number = some table → holds number table := by
  obtain ⟨_, _, _, tables⟩ := find?_registerHeap registered
  intro number table found
  rw [tables] at found
  split at found
  · rename_i here
    cases found
    exact here ▸ new
  · split at found
    · cases found
    · exact old number table found

/-- A store that is not one in memory with a number lies apart from that one. -/
theorem StoreId.apart_memory {number : Nat} {store : StoreId} (other : store ≠ .memory number) :
    (StoreId.memory number).Apart store := by
  cases store with
  | memory n =>
    intro same
    exact other (by rw [same])
  | file name pageSize => trivial

namespace Database

variable {kind : ImageKind} {db : Database}

/-- The pages as before, with other failures asked for or other heaps registered beside the old ones. -/
structure Rearranges (kind : ImageKind) (before after : Database) : Prop where
  consistent : after.Consistent kind
  settings : after.settings = before.settings
  locks : after.locks = before.locks
  unwritten : after.standing.unwritten = before.standing.unwritten
  heaps : ∀ number heap, before.catalog.heap? number = some heap →
    after.catalog.heap? number = some heap
      ∧ (after.standing.shown number).images = (before.standing.shown number).images

/-- Nothing has to be said of pages that are stored and changed as before. -/
theorem Rearranges.of_orderly {before after : Database} (consistent : before.Consistent kind)
    (orderly : after.standing.Orderly kind.allows) (settings : after.settings = before.settings)
    (pool : after.pool = before.pool) (locks : after.locks = before.locks)
    (heaps : ∀ number heap, before.catalog.heap? number = some heap →
      after.catalog.heap? number = some heap
        ∧ (after.standing.shown number).images = (before.standing.shown number).images) :
    Rearranges kind before after := by
  have unwritten : after.standing.unwritten = before.standing.unwritten := by
    simp only [standing, pool]
  -- Only registered heaps have images, and these are the same.
  have images : ∀ id image, before.standing.image? id = some image →
      after.standing.image? id = some image := by
    intro id image found
    obtain ⟨heap, registered⟩ := exists_heap_of_image? found
    rw [Standing.image?, (heaps _ heap registered).2]
    exact found
  refine ⟨⟨orderly, ?_⟩, settings, locks, unwritten, heaps⟩
  intro id page resident
  rw [pool] at resident
  -- What may be in memory is told by locks and images, and both are the same.
  have fits := consistent.cached id page resident
  refine ⟨fits.name, fits.sound, ?_, ?_, ?_⟩
  · exact fits.size.trans (congrArg Settings.pageSize settings.symm)
  · intro clean
    obtain ⟨read, stored, agrees⟩ := fits.clean clean
    obtain ⟨image, found, decoded⟩ := Standing.stored?_eq_some.1 stored
    exact ⟨read, Standing.stored?_eq_some.2 ⟨image, images id image found, decoded⟩, agrees⟩
  · intro transaction changed
    obtain ⟨writes, image, found⟩ := fits.changed transaction changed
    refine ⟨?_, image, images id image found⟩
    have same : after.standing.locks = before.standing.locks := locks
    rw [same]
    exact writes

/-- A store can be asked to fail at any time. -/
theorem ensures_setFailing (consistent : db.Consistent kind) (store : Nat) (reads writes : Bool) :
    Op.Ensures (onStorage (Storage.onArray store (modify (PageArray.setFailing reads writes)))) db
      fun _ after => Rearranges kind db after := by
  refine .onStorage ((Storage.ensures_setFailing db.storage store reads writes).mono ?_)
  intro result storage ended
  have shows := ended.2
  -- A view differs at most in what was asked for.
  have views : ∀ number, (standing { db with storage }).shown number = db.standing.shown number
      ∨ (standing { db with storage }).shown number
        = { db.standing.shown number with readsFail := reads, writesFail := writes } := by
    intro number
    cases registered : db.catalog.heap? number with
    | none =>
      left
      simp only [standing, registered]
    | some heap =>
      by_cases here : heap.store = .memory store
      · right
        simp only [standing, registered, here, shows.here]
      · left
        simp only [standing, registered, shows.apart _ (StoreId.apart_memory here)]
  have images : ∀ number, ((standing { db with storage }).shown number).images
      = (db.standing.shown number).images := by
    intro number
    rcases views number with same | other
    · rw [same]
    · rw [other]
  have orderly := consistent.orderly
  refine .of_orderly consistent ?_ rfl rfl rfl fun number heap registered => ⟨registered, images number⟩
  refine ⟨orderly.settings, orderly.catalog, orderly.tables, orderly.apart, ?_, ?_, orderly.locks⟩
  · -- The size of pages is not among what was asked for.
    intro number heap registered
    have size := orderly.sizes number heap registered
    rcases views number with same | other
    · rw [same]
      exact size
    · rw [other]
      exact size
  · intro number
    rw [images]
    exact orderly.images number

section Registered

variable {name : String} {store : StoreId} {heap : Heap} {next : Catalog}

/-- Registering a heap replaces the tables if the heap is accepted, and changes nothing otherwise. -/
theorem ends_addHeap {traps : Prop} {post : Except Failure Heap → Database → Prop}
    (refused : ∀ failure, post (.error failure) db)
    (accepted : ∀ heap next, db.catalog.registerHeap name store (db.storage.pageSize store) = .ok (heap, next) →
      post (.ok heap) { db with catalog := next }) : Op.Ends traps (addHeap name store) db post := by
  unfold addHeap
  refine .get_bind ?_
  cases registered : db.catalog.registerHeap name store (db.storage.pageSize store) with
  | error failure => exact refused failure
  | ok pair => exact accepted pair.1 pair.2 registered

/-- With a heap registered over a store of its own all is still in order, whatever its name stood for. -/
theorem orderly_registered {allows : Bytes → Prop} (orderly : db.standing.Orderly allows)
    (apart : ∀ number heap, db.catalog.heap? number = some heap → number ≠ db.catalog.nextNumber →
      db.catalog.numbers.find? name ≠ some number → store.Apart heap.store)
    (images : ∀ image ∈ (db.storage.view store).images,
      image.length = db.settings.pageSize ∧ allows image)
    (registered : db.catalog.registerHeap name store (db.storage.pageSize store) = .ok (heap, next)) :
    (standing { db with catalog := next }).Orderly allows := by
  obtain ⟨size, nextSize, rfl, _⟩ := Catalog.find?_registerHeap registered
  have shows : ∀ number other, next.heap? number = some other →
      (standing { db with catalog := next }).shown number = db.storage.view other.store := by
    intro number other known
    simp only [standing, known]
  refine ⟨orderly.settings, ?_, ?_, ?_, ?_, ?_, orderly.locks⟩
  · exact nextSize.trans orderly.catalog
  · exact Catalog.forall_registerHeap registered ⟨store, rfl⟩ orderly.tables
  · intro a b x y different here there
    -- The new heap lies apart from all others, and these lie apart from each other.
    rcases Catalog.heap?_eq_some_of_registerHeap registered here with ⟨first, rfl⟩ | ⟨notA, keptA, knownA⟩
    · rcases Catalog.heap?_eq_some_of_registerHeap registered there with ⟨second, _⟩ | ⟨notB, keptB, knownB⟩
      · exact absurd (first.trans second.symm) different
      · exact apart b y knownB notB keptB
    · rcases Catalog.heap?_eq_some_of_registerHeap registered there with ⟨_, rfl⟩ | ⟨_, _, knownB⟩
      · exact (apart a x knownA notA keptA).symm
      · exact orderly.apart a b x y different knownA knownB
  · intro number other known
    rw [shows number other known]
    rcases Catalog.heap?_eq_some_of_registerHeap registered known with ⟨_, rfl⟩ | ⟨_, _, old⟩
    · -- The size of the new heap's pages was compared with that of the catalog.
      rw [Storage.pageSize_view, size]
      exact orderly.catalog
    · have sized := orderly.sizes number other old
      rw [shown_eq old] at sized
      exact sized
  · intro number
    cases known : next.heap? number with
    | none => simp [standing, known, StoreView.nothing]
    | some other =>
      rw [shows number other known]
      rcases Catalog.heap?_eq_some_of_registerHeap registered known with ⟨_, rfl⟩ | ⟨_, _, old⟩
      · exact images
      · have before := orderly.images number
        rw [shown_eq old] at before
        exact before

/-- A heap can be registered under a new name over a store of its own. -/
theorem ensures_addHeap (consistent : db.Consistent kind)
    (fresh : db.catalog.numbers.find? name = none)
    (free : db.catalog.heap? db.catalog.nextNumber = none)
    (apart : ∀ number heap, db.catalog.heap? number = some heap → store.Apart heap.store)
    (images : ∀ image ∈ (db.storage.view store).images,
      image.length = db.settings.pageSize ∧ kind.allows image) :
    Op.Ensures (addHeap name store) db fun _ after => Rearranges kind db after := by
  refine ends_addHeap (fun _ => ?_) fun heap next registered => ?_
  · exact .of_orderly consistent consistent.orderly rfl rfl rfl fun _ _ known => ⟨known, rfl⟩
  · have added := orderly_registered consistent.orderly (fun number heap known _ _ => apart number heap known)
      images registered
    obtain ⟨_, _, _, _, heaps⟩ := Catalog.heap?_registerHeap fresh registered
    refine Rearranges.of_orderly consistent added rfl rfl rfl fun number heap known => ?_
    -- The number that is given out was free, so no heap loses its own.
    have other : number ≠ db.catalog.nextNumber := by
      rintro rfl
      rw [free] at known
      cases known
    have same : next.heap? number = some heap := by
      rw [heaps, if_neg other]
      exact known
    refine ⟨same, ?_⟩
    simp only [standing, same, known]

end Registered

end Database

end HeapEngine

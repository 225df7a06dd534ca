import HeapEngine.Proofs.Database.Transparent.Pairs

/-!
Writing pages, taking changes back and ending transactions, in two databases that nobody can tell apart.

Only pages with changes are written or taken back, and these are the same in both.
-/

namespace HeapEngine

namespace Database

variable {kind : ImageKind} {a b db : Database} {α : Type} {exhausted : α → Database → Prop}
  {asker : TransactionId} {id : PageId} {heap : Heap} {number : Nat}

/-- The pages in memory with changes are the unwritten ones. -/
theorem mem_dirty : id ∈ (db.pool.frames.keys.filter fun id => (db.standing.unwritten id).isSome)
    ↔ (db.standing.unwritten id).isSome = true := by
  rw [List.mem_filter, SortedMap.mem_keys_iff]
  refine ⟨And.right, fun changed => ⟨?_, changed⟩⟩
  obtain ⟨page, unwritten⟩ := Option.isSome_iff_exists.1 changed
  obtain ⟨frame, found, _⟩ := Pool.page?_eq_some.1 (unwritten_eq_some.1 unwritten).1
  rw [SortedMap.contains, found]
  rfl

namespace Settled

variable (settled : db.Settled kind)

include settled

/-- What writing a page comes to is told by what the database stands for. -/
theorem ensures_writeBack (id : PageId) :
    Op.Ensures (writeBack id) db fun result after =>
      match db.standing.unwritten id with
      | none => result = .ok false ∧ after = db
      | some page =>
        if (db.standing.shown id.table).writesFail then
          result = .error (.storage .injectedWrite) ∧ Rests kind db after
        else ∃ image, page.image = .ok image ∧ result = .ok true ∧ after.Settled kind
          ∧ after.standing = db.standing.written id image := by
  refine (settled.intact.housed.ensures_writeBack id).mono fun result after writing => ?_
  -- A page with changes is unwritten, and it has a place in a registered heap.
  have unwritten {page : Page} (resident : db.pool.page? id = some page) (dirty : page.isDirty = true) :
      db.standing.unwritten id = some page :=
    unwritten_eq_some.2 ⟨resident, by simpa [Page.isDirty, Option.isSome_iff_ne_none] using dirty⟩
  cases writing with
  | clean clean =>
    have nothing : db.standing.unwritten id = none := Option.filter_eq_none_iff.2 fun page resident => by
      simp [clean page resident]
    simp only [nothing, and_self]
  | missing resident dirty missing =>
    obtain ⟨image, placed⟩ := (settled.cached id _ resident).placed
    obtain ⟨heap, registered⟩ := exists_heap_of_image? placed
    rw [missing] at registered
    cases registered
  | refused resident dirty registered refuses shows =>
    simp only [unwritten resident dirty, shown_eq registered, refuses, ↓reduceIte, true_and]
    exact settled.count registered shows
  | written resident dirty registered accepts encoded shows =>
    simp only [unwritten resident dirty, shown_eq registered, accepts, Bool.false_eq_true, ↓reduceIte]
    exact ⟨_, encoded, trivial, settled.write resident registered encoded shows⟩

/-- Writing pages in turn skips those without changes. -/
theorem writeBackNoting_eq {changed : PageId → Bool} (written : List Nat) {ids : List PageId}
    (nodup : ids.Nodup) (tells : ∀ id ∈ ids, changed id = (db.standing.unwritten id).isSome) :
    writeBackNoting written ids db = writeBackNoting written (ids.filter changed) db := by
  -- Writing one page leaves the others with the changes they had.
  induction ids generalizing db written with
  | nil => rfl
  | cons id rest ih =>
    obtain ⟨alone, later⟩ := List.nodup_cons.1 nodup
    have here := tells id List.mem_cons_self
    have others : ∀ other ∈ rest, changed other = (db.standing.unwritten other).isSome :=
      fun other member => tells other (List.mem_cons_of_mem _ member)
    obtain ⟨result, after, ran, wrote⟩ := (settled.ensures_writeBack id).exists_run
    cases unwritten : db.standing.unwritten id with
    | none =>
      simp only [unwritten] at wrote here
      obtain ⟨rfl, rfl⟩ := wrote
      rw [List.filter_cons_of_neg (by simp [here]), ← ih settled written later others]
      simp only [writeBackNoting, bind, EStateM.bind, ran, Bool.false_and, Bool.false_eq_true, ↓reduceIte]
    | some page =>
      simp only [unwritten] at wrote here
      rw [List.filter_cons_of_pos here]
      split at wrote
      · obtain ⟨rfl, _⟩ := wrote
        simp only [writeBackNoting, bind, EStateM.bind, ran]
      · obtain ⟨image, _, rfl, kept, stands⟩ := wrote
        have still : ∀ other ∈ rest, changed other = (after.standing.unwritten other).isSome := by
          intro other member
          rw [others other member, stands, Standing.written, Standing.withUnwritten]
          exact congrArg Option.isSome (if_neg (by rintro rfl; exact alone member)).symm
        simp only [writeBackNoting, bind, EStateM.bind, ran]
        split <;> exact ih kept _ later still

/-- A page is read as it is found where it is stored. -/
theorem ensures_readAt (id : PageId) :
    Op.Ensures (do readStored (← tableAt id.table) id) db fun result after =>
      db.standing.lookup id = Outcome.ofResult result ∧ Rests kind db after ∧ after.pool = db.pool := by
  refine ends_tableAt_bind settled.intact.orderly (fun missing => ?_) fun heap registered => ?_
  · have unknown : db.standing.catalog.find id.table = _ := settled.orderly.find_eq_error missing
    exact ⟨by rw [Standing.lookup, unknown]; rfl, settled.rests rfl settled.cached, rfl⟩
  · have known : db.standing.catalog.find id.table = _ := settled.orderly.find_eq_ok registered
    refine (settled.intact.housed.ensures_readStored registered).mono fun result after ended => ?_
    obtain ⟨told, storage, rfl, shows⟩ := ended
    exact ⟨by rw [Standing.lookup, known]; exact told, settled.count registered shows, rfl⟩

/-- A page that is taken back has no changes any more, whether it could be read or not. -/
theorem ensures_reload (id : PageId) :
    Op.Ensures (reload id) db fun result after => ∃ told, db.standing.lookup id = Outcome.ofResult told
      ∧ result = .ok (match told with | .ok _ => none | .error failure => some failure)
      ∧ after.Settled kind ∧ after.standing = db.standing.withUnwritten id none := by
  refine (settled.ensures_readAt id).attempt_bind fun answer after ended => ?_
  obtain ⟨told, rests, same⟩ := ended
  cases answer with
  | ok page =>
    refine .onPool_bind (.pure ⟨_, told, rfl, ?_⟩)
    have stored := Standing.stored?_of_lookup told
    rw [← rests.standing] at stored ⊢
    -- What is stored carries no mark.
    have clean := (rests.settled.orderly.stored stored).2.2.2.1
    have nothing : ((after.pool.page? id).map fun _ => page).filter Page.isDirty = none :=
      Option.filter_eq_none_iff.2 fun held found => by
        obtain ⟨_, _, rfl⟩ := Option.map_eq_some_iff.1 found
        simp [Page.isDirty, clean]
    rw [← nothing]
    refine rests.settled.seen (fun other => Pool.page?_editResident _ _ _ _) fun held found => ?_
    obtain ⟨_, _, rfl⟩ := Option.map_eq_some_iff.1 found
    exact rests.settled.orderly.suits_stored stored
  | error failure =>
    refine .onPool_bind (.pure ⟨_, told, rfl, ?_⟩)
    rw [← rests.standing]
    exact rests.settled.seen (fun other => Pool.page?_drop _ _ _) (by simp)

end Settled

namespace Similar

variable (similar : Similar kind a b)

include similar

/-- A page is written in both databases, or in neither. -/
theorem writeBack (id : PageId) :
    Pairs kind Never (writeBack id) (writeBack id) a b (Same kind) := by
  refine .of_ensures (similar.left.ensures_writeBack id) (similar.right.ensures_writeBack id) ?_
  intro x y a' b' left right
  have both := similar.standing.unwritten id
  generalize a.standing.unwritten id = here at both left
  generalize b.standing.unwritten id = there at both right
  cases both with
  | none =>
    obtain ⟨rfl, rfl⟩ := left
    obtain ⟨rfl, rfl⟩ := right
    exact .inr (.inr ⟨rfl, similar⟩)
  | some pages =>
    -- The page has changes in both, and its image is the same.
    simp only [← similar.standing.shown] at left right
    split at left
    · rename_i refuses
      rw [if_pos refuses] at right
      obtain ⟨rfl, rests⟩ := left
      obtain ⟨rfl, restsOther⟩ := right
      exact .inr (.inr ⟨rfl, similar.rests rests restsOther⟩)
    · rename_i accepts
      rw [if_neg accepts] at right
      obtain ⟨image, encoded, rfl, settled, stands⟩ := left
      obtain ⟨other, again, rfl, settledOther, standsOther⟩ := right
      rw [pages.twins.agrees.image] at encoded
      cases encoded.symm.trans again
      refine .inr (.inr ⟨rfl, settled, settledOther, ?_⟩)
      rw [stands, standsOther]
      exact similar.standing.written id image

/-- A transaction has changed the same pages in both databases. -/
theorem changedBy_eq (transaction : TransactionId) :
    a.pool.changedBy transaction = b.pool.changedBy transaction := by
  refine SortedMap.eq_of_ascending (SortedMap.pairwise_keys _) (SortedMap.pairwise_keys _) fun id => ?_
  rw [mem_changedBy, mem_changedBy]
  have both := similar.standing.unwritten id
  generalize a.standing.unwritten id = here at both ⊢
  generalize b.standing.unwritten id = there at both ⊢
  cases both with
  | none => rfl
  | some pages => simp only [Option.some.injEq, exists_eq_left', pages.changedBy]

theorem writeBackEach (ids : List PageId) :
    Pairs kind Never (writeBackEach ids) (writeBackEach ids) a b fun _ _ => Similar kind := by
  induction ids generalizing a b with
  | nil => exact .pure similar
  | cons id rest ih => exact (similar.writeBack id).bind fun _ _ _ _ ended => ih ended.2

/-- What a transaction changed is written in both databases, up to the same page. -/
theorem writeBackOf (asker : TransactionId) :
    Pairs kind Never (writeBackOf asker) (writeBackOf asker) a b fun _ _ => Similar kind := by
  refine .get_bind ?_
  rw [← similar.changedBy_eq]
  exact similar.writeBackEach _

theorem writeBackNoting (written : List Nat) (ids : List PageId) :
    Pairs kind Never (writeBackNoting written ids) (writeBackNoting written ids) a b (Same kind) := by
  induction ids generalizing a b written with
  | nil => exact .pure ⟨rfl, similar⟩
  | cons id rest ih =>
    refine (similar.writeBack id).bind fun wrote _ _ _ ended => ?_
    obtain ⟨rfl, similar⟩ := ended
    exact .ite (fun _ => ih similar _) fun _ => ih similar _

theorem syncEach (numbers : List Nat) :
    Pairs kind Never (syncEach numbers) (syncEach numbers) a b fun _ _ => Similar kind := by
  induction numbers generalizing a b with
  | nil => exact .pure similar
  | cons number rest ih =>
    refine similar.tableAt_bind fun heap registered => ?_
    have there : b.catalog.heap? number = some heap := similar.catalog_eq ▸ registered
    have syncs {db : Database} (settled : db.Settled kind) (known : db.catalog.heap? number = some heap) :
        Op.Ensures (syncTable number (.heap heap)) db fun result after =>
          result = .ok () ∧ Rests kind db after := by
      refine .onStorage ((Storage.ensures_sync db.storage heap.store).mono fun result storage ended => ?_)
      exact ⟨ended.1, settled.count known ended.2⟩
    refine Pairs.bind (.of_ensures (syncs similar.left registered) (syncs similar.right there) ?_)
      fun _ _ _ _ => ih
    rintro _ _ a' b' ⟨rfl, rests⟩ ⟨rfl, restsOther⟩
    exact .inr (.inr (similar.rests rests restsOther))

/-- All changes are written in both databases, though they have other pages in memory. -/
theorem checkpoint :
    Pairs kind Never checkpoint checkpoint a b fun _ _ => Similar kind := by
  -- The pages with changes are in memory in both, and the others are not written.
  have dirty : (a.pool.frames.keys.filter fun id => (a.standing.unwritten id).isSome)
      = b.pool.frames.keys.filter fun id => (b.standing.unwritten id).isSome := by
    refine SortedMap.eq_of_ascending ((SortedMap.pairwise_keys _).filter _)
      ((SortedMap.pairwise_keys _).filter _) fun id => ?_
    rw [mem_dirty, mem_dirty]
    have both := similar.standing.unwritten id
    generalize a.standing.unwritten id = here at both ⊢
    generalize b.standing.unwritten id = there at both ⊢
    cases both <;> rfl
  have writes : Pairs kind Never (Database.writeBackNoting [] a.pool.frames.keys)
      (Database.writeBackNoting [] b.pool.frames.keys) a b (Same kind) := by
    have nodup (db : Database) : db.pool.frames.keys.Nodup :=
      SortedMap.nodup_of_ascending (SortedMap.pairwise_keys _)
    unfold Pairs
    rw [similar.left.writeBackNoting_eq [] (nodup a) fun _ _ => rfl,
      similar.right.writeBackNoting_eq [] (nodup b) fun _ _ => rfl, dirty]
    exact similar.writeBackNoting [] _
  refine .get_bind (writes.bind fun written _ _ _ ended => ?_)
  obtain ⟨rfl, similar⟩ := ended
  exact similar.syncEach written

/-- A page is taken back in both databases, or cannot be read in either. -/
theorem reload (id : PageId) :
    Pairs kind Never (reload id) (reload id) a b (Same kind) := by
  refine .of_ensures (similar.left.ensures_reload id) (similar.right.ensures_reload id) ?_
  rintro _ _ a' b' ⟨told, found, rfl, settled, stands⟩ ⟨other, again, rfl, settledOther, standsOther⟩
  rw [← similar.standing.lookup_eq, found] at again
  have same : told = other := by
    cases told <;> cases other <;> cases again <;> rfl
  subst same
  refine .inr (.inr ⟨rfl, settled, settledOther, ?_⟩)
  rw [stands, standsOther]
  exact similar.standing.withUnwritten .none id

theorem reloadEach (ids : List PageId) :
    Pairs kind Never (reloadEach ids) (reloadEach ids) a b (Same kind) := by
  induction ids generalizing a b with
  | nil => exact .pure ⟨rfl, similar⟩
  | cons id rest ih =>
    refine (similar.reload id).bind fun first _ _ _ ended => ?_
    obtain ⟨rfl, similar⟩ := ended
    refine (ih similar).bind fun later _ _ _ ended => ?_
    obtain ⟨rfl, similar⟩ := ended
    exact .pure ⟨rfl, similar⟩

/-- The same locks are released in both databases. -/
theorem releaseLocks (asker : TransactionId) :
    Pairs kind Never (releaseLocks asker) (releaseLocks asker) a b fun _ _ => Similar kind := by
  have exclusive : a.locks.Exclusive := similar.left.orderly.locks
  have released := similar.withLocks (exclusive.releaseAll asker)
  unfold Pairs Database.releaseLocks
  rw [← similar.locks_eq]
  exact .inr (.inr released)

/-- A transaction ends alike in both databases. -/
theorem finish (asker : TransactionId) (ending : Ending) :
    Pairs kind Never (finish asker ending) (finish asker ending) a b fun _ _ => Similar kind := by
  cases ending with
  | commit =>
    refine (similar.writeBackOf asker).bind fun _ _ _ _ similar => ?_
    exact (similar.releaseLocks asker).bind fun _ _ _ _ similar => .pure similar
  | abort =>
    have takesBack : Pairs kind Never (rollBack asker) (rollBack asker) a b (Same kind) := by
      refine .get_bind ?_
      rw [← similar.changedBy_eq]
      exact similar.reloadEach _
    refine takesBack.bind fun failure _ _ _ ended => ?_
    obtain ⟨rfl, similar⟩ := ended
    refine (similar.releaseLocks asker).bind fun _ _ _ _ similar => ?_
    cases failure with
    | none => exact .pure similar
    | some failure => exact .fail similar

end Similar

end Database

end HeapEngine

import HeapEngine.Proofs.Storage

/-!
How often stores in memory were written and made durable.

A store over a file counts nothing.
-/

namespace HeapEngine

/-- Writing to a store in memory counts if it succeeds. -/
theorem PageArray.permits_write_counts (page : Page) (store : PageArray) :
    Op.Permits (write page) store fun result after =>
      after.writeCount = store.writeCount + result.isOk.toNat
        ∧ after.syncCount = store.syncCount := by
  have still {α : Type} (outcome : Outcome α) :
      Op.Permits (liftM outcome : Op PageArray α) store fun _ after => after = store := .outcome fun _ => rfl
  -- Whatever can go wrong does so before the page is stored and counted.
  refine .get_bind ((still _).bind (fun _ _ same => same ▸ ⟨rfl, rfl⟩) fun _ _ same => ?_)
  subst same
  refine .ite (fun _ => .fail ⟨rfl, rfl⟩) fun _ => .ite (fun _ => .fail ⟨rfl, rfl⟩) fun _ => ?_
  refine (still _).bind (fun _ _ same => same ▸ ⟨rfl, rfl⟩) fun image _ same => ?_
  subst same
  exact ⟨rfl, rfl⟩

/-- Making a store in memory durable counts. -/
theorem PageArray.permits_sync_counts (store : PageArray) : Op.Permits sync store fun _ after =>
    after.writeCount = store.writeCount ∧ after.syncCount = store.syncCount + 1 := ⟨rfl, rfl⟩

namespace Storage

variable {storage : Storage} {store : StoreId}

/-- One store was written and made durable so many times more, and no other store in memory changed. -/
structure Counts (before : Storage) (store : StoreId) (writes syncs : Nat) (after : Storage) : Prop where
  here : ∀ number, store = .memory number →
    (after.array number).writeCount = (before.array number).writeCount + writes
      ∧ (after.array number).syncCount = (before.array number).syncCount + syncs
  apart : ∀ number, store ≠ .memory number → after.array number = before.array number

namespace Counts

theorem setArray {number writes syncs : Nat} {array : PageArray}
    (written : array.writeCount = (storage.array number).writeCount + writes)
    (synced : array.syncCount = (storage.array number).syncCount + syncs) :
    Counts storage (.memory number) writes syncs { storage with arrays := storage.arrays.insert number array } where
  here _ same := by
    cases same
    rw [Storage.array, SortedMap.find?_insert_self]
    exact ⟨written, synced⟩
  apart other apart := by
    have different : other ≠ number := fun same => apart (same ▸ rfl)
    rw [Storage.array, SortedMap.find?_insert_other _ _ different]
    rfl

/-- A file is no store in memory. -/
theorem setFile (name : String) (pageSize : Nat) (content : Bytes) (writes syncs : Nat) :
    Counts storage (.file name pageSize) writes syncs
      { storage with files := storage.files.insert name content } where
  here _ same := by cases same
  apart _ _ := rfl

end Counts

/-- A page that is written counts, and one that is refused does not. -/
theorem permits_write_counts (store : StoreId) (page : Page) (storage : Storage) :
    Op.Permits (write store page) storage fun result after =>
      Counts storage store result.isOk.toNat 0 after := by
  cases store with
  | file name pageSize => exact ends_onFile ((Op.Ends.anywhere _ _).mono fun _ _ _ => .setFile _ _ _ _ _)
  | memory number =>
    exact ends_onArray ((PageArray.permits_write_counts page _).mono fun _ _ ended => .setArray ended.1 ended.2)

/-- Making a store durable counts. -/
theorem permits_sync_counts (store : StoreId) (storage : Storage) :
    Op.Permits (sync store) storage fun _ after => Counts storage store 0 1 after := by
  cases store with
  | file name pageSize => exact .pure ⟨fun _ same => (by cases same), fun _ _ => rfl⟩
  | memory number =>
    exact ends_onArray ((PageArray.permits_sync_counts _).mono fun _ _ ended => .setArray ended.1 ended.2)

end Storage

end HeapEngine

import HeapEngine.Proofs.Locks.Compatible

/-!
Releasing everything at once.

The pages are gathered from two maps and then released one by one, so that no page may be missed and no entry
may stay behind without a holder.
-/

namespace HeapEngine

namespace Locks

variable {locks : Locks} {page : PageId} {holder : TransactionId}

/-- The pages that are named are those on which any lock was held. -/
theorem mem_releaseAll :
    page ∈ (locks.releaseAll holder).1 ↔ locks.isReader page holder = true ∨ locks.isWriter page holder = true := by
  rw [releaseAll, mem_pagesOf, holds, Bool.or_eq_true]

/-- Who released everything holds nothing. -/
theorem holds_releaseAll_self (locks : Locks) (page : PageId) (holder : TransactionId) :
    (locks.releaseAll holder).2.holds page holder = false := by
  simp [holds, isReader_releaseAll, isWriter_releaseAll]

/-- Releasing everything a second time names no page and changes nothing. -/
theorem releaseAll_releaseAll (locks : Locks) (holder : TransactionId) :
    (locks.releaseAll holder).2.releaseAll holder = ([], (locks.releaseAll holder).2) := by
  have none : (locks.releaseAll holder).2.pagesOf holder = [] := by
    apply List.eq_nil_iff_forall_not_mem.2
    intro page member
    rw [mem_pagesOf, holds_releaseAll_self] at member
    cases member
  -- Without any page there is nothing to go through.
  rw [releaseAll, none, List.foldl_nil]

/-- The order does not matter in which all pages of a transaction are released, nor whether some are repeated. -/
theorem foldl_release_eq_releaseAll (listed : locks.Listed) {order : List PageId}
    (all : ∀ page, page ∈ order ↔ page ∈ (locks.releaseAll holder).1) :
    order.foldl (fun locks page => (locks.release page holder).2) locks = (locks.releaseAll holder).2 := by
  obtain ⟨readers, writers⟩ := locks.foldl_release order holder
  apply eq_of_holders (listed.foldl_release order holder) (listed.releaseAll holder)
  -- What the others hold stays in both, and what this one holds is on a page in the list.
  · intro page reader
    rw [readers, isReader_releaseAll]
    by_cases self : reader = holder
    · subst self
      cases reads : locks.isReader page reader with
      | false => simp
      | true => simp [(all page).2 (mem_releaseAll.2 (.inl reads))]
    · simp [self]
  · intro page writer
    rw [writers, isWriter_releaseAll]
    by_cases self : writer = holder
    · subst self
      cases writes : locks.isWriter page writer with
      | false => simp
      | true => simp [(all page).2 (mem_releaseAll.2 (.inr writes))]
    · simp [self]

/-- Nobody is kept from writing a page that nobody else held. -/
theorem compatible_releaseAll (alone : ∀ other, other ≠ holder → locks.holds page other = false)
    (asker : TransactionId) : (locks.releaseAll holder).2.Compatible page asker .exclusive := by
  intro other _
  rw [blocks]
  by_cases self : other = holder
  · rw [self, holds_releaseAll_self]
  · rw [holds_releaseAll_other self, alone other self]

end Locks

namespace LockTraffic

/-- Releases that follow each other release page after page, and leave those who wait alone. -/
theorem afterAll_release (traffic : LockTraffic) (order : List PageId) (holder : TransactionId) :
    traffic.afterAll (order.map fun page => .release page holder)
      = { traffic with locks := order.foldl (fun locks page => (locks.release page holder).2) traffic.locks } := by
  induction order generalizing traffic with
  | nil => rfl
  | cons page rest ih => exact ih (traffic.after (.release page holder))

/--
Releasing everything releases exactly what is held.

Whatever was asked for, granted, refused and released before, a transaction that releases everything is named
the pages that it read or wrote or both, in ascending order and each once. Afterwards it holds nothing, and all
others hold what they held. Anybody can then become the writer of a page that nobody else held. Releasing these
pages one after the other, in any order, comes to the same, and there is nothing to release a second time.
-/
theorem releaseAll_exact (events : List LockEvent) (holder : TransactionId) :
    let traffic := empty.afterAll events
    let pages := (traffic.locks.releaseAll holder).1
    let locks := (traffic.locks.releaseAll holder).2
    pages.Pairwise (· < ·)
      ∧ (∀ page, page ∈ pages
        ↔ traffic.locks.isReader page holder = true ∨ traffic.locks.isWriter page holder = true)
      ∧ (∀ page, locks.isReader page holder = false ∧ locks.isWriter page holder = false)
      ∧ (∀ page other, other ≠ holder → locks.isReader page other = traffic.locks.isReader page other
        ∧ locks.isWriter page other = traffic.locks.isWriter page other)
      ∧ (∀ page, (∀ other, other ≠ holder → traffic.locks.holds page other = false) →
        ∀ asker, ∃ granted, locks.grant? page asker .exclusive = some granted)
      ∧ (∀ order : List PageId, (∀ page, page ∈ order ↔ page ∈ pages) →
        traffic.afterAll (order.map fun page => .release page holder) = { traffic with locks })
      ∧ locks.releaseAll holder = ([], locks) := by
  intro traffic pages locks
  have alone : empty.locks.Exclusive := Locks.exclusive_empty
  obtain ⟨exclusive, listed⟩ := sound_afterAll alone Locks.listed_empty events
  refine ⟨SortedMap.pairwise_keys _, fun page => Locks.mem_releaseAll, ?_, ?_, ?_, ?_,
    traffic.locks.releaseAll_releaseAll holder⟩
  · intro page
    simp [locks, Locks.isReader_releaseAll, Locks.isWriter_releaseAll]
  · intro page other apart
    simp [locks, Locks.isReader_releaseAll, Locks.isWriter_releaseAll, apart]
  · intro page free asker
    -- A page is granted to whom nobody is in the way, and nobody holds this one any more.
    apply (Locks.exists_grant?_iff (exclusive.releaseAll holder) (listed.releaseAll holder) page asker _).2
    exact Locks.compatible_releaseAll free asker
  · intro order all
    rw [afterAll_release]
    exact congrArg (fun locks => { traffic with locks }) (Locks.foldl_release_eq_releaseAll listed all)

/-- Who reads and writes one page and reads another one has both named once, and releases them in any order. -/
example :
    let traffic := empty.afterAll [.start ⟨⟨1⟩, ⟨1, 3⟩, .exclusive⟩, .start ⟨⟨1⟩, ⟨1, 3⟩, .shared⟩,
      .start ⟨⟨1⟩, ⟨1, 0⟩, .shared⟩, .start ⟨⟨2⟩, ⟨1, 0⟩, .shared⟩]
    (traffic.locks.releaseAll ⟨1⟩).1 = [⟨1, 0⟩, ⟨1, 3⟩]
      ∧ (traffic.afterAll [.release ⟨1, 3⟩ ⟨1⟩, .release ⟨1, 0⟩ ⟨1⟩]).locks = (traffic.locks.releaseAll ⟨1⟩).2 := by
  decide

end LockTraffic

end HeapEngine

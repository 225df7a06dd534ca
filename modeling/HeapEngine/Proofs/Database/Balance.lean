import HeapEngine.Proofs.Database.Ledger

/-!
What is stored and what is changed in memory agree with the ledger.

The stored records are those committed. A changed page has in addition what its transaction did since
it last ended, and no other page has any of that.
-/

namespace HeapEngine

namespace Standing

/-- The stored records are the committed ones, and changed pages have the pending changes. -/
structure Balances (map : RecordMap) (ledger : Ledger) (standing : Standing) : Prop where
  quiet : standing.Quiet
  legible : standing.Legible
  committed : standing.recordMap = map.replay ledger.committed
  /-- A changed page has what is stored, with what its transaction did since it last ended. -/
  changed : ∀ id page transaction, standing.unwritten id = some page →
    page.changedBy = some transaction → page.Legible ∧ ∀ slot, page.values? slot
      = standing.recordMap.replay (ledger.pending transaction) ⟨id, slot⟩
  /-- What a transaction did since it last ended is on pages that carry its mark. -/
  pending : ∀ transaction, ∀ change ∈ ledger.pending transaction, ∃ page,
    standing.unwritten change.place.page = some page ∧ page.changedBy = some transaction

namespace Balances

variable {map : RecordMap} {ledger : Ledger} {standing : Standing} {transaction : TransactionId}
  {id : PageId} {page changed : Page}

/-- Who holds which lock does not matter to the ledger. -/
theorem withLocks (balances : standing.Balances map ledger) (locks : Locks) :
    (standing.withLocks locks).Balances map ledger :=
  ⟨balances.quiet, balances.legible, balances.committed, balances.changed, balances.pending⟩

/-- On a page without a mark of its own a transaction has nothing pending. -/
theorem apart_pending (balances : standing.Balances map ledger)
    (unmarked : ∀ page, standing.unwritten id = some page → page.changedBy ≠ some transaction)
    (slot : Nat) : ∀ change ∈ ledger.pending transaction, (⟨id, slot⟩ : RecordId) ≠ change.place := by
  intro change member same
  obtain ⟨page, unwritten, mark⟩ := balances.pending transaction change member
  rw [← same] at unwritten
  exact unmarked page unwritten mark

/-- A page that a transaction may change has what is stored and what the transaction did to it. -/
theorem content (balances : standing.Balances map ledger) {held : Page}
    (content : standing.content? id = some held)
    (mine : ∀ page, standing.unwritten id = some page → page.changedBy = some transaction) :
    held.Legible ∧ ∀ slot, held.values? slot
      = standing.recordMap.replay (ledger.pending transaction) ⟨id, slot⟩ := by
  unfold Standing.content? at content
  cases unwritten : standing.unwritten id with
  | some page =>
    rw [unwritten] at content
    cases content
    exact balances.changed id held transaction unwritten (mine held unwritten)
  | none =>
    -- Nothing of the transaction is pending here, so the page is as it is stored.
    rw [unwritten] at content
    obtain ⟨image, found, decoded⟩ := Standing.stored?_eq_some.1 content
    obtain ⟨read, outcome, legible⟩ := balances.legible id image found
    cases outcome.symm.trans decoded
    refine ⟨legible, fun slot => ?_⟩
    have nothing : ∀ change ∈ ledger.pending transaction, (⟨id, slot⟩ : RecordId) ≠ change.place :=
      balances.apart_pending (fun page marked => by rw [unwritten] at marked; cases marked) slot
    rw [RecordMap.replay_apart _ nothing, recordMap_eq found outcome]

section Add

variable {place : RecordId} {values : Option (List Value)} (balances : standing.Balances map ledger)
  (mine : ∀ page, standing.unwritten place.page = some page → page.changedBy = some transaction)

include balances

/-- The changed page has one more change of its transaction, and no other page has one. -/
theorem changed_add (legible : changed.Legible)
    (held : ∀ slot, page.values? slot
      = standing.recordMap.replay (ledger.pending transaction) ⟨place.page, slot⟩)
    (effect : ∀ slot, changed.values? slot = if slot = place.slot then values else page.values? slot)
    {marked : Page} {owner : TransactionId}
    (unwritten : (standing.withUnwritten place.page
      (some (changed.markChanged transaction))).unwritten id = some marked)
    (mark : marked.changedBy = some owner) : marked.Legible ∧ ∀ slot, marked.values? slot
      = standing.recordMap.replay ((ledger.add transaction ⟨place, values⟩).pending owner) ⟨id, slot⟩ := by
  simp only [Standing.withUnwritten] at unwritten
  rw [Ledger.pending_add]
  -- On the changed page the new change counts last; other pages are as they were.
  by_cases same : id = place.page
  · rw [if_pos same, Option.some.injEq] at unwritten
    subst unwritten
    subst same
    cases mark
    refine ⟨legible, fun slot => ?_⟩
    have spot : (⟨place.page, slot⟩ : RecordId) = place ↔ slot = place.slot := by
      cases place
      simp
    have shown : (changed.markChanged transaction).values? slot = changed.values? slot := rfl
    rw [if_pos rfl, RecordMap.replay_concat, shown, effect slot, held slot]
    simp only [spot]
  · rw [if_neg same] at unwritten
    obtain ⟨readable, shown⟩ := balances.changed id marked owner unwritten mark
    refine ⟨readable, fun slot => (shown slot).trans ?_⟩
    by_cases self : owner = transaction
    · -- The new change is on another page.
      subst self
      rw [if_pos rfl, RecordMap.replay_concat, if_neg]
      intro spot
      exact same (congrArg RecordId.page spot)
    · rw [if_neg self]

include mine

/-- The new change is on a page that carries the mark of its transaction, and so are the old ones. -/
theorem exists_page_add {owner : TransactionId} {change : Change}
    (member : change ∈ (ledger.add transaction ⟨place, values⟩).pending owner) :
    ∃ marked, (standing.withUnwritten place.page
        (some (changed.markChanged transaction))).unwritten change.place.page = some marked
      ∧ marked.changedBy = some owner := by
  rw [Ledger.pending_add] at member
  simp only [Standing.withUnwritten]
  by_cases self : owner = transaction
  · subst self
    -- The page of the new change is marked now, and the others are as unwritten as before.
    by_cases same : change.place.page = place.page
    · rw [if_pos same]
      exact ⟨_, rfl, rfl⟩
    · rw [if_neg same]
      rw [if_pos rfl] at member
      rcases List.mem_append.1 member with earlier | new
      · exact balances.pending owner change earlier
      · rw [List.mem_singleton.1 new] at same
        exact absurd rfl same
  · rw [if_neg self] at member
    obtain ⟨marked, unwritten, mark⟩ := balances.pending owner change member
    -- Another transaction has no change on this page.
    have same : change.place.page ≠ place.page := by
      intro same
      rw [same] at unwritten
      exact self (Option.some.inj (mark.symm.trans (mine marked unwritten)))
    rw [if_neg same]
    exact ⟨marked, unwritten, mark⟩

/-- A record that is stored or deleted on a page is noted with its transaction. -/
theorem add (legible : changed.Legible)
    (held : ∀ slot, page.values? slot
      = standing.recordMap.replay (ledger.pending transaction) ⟨place.page, slot⟩)
    (effect : ∀ slot, changed.values? slot = if slot = place.slot then values else page.values? slot) :
    (standing.withUnwritten place.page (some (changed.markChanged transaction))).Balances map
      (ledger.add transaction ⟨place, values⟩) :=
  ⟨balances.quiet, balances.legible, balances.committed,
    fun _ _ _ unwritten mark => balances.changed_add legible held effect unwritten mark,
    fun _ _ member => balances.exists_page_add mine member⟩

end Add

end Balances

end Standing

namespace Database

open Standing

variable {kind : ImageKind} {map : RecordMap} {ledger : Ledger} {before after : Database}
  {transaction : TransactionId}

/-- A heap that grows stores no other records. -/
theorem Consistent.balances_grows {grown : Standing} {number : Nat} (consistent : before.Consistent kind)
    (balances : before.standing.Balances map ledger) (grows : before.standing.Grows number grown) :
    grown.Balances map ledger := by
  have records := consistent.grows_recordMap grows
  have unwritten := grows.unwritten_eq
  refine ⟨?_, consistent.grows_legible grows balances.legible, ?_, ?_, ?_⟩
  · intro other
    -- Growing asks no store to fail.
    obtain rfl | ⟨image, _, rfl⟩ := grows
    · exact balances.quiet other
    · simp only [withShown]
      split
      · exact balances.quiet number
      · exact balances.quiet other
  · rw [records]
    exact balances.committed
  · rw [records, unwritten]
    exact balances.changed
  · rw [unwritten]
    exact balances.pending

/-- Who changes a page is the only one who has changed it. -/
theorem Changes.mine {standing : Standing} {id : PageId} {page changed : Page}
    (changes : Changes kind transaction standing id page changed after)
    (advances : Locks.Advances transaction standing.locks after.locks)
    (fits : ∀ page, standing.unwritten id = some page → standing.Fits id page)
    (dirty : ∀ page, standing.unwritten id = some page → page.changedBy ≠ none) :
    ∀ page, standing.unwritten id = some page → page.changedBy = some transaction := by
  intro other unwritten
  obtain ⟨owner, mark⟩ := Option.ne_none_iff_exists'.1 (dirty other unwritten)
  have writes := ((fits other unwritten).changed owner mark).1
  by_cases self : owner = transaction
  · rw [mark, self]
  · -- The other writer would be writer still.
    rw [← advances.writers id owner self] at writes
    exact absurd (Locks.writer_unique writes changes.writes) self

/-- What a transaction does to a record is on a page that has what it did before. -/
theorem Changes.balances {standing : Standing} {page changed : Page} {place : RecordId}
    {values : Option (List Value)}
    (changes : Changes kind transaction standing place.page page changed after)
    (balances : standing.Balances map ledger)
    (mine : ∀ page, standing.unwritten place.page = some page → page.changedBy = some transaction)
    (effect : page.Legible → changed.Legible ∧ ∀ slot, changed.values? slot
      = if slot = place.slot then values else page.values? slot) :
    after.standing.Balances map (ledger.add transaction ⟨place, values⟩) := by
  obtain ⟨held, content, agrees, _⟩ := changes.held
  obtain ⟨readable, values⟩ := balances.content content mine
  -- The page in memory has the records of what is said to be held.
  have cells := (agrees.symm.cells changes.sound).symm
  obtain ⟨legible, shown⟩ := effect (readable.congr cells)
  have before : ∀ slot, page.values? slot
      = standing.recordMap.replay (ledger.pending transaction) ⟨place.page, slot⟩ := by
    intro slot
    rw [← values slot]
    exact (Page.values?_congr cells slot).symm
  rw [changes.standing]
  exact (balances.withLocks after.locks).add mine legible before shown

/-- Only a page that carries the mark of a transaction is one that the transaction has changed. -/
theorem unmarked_of_not_mem {db : Database} {id : PageId} (outside : id ∉ db.pool.changedBy transaction) :
    ∀ page, db.standing.unwritten id = some page → page.changedBy ≠ some transaction :=
  fun page unwritten mark => outside (mem_changedBy.2 ⟨page, unwritten, mark⟩)

/-- What another transaction did is on pages that a transaction has not changed. -/
theorem exists_page_of_pending {db : Database} {owner : TransactionId} {change : Change}
    (balances : db.standing.Balances map ledger) (other : owner ≠ transaction)
    (member : change ∈ ledger.pending owner) :
    ∃ page, db.standing.unwritten change.place.page = some page ∧ page.changedBy = some owner
      ∧ change.place.page ∉ db.pool.changedBy transaction := by
  obtain ⟨page, unwritten, mark⟩ := balances.pending owner change member
  refine ⟨page, unwritten, mark, fun marked => ?_⟩
  obtain ⟨same, found, mine⟩ := mem_changedBy.1 marked
  cases unwritten.symm.trans found
  exact other (Option.some.inj (mark.symm.trans mine))

namespace Flushes

variable (flushes : Flushes kind (before.pool.changedBy transaction) before after)
  (consistent : before.Consistent kind) (balanced : before.standing.Balances map ledger)

include flushes

/-- A page that the transaction has not changed keeps its image, and stays as unwritten as it was. -/
theorem kept_of_not_mem {id : PageId} (outside : id ∉ before.pool.changedBy transaction) :
    after.standing.image? id = before.standing.image? id
      ∧ after.standing.unwritten id = before.standing.unwritten id :=
  flushes.kept id (.inl outside)

include consistent balanced

/-- A page that the transaction has changed is stored with what the transaction did. -/
theorem exists_written {id : PageId} (member : id ∈ before.pool.changedBy transaction) :
    ∃ image read, after.standing.image? id = some image ∧ Page.ofImage id image = .ok read
      ∧ read.Legible ∧ ∀ slot, read.values? slot
        = before.standing.recordMap.replay (ledger.pending transaction) ⟨id, slot⟩ := by
  obtain ⟨page, unwritten, mark⟩ := mem_changedBy.1 member
  obtain ⟨image, read, found, outcome, cells⟩ := flushes.image?_written consistent member unwritten
  obtain ⟨legible, values⟩ := balanced.changed id page transaction unwritten mark
  refine ⟨image, read, found, outcome, legible.congr cells, fun slot => ?_⟩
  rw [← Page.values?_congr cells]
  exact values slot

/-- What is stored afterwards is what was stored, with what the transaction did. -/
theorem recordMap_commit :
    after.standing.recordMap = before.standing.recordMap.replay (ledger.pending transaction) := by
  funext place
  by_cases member : place.page ∈ before.pool.changedBy transaction
  · obtain ⟨image, read, found, outcome, _, values⟩ :=
      flushes.exists_written consistent balanced member
    rw [recordMap_eq found outcome, values]
  · -- The transaction did nothing on a page that it has not changed.
    rw [recordMap_congr (flushes.kept_of_not_mem member).1, RecordMap.replay_apart]
    exact balanced.apart_pending (unmarked_of_not_mem member) place.slot

theorem legible_commit : after.standing.Legible := by
  intro id image found
  -- A page that was written is as legible as it was in memory, and the others as before.
  by_cases member : id ∈ before.pool.changedBy transaction
  · obtain ⟨stored, read, there, outcome, legible, _⟩ :=
      flushes.exists_written consistent balanced member
    rw [there, Option.some.injEq] at found
    subst found
    exact ⟨read, outcome, legible⟩
  · rw [(flushes.kept_of_not_mem member).1] at found
    exact balanced.legible id image found

/-- A commit stores what its transaction did, and nothing else. -/
theorem balances : after.standing.Balances map (ledger.commit transaction) := by
  refine ⟨?_, flushes.legible_commit consistent balanced, ?_, ?_, ?_⟩
  · intro number
    have alike := flushes.views number
    rw [alike.readsFail, alike.writesFail]
    exact balanced.quiet number
  · rw [flushes.recordMap_commit consistent balanced, balanced.committed]
    exact (RecordMap.replay_append map _ _).symm
  · intro id page owner unwritten mark
    -- A page that is unwritten still was changed by another transaction.
    have outside : id ∉ before.pool.changedBy transaction := by
      intro member
      rw [flushes.cleared id member] at unwritten
      cases unwritten
    rw [(flushes.kept_of_not_mem outside).2] at unwritten
    have other : owner ≠ transaction := by
      rintro rfl
      exact unmarked_of_not_mem outside page unwritten mark
    obtain ⟨legible, values⟩ := balanced.changed id page owner unwritten mark
    refine ⟨legible, fun slot => (values slot).trans ?_⟩
    rw [Ledger.pending_commit, if_neg other]
    exact RecordMap.replay_congr (recordMap_congr (flushes.kept_of_not_mem outside).1.symm) _
  · intro owner change member
    rw [Ledger.pending_commit] at member
    by_cases self : owner = transaction
    · -- Nothing is pending of the transaction that is committed.
      rw [if_pos self] at member
      cases member
    · rw [if_neg self] at member
      obtain ⟨page, unwritten, mark, outside⟩ := exists_page_of_pending balanced self member
      rw [(flushes.kept_of_not_mem outside).2]
      exact ⟨page, unwritten, mark⟩

end Flushes

/-- An abort forgets what its transaction did. -/
theorem balances_reverted {db : Database} (balances : db.standing.Balances map ledger) :
    (db.standing.reverted (db.pool.changedBy transaction)).Balances map
      (ledger.withPending transaction []) := by
  refine ⟨balances.quiet, balances.legible, balances.committed, ?_, ?_⟩
  · intro id page owner unwritten mark
    simp only [Standing.reverted] at unwritten
    split at unwritten
    · cases unwritten
    -- A page that is unwritten still was changed by another transaction.
    rename_i outside
    have other : owner ≠ transaction := by
      rintro rfl
      exact unmarked_of_not_mem outside page unwritten mark
    obtain ⟨legible, values⟩ := balances.changed id page owner unwritten mark
    refine ⟨legible, fun slot => (values slot).trans ?_⟩
    rw [Ledger.pending_withPending, if_neg other]
    rfl
  · intro owner change member
    rw [Ledger.pending_withPending] at member
    by_cases self : owner = transaction
    · -- What the transaction did is forgotten.
      rw [if_pos self] at member
      cases member
    · rw [if_neg self] at member
      obtain ⟨page, unwritten, mark, outside⟩ := exists_page_of_pending balances self member
      refine ⟨page, ?_, mark⟩
      simp only [Standing.reverted, if_neg outside]
      exact unwritten

end Database

end HeapEngine

import HeapEngine.Proofs.Database.Repeatable
import HeapEngine.Proofs.Database.Transparent.Commit
import HeapEngine.Proofs.Database.Transparent.Records

/-!
How many pages fit in memory cannot be told from any answer.

Two databases over the same stores, with room for different numbers of pages, are asked the same. Unless
one of them is told that no page could be dropped, they answer the same and leave the same behind.
-/

namespace HeapEngine

/-- What a page shows to whoever gets it. -/
structure Page.Sight where
  id : PageId
  slots : List Slot
  cellStart : Nat
  cells : SlotList
  image : Outcome Bytes
  changedBy : Option TransactionId

/-- All that can be seen of a page. The bytes below its cells cannot. -/
def Page.sight (page : Page) : Page.Sight :=
  ⟨page.id, page.slots, page.cellStart, page.cells, page.image, page.changedBy⟩

/-- What may be asked of a database whose pages are changed by it only. -/
inductive Call where
  /-- Gives a page to a transaction. -/
  | get (transaction : TransactionId) (page : PageId) (access : Access)
  | insert (transaction : TransactionId) (table : Nat) (record : Record)
  | delete (transaction : TransactionId) (record : Record)
  /-- Goes on with a scan over so many records at most. -/
  | scan (cursor : Scan) (count : Nat)
  | finish (transaction : TransactionId) (ending : Database.Ending)
  /-- Writes one page. -/
  | flush (page : PageId)
  /-- Writes what a transaction changed. -/
  | flushOf (transaction : TransactionId)
  /-- Writes everything. -/
  | flushAll
  | release (transaction : TransactionId) (page : PageId)
  /-- Asks whether a transaction has locked a page. -/
  | holds (transaction : TransactionId) (page : PageId)
  /-- Asks which pages a transaction has changed. -/
  | dirtied (transaction : TransactionId)
  /-- Lets writing a store in memory fail from now on, or not. -/
  | refuse (store : Nat) (refuses : Bool)

/-- What a call answers when it succeeds. -/
inductive Answer where
  | done
  | page (sight : Page.Sight)
  /-- Whether the record was stored, and the record with its place. -/
  | stored (result : Except Failure Unit) (record : Record)
  | items (items : List Scan.Item) (scan : Scan)
  | flag (holds : Bool)
  | pages (ids : List PageId)

namespace Call

open Database

/-- Does what a call asks for. -/
def perform : Call → Op Database Answer
  | get transaction page access => do
    let copy ← acquire transaction page access
    return .page (← lookAt copy).sight
  | insert transaction table record => do
    let (result, stored) ← Database.insert transaction table record
    return .stored result stored
  | delete transaction record => do
    Database.delete transaction record
    return .done
  | scan cursor count => do
    let (items, later) ← cursor.take count
    return .items items later
  | finish transaction ending => do
    Database.finish transaction ending
    return .done
  | flush page => do return .flag (← writeBack page)
  | flushOf transaction => do
    writeBackOf transaction
    return .done
  | flushAll => do
    checkpoint
    return .done
  | release transaction page => do
    releaseEarly transaction page
    return .done
  | holds transaction page => do return .flag ((← MonadState.get).locks.holds page transaction)
  | dirtied transaction => do return .pages ((← MonadState.get).pool.changedBy transaction)
  | refuse store refuses => do
    onStorage (Storage.onArray store (modify (PageArray.setFailing false refuses)))
    return .done

/-- Makes calls one after the other, and gives all their answers. -/
def performAll : List Call → Op Database (List (Except Failure Answer))
  | [] => return []
  | call :: rest => do
    let answer ← attempt call.perform
    return answer :: (← performAll rest)

/-- The first answer is followed by those of the other calls. -/
theorem performAll_cons {db after : Database} {call : Call} {rest : List Call}
    {answer : Except Failure Answer} (ran : attempt call.perform db = .ok answer after) :
    performAll (call :: rest) db = match performAll rest after with
      | .ok answers last => .ok (answer :: answers) last
      | .error fault last => .error fault last := by
  -- Whether the other calls come to an end is asked once the first one has.
  simp only [performAll, bind, EStateM.bind, ran]
  cases performAll rest after <;> rfl

/-- A scan is over a registered heap. -/
def Over (catalog : Catalog) : Call → Prop
  | scan cursor _ => catalog.heap? cursor.heap.table = some cursor.heap
  | _ => True

end Call

/-- Whether an item of a scan tells that no page could be dropped. -/
def Scan.Item.isFull : Scan.Item → Bool
  | .failure (.poolFull _) => true
  | _ => false

/-- Whether an answer tells that no page could be dropped for another one. -/
def Answer.isFull : Except Failure Answer → Bool
  | .error (.poolFull _) => true
  | .ok (.stored (.error (.poolFull _)) _) => true
  | .ok (.items given _) => given.any Scan.Item.isFull
  | _ => false

/-- A store in memory refuses to be written, or not. -/
def Standing.refusing (standing : Standing) (store : Nat) (refuses : Bool) : Standing :=
  { standing with shown := fun number => { standing.shown number with
      writesFail :=
        if (standing.catalog.heap? number).any fun heap => heap.store = .memory store then refuses
        else (standing.shown number).writesFail } }

/-- Settings that were accepted are accepted with room for another number of pages, unless it is none. -/
theorem Settings.check_withCapacity {settings : Settings} {capacity : Nat}
    (accepted : settings.check = .ok ()) (positive : 0 < capacity) : { settings with capacity }.check = .ok () := by
  -- The number of pages is only asked to be some, so the rest of the check is the same.
  have before : settings.capacity ≠ 0 := Nat.ne_of_gt (Settings.check_eq_ok accepted).1
  unfold Settings.check at accepted ⊢
  rw [if_neg before] at accepted
  rw [if_neg (show capacity ≠ 0 from Nat.ne_of_gt positive)]
  exact accepted

namespace Database

/-- The database with room for another number of pages in memory. -/
def withCapacity (db : Database) (capacity : Nat) : Database :=
  { db with settings := { db.settings with capacity } }

/-- Whether no call is told that no page could be dropped. After a trap nothing is told any more. -/
def roomy (db : Database) : List Call → Bool
  | [] => true
  | call :: rest =>
    match attempt call.perform db with
    | .ok answer after => !Answer.isFull answer && after.roomy rest
    | .error _ _ => true

/-- The stores show the same, the same locks are held, and the same pages have the same changes. -/
structure Resembles (a b : Database) : Prop where
  shown : a.standing.shown = b.standing.shown
  locks : a.locks = b.locks
  changedBy : ∀ transaction, a.pool.changedBy transaction = b.pool.changedBy transaction
  unwritten : ∀ id, (a.standing.unwritten id).map Page.sight = (b.standing.unwritten id).map Page.sight

/-- Whatever is asked for, no answer tells how many pages fit in memory, unless no page could be dropped. -/
def CacheTransparent (db : Database) : Prop :=
  ∀ capacity calls, 0 < capacity → (∀ call ∈ calls, call.Over db.catalog) →
    db.roomy calls = true → (db.withCapacity capacity).roomy calls = true →
      ∃ answers after other, Call.performAll calls db = .ok answers after
        ∧ Call.performAll calls (db.withCapacity capacity) = .ok answers other ∧ after.Resembles other

variable {kind : ImageKind} {a b db : Database}

/-- What can be seen of pages that match is the same. -/
theorem sight_eq {p q : Page} (pages : p.Matches q) (sound : p.Sound) : p.sight = q.sight := by
  have agrees := pages.twins.agrees
  rw [Page.sight, pages.twins.id, agrees.slots, agrees.cellStart, agrees.cells sound, agrees.image,
    pages.changedBy]
  rfl

/-- A store in memory refuses to be written from now on, or not. -/
theorem Settled.ensures_refuse (settled : db.Settled kind) (store : Nat) (refuses : Bool) :
    Op.Ensures (onStorage (Storage.onArray store (modify (PageArray.setFailing false refuses)))) db
      fun result after => result = .ok () ∧ after.Settled kind
        ∧ after.standing = db.standing.refusing store refuses := by
  refine .onStorage (Op.Ends.mono (Storage.ensures_setFailing db.storage store false refuses) ?_)
  rintro result storage ⟨told, shows⟩
  have shown : ∀ number, (standing { db with storage }).shown number
      = (db.standing.refusing store refuses).shown number := by
    intro number
    have reads := settled.reads number
    cases registered : db.catalog.heap? number with
    | none =>
      -- A table of no heap shows nothing, whether the store refuses or not.
      simp only [Standing.refusing, standing, registered, Option.any_none, Bool.false_eq_true, ↓reduceIte]
    | some heap =>
      have here : db.standing.catalog.heap? number = some heap := registered
      have there : Catalog.heap? (Database.catalog { db with storage }) number = some heap := registered
      rw [shown_eq registered] at reads
      rw [shown_eq there]
      by_cases same : heap.store = .memory store
      · -- The heap is over this store, which did not fail to be read before.
        rw [same] at reads
        simp only [Standing.refusing, here, shown_eq registered, same, shows.here, ← reads,
          Option.any_some, decide_true, ↓reduceIte]
      · simp only [Standing.refusing, here, shown_eq registered, same,
          shows.apart _ (StoreId.apart_memory same), Option.any_some, decide_false, Bool.false_eq_true, ↓reduceIte]
  have stands : standing { db with storage } = db.standing.refusing store refuses := by
    simp only [standing, Standing.refusing, Standing.mk.injEq, true_and, and_true]
    exact funext shown
  -- Neither what is read nor the images count writing, so all that was settled is so still.
  refine ⟨told, ⟨?_, ?_, fun id page resident => ?_⟩, stands⟩
  · rw [stands]
    exact { settled.orderly with }
  · rw [stands]
    exact settled.reads
  · rw [stands]
    exact { settled.cached id page resident with }

theorem Similar.refuse (similar : Similar kind a b) (store : Nat) (refuses : Bool) :
    Pairs kind Never (onStorage (Storage.onArray store (modify (PageArray.setFailing false refuses))))
      (onStorage (Storage.onArray store (modify (PageArray.setFailing false refuses)))) a b
      fun _ _ => Similar kind := by
  refine .of_ensures (similar.left.ensures_refuse store refuses) (similar.right.ensures_refuse store refuses) ?_
  rintro _ _ a' b' ⟨rfl, settled, stands⟩ ⟨rfl, settledOther, standsOther⟩
  refine .inr (.inr ⟨settled, settledOther, ?_⟩)
  rw [stands, standsOther]
  exact { similar.standing with
    shown := by simp only [Standing.refusing, similar.standing.catalog, similar.standing.shown] }

/-- A call is answered alike in both databases. -/
theorem Similar.perform (similar : Similar kind a b) {call : Call} (registered : call.Over a.catalog) :
    Pairs kind (fun answer _ => Answer.isFull (.ok answer) = true) call.perform call.perform a b
      (Same kind) := by
  -- Calls that only do something answer the same, however they went before.
  have done {first second : Op Database Unit}
      (pairs : Pairs kind Never first second a b fun _ _ => Similar kind) :
      Pairs kind (fun answer _ => Answer.isFull (.ok answer) = true) (do first; return Answer.done)
        (do second; return Answer.done) a b (Same kind) :=
    pairs.bind fun _ _ _ _ similar => .pure ⟨rfl, similar⟩
  cases call with
  | get transaction page access =>
    refine (similar.acquire transaction page access).bind fun x y _ _ given => ?_
    refine given.1.lookAt.bind fun p q _ _ looked => ?_
    obtain ⟨rfl, rfl, resident, _, pages⟩ := looked
    have similar := given.1.similar
    rw [sight_eq pages (similar.left.cached _ p resident).sound]
    exact .pure ⟨rfl, similar⟩
  -- A full pool is told in the result here, with the record that was to be stored.
  | insert transaction table record =>
    refine (similar.insert transaction table record).bind_lost ?_ ?_ ?_
    · rintro ⟨_, stored⟩ after ⟨capacity, rfl⟩
      exact rfl
    · rintro ⟨_, stored⟩ after ⟨capacity, rfl⟩
      exact rfl
    · rintro value _ _ _ ⟨rfl, similar⟩
      exact .pure ⟨rfl, similar⟩
  | delete transaction record => exact done (similar.delete transaction record)
  | scan cursor count =>
    -- A scan tells of a full pool in one of its items.
    refine (similar.take registered count).bind_lost ?_ ?_ ?_
    · rintro value after ⟨capacity, member⟩
      exact List.any_eq_true.2 ⟨_, member, rfl⟩
    · rintro value after ⟨capacity, member⟩
      exact List.any_eq_true.2 ⟨_, member, rfl⟩
    · rintro value _ _ _ ⟨rfl, similar⟩
      exact .pure ⟨rfl, similar⟩
  | finish transaction ending => exact done (similar.finish transaction ending)
  | flush page =>
    refine (similar.writeBack page).bind fun x y _ _ ended => ?_
    obtain ⟨rfl, similar⟩ := ended
    exact .pure ⟨rfl, similar⟩
  | flushOf transaction => exact done (similar.writeBackOf transaction)
  | flushAll => exact done similar.checkpoint
  | release transaction page => exact done (similar.releaseEarly transaction page)
  | holds transaction page =>
    exact .get_bind (.pure ⟨by rw [similar.locks_eq], similar⟩)
  | dirtied transaction =>
    exact .get_bind (.pure ⟨by rw [similar.changedBy_eq], similar⟩)
  | refuse store refuses => exact done (similar.refuse store refuses)

/-- No call registers a table. -/
theorem Intact.moves_perform (intact : db.Intact) (call : Call) :
    Moves True call.perform db fun _ _ => True := by
  cases call with
  | get transaction page access =>
    refine (intact.housed.moves_acquire transaction page access).bind fun copy _ _ given => ?_
    exact (moves_lookAt given.2).bind fun _ _ _ _ => .pure trivial
  | insert transaction table record =>
    exact (intact.housed.moves_insert transaction table record).bind fun _ _ _ _ => .pure trivial
  | delete transaction record =>
    exact (intact.housed.moves_delete transaction record).bind fun _ _ _ _ => .pure trivial
  | scan cursor count => exact (intact.housed.moves_take cursor count).bind fun _ _ _ _ => .pure trivial
  | finish transaction ending =>
    exact (intact.housed.moves_finish transaction ending).bind fun _ _ _ _ => .pure trivial
  | flush page => exact (intact.housed.moves_writeBack page).bind fun _ _ _ _ => .pure trivial
  | flushOf transaction => exact (intact.housed.moves_writeBackOf transaction).bind fun _ _ _ _ => .pure trivial
  | flushAll => exact intact.housed.moves_checkpoint.bind fun _ _ _ _ => .pure trivial
  | release transaction page =>
    exact (intact.housed.moves_releaseEarly transaction page).bind fun _ _ _ _ => .pure trivial
  | holds transaction page => exact .get_bind (.pure trivial)
  | dirtied transaction => exact .get_bind (.pure trivial)
  | refuse store refuses => exact (moves_setFailing store false refuses).bind fun _ _ _ _ => .pure trivial

/-- A run that is lost is not roomy. -/
theorem not_lost_of_roomy {call : Call} {rest : List Call} (roomy : db.roomy (call :: rest) = true) :
    ¬ Lost (fun answer _ => Answer.isFull (.ok answer) = true) (call.perform db) := by
  intro lost
  -- The answer to a lost call tells that no page could be dropped.
  unfold Database.roomy attempt at roomy
  cases ran : call.perform db with
  | ok answer after =>
    rw [ran] at lost roomy
    have full : Answer.isFull (.ok answer) = true := lost
    simp [full] at roomy
  | error fault after =>
    rw [ran] at lost roomy
    unfold Lost at lost
    split at lost
    · rename_i same
      cases same
    · rename_i same
      cases same
      simp [Answer.isFull] at roomy
    · exact lost.elim

/-- What is left of a roomy run is roomy. -/
theorem roomy_of_cons {call : Call} {rest : List Call} {answer : Except Failure Answer} {after : Database}
    (roomy : db.roomy (call :: rest) = true) (ran : attempt call.perform db = .ok answer after) :
    after.roomy rest = true := by
  unfold Database.roomy at roomy
  simp only [ran, Bool.and_eq_true] at roomy
  exact roomy.2

/-- Calls are answered alike in both databases, one after the other. -/
theorem Similar.performAll (similar : Similar kind a b) {calls : List Call}
    (registered : ∀ call ∈ calls, call.Over a.catalog) (roomy : a.roomy calls = true)
    (roomyOther : b.roomy calls = true) :
    ∃ answers after other, Call.performAll calls a = .ok answers after
      ∧ Call.performAll calls b = .ok answers other ∧ Similar kind after other := by
  -- Every call leaves similar databases, in which the same heaps are registered.
  induction calls generalizing a b with
  | nil => exact ⟨[], a, b, rfl, rfl, similar⟩
  | cons call rest ih =>
    have alike : Agree kind (Same kind) (call.perform a) (call.perform b) := by
      rcases similar.perform (registered call List.mem_cons_self) with lost | lost | alike
      · exact absurd lost (not_lost_of_roomy roomy)
      · exact absurd lost (not_lost_of_roomy roomyOther)
      · exact alike
    obtain ⟨x, y, a', b', here, there, answers⟩ := alike.attempt
    obtain ⟨rfl, similar'⟩ := answers.same
    -- A call is a path of small steps, and none of them registers a table.
    have catalog : a'.catalog = a.catalog := by
      have moves := Op.Ends.attempt (similar.left.intact.moves_perform call)
      unfold Op.Ends at moves
      rw [here] at moves
      obtain ⟨_, _, steps, _⟩ := moves
      exact steps.catalog_eq.1
    have later : ∀ other ∈ rest, other.Over a'.catalog := fun other member =>
      catalog ▸ registered other (List.mem_cons_of_mem _ member)
    obtain ⟨answers, after, other, ran, again, ended⟩ :=
      ih similar' later (roomy_of_cons roomy here) (roomy_of_cons roomyOther there)
    refine ⟨x :: answers, after, other, ?_, ?_, ended⟩
    · rw [Call.performAll_cons here, ran]
    · rw [Call.performAll_cons there, again]

/-- Similar databases cannot be told apart by what they show, hold and changed. -/
theorem Similar.resembles (similar : Similar kind a b) : a.Resembles b where
  shown := similar.standing.shown
  locks := similar.locks_eq
  changedBy := similar.changedBy_eq
  unwritten id := by
    -- Pages with changes match, and of what matches the same is seen.
    have both := similar.standing.unwritten id
    have sound : ∀ page, a.standing.unwritten id = some page → page.Sound := fun page unwritten =>
      (similar.left.cached id page (unwritten_eq_some.1 unwritten).1).sound
    generalize a.standing.unwritten id = here at both sound ⊢
    generalize b.standing.unwritten id = there at both ⊢
    cases both with
    | none => rfl
    | some pages => exact congrArg some (sight_eq pages (sound _ rfl))

/-- Nothing is in memory yet, so all that counts is the same whatever fits there. -/
theorem Fresh.similar (fresh : Fresh kind.allows db)
    (reads : ∀ number, (db.standing.shown number).readsFail = false) {capacity : Nat} (positive : 0 < capacity) :
    Similar kind db (db.withCapacity capacity) := by
  have nowhere : ∀ id, db.pool.page? id = none := fun id => by rw [fresh.pool]; rfl
  have settings : { db.settings with capacity }.check = .ok () :=
    Settings.check_withCapacity fresh.orderly.settings positive
  exact {
    left := ⟨fresh.orderly, reads, fun id page resident => by rw [nowhere] at resident; cases resident⟩
    right := ⟨{ fresh.orderly with settings }, reads, fun id page resident => by
      rw [show (db.withCapacity capacity).pool.page? id = none from nowhere id] at resident
      cases resident⟩
    standing := ⟨rfl, rfl, rfl, rfl, rfl, fun id => by
      simp only [standing, withCapacity, nowhere, Option.filter_none]
      exact .none⟩ }

/--
The cache is transparent.

If the cells of each stored page have room side by side and no store fails to be read, nobody can tell from
any answer how many pages fit in memory, as long as pages can be dropped for others.
-/
theorem cache_transparent (fresh : Fresh ImageKind.readable.allows db)
    (reads : ∀ number, (db.standing.shown number).readsFail = false) : db.CacheTransparent := by
  intro capacity calls positive registered roomy roomyOther
  have similar : Similar .readable db (db.withCapacity capacity) := fresh.similar reads positive
  obtain ⟨answers, after, other, ran, again, ended⟩ := similar.performAll registered roomy roomyOther
  exact ⟨answers, after, other, ran, again, ended.resembles⟩

/-- Two records go to a page each, and the first page is read again after the second one was given. -/
def evicting : List Call :=
  [.insert ⟨1⟩ 1 ⟨none, [.blob (Bytes.zeros 30)]⟩, .finish ⟨1⟩ .commit,
    .insert ⟨1⟩ 1 ⟨none, [.blob (Bytes.zeros 40)]⟩, .finish ⟨1⟩ .commit, .get ⟨2⟩ ⟨1, 0⟩ .reading,
    .get ⟨2⟩ ⟨1, 1⟩ .reading, .get ⟨2⟩ ⟨1, 0⟩ .reading, .scan (.start ⟨1, .memory 0⟩ ⟨3⟩) 5]

/-- With room for one page the pages take turns in memory, and with room for two they stay there. -/
theorem cache_transparent_evicting : (Fresh ImageKind.readable.allows (overImages ⟨64, 1, .ofMilliseconds 1⟩ [])
      ∧ ∀ number, ((overImages ⟨64, 1, .ofMilliseconds 1⟩ []).standing.shown number).readsFail = false)
    ∧ ∃ answers after other,
      Call.performAll evicting (overImages ⟨64, 1, .ofMilliseconds 1⟩ []) = .ok answers after
        ∧ Call.performAll evicting ((overImages ⟨64, 1, .ofMilliseconds 1⟩ []).withCapacity 2) = .ok answers other
        ∧ after.Resembles other := by
  have fresh : Fresh ImageKind.readable.allows (overImages ⟨64, 1, .ofMilliseconds 1⟩ []) :=
    overImages_fresh (by decide) (by simp)
  have reads : ∀ number, ((overImages ⟨64, 1, .ofMilliseconds 1⟩ []).standing.shown number).readsFail = false := by
    intro number
    rw [overImages_shown]
    split <;> rfl
  exact ⟨⟨fresh, reads⟩, cache_transparent fresh reads 2 evicting (by decide)
    (by simp [evicting, Call.Over, overImages_heap?, Scan.start]) (by decide +kernel) (by decide +kernel)⟩

/-- A deletion that is served as a command is answered as a call. -/
theorem attempt_delete {after : Database} {transaction : TransactionId} {record : Record}
    (served : db.serve (.delete transaction record) = .ok (.ok .done, after)) :
    attempt (Call.delete transaction record).perform db = .ok (.ok .done) after := by
  unfold serve run Command.perform at served
  unfold attempt Call.perform
  simp only [bind, EStateM.bind] at served ⊢
  cases deleted : Database.delete transaction record db with
  | ok _ last =>
    simp only [deleted] at served ⊢
    cases served
    rfl
  | error fault last =>
    simp only [deleted] at served
    cases fault <;> cases served

/-- The crowded page is locked and packed in memory, where there is room for so many pages. -/
def crowdedEditedIn (capacity : Nat) : Database :=
  let given := (crowded.withCapacity capacity).after (Command.acquire ⟨1⟩ ⟨1, 0⟩ .writing).perform
  { given with pool := given.pool.edit ⟨⟨1, 0⟩, 0⟩ fun _ => crowdedPacked }

/-- The last cell of the crowded page is deleted, where there is room for so many pages. -/
def crowdedDeletedIn (capacity : Nat) : Database :=
  (crowdedEditedIn capacity).after (do adoptAll ⟨1⟩ [⟨⟨1, 0⟩, 0⟩]; return .done)

/-- The last cell of the crowded page can be deleted, if there is room for the page. -/
theorem attempt_crowded_delete {capacity : Nat}
    (given : (crowded.withCapacity capacity).answer? (Command.acquire ⟨1⟩ ⟨1, 0⟩ .writing).perform
      = some (.ok (.copy ⟨⟨1, 0⟩, 0⟩)))
    (seen : ((crowded.withCapacity capacity).after (Command.acquire ⟨1⟩ ⟨1, 0⟩ .writing).perform).copy?
      ⟨⟨1, 0⟩, 0⟩ = some crowdedPage)
    (adopted : (crowdedEditedIn capacity).answer? (do adoptAll ⟨1⟩ [⟨⟨1, 0⟩, 0⟩]; return .done)
      = some (.ok .done)) :
    attempt (Call.delete ⟨1⟩ ⟨some ⟨⟨1, 0⟩, 4⟩, []⟩).perform (crowded.withCapacity capacity)
      = .ok (.ok .done) (crowdedDeletedIn capacity) := by
  have placed : Record.place ⟨some ⟨⟨1, 0⟩, 4⟩, []⟩ = some ⟨⟨1, 0⟩, 4⟩ := rfl
  have found : (crowded.withCapacity capacity).catalog.find 1 = .ok (.heap ⟨1, .memory 0⟩) := rfl
  exact attempt_delete
    ((serve_delete placed found rfl (run_eq given) seen (eraseRecord_crowded ⟨1, 0⟩)).trans (run_eq adopted))

/-- The deletion is committed, another page is looked at, and then the page itself. -/
def evictingCrowded : List Call :=
  [.finish ⟨1⟩ .commit, .get ⟨3⟩ ⟨1, 1⟩ .reading, .get ⟨2⟩ ⟨1, 0⟩ .reading]

/-- How many slots the page has that is shown last. -/
def lastSlots : EStateM.Result Fault Database (List (Except Failure Answer)) → Option Nat
  | .ok answers _ =>
    match answers.getLast? with
    | some (.ok (.page sight)) => some sight.slots.length
    | _ => none
  | .error _ _ => none

set_option maxRecDepth 20000 in
/--
Over cells that have no room side by side the cache is not transparent.

With room for two pages the packed page stays in memory with four slots. With room for one it is read from
its image, which shows one slot.
-/
theorem crowded_not_transparent : Fresh (fun _ => True) crowded
    ∧ (∀ number, (crowded.standing.shown number).readsFail = false) ∧ ¬ crowded.CacheTransparent := by
  refine ⟨overImages_fresh (by decide) (by decide), fun number => ?_, fun transparent => ?_⟩
  · rw [crowded, overImages_shown]
    split <;> rfl
  have deleted : attempt (Call.delete ⟨1⟩ ⟨some ⟨⟨1, 0⟩, 4⟩, []⟩).perform crowded
      = .ok (.ok .done) (crowdedDeletedIn 1) :=
    attempt_crowded_delete (by decide +kernel) (by decide +kernel) (by decide +kernel)
  have deletedToo : attempt (Call.delete ⟨1⟩ ⟨some ⟨⟨1, 0⟩, 4⟩, []⟩).perform (crowded.withCapacity 2)
      = .ok (.ok .done) (crowdedDeletedIn 2) :=
    attempt_crowded_delete (by decide +kernel) (by decide +kernel) (by decide +kernel)
  have roomy {db after : Database}
      (first : attempt (Call.delete ⟨1⟩ ⟨some ⟨⟨1, 0⟩, 4⟩, []⟩).perform db = .ok (.ok .done) after)
      (rest : after.roomy evictingCrowded = true) :
      db.roomy (.delete ⟨1⟩ ⟨some ⟨⟨1, 0⟩, 4⟩, []⟩ :: evictingCrowded) = true := by
    unfold Database.roomy
    rw [first]
    exact rest
  -- If the room did not count, the page that is shown last would have as many slots in both.
  obtain ⟨answers, after, other, ran, again, _⟩ := transparent 2 _ (by decide)
    (by simp [evictingCrowded, Call.Over]) (roomy deleted (by decide +kernel))
    (roomy deletedToo (by decide +kernel))
  -- With room for one page, the other page drives the packed one out, and its image is read.
  have one : lastSlots (.ok answers after) = some 1 := by
    rw [← ran, Call.performAll_cons deleted]
    decide +kernel
  have four : lastSlots (.ok answers other) = some 4 := by
    rw [← again, Call.performAll_cons deletedToo]
    decide +kernel
  cases one.symm.trans four

end Database

end HeapEngine

import HeapEngine.Proofs.Locks.Compatible

/-!
Nobody sleeps while its lock could be granted.

A request that is refused sleeps until somebody wakes it up, and sleepers are woken up only by a release that
has released something. That is enough, since granting a lock opens no page to a request that was refused.
-/

namespace HeapEngine

namespace Locks

variable {locks granted before after : Locks} {page : PageId} {asker holder : TransactionId} {mode : LockMode}

/-- Who is in the way stays there while locks are only gained. -/
theorem Advances.blocks (advances : Advances asker before after)
    (blocked : before.blocks page holder mode = true) : after.blocks page holder mode = true := by
  -- The one in the way may be the one who gains, by an upgrade as well, and keeps what it blocks with.
  by_cases self : holder = asker
  · subst self
    cases mode with
    | shared => exact advances.writes page blocked
    | exclusive => exact advances.holds page blocked
  · cases mode with
    | shared => exact (advances.writers page holder self).trans blocked
    | exclusive => exact (advances.holds_other self page).trans blocked

/-- Granting a lock makes room for nobody. -/
theorem Compatible.of_advances (advances : Advances asker before after) {other : TransactionId}
    (compatible : after.Compatible page other mode) : before.Compatible page other mode := by
  intro holder apart
  refine Bool.eq_false_iff.2 fun blocked => ?_
  exact Bool.false_ne_true ((compatible holder apart).symm.trans (advances.blocks blocked))

end Locks

/-- Whether an event only asks for a lock. -/
def LockEvent.asks : LockEvent → Bool
  | .start _ | .wake _ | .expire _ => true
  | .release _ _ | .releaseAll _ => false

/-- Whether an event is a release that says it has released something. -/
def LockEvent.frees (locks : Locks) : LockEvent → Bool
  | .start _ | .wake _ | .expire _ => false
  | .release page holder => (locks.release page holder).1
  | .releaseAll holder => !(locks.releaseAll holder).1.isEmpty

/-- The locks, and the requests that wait for one: they sleep until they are woken up to ask again. -/
structure LockRoom where
  locks : Locks
  asleep : List LockRequest
  /-- Those that were woken up and have not asked yet. -/
  awake : List LockRequest

namespace LockRoom

/-- No page is locked, and nobody waits. -/
def empty : LockRoom := ⟨.empty, [], []⟩

/-- Wakes up all that sleep. -/
def wakeAll (room : LockRoom) : LockRoom :=
  { room with asleep := [], awake := room.awake ++ room.asleep }

/-- What there is after an event. -/
def after (room : LockRoom) : LockEvent → LockRoom
  | .start request =>
    match request.ask room.locks with
    | some locks => { room with locks }
    | none => { room with asleep := request :: room.asleep }
  | .wake request =>
    if request ∈ room.awake then
      match request.ask room.locks with
      | some locks => { room with locks, awake := room.awake.erase request }
      -- Who asks in vain sleeps again.
      | none => { room with asleep := request :: room.asleep, awake := room.awake.erase request }
    else room
  | .expire request =>
    -- The time of a request runs out in its sleep; granted or not, it waits no more.
    if request ∈ room.asleep then
      { room with
        locks := (request.ask room.locks).getD room.locks
        asleep := room.asleep.erase request }
    else room
  | .release page holder =>
    let (held, locks) := room.locks.release page holder
    -- A release that found nothing to release wakes nobody.
    if held then { room with locks }.wakeAll else { room with locks }
  | .releaseAll holder =>
    let (pages, locks) := room.locks.releaseAll holder
    if pages.isEmpty then { room with locks } else { room with locks }.wakeAll

/-- What there is after some events, one after the other. -/
def afterAll (room : LockRoom) (events : List LockEvent) : LockRoom :=
  events.foldl after room

variable {room : LockRoom}

/-- The locks after a release do not depend on who is woken up. -/
theorem locks_after_release (room : LockRoom) (page : PageId) (holder : TransactionId) :
    (room.after (.release page holder)).locks = (room.locks.release page holder).2 := by
  simp only [after]
  split <;> rfl

/-- The locks after a release do not depend on who is woken up. -/
theorem locks_after_releaseAll (room : LockRoom) (holder : TransactionId) :
    (room.after (.releaseAll holder)).locks = (room.locks.releaseAll holder).2 := by
  simp only [after]
  split <;> rfl

/-- Asking for a lock leaves the locks as they are, or grants one request. -/
theorem locks_after_asks {event : LockEvent} (asks : event.asks = true) :
    (room.after event).locks = room.locks
      ∨ ∃ request : LockRequest, request.ask room.locks = some (room.after event).locks := by
  cases event with
  | start request =>
    cases asked : request.ask room.locks with
    | none => exact .inl (by simp [after, asked])
    | some locks => exact .inr ⟨request, by simp [after, asked]⟩
  | wake request =>
    by_cases waits : request ∈ room.awake
    · cases asked : request.ask room.locks with
      | none => exact .inl (by simp [after, waits, asked])
      | some locks => exact .inr ⟨request, by simp [after, waits, asked]⟩
    · exact .inl (by simp [after, waits])
  | expire request =>
    by_cases waits : request ∈ room.asleep
    · cases asked : request.ask room.locks with
      | none => exact .inl (by simp [after, waits, asked])
      | some locks => exact .inr ⟨request, by simp [after, waits, asked]⟩
    · exact .inl (by simp [after, waits])
  | release page holder => cases asks
  | releaseAll holder => cases asks

/-- No event gives a writer company, and none lists a page without readers. -/
theorem locks_sound_after (exclusive : room.locks.Exclusive) (listed : room.locks.Listed) (event : LockEvent) :
    (room.after event).locks.Exclusive ∧ (room.after event).locks.Listed := by
  by_cases asks : event.asks = true
  · rcases locks_after_asks asks with idle | ⟨request, asked⟩
    · rw [idle]
      exact ⟨exclusive, listed⟩
    · exact ⟨exclusive.grant? asked, listed.grant? asked⟩
  · cases event with
    | start _ | wake _ | expire _ => exact absurd rfl asks
    | release page holder =>
      rw [locks_after_release]
      exact ⟨exclusive.release page holder, listed.release page holder⟩
    | releaseAll holder =>
      rw [locks_after_releaseAll]
      exact ⟨exclusive.releaseAll holder, listed.releaseAll holder⟩

variable {request : LockRequest}

/-- Who was refused is refused again after a lock was granted, to itself or to another. -/
theorem ask_granted (exclusive : room.locks.Exclusive) (listed : room.locks.Listed)
    (blocked : request.ask room.locks = none) {other : LockRequest} {locks : Locks}
    (asked : other.ask room.locks = some locks) : request.ask locks = none := by
  refine Option.eq_none_iff_forall_ne_some.2 fun next given => ?_
  -- What could be granted afterwards could have been granted before, since nobody left.
  have compatible := (Locks.exists_grant?_iff (exclusive.grant? asked) (listed.grant? asked) _ _ _).1 ⟨next, given⟩
  have before := compatible.of_advances (Locks.grant?_advances exclusive asked)
  obtain ⟨earlier, granted⟩ := (Locks.exists_grant?_iff exclusive listed _ _ _).2 before
  rw [LockRequest.ask, granted] at blocked
  cases blocked

/-- A release that frees nothing leaves everything as it is. -/
theorem after_of_not_frees (listed : room.locks.Listed) {event : LockEvent} (asks : event.asks = false)
    (still : event.frees room.locks = false) : room.after event = room := by
  cases event with
  | start _ | wake _ | expire _ => cases asks
  | release page holder =>
    have unheld : (room.locks.release page holder).1 = false := still
    have same : (room.locks.release page holder).2 = room.locks := Locks.release_of_not_holds listed unheld
    simp only [after, unheld, Bool.false_eq_true, if_false, same]
  | releaseAll holder =>
    have none : (room.locks.releaseAll holder).1 = [] := by simpa [LockEvent.frees] using still
    -- Without any page there is nothing to release one after the other.
    have same : (room.locks.releaseAll holder).2 = room.locks := by
      have pages : room.locks.pagesOf holder = [] := none
      simp only [Locks.releaseAll, pages, List.foldl_nil]
    simp only [after, none, List.isEmpty_nil, if_true, same]

/-- Only a release that frees something lets a request through that was refused before. -/
theorem ask_after (exclusive : room.locks.Exclusive) (listed : room.locks.Listed)
    (blocked : request.ask room.locks = none) {event : LockEvent} (still : event.frees room.locks = false) :
    request.ask (room.after event).locks = none := by
  by_cases asks : event.asks = true
  · rcases locks_after_asks asks with idle | ⟨other, asked⟩
    · rw [idle]
      exact blocked
    · exact ask_granted exclusive listed blocked asked
  · rw [after_of_not_frees listed (Bool.eq_false_iff.2 asks) still]
    exact blocked

/-- A release that frees something wakes up all that sleep. -/
theorem after_of_frees {event : LockEvent} (frees : event.frees room.locks = true) :
    (room.after event).asleep = [] ∧ (room.after event).awake = room.awake ++ room.asleep := by
  cases event with
  | start _ | wake _ | expire _ => cases frees
  | release page holder =>
    have held : (room.locks.release page holder).1 = true := frees
    simp only [after, held, if_true]
    exact ⟨rfl, rfl⟩
  | releaseAll holder =>
    have some : (room.locks.releaseAll holder).1.isEmpty = false := by simpa [LockEvent.frees] using frees
    simp only [after, some, Bool.false_eq_true, if_false]
    exact ⟨rfl, rfl⟩

/-- Nobody is woken up but by a release that frees something. -/
theorem awake_after (listed : room.locks.Listed) {event : LockEvent} (still : event.frees room.locks = false) :
    (room.after event).awake.Sublist room.awake := by
  by_cases asks : event.asks = true
  · cases event with
    | start request => simp only [after]; split <;> exact List.Sublist.refl _
    | wake request =>
      simp only [after]
      -- Who is awake and asks is not awake any more.
      split
      · split <;> exact List.erase_sublist
      · exact List.Sublist.refl _
    | expire request => simp only [after]; split <;> exact List.Sublist.refl _
    | release _ _ | releaseAll _ => cases asks
  · have same := after_of_not_frees listed (Bool.eq_false_iff.2 asks) still
    exact congrArg LockRoom.awake same ▸ List.Sublist.refl _

/-- Who sleeps after an event slept before, or has just been refused. -/
theorem asleep_after {event : LockEvent} (sleeps : request ∈ (room.after event).asleep) :
    request ∈ room.asleep ∨ request.ask room.locks = none := by
  cases event with
  | start other =>
    cases asked : other.ask room.locks with
    | some locks => exact .inl (by simpa [after, asked] using sleeps)
    | none =>
      rcases List.mem_cons.1 (by simpa [after, asked] using sleeps) with rfl | before
      · exact .inr asked
      · exact .inl before
  | wake other =>
    by_cases waits : other ∈ room.awake
    · cases asked : other.ask room.locks with
      | some locks => exact .inl (by simpa [after, waits, asked] using sleeps)
      | none =>
        rcases List.mem_cons.1 (by simpa [after, waits, asked] using sleeps) with rfl | before
        · exact .inr asked
        · exact .inl before
    · exact .inl (by simpa [after, waits] using sleeps)
  | expire other =>
    by_cases waits : other ∈ room.asleep
    · exact .inl (List.mem_of_mem_erase (by simpa [after, waits] using sleeps))
    · exact .inl (by simpa [after, waits] using sleeps)
  | release page holder =>
    simp only [after] at sleeps
    split at sleeps
    · cases sleeps
    · exact .inl sleeps
  | releaseAll holder =>
    simp only [after] at sleeps
    split at sleeps
    · exact .inl sleeps
    · cases sleeps

/-- A room in which the locks are in order and every sleeper would be refused if it asked. -/
structure Sound (room : LockRoom) : Prop where
  exclusive : room.locks.Exclusive
  listed : room.locks.Listed
  asleep : ∀ sleeper ∈ room.asleep, sleeper.ask room.locks = none

theorem sound_empty : empty.Sound where
  exclusive := Locks.exclusive_empty
  listed := Locks.listed_empty
  asleep sleeper sleeps := by cases sleeps

namespace Sound

/-- An event lets no sleeper through, or it leaves nobody asleep. -/
theorem after (sound : room.Sound) (event : LockEvent) : (room.after event).Sound := by
  obtain ⟨exclusive, listed⟩ := locks_sound_after sound.exclusive sound.listed event
  refine ⟨exclusive, listed, fun sleeper sleeps => ?_⟩
  by_cases frees : event.frees room.locks = true
  · rw [(after_of_frees frees).1] at sleeps
    cases sleeps
  · have blocked : sleeper.ask room.locks = none := (asleep_after sleeps).elim (sound.asleep sleeper) id
    exact ask_after sound.exclusive sound.listed blocked (Bool.eq_false_iff.2 frees)

/-- What every event keeps is kept by all of them. -/
theorem afterAll (sound : room.Sound) (events : List LockEvent) : (room.afterAll events).Sound := by
  induction events generalizing room with
  | nil => exact sound
  | cons event rest ih => exact ih (sound.after event)

/-- However often locks are asked for, who was refused is refused again. -/
theorem ask_afterAll (sound : room.Sound) (blocked : request.ask room.locks = none) (asking : List LockEvent)
    (asks : ∀ event ∈ asking, event.asks = true) : request.ask (room.afterAll asking).locks = none := by
  -- The rooms that the events before have left vary.
  induction asking generalizing room with
  | nil => exact blocked
  | cons event rest ih =>
    have first : event.asks = true := asks event List.mem_cons_self
    have still : event.frees room.locks = false := by cases event <;> first | rfl | cases first
    apply ih (sound.after event)
    · exact ask_after sound.exclusive sound.listed blocked still
    · exact fun later member => asks later (List.mem_cons_of_mem event member)

end Sound

/--
No wake-up is lost.

Whatever was asked for, granted, refused and released before, take a request that cannot be granted now. It
cannot be granted after any number of requests either, of whatever transactions, whether these are granted,
refused or given up. Only a release of a page that says that it was held, or a release of everything that
names a page, can make it possible. Exactly these wake up sleepers: such a release wakes up all of them, and no
other event wakes up any. So whoever sleeps would be refused if it asked.
-/
theorem no_lost_wakeup (events : List LockEvent) (request : LockRequest)
    (blocked : request.ask (empty.afterAll events).locks = none) :
    let room := empty.afterAll events
    (∀ asking : List LockEvent, (∀ event ∈ asking, event.asks = true) →
        request.ask (room.afterAll asking).locks = none)
      ∧ (∀ event, request.ask (room.after event).locks ≠ none →
        (∃ page holder, event = .release page holder ∧ (room.locks.release page holder).1 = true)
          ∨ ∃ holder, event = .releaseAll holder ∧ (room.locks.releaseAll holder).1 ≠ [])
      ∧ (∀ event, event.frees room.locks = true →
        (room.after event).asleep = [] ∧ (room.after event).awake = room.awake ++ room.asleep)
      ∧ (∀ event, event.frees room.locks = false → (room.after event).awake.Sublist room.awake)
      ∧ ∀ sleeper ∈ room.asleep, sleeper.ask room.locks = none := by
  intro room
  have sound : room.Sound := sound_empty.afterAll events
  refine ⟨sound.ask_afterAll blocked, fun event granted => ?_, fun event => after_of_frees,
    fun event => awake_after sound.listed, sound.asleep⟩
  have frees : event.frees room.locks = true :=
    Bool.of_not_eq_false fun still => granted (ask_after sound.exclusive sound.listed blocked still)
  cases event with
  | start _ | wake _ | expire _ => cases frees
  | release page holder => exact .inl ⟨page, holder, rfl, frees⟩
  | releaseAll holder => exact .inr ⟨holder, rfl, by simpa [LockEvent.frees] using frees⟩

/-- Two readers keep each other from writing, however often a third one asks, until one of them leaves. -/
theorem upgrade_waits_for_release :
    let readers : List LockEvent := [.start ⟨⟨1⟩, ⟨1, 0⟩, .shared⟩, .start ⟨⟨2⟩, ⟨1, 0⟩, .shared⟩,
      .start ⟨⟨1⟩, ⟨1, 0⟩, .exclusive⟩]
    let writer : LockRequest := ⟨⟨1⟩, ⟨1, 0⟩, .exclusive⟩
    writer.ask (empty.afterAll readers).locks = none
      ∧ writer.ask ((empty.afterAll readers).afterAll [.start ⟨⟨3⟩, ⟨1, 0⟩, .shared⟩]).locks = none
      ∧ ((empty.afterAll readers).after (.release ⟨1, 0⟩ ⟨2⟩)).awake = [writer] := by
  intro readers writer
  have blocked : writer.ask (empty.afterAll readers).locks = none := by decide
  obtain ⟨asking, _, woken, _⟩ := no_lost_wakeup readers writer blocked
  refine ⟨blocked, asking [.start ⟨⟨3⟩, ⟨1, 0⟩, .shared⟩] (by decide), ?_⟩
  exact (woken (.release ⟨1, 0⟩ ⟨2⟩) (by decide)).2.trans (by decide)

end LockRoom

end HeapEngine

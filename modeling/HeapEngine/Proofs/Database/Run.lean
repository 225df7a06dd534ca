import HeapEngine.Proofs.Database.Commit
import HeapEngine.Proofs.Database.Scan
import HeapEngine.Proofs.Database.Tables
import HeapEngine.Proofs.Database.Waiting

/-!
Runs of a database: whatever transactions ask for, in any order and with any failures.

What one command can do is said once, and every command leaves a consistent database behind.
-/

namespace HeapEngine

/-- What may be asked of a database. -/
inductive Command where
  /-- Gives a page to a transaction. -/
  | acquire (transaction : TransactionId) (page : PageId) (access : Access)
  | insert (transaction : TransactionId) (table : Nat) (record : Record)
  | delete (transaction : TransactionId) (record : Record)
  /-- Goes on with a scan over so many records at most. -/
  | scan (cursor : Scan) (count : Nat)
  | finish (transaction : TransactionId) (ending : Database.Ending)
  /-- Writes one page. -/
  | writeBack (page : PageId)
  /-- Writes what a transaction changed. -/
  | writeBackOf (transaction : TransactionId)
  /-- Writes everything. -/
  | checkpoint
  /-- Begins a request that waits for its lock. -/
  | start (request : PageRequest)
  /-- Goes on with a request that waits for its lock. -/
  | ask (request : PageRequest)
  | releaseEarly (transaction : TransactionId) (page : PageId)
  | discard (page : PageId)
  /-- Lets reading or writing a store in memory fail from now on, or not. -/
  | setFailing (store : Nat) (reads writes : Bool)
  /-- Registers a heap over a store. -/
  | addHeap (name : String) (store : StoreId)

/-- Two outcomes are equal if they are of one kind and carry the same. -/
instance decideOutcome {ε α : Type} [DecidableEq ε] [DecidableEq α] : DecidableEq (Except ε α)
  | .ok first, .ok second => decidable_of_iff (first = second) ⟨congrArg _, Except.ok.inj⟩
  | .error first, .error second => decidable_of_iff (first = second) ⟨congrArg _, Except.error.inj⟩
  | .ok _, .error _ => isFalse nofun
  | .error _, .ok _ => isFalse nofun

deriving instance DecidableEq for Scan.Item

/-- What a command answers when it succeeds. -/
inductive Reply where
  | done
  | copy (copy : CopyId)
  /-- The record with its place. -/
  | stored (record : Record)
  | items (items : List Scan.Item) (scan : Scan)
  /-- The copy, once the lock is granted. -/
  | answer (answer : Option (Except Failure CopyId))
  | table (heap : Heap)
deriving DecidableEq

namespace Command

open Database

/-- Does what a command asks for. -/
def perform : Command → Op Database Reply
  | acquire transaction page access => do return .copy (← Database.acquire transaction page access)
  | insert transaction table record => do
    match ← Database.insert transaction table record with
    | (.ok (), stored) => return .stored stored
    | (.error failure, _) => fail failure
  | delete transaction record => do
    Database.delete transaction record
    return .done
  | scan cursor count => do
    let (items, later) ← cursor.take count
    return .items items later
  | finish transaction ending => do
    Database.finish transaction ending
    return .done
  | writeBack page => do
    let _ ← Database.writeBack page
    return .done
  | writeBackOf transaction => do
    Database.writeBackOf transaction
    return .done
  | checkpoint => do
    Database.checkpoint
    return .done
  | start request => do return .answer (← request.start)
  | ask request => do return .answer (← request.ask)
  | releaseEarly transaction page => do
    Database.releaseEarly transaction page
    return .done
  | discard page => do
    let _ ← Database.discard page
    return .done
  | setFailing store reads writes => do
    onStorage (Storage.onArray store (modify (PageArray.setFailing reads writes)))
    return .done
  | addHeap name store => do return .table (← Database.addHeap name store)

/-- The transaction that asks, if it is one. -/
def asker? : Command → Option TransactionId
  | acquire transaction _ _ => some transaction
  | insert transaction _ _ => some transaction
  | delete transaction _ => some transaction
  | scan cursor _ => some cursor.transaction
  | finish transaction _ => some transaction
  | writeBackOf transaction => some transaction
  | start request => some request.transaction
  | ask request => some request.transaction
  | releaseEarly transaction _ => some transaction
  | _ => none

/--
What callers keep to.

A scan is over a registered heap, no page is released early by the one who changed it, and a heap is
registered under a new name over a store of its own.
-/
def Allowed (allows : Bytes → Prop) (db : Database) : Command → Prop
  | scan cursor _ => db.catalog.heap? cursor.heap.table = some cursor.heap
  | releaseEarly transaction page => ∀ changed, db.standing.unwritten page = some changed →
    changed.changedBy ≠ some transaction
  | addHeap name store => db.catalog.numbers.find? name = none
    ∧ db.catalog.heap? db.catalog.nextNumber = none
    ∧ (∀ number heap, db.catalog.heap? number = some heap → store.Apart heap.store)
    ∧ ∀ image ∈ (db.storage.view store).images,
      image.length = db.settings.pageSize ∧ allows image
  | _ => True

end Command

namespace Database

/-- What a command can do to a database, and what it answers then. -/
def Effect (kind : ImageKind) (before : Database) (result : Except Failure Reply) (after : Database) :
    Command → Prop
  | .acquire transaction page access => Gains kind transaction before after
    ∧ ∀ copy, result = .ok (.copy copy) → after.Given transaction page access copy
  | .insert transaction table record =>
    match result with
    | .ok reply => ∃ place, reply = .stored { record with place := some place }
      ∧ place.page.table = table ∧ Stores kind transaction record before place after
    | .error _ => Extends kind transaction table before after
  | .delete transaction record =>
    match result with
    | .ok _ => ∃ place, record.place = some place ∧ Removes kind transaction record before place after
    | .error _ => Gains kind transaction before after
  | .scan cursor _ => Gains kind cursor.transaction before after
    ∧ ∃ items later, result = .ok (.items items later)
      ∧ (cursor.ended = false → Scan.Completes before.standing cursor items after.locks)
  | .finish transaction .commit =>
    match result with
    | .ok _ => ∃ middle, Flushes kind (before.pool.changedBy transaction) before middle
      ∧ after.Consistent kind
      ∧ after.standing = middle.standing.withLocks (before.locks.releaseAll transaction).2
    | .error _ => ∃ done, (∀ id ∈ done, id ∈ before.pool.changedBy transaction)
      ∧ Flushes kind done before after ∧ ∃ number, (before.standing.shown number).writesFail = true
  | .finish transaction .abort => after.Consistent kind
    ∧ after.standing = (before.standing.reverted (before.pool.changedBy transaction)).withLocks
      (before.locks.releaseAll transaction).2
  | .writeBack _ | .writeBackOf _ | .checkpoint => ∃ done, Flushes kind done before after
  | .start request | .ask request => Gains kind request.transaction before after
    ∧ ∀ copy, result = .ok (.answer (some (.ok copy))) →
      after.Given request.transaction request.page request.access copy
  | .releaseEarly transaction page => after.Consistent kind
    ∧ after.standing = before.standing.withLocks (before.locks.release page transaction).2
  | .discard page => after.Consistent kind ∧ after.standing = before.standing.withUnwritten page none
  | .setFailing _ _ _ | .addHeap _ _ => Rearranges kind before after

/-- Every command leaves a consistent database behind. -/
theorem Effect.consistent {kind : ImageKind} {before after : Database} {result : Except Failure Reply}
    {command : Command} (effect : Effect kind before result after command) :
    after.Consistent kind := by
  cases command with
  | acquire transaction page access => exact effect.1.consistent
  | insert transaction table record =>
    cases result with
    | ok reply =>
      obtain ⟨_, _, _, _, _, _, _, _, changes, _⟩ := effect
      exact changes.consistent
    | error failure => exact Extends.consistent effect
  | delete transaction record =>
    cases result with
    | ok reply =>
      obtain ⟨_, _, _, _, _, changes, _⟩ := effect
      exact changes.consistent
    | error failure => exact Gains.consistent effect
  | scan cursor count => exact effect.1.consistent
  | finish transaction ending =>
    cases ending with
    | commit =>
      cases result with
      | ok reply =>
        obtain ⟨_, _, consistent, _⟩ := effect
        exact consistent
      | error failure =>
        obtain ⟨_, _, flushes, _⟩ := effect
        exact flushes.consistent
    | abort => exact effect.1
  | writeBack page =>
    obtain ⟨_, flushes⟩ := effect
    exact flushes.consistent
  | writeBackOf transaction =>
    obtain ⟨_, flushes⟩ := effect
    exact flushes.consistent
  | checkpoint =>
    obtain ⟨_, flushes⟩ := effect
    exact flushes.consistent
  | start request => exact effect.1.consistent
  | ask request => exact effect.1.consistent
  | releaseEarly transaction page => exact effect.1
  | discard page => exact effect.1
  | setFailing store reads writes => exact Rearranges.consistent effect
  | addHeap name store => exact Rearranges.consistent effect

variable {kind : ImageKind} {db : Database}

/-- An operation whose result nobody looks at has the effect of the command that asks for it. -/
theorem ensures_done {α : Type} {action : Op Database α}
    {effect : Except Failure Reply → Database → Prop}
    (ensures : Op.Ensures action db fun result after => effect (result.map fun _ => .done) after) :
    Op.Ensures (do let _ ← action; return .done) db effect :=
  ensures.bind (fun _ _ ended => ended) fun _ _ ended => .pure ended

/-- A command from a consistent database ends without a trap, and does only what it can do. -/
theorem ensures_perform (consistent : db.Consistent kind) {command : Command}
    (allowed : command.Allowed kind.allows db) :
    Op.Ensures command.perform db fun result after => Effect kind db result after command := by
  -- Each command is one operation, so each case is its specification with the answer named.
  cases command with
  | acquire transaction page access =>
    refine (ensures_acquire consistent transaction page access).bind ?_ ?_
    · intro failure after ended
      exact ⟨ended.1, by simp⟩
    · intro copy after ended
      refine .pure ⟨ended.1, fun other told => ?_⟩
      cases told
      exact ended.2 copy rfl
  | insert transaction table record =>
    refine (ensures_insert consistent transaction table record).bind ?_ ?_
    · intro failure after ended
      -- An insertion always answers; a failure is part of its answer.
      obtain ⟨_, _, told, _⟩ := ended
      cases told
    · intro value after ended
      obtain ⟨answer, stored, told, outcome⟩ := ended
      cases told
      cases answer with
      | ok _ =>
        obtain ⟨place, rfl, there, stores⟩ := outcome
        exact .pure ⟨place, rfl, there, stores⟩
      | error failure => exact .fail outcome.2
  | delete transaction record =>
    refine ensures_done ((ensures_delete consistent transaction record).mono ?_)
    intro result after ended
    cases result <;> exact ended
  | scan cursor count =>
    refine (Scan.ensures_take consistent cursor count allowed).bind ?_ ?_
    · intro failure after ended
      obtain ⟨_, _, told, _⟩ := ended
      cases told
    · intro value after ended
      obtain ⟨items, later, told, gains, completes⟩ := ended
      cases told
      exact .pure ⟨gains, items, later, rfl, completes⟩
  | finish transaction ending =>
    cases ending with
    | commit =>
      refine ensures_done ((ensures_finish_commit consistent transaction).mono ?_)
      intro result after ended
      cases result <;> exact ended
    | abort => exact ensures_done (ensures_finish_abort consistent transaction)
  | writeBack page =>
    refine ensures_done ((ensures_writeBack consistent page).mono ?_)
    intro result after ended
    cases result with
    | ok _ => exact ⟨[page], ended⟩
    | error failure => exact ⟨[], .of_stays ended.1 (by simp)⟩
  | writeBackOf transaction =>
    refine ensures_done (.get_bind ((ensures_writeBackEach consistent _).mono ?_))
    intro result after ended
    obtain ⟨done, _, flushes, _⟩ := ended
    exact ⟨done, flushes⟩
  | checkpoint => exact ensures_done (ensures_checkpoint consistent)
  | start request =>
    refine (PageRequest.ensures_start consistent request).bind ?_ ?_
    · intro failure after ended
      obtain ⟨_, told, _⟩ := ended
      cases told
    · intro value after ended
      obtain ⟨answer, told, gains, current⟩ := ended
      cases told
      refine .pure ⟨gains, fun copy answered => ?_⟩
      cases answered
      exact current copy rfl
  | ask request =>
    refine (PageRequest.ensures_ask consistent request).bind ?_ ?_
    · intro failure after ended
      obtain ⟨_, told, _⟩ := ended
      cases told
    · intro value after ended
      obtain ⟨answer, told, gains, current⟩ := ended
      cases told
      refine .pure ⟨gains, fun copy answered => ?_⟩
      cases answered
      exact current copy rfl
  | releaseEarly transaction page =>
    refine ensures_done ((ensures_releaseEarly consistent transaction page allowed).mono ?_)
    intro result after ended
    obtain ⟨consistent, stands, locks⟩ := ended
    rw [locks] at stands
    exact ⟨consistent, stands⟩
  | discard page =>
    refine ensures_done ?_
    obtain ⟨consistent, stands⟩ := consistent.discard page
    exact ⟨consistent, stands⟩
  | setFailing store reads writes =>
    exact ensures_done (ensures_setFailing consistent store reads writes)
  | addHeap name store =>
    obtain ⟨fresh, free, apart, images⟩ := allowed
    refine (ensures_addHeap consistent fresh free apart images).bind ?_ ?_
    · intro failure after ended
      exact ended
    · intro heap after ended
      exact .pure ended

/-- What an operation answers and what it leaves behind. A trap has no answer. -/
def run (db : Database) (action : Op Database Reply) : Except Trap (Except Failure Reply × Database) :=
  match action db with
  | .ok reply after => .ok (.ok reply, after)
  | .error (.failed failure) after => .ok (.error failure, after)
  | .error (.trapped cause) _ => .error cause

/-- What a command answers and what it leaves behind. -/
def serve (db : Database) (command : Command) : Except Trap (Except Failure Reply × Database) :=
  db.run command.perform

/-- What an operation answers, if it does not trap. -/
def answer? (db : Database) (action : Op Database Reply) : Option (Except Failure Reply) :=
  match db.run action with
  | .ok (result, _) => some result
  | .error _ => none

/-- What an operation leaves behind, if it does not trap. -/
def after (db : Database) (action : Op Database Reply) : Database :=
  match db.run action with
  | .ok (_, after) => after
  | .error _ => db

/-- An operation that has an answer leaves behind what comes after it. -/
theorem run_eq {action : Op Database Reply} {result : Except Failure Reply}
    (answered : db.answer? action = some result) : db.run action = .ok (result, db.after action) := by
  unfold answer? at answered
  unfold after
  split at answered
  · rename_i served
    rw [served]
    cases answered
    rfl
  · cases answered

/-- What an operation is permitted holds of its answer and of what it leaves behind. -/
theorem run_permits {action : Op Database Reply} {post : Except Failure Reply → Database → Prop}
    {result : Except Failure Reply} {after : Database} (permits : Op.Permits action db post)
    (ran : db.run action = .ok (result, after)) : post result after := by
  unfold Op.Permits Op.Ends at permits
  unfold Database.run at ran
  cases outcome : action db with
  | ok reply last =>
    rw [outcome] at permits ran
    cases ran
    exact permits
  | error fault last =>
    rw [outcome] at permits ran
    cases fault with
    | failed failure =>
      cases ran
      exact permits
    -- A trap has no answer, so nothing ran.
    | trapped cause => cases ran

/-- A command that is allowed is served. -/
theorem Consistent.serve (consistent : db.Consistent kind) {command : Command}
    (allowed : command.Allowed kind.allows db) :
    ∃ result after, db.serve command = .ok (result, after)
      ∧ Effect kind db result after command := by
  obtain ⟨result, after, ran, effect⟩ := (ensures_perform consistent allowed).exists_run
  refine ⟨result, after, ?_, effect⟩
  unfold Database.serve Database.run
  rw [ran]
  cases result <;> rfl

/--
A database that nobody has used yet: no page is in memory and no page is locked.

Its heaps lie over stores of their own, and the stores hold images that are allowed.
-/
structure Fresh (allows : Bytes → Prop) (db : Database) : Prop where
  orderly : db.standing.Orderly allows
  pool : db.pool = .empty
  locks : db.locks = .empty

/-- Nothing is in memory, so all that is there may be there. -/
theorem Fresh.consistent (fresh : Fresh kind.allows db) : db.Consistent kind := by
  refine ⟨fresh.orderly, fun id page resident => ?_⟩
  rw [fresh.pool] at resident
  cases resident

/-- A database over one heap in memory, which holds pages with the given images. -/
def overImages (settings : Settings) (images : List Bytes) : Database where
  settings
  catalog := (Catalog.empty settings.pageSize).bind "heap" 1 (.heap ⟨1, .memory 0⟩)
  storage := { Storage.empty "" with
    arrays := SortedMap.empty.insert 0 { PageArray.empty settings.pageSize with images } }
  locks := .empty
  pool := .empty
  calls := .empty

/-- Only one table of a database over one heap is registered. -/
theorem overImages_find? (settings : Settings) (images : List Bytes) (number : Nat) :
    (overImages settings images).catalog.tables.find? number
      = if number = 1 then some (.heap ⟨1, .memory 0⟩) else none := by
  simp only [overImages, Catalog.bind, Catalog.empty, SortedMap.find?_empty, SortedMap.find?_insert]

theorem overImages_heap? (settings : Settings) (images : List Bytes) (number : Nat) :
    (overImages settings images).catalog.heap? number
      = if number = 1 then some ⟨1, .memory 0⟩ else none := by
  rw [Catalog.heap?, overImages_find?]
  split
  · -- A table that is found is the first one, and it is a heap.
    rename_i found
    split at found
    · cases found
      rename_i here
      rw [if_pos here]
    · cases found
  · -- No heap is found, so this is not the number of the first table.
    rename_i other
    split
    · rename_i here
      rw [if_pos here] at other
      exact absurd rfl (other _)
    · rfl

/-- The heap shows the given images, and no other table shows anything. -/
theorem overImages_shown (settings : Settings) (images : List Bytes) (number : Nat) :
    (overImages settings images).standing.shown number
      = if number = 1 then ⟨settings.pageSize, images, false, false⟩ else .nothing := by
  simp only [standing, overImages_heap?]
  by_cases here : number = 1
  · simp [here, Storage.view, overImages, Storage.array, PageArray.view, PageArray.empty]
  · simp [here]

/-- A database over one heap is fresh if its images are allowed. -/
theorem overImages_fresh {allows : Bytes → Prop} {settings : Settings} {images : List Bytes}
    (accepted : settings.check = .ok ())
    (allowed : ∀ image ∈ images, image.length = settings.pageSize ∧ allows image) :
    Fresh allows (overImages settings images) := by
  -- Left are the tables, their stores, the sizes of their pages and their images.
  refine ⟨⟨accepted, rfl, ?_, ?_, ?_, ?_, Locks.exclusive_empty⟩, rfl, rfl⟩
  · intro number table found
    have only : (overImages settings images).catalog.tables.find? number = some table := found
    rw [overImages_find?] at only
    split at only
    · rename_i here
      cases only
      exact ⟨_, by rw [here]⟩
    · cases only
  · -- Two numbers cannot both be the only one.
    intro a b x y apart first second
    have here : (overImages settings images).catalog.heap? a = some x := first
    have there : (overImages settings images).catalog.heap? b = some y := second
    rw [overImages_heap?] at here there
    split at here
    · split at there
      · omega
      · cases there
    · cases here
  · intro number heap registered
    have here : (overImages settings images).catalog.heap? number = some heap := registered
    rw [overImages_heap?] at here
    rw [overImages_shown]
    split at here
    · rename_i first
      rw [if_pos first]
      rfl
    · cases here
  · -- A page is shown by the one heap only, and its image was given.
    intro number image member
    rw [overImages_shown] at member
    split at member
    · exact allowed image member
    · cases member

/-- Commands that are allowed were served one after the other, and each may have failed. -/
inductive Runs (allows : Bytes → Prop) : Database → List Command → Database → Prop
  | done {db : Database} : Runs allows db [] db
  | step {db middle after : Database} {command : Command} {result : Except Failure Reply}
      {commands : List Command} (allowed : command.Allowed allows db)
      (served : db.serve command = .ok (result, middle)) (runs : Runs allows middle commands after) :
      Runs allows db (command :: commands) after

/-- What commands leave behind, one after the other. -/
def afterAll (db : Database) : List Command → Database
  | [] => db
  | command :: rest => (db.after command.perform).afterAll rest

/-- Whether all commands are answered, one after the other. -/
def answersAll (db : Database) : List Command → Bool
  | [] => true
  | command :: rest =>
    (db.answer? command.perform).isSome && (db.after command.perform).answersAll rest

/-- What every one of some commands keeps when it is served is kept by all of them in turn. -/
theorem afterAll_keeps {holds : Database → Prop} {commands : List Command} (start : holds db)
    (serves : ∀ command ∈ commands, ∀ {middle after : Database} {result : Except Failure Reply},
      holds middle → middle.serve command = .ok (result, after) → holds after)
    (answered : db.answersAll commands = true) : holds (db.afterAll commands) := by
  induction commands generalizing db with
  | nil => exact start
  | cons command rest ih =>
    obtain ⟨now, later⟩ := Bool.and_eq_true_iff.1 answered
    obtain ⟨result, told⟩ := Option.isSome_iff_exists.1 now
    have served : db.serve command = .ok (result, _) := run_eq told
    exact ih (serves command List.mem_cons_self start served)
      (fun other member => serves other (List.mem_cons_of_mem _ member)) later

/-- Commands that are answered and always allowed lead to what they leave behind. -/
theorem runs_afterAll {allows : Bytes → Prop} {commands : List Command}
    (allowed : ∀ command ∈ commands, ∀ db, command.Allowed allows db)
    (answered : db.answersAll commands = true) : Runs allows db commands (db.afterAll commands) := by
  -- The commands are served from the front, so the database that begins varies.
  induction commands generalizing db with
  | nil => exact .done
  | cons command rest ih =>
    obtain ⟨now, later⟩ := Bool.and_eq_true_iff.1 answered
    obtain ⟨result, told⟩ := Option.isSome_iff_exists.1 now
    exact .step (allowed command List.mem_cons_self db) (run_eq told)
      (ih (fun other member => allowed other (List.mem_cons_of_mem _ member)) later)

/-- The databases that a fresh one becomes by commands that are allowed. -/
def Reachable (allows : Bytes → Prop) (db : Database) : Prop :=
  ∃ first commands, Fresh allows first ∧ Runs allows first commands db

/-- What is served is what can happen. -/
theorem Consistent.effect (consistent : db.Consistent kind) {command : Command}
    {result : Except Failure Reply} {after : Database}
    (served : db.serve command = .ok (result, after)) (allowed : command.Allowed kind.allows db) :
    Effect kind db result after command := by
  obtain ⟨_, _, same, effect⟩ := consistent.serve allowed
  rw [served] at same
  cases same
  exact effect

/-- Whatever is asked for, and whatever fails, the database stays consistent. -/
theorem Runs.consistent {commands : List Command} {after : Database}
    (runs : Runs kind.allows db commands after) (consistent : db.Consistent kind) :
    after.Consistent kind := by
  -- One command keeps the invariant whatever it answers, so a run keeps it too.
  induction runs with
  | done => exact consistent
  | step allowed served _ ih => exact ih (consistent.effect served allowed).consistent

theorem Reachable.consistent (reachable : Reachable kind.allows db) : db.Consistent kind := by
  obtain ⟨first, commands, fresh, runs⟩ := reachable
  exact runs.consistent fresh.consistent

end Database

end HeapEngine

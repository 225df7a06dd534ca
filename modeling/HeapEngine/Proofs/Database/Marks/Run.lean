import HeapEngine.Proofs.Database.Marks.Records
import HeapEngine.Proofs.Database.Run

/-!
Transactions end without marks, and so every run leaves the marks to the writers.
-/

namespace HeapEngine

namespace Database

variable {db after : Database} {asker : TransactionId} {id : PageId} {α : Type}

/-- A page that is written loses its mark. -/
theorem permits_writeBack (marked : db.Marked) (asker : TransactionId) (id : PageId) :
    Op.Permits (writeBack id) db fun result after => Fades asker db after
      ∧ ∀ wrote, result = .ok wrote → after.mark? id = none := by
  unfold writeBack
  refine .get_bind ?_
  cases resident : db.pool.page? id with
  | none => exact .pure ⟨marked.fades, fun _ _ => by rw [mark?, resident]; rfl⟩
  | some page =>
    refine .ite ?_ ?_
    · intro clean
      refine .pure ⟨marked.fades, fun _ _ => ?_⟩
      rw [mark?, resident]
      simpa [Page.isDirty] using clean
    · intro _
      refine permits_tableAt_bind marked (fun _ => ⟨marked.fades, by simp⟩) fun heap => ?_
      have writes : Op.Permits (writeStored id.table (.heap heap) page) db fun _ after =>
          Fades asker db after ∧ True := permits_onStorage marked asker (.anywhere _ _)
      refine writes.bind (fun _ _ ended => ⟨ended.1, by simp⟩) ?_
      intro _ after ended
      -- Whatever the store did, the page in memory loses its mark now.
      have cleaned : Fades asker after
          { after with pool := after.pool.editResident id Page.markWritten } :=
        ended.1.marked.editResident fun _ _ _ mark => by cases mark
      refine .onPool_bind (.pure ⟨ended.1.trans cleaned, fun _ _ => ?_⟩)
      rw [mark?, Pool.page?_editResident, if_pos rfl]
      cases after.pool.page? id with
      | none => rfl
      | some page => rfl

/-- One more page was gone over, and none of those before it has a mark again. -/
theorem Fades.goes_on {middle : Database} {ids rest : List PageId} (fades : Fades asker middle after)
    (gone : after.mark? id = none) (before : ∀ other ∈ ids, other ∈ id :: rest ∨ middle.mark? other = none) :
    ∀ other ∈ ids, other ∈ rest ∨ after.mark? other = none := by
  intro other member
  rcases before other member with left | unmarked
  · rcases List.mem_cons.1 left with rfl | later
    · exact .inr gone
    · exact .inl later
  · exact .inr (fades.mark?_eq_none unmarked)

/-- Pages that are all written lose their marks. -/
theorem permits_writeBackEach (marked : db.Marked) (asker : TransactionId) (ids : List PageId) :
    Op.Permits (writeBackEach ids) db fun result after => Fades asker db after
      ∧ (result = .ok () → ∀ id ∈ ids, after.mark? id = none) := by
  -- The pages that were gone over have no marks.
  apply ends_writeBackEach fun rest middle =>
    Fades asker db middle ∧ ∀ id ∈ ids, id ∈ rest ∨ middle.mark? id = none
  · rintro id rest middle ⟨before, cleared⟩
    refine (permits_writeBack before.marked asker id).mono fun result after ended => ?_
    obtain ⟨first, written⟩ := ended
    cases result with
    | error failure => exact ⟨before.trans first, nofun⟩
    | ok wrote => exact ⟨before.trans first, first.goes_on (written wrote rfl) cleared⟩
  · rintro middle ⟨fades, cleared⟩
    exact ⟨fades, fun _ id member => (cleared id member).resolve_left List.not_mem_nil⟩
  · exact ⟨marked.fades, fun _ => .inl⟩

/-- A transaction that has written its pages has no marks. -/
theorem permits_writeBackOf (marked : db.Marked) (asker : TransactionId) :
    Op.Permits (writeBackOf asker) db fun result after => Fades asker db after
      ∧ (result = .ok () → ∀ id, after.mark? id ≠ some asker) := by
  refine .get_bind ((permits_writeBackEach marked asker _).mono ?_)
  intro result after ended
  obtain ⟨fades, cleared⟩ := ended
  refine ⟨fades, fun done id mark => ?_⟩
  -- A mark that is left was there before, so its page was among those that were written.
  have before := fades.marks id asker mark
  obtain ⟨page, resident, mine⟩ := Option.bind_eq_some_iff.1 before
  rw [cleared done id (Pool.mem_changedBy.2 ⟨page, resident, mine⟩)] at mark
  cases mark

theorem permits_syncAt_marked (marked : db.Marked) (number : Nat) :
    Op.Permits (syncAt number) db fun _ after => after.Marked := by
  refine permits_tableAt_bind marked (fun _ => marked) fun heap => ?_
  have syncs : Op.Permits (syncTable number (.heap heap)) db fun _ after =>
      Fades ⟨0⟩ db after ∧ True := permits_onStorage marked ⟨0⟩ (.anywhere _ _)
  exact syncs.mono fun _ _ ended => ended.1.marked

theorem permits_checkpoint (marked : db.Marked) :
    Op.Permits checkpoint db fun _ after => after.Marked := by
  refine preserves_checkpoint (fun id middle marked => ?_) (fun number _ marked => ?_) db marked
  · -- Nobody asks for this writing, so it does not matter whose locks would advance.
    exact (permits_writeBack marked ⟨0⟩ id).mono fun _ _ ended => ended.1.marked
  · exact permits_syncAt_marked marked number

/-- A page that is read anew has no mark, and one that cannot be read is gone. -/
theorem permits_reload (marked : db.Marked) (asker : TransactionId) (id : PageId) :
    Op.Permits (reload id) db fun _ after => Fades asker db after ∧ after.mark? id = none := by
  have reads : Op.Permits (do readStored (← tableAt id.table) id) db fun result after =>
      Fades asker db after ∧ ∀ page, result = .ok page → page.changedBy = none := by
    refine permits_tableAt_bind marked (fun _ => ⟨marked.fades, by simp⟩) fun heap => ?_
    exact permits_onStorage marked asker (Storage.permits_read heap.store id _)
  refine .attempt_bind reads ?_
  intro answer after ended
  obtain ⟨fades, unmarked⟩ := ended
  cases answer with
  | ok page =>
    -- The page read from the store takes the place of the one in memory, if that is still there.
    have cleaned : Fades asker after
        { after with pool := after.pool.editResident id fun _ => page } :=
      fades.marked.editResident fun _ transaction _ mark => by
        rw [unmarked page rfl] at mark
        cases mark
    refine .onPool_bind (.pure ⟨fades.trans cleaned, ?_⟩)
    rw [mark?, Pool.page?_editResident, if_pos rfl]
    cases after.pool.page? id with
    | none => rfl
    | some old => exact unmarked page rfl
  | error failure =>
    have dropped : Fades asker after { after with pool := after.pool.drop id } := fades.marked.drop id
    refine .onPool_bind (.pure ⟨fades.trans dropped, ?_⟩)
    rw [mark?, Pool.page?_drop, if_pos rfl]
    rfl

/-- All pages that are read anew have no marks. -/
theorem permits_reloadEach (marked : db.Marked) (asker : TransactionId) (ids : List PageId) :
    Op.Permits (reloadEach ids) db fun result after => Fades asker db after
      ∧ ∀ failure, result = .ok failure → ∀ id ∈ ids, after.mark? id = none := by
  apply ends_reloadEach fun _ rest middle =>
    Fades asker db middle ∧ ∀ id ∈ ids, id ∈ rest ∨ middle.mark? id = none
  · rintro told id rest middle ⟨before, cleared⟩
    refine (permits_reload before.marked asker id).mono fun result after ended => ?_
    obtain ⟨first, unmarked⟩ := ended
    cases result with
    | error failure => exact ⟨before.trans first, nofun⟩
    -- The page lost its mark, whether it could be read or not.
    | ok lost => exact ⟨before.trans first, first.goes_on unmarked cleared⟩
  · rintro told middle ⟨fades, cleared⟩
    exact ⟨fades, fun _ _ id member => (cleared id member).resolve_left List.not_mem_nil⟩
  · exact ⟨marked.fades, fun _ => .inl⟩

theorem permits_releaseLocks (marked : db.Marked) (unmarked : ∀ id, db.mark? id ≠ some asker) :
    Op.Permits (releaseLocks asker) db fun _ after => after.Marked :=
  marked.releaseAll unmarked

/-- Whoever ends has no marks any more, and then no locks. -/
theorem permits_finish (marked : db.Marked) (asker : TransactionId) (ending : Ending) :
    Op.Permits (finish asker ending) db fun _ after => after.Marked := by
  cases ending with
  | commit =>
    refine (permits_writeBackOf marked asker).bind (fun _ _ ended => ended.1.marked) ?_
    intro _ after ended
    refine (permits_releaseLocks ended.1.marked (ended.2 rfl)).andThen ?_
    intro _ last kept
    exact .pure kept
  | abort =>
    refine Op.Ends.bind (.get_bind (permits_reloadEach marked asker _))
      (fun _ _ ended => ended.1.marked) ?_
    intro failure after ended
    obtain ⟨fades, cleared⟩ := ended
    -- A mark that is left was there before, and its page was read anew.
    have unmarked : ∀ id, after.mark? id ≠ some asker := by
      intro id mark
      obtain ⟨page, resident, mine⟩ := Option.bind_eq_some_iff.1 (fades.marks id asker mark)
      rw [cleared failure rfl id (Pool.mem_changedBy.2 ⟨page, resident, mine⟩)] at mark
      cases mark
    refine (permits_releaseLocks fades.marked unmarked).andThen ?_
    intro _ last kept
    cases failure with
    | none => exact .pure kept
    | some failure => exact .fail kept

theorem permits_ask (marked : db.Marked) (request : PageRequest) :
    Op.Permits request.ask db fun _ after => after.Marked := by
  unfold PageRequest.ask
  refine .get_bind ?_
  cases granted : request.lockRequest.ask db.locks with
  | none => exact .pure marked
  | some locks =>
    have given : Fades request.transaction db { db with locks } := marked.grant granted
    refine .set_bind (.attempt_bind (permits_bring given.marked request.transaction request.page) ?_)
    intro answer after ended
    exact .pure ended.1.marked

theorem permits_start (marked : db.Marked) (request : PageRequest) :
    Op.Permits request.start db fun _ after => after.Marked := by
  refine .attempt_bind (permits_bring marked request.transaction request.page) ?_
  intro answer after ended
  cases answer with
  | error failure => exact .pure ended.1.marked
  | ok copy => exact permits_ask ended.1.marked request

/-- A heap may be registered under any name. -/
theorem permits_addHeap (marked : db.Marked) (name : String) (store : StoreId) :
    Op.Permits (addHeap name store) db fun _ after => after.Marked :=
  -- The new table is a heap like the others, and neither locks nor pages change.
  ends_addHeap (fun _ => marked) fun _ _ registered =>
    ⟨Catalog.forall_registerHeap registered ⟨_, rfl⟩ marked.tables, marked.locks, marked.writes⟩

end Database

/-- Nobody releases a page early that it has changed. -/
def Command.Patient (db : Database) : Command → Prop
  | releaseEarly transaction page => db.mark? page ≠ some transaction
  | _ => True

/-- What is allowed is patient. -/
theorem Command.Allowed.patient {allows : Bytes → Prop} {db : Database} {command : Command}
    (allowed : command.Allowed allows db) : command.Patient db := by
  cases command with
  | releaseEarly transaction page =>
    intro mark
    obtain ⟨changed, resident, mine⟩ := Option.bind_eq_some_iff.1 mark
    exact allowed changed (Database.unwritten_eq_some.2 ⟨resident, by rw [mine]; simp⟩) mine
  | _ => trivial

namespace Database

variable {db after : Database}

/-- Every patient command that does not trap leaves the marks to the writers. -/
theorem permits_perform (marked : db.Marked) {command : Command} (patient : command.Patient db) :
    Op.Permits command.perform db fun _ after => after.Marked := by
  cases command with
  | acquire transaction page access =>
    exact ((permits_acquire marked transaction page access).mono fun _ _ ended => ended.1.marked).reply
  | insert transaction table record =>
    refine (permits_insert marked transaction table record).andThen ?_
    intro value after kept
    obtain ⟨answer, stored⟩ := value
    cases answer with
    | ok _ => exact .pure kept
    | error failure => exact .fail kept
  | delete transaction record => exact (permits_delete marked transaction record).reply
  | scan cursor count => exact (permits_take marked cursor count).reply
  | finish transaction ending => exact (permits_finish marked transaction ending).reply
  | writeBack page =>
    exact ((permits_writeBack marked ⟨0⟩ page).mono fun _ _ ended => ended.1.marked).reply
  | writeBackOf transaction =>
    exact ((permits_writeBackOf marked transaction).mono fun _ _ ended => ended.1.marked).reply
  | checkpoint => exact (permits_checkpoint marked).reply
  | start request => exact (permits_start marked request).reply
  | ask request => exact (permits_ask marked request).reply
  | releaseEarly transaction page => exact (permits_releaseEarly marked patient).reply
  | discard page =>
    have dropped : Fades ⟨0⟩ db { db with pool := db.pool.drop page } := marked.drop page
    have drops : Op.Permits (discard page) db fun _ after => after.Marked := dropped.marked
    exact drops.reply
  | setFailing store reads writes =>
    exact ((permits_onStorage marked ⟨0⟩ (.anywhere _ _)).mono fun _ _ ended => ended.1.marked).reply
  | addHeap name store => exact (permits_addHeap marked name store).reply

/-- In a fresh database no page is marked. -/
theorem Fresh.marked {allows : Bytes → Prop} (fresh : Fresh allows db) : db.Marked := by
  have orderly := fresh.orderly
  refine ⟨fun number table found => ?_, orderly.locks, fun id transaction mark => ?_⟩
  · obtain ⟨store, same⟩ := orderly.tables number table found
    exact ⟨_, same⟩
  · rw [mark?, fresh.pool] at mark
    cases mark

/-- Whatever is asked for and whatever fails, every mark is that of a writer. -/
theorem Runs.marked {allows : Bytes → Prop} {commands : List Command}
    (runs : Runs allows db commands after) (marked : db.Marked) : after.Marked := by
  -- A command that was served did not trap, so what is permitted to it holds.
  induction runs with
  | done => exact marked
  | step allowed served _ ih =>
    have permits := permits_perform marked allowed.patient
    exact ih (run_permits permits served)

theorem Reachable.marked {allows : Bytes → Prop} (reachable : Reachable allows db) : db.Marked := by
  obtain ⟨first, commands, fresh, runs⟩ := reachable
  exact runs.marked fresh.marked

end Database

end HeapEngine

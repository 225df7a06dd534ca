import HeapEngine.Proofs.Database.Lasting
import HeapEngine.Proofs.Database.Loops
import HeapEngine.Proofs.Database.Run

/-!
What endures while pages are written, taken back and dropped, besides what lasts while records are looked for.

Only commands that store or delete a record or register a heap are left to be looked at one by one.
-/

namespace HeapEngine

/-- Whether a command may store or delete a record, or register a heap. -/
def Command.Recasts : Command → Prop
  | insert _ _ _ | delete _ _ | addHeap _ _ => True
  | _ => False

namespace Database

variable {db : Database}

/-- What lasts, and does so while pages are written, read anew or dropped, and transactions end. -/
structure Endures (catalog : Catalog) (mayChange : PageId → Prop) (holds : Database → Prop) : Prop extends
    Lasts catalog mayChange holds where
  heaps : ∀ {db}, holds db → db.OverHeaps
  writeBack : ∀ {db}, holds db → ∀ id, Op.Permits (writeBack id) db fun _ after => holds after
  reload : ∀ {db}, holds db → ∀ id, Op.Permits (reload id) db fun _ after => holds after
  drop : ∀ {db}, holds db → ∀ id, holds { db with pool := db.pool.drop id }
  count : ∀ {db number heap storage}, holds db → db.catalog.heap? number = some heap →
    Storage.Shows db.storage heap.store (db.storage.view heap.store) storage → holds { db with storage }
  releaseAll : ∀ {db}, holds db → ∀ holder, holds { db with locks := (db.locks.releaseAll holder).2 }
  setFailing : ∀ {db}, holds db → ∀ store reads writes,
    Op.Permits (onStorage (Storage.onArray store (modify (PageArray.setFailing reads writes)))) db
      fun _ after => holds after

namespace Endures

variable {catalog : Catalog} {mayChange : PageId → Prop} {holds : Database → Prop}
  (endures : Endures catalog mayChange holds)

include endures

theorem writeBackOf (held : holds db) (transaction : TransactionId) :
    Op.Permits (writeBackOf transaction) db fun _ after => holds after :=
  .get_bind (preserves_writeBackEach (fun id _ _ held => endures.writeBack held id) db held)

theorem syncAt (held : holds db) (number : Nat) : Op.Permits (syncAt number) db fun _ after => holds after := by
  -- Nothing is made durable of a table that nobody knows. Otherwise only the store's counts go up.
  refine (endures.heaps held).ends_tableAt_bind (fun _ => held) fun heap registered => ?_
  refine .onStorage ((Storage.ensures_sync db.storage heap.store).permits.mono ?_)
  exact fun _ storage ended => endures.count held registered ended.2

theorem checkpoint (held : holds db) : Op.Permits checkpoint db fun _ after => holds after :=
  preserves_checkpoint (fun id _ held => endures.writeBack held id) (fun number _ held => endures.syncAt held number)
    db held

/-- Transactions may end in either way. -/
theorem finish (held : holds db) (transaction : TransactionId) (ending : Ending) :
    Op.Permits (finish transaction ending) db fun _ after => holds after :=
  preserves_finish (fun id _ held => endures.writeBack held id) (fun id _ held => endures.reload held id)
    (fun _ held => endures.releaseAll held transaction) ending db held

/-- What endures does so whatever is served that stores and deletes no record and registers no heap. -/
theorem perform (held : holds db) {command : Command} (alike : ¬ command.Recasts) :
    Op.Permits command.perform db fun _ after => holds after := by
  -- What lasts while records are looked for tells of the reading commands, and the loops of the others.
  cases command with
  | acquire transaction page access =>
    exact ((endures.acquire held transaction page access).mono fun _ _ ended => ended.1).reply
  | insert => exact absurd trivial alike
  | delete => exact absurd trivial alike
  | scan cursor count => exact (endures.take held cursor count).reply
  | finish transaction ending => exact (endures.finish held transaction ending).reply
  | writeBack page => exact (endures.writeBack held page).reply
  | writeBackOf transaction => exact (endures.writeBackOf held transaction).reply
  | checkpoint => exact (endures.checkpoint held).reply
  | start request => exact ((endures.start held request).mono fun _ _ ended => ended.1).reply
  | ask request => exact ((endures.ask held request).mono fun _ _ ended => ended.1).reply
  | releaseEarly transaction page => exact (endures.releaseEarly held transaction page).reply
  | discard page =>
    have drops : Op.Permits (discard page) db fun _ after => holds after := endures.drop held page
    exact drops.reply
  | setFailing store reads writes => exact (endures.setFailing held store reads writes).reply
  | addHeap => exact absurd trivial alike

end Endures

end Database

end HeapEngine

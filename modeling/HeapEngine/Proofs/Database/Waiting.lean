import HeapEngine.Database.Waiting
import HeapEngine.Proofs.Database.Cache

/-! A request that waited for its lock finds the page as it is when the lock is granted. -/

namespace HeapEngine.PageRequest

open Database

variable {kind : ImageKind} {db : Database}

/-- A request whose lock is granted brings the page once more. -/
theorem ensures_ask (consistent : db.Consistent kind) (request : PageRequest) :
    Op.Ensures request.ask db fun result after => ∃ answer, result = .ok answer
      ∧ Gains kind request.transaction db after
      ∧ ∀ copy, answer = some (.ok copy) →
        after.Given request.transaction request.page request.access copy := by
  unfold ask
  refine .get_bind ?_
  -- The request goes on waiting until the lock is granted.
  cases granted : request.lockRequest.ask db.locks with
  | none => exact .pure ⟨none, rfl, consistent.stays.gains _, by simp⟩
  | some locks =>
    have gains : Gains kind request.transaction db { db with locks } := consistent.grant granted
    refine .set_bind (.attempt_bind (ensures_bring gains.consistent request.page) ?_)
    intro answer after ended
    obtain ⟨stays, current⟩ := ended
    refine .pure ⟨some answer, rfl, gains.trans (stays.gains _), ?_⟩
    intro copy told
    obtain ⟨here, resident⟩ := current copy (Option.some.inj told)
    obtain ⟨holds, writes⟩ := Locks.holds_of_grant? granted
    -- Bringing the page leaves the locks as they were granted.
    have same : after.locks = locks := stays.locks_eq
    refine ⟨here, resident, by rw [same]; exact holds, fun writing => ?_⟩
    rw [same]
    exact writes (congrArg Access.lockMode writing)

/-- A request that begins looks for its page before it asks for the lock. -/
theorem ensures_start (consistent : db.Consistent kind) (request : PageRequest) :
    Op.Ensures request.start db fun result after => ∃ answer, result = .ok answer
      ∧ Gains kind request.transaction db after
      ∧ ∀ copy, answer = some (.ok copy) →
        after.Given request.transaction request.page request.access copy := by
  unfold start
  refine .attempt_bind (ensures_bring consistent request.page) ?_
  intro answer middle ended
  obtain ⟨stays, _⟩ := ended
  have gains := stays.gains request.transaction
  cases answer with
  | error failure => exact .pure ⟨_, rfl, gains, by simp⟩
  | ok copy =>
    refine (ensures_ask stays.consistent request).mono ?_
    intro result after told
    obtain ⟨answer, told, more, current⟩ := told
    exact ⟨answer, told, gains.trans more, current⟩

end HeapEngine.PageRequest

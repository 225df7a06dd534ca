import HeapEngine.Database.Commit
import HeapEngine.Proofs.Operation

/-!
What is kept while pages and tables are gone over in turn.

Pages are written, read anew and made durable one after the other. What is told of such a loop is told of each turn,
with what is still to be gone over then, so the induction on the list is made here.
-/

namespace HeapEngine

/-- Wherever it holds of the state, it does so still where the operation ends. -/
def Op.Preserves {σ α : Type} (mayTrap : Prop) (holds : σ → Prop) (action : Op σ α) : Prop :=
  ∀ state, holds state → Op.Ends mayTrap action state fun _ after => holds after

namespace Database

variable {mayTrap : Prop} {db : Database}

/-! Each loop, told by its turns. -/

section Turns

/-- Pages are written up to the first that fails. -/
theorem ends_writeBackEach (left : List PageId → Database → Prop) {post : Except Failure Unit → Database → Prop}
    (turn : ∀ id rest db, left (id :: rest) db → Op.Ends mayTrap (writeBack id) db fun result after =>
      match result with
      | .ok _ => left rest after
      | .error failure => post (.error failure) after)
    (last : ∀ db, left [] db → post (.ok ()) db) {ids : List PageId} (start : left ids db) :
    Op.Ends mayTrap (writeBackEach ids) db post := by
  induction ids generalizing db with
  | nil => exact .pure (last db start)
  | cons id rest ih =>
    apply (turn id rest db start).bind
    · exact fun failure after failed => failed
    · exact fun wrote after goesOn => ih goesOn

/-- Pages are written up to the first that fails, whichever tables are noted meanwhile. -/
theorem ends_writeBackNoting (left : List PageId → Database → Prop)
    {post : Except Failure (List Nat) → Database → Prop}
    (turn : ∀ id rest db, left (id :: rest) db → Op.Ends mayTrap (writeBack id) db fun result after =>
      match result with
      | .ok _ => left rest after
      | .error failure => post (.error failure) after)
    (last : ∀ tables db, left [] db → post (.ok tables) db) (tables : List Nat) {ids : List PageId}
    (start : left ids db) : Op.Ends mayTrap (writeBackNoting tables ids) db post := by
  induction ids generalizing db tables with
  | nil => exact .pure (last tables db start)
  | cons id rest ih =>
    apply (turn id rest db start).bind
    · exact fun failure after failed => failed
    · exact fun wrote after goesOn => .ite (fun _ => ih _ goesOn) fun _ => ih _ goesOn

/-- All pages are read anew, and what is told is the first failure. -/
theorem ends_reloadEach (left : Option Failure → List PageId → Database → Prop)
    {post : Except Failure (Option Failure) → Database → Prop}
    (turn : ∀ told id rest db, left told (id :: rest) db → Op.Ends mayTrap (reload id) db fun result after =>
      match result with
      | .ok failure => left (told <|> failure) rest after
      | .error failure => post (.error failure) after)
    (last : ∀ told db, left told [] db → post (.ok told) db) {ids : List PageId} (start : left none ids db) :
    Op.Ends mayTrap (reloadEach ids) db post := by
  -- What was told before comes before what is told later.
  have onwards (told : Option Failure) (ids : List PageId) (db : Database) (start : left told ids db) :
      Op.Ends mayTrap (reloadEach ids) db fun result after =>
        match result with
        | .ok later => post (.ok (told <|> later)) after
        | .error failure => post (.error failure) after := by
    induction ids generalizing told db with
    | nil =>
      apply Op.Ends.pure
      cases told <;> exact last _ db start
    | cons id rest ih =>
      apply (turn told id rest db start).bind
      · exact fun failure after failed => failed
      · intro first middle goesOn
        apply (ih _ middle goesOn).bind
        · exact fun failure after failed => failed
        · intro later after ended
          apply Op.Ends.pure
          cases told <;> exact ended
  refine (onwards none ids db start).mono fun result after ended => ?_
  cases result <;> exact ended

/-- Makes the table of a number durable. -/
def syncAt (number : Nat) : Op Database Unit := do syncTable number (← tableAt number)

/-- Looking a table up and making it durable is one turn. -/
theorem syncEach_cons (number : Nat) (rest : List Nat) :
    syncEach (number :: rest) = syncAt number >>= fun _ => syncEach rest := by
  simp only [syncEach, syncAt, bind_assoc]

/-- Tables are made durable up to the first that fails. -/
theorem ends_syncEach (left : List Nat → Database → Prop) {post : Except Failure Unit → Database → Prop}
    (turn : ∀ number rest db, left (number :: rest) db → Op.Ends mayTrap (syncAt number) db fun result after =>
      match result with
      | .ok _ => left rest after
      | .error failure => post (.error failure) after)
    (last : ∀ db, left [] db → post (.ok ()) db) {numbers : List Nat} (start : left numbers db) :
    Op.Ends mayTrap (syncEach numbers) db post := by
  induction numbers generalizing db with
  | nil => exact .pure (last db start)
  | cons number rest ih =>
    rw [syncEach_cons]
    apply (turn number rest db start).bind
    · exact fun failure after failed => failed
    · exact fun _ after goesOn => ih goesOn

end Turns

/-! What each turn keeps the loop keeps, and so does all that it is part of. -/

section Preserves

variable {holds : Database → Prop} {ids : List PageId} {numbers : List Nat}

theorem preserves_writeBackEach (turn : ∀ id ∈ ids, Op.Preserves mayTrap holds (writeBack id)) :
    Op.Preserves mayTrap holds (writeBackEach ids) := by
  induction ids with
  | nil => exact fun db held => .pure held
  | cons id rest ih =>
    obtain ⟨first, others⟩ := List.forall_mem_cons.1 turn
    exact fun db held => (first db held).andThen fun wrote after held => ih others after held

theorem preserves_writeBackNoting (turn : ∀ id ∈ ids, Op.Preserves mayTrap holds (writeBack id))
    (tables : List Nat) : Op.Preserves mayTrap holds (writeBackNoting tables ids) := by
  induction ids generalizing tables with
  | nil => exact fun db held => .pure held
  | cons id rest ih =>
    obtain ⟨first, others⟩ := List.forall_mem_cons.1 turn
    intro db held
    apply (first db held).andThen
    -- It does not matter which tables are noted.
    exact fun wrote after held => .ite (fun _ => ih others _ after held) fun _ => ih others _ after held

theorem preserves_syncEach (turn : ∀ number ∈ numbers, Op.Preserves mayTrap holds (syncAt number)) :
    Op.Preserves mayTrap holds (syncEach numbers) := by
  induction numbers with
  | nil => exact fun db held => .pure held
  | cons number rest ih =>
    obtain ⟨first, others⟩ := List.forall_mem_cons.1 turn
    rw [syncEach_cons]
    exact fun db held => (first db held).andThen fun _ after held => ih others after held

theorem preserves_reloadEach (turn : ∀ id ∈ ids, Op.Preserves mayTrap holds (reload id)) :
    Op.Preserves mayTrap holds (reloadEach ids) := by
  induction ids with
  | nil => exact fun db held => .pure held
  | cons id rest ih =>
    obtain ⟨first, others⟩ := List.forall_mem_cons.1 turn
    exact fun db held => (first db held).andThen fun failure after held => (ih others after held).reply

theorem preserves_checkpoint (writes : ∀ id, Op.Preserves mayTrap holds (writeBack id))
    (syncs : ∀ number, Op.Preserves mayTrap holds (syncAt number)) : Op.Preserves mayTrap holds checkpoint := by
  intro db held
  apply Op.Ends.get_bind
  apply (preserves_writeBackNoting (fun id _ => writes id) [] db held).andThen
  exact fun written after held => preserves_syncEach (fun number _ => syncs number) after held

/-- A transaction ends by writing or reading pages anew, and by releasing its locks. -/
theorem preserves_finish {transaction : TransactionId} (writes : ∀ id, Op.Preserves mayTrap holds (writeBack id))
    (reloads : ∀ id, Op.Preserves mayTrap holds (reload id))
    (releases : Op.Preserves mayTrap holds (releaseLocks transaction)) (ending : Ending) :
    Op.Preserves mayTrap holds (finish transaction ending) := by
  intro db held
  cases ending with
  | commit =>
    have written : Op.Ends mayTrap (writeBackOf transaction) db fun _ after => holds after :=
      .get_bind (preserves_writeBackEach (fun id _ => writes id) db held)
    exact written.andThen fun _ after held => (releases after held).reply
  | abort =>
    have takenBack : Op.Ends mayTrap (rollBack transaction) db fun _ after => holds after :=
      .get_bind (preserves_reloadEach (fun id _ => reloads id) db held)
    apply takenBack.andThen
    intro failure after held
    apply (releases after held).andThen
    intro _ last held
    cases failure with
    | none => exact .pure held
    | some failure => exact .fail held

end Preserves

end Database

end HeapEngine

import HeapEngine.Table

/-!
A table without storage.

Each record goes on new pages with given numbers. The table hands over these pages without having
asked for them, so that they have to be taken in.
-/

namespace HeapEngine.TableFormat

/-- Asks for a lock if there is a mode to ask for. -/
def locking {α : Type} (mode : Option LockMode) (transaction : TransactionId) (id : PageId)
    (next : Script α) : Script α :=
  match mode with
  | none => next
  | some mode =>
    .lock transaction id mode fun
      | .ok () => next
      | .error refusal => .stop (.failed (.lockRefused refusal))

/-- Stores a record on a new page for each of the pages, after the copies in `made`, last first. -/
def insertNew (pageSize : Nat) (mode : Option LockMode) (transaction : TransactionId)
    (record : Record) (made : List CopyId) : List PageId → Script (List CopyId)
  | [] => .finish made.reverse
  | id :: rest =>
    locking mode transaction id <|
      match (Page.empty id pageSize).insertRecord record with
      | .error fault => .stop fault
      | .ok (page, place) =>
        -- The place that is told last is the one the record keeps.
        .place (some place) <| .newCopy page fun copy =>
          insertNew pageSize mode transaction record (copy :: made) rest

/-- A table of `count` empty pages that stores a record on new ones with the given numbers. -/
def detached (pageSize count : Nat) (numbers : List Nat) (mode : Option LockMode) (table : Nat) :
    TableFormat where
  pageSize
  pageCount _ := .ok count
  read _ id :=
    if id.number < count then .ok (.empty id pageSize) else .error (.noPage id count)
  id_read {_ id page} read := by
    by_cases within : id.number < count
    · rw [if_pos within] at read
      cases read
      rfl
    · rw [if_neg within] at read
      cases read
  write _ _ := .ok ()
  sync _ := .ok ()
  insert _ transaction record :=
    insertNew pageSize mode transaction record [] (numbers.map fun number => ⟨table, number⟩)
  delete _ transaction record :=
    match record.place with
    | none => .stop (.failed (.misuse .unplaced))
    | some place =>
      -- The page comes back empty, whatever was on it.
      locking mode transaction place.page <| .newCopy (.empty place.page pageSize) .finish

end HeapEngine.TableFormat

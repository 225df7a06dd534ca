import HeapEngine.Proofs.Database.Run

/-!
The records that are stored, and the changes that transactions make to them.

A ledger keeps what each transaction did since it last ended, and what was committed, in the order of
the commits. It is told from the commands and their answers alone.
-/

namespace HeapEngine

/-- The values of records by their places. -/
abbrev RecordMap := RecordId → Option (List Value)

/-- A record that was stored or deleted: its place, and the values that are there then. -/
structure Change where
  place : RecordId
  /-- Nothing, if the record was deleted. -/
  values : Option (List Value)
deriving DecidableEq

namespace RecordMap

/-- The records after one change. -/
def apply (map : RecordMap) (change : Change) : RecordMap := fun place =>
  if place = change.place then change.values else map place

/-- The records after changes in order. -/
def replay (map : RecordMap) (changes : List Change) : RecordMap := changes.foldl apply map

variable {map other : RecordMap} {changes : List Change} {place : RecordId}

theorem replay_append (map : RecordMap) (first second : List Change) :
    map.replay (first ++ second) = (map.replay first).replay second := List.foldl_append

/-- One more change counts last. -/
theorem replay_concat (map : RecordMap) (changes : List Change) (change : Change) (place : RecordId) :
    map.replay (changes ++ [change]) place
      = if place = change.place then change.values else map.replay changes place := by
  rw [replay_append]
  rfl

/-- What is at a place depends on what was there before, and not on other places. -/
theorem replay_congr (same : map place = other place) (changes : List Change) :
    map.replay changes place = other.replay changes place := by
  -- Both maps take the same change, so they agree at the place after it again.
  induction changes generalizing map other with
  | nil => exact same
  | cons change rest ih =>
    refine ih ?_
    unfold apply
    rw [same]

/-- Changes at other places leave a place as it was. -/
theorem replay_apart (map : RecordMap) (apart : ∀ change ∈ changes, place ≠ change.place) :
    map.replay changes place = map place := by
  induction changes generalizing map with
  | nil => rfl
  | cons change rest ih =>
    have later := ih (map.apply change) fun other member => apart other (List.mem_cons_of_mem _ member)
    refine later.trans ?_
    unfold apply
    rw [if_neg (apart change List.mem_cons_self)]

end RecordMap

/-- What was committed, in the order of the commits, and what each transaction did since it last ended. -/
structure Ledger where
  committed : List Change
  pending : TransactionId → List Change

namespace Ledger

/-- Nothing was done yet. -/
def empty : Ledger := ⟨[], fun _ => []⟩

/-- Other pending changes of one transaction. -/
def withPending (ledger : Ledger) (transaction : TransactionId) (changes : List Change) : Ledger :=
  { ledger with pending := fun other => if other = transaction then changes else ledger.pending other }

/-- One more change that a transaction made. -/
def add (ledger : Ledger) (transaction : TransactionId) (change : Change) : Ledger :=
  ledger.withPending transaction (ledger.pending transaction ++ [change])

/-- What a transaction did is committed. -/
def commit (ledger : Ledger) (transaction : TransactionId) : Ledger where
  committed := ledger.committed ++ ledger.pending transaction
  pending := (ledger.withPending transaction []).pending

section Pending

variable (ledger : Ledger) (transaction owner : TransactionId)

theorem pending_withPending (changes : List Change) :
    (ledger.withPending transaction changes).pending owner
      = if owner = transaction then changes else ledger.pending owner := rfl

theorem pending_add (change : Change) : (ledger.add transaction change).pending owner
    = if owner = transaction then ledger.pending transaction ++ [change] else ledger.pending owner := rfl

theorem pending_commit : (ledger.commit transaction).pending owner
    = if owner = transaction then [] else ledger.pending owner := rfl

end Pending

/--
Notes what a command did.

Its answer tells whether it succeeded and where a record was stored; what was stored there is what the command says.
-/
def note (ledger : Ledger) : Command → Except Failure Reply → Ledger
  | .insert transaction _ record, .ok (.stored told) =>
    match told.place with
    | some place => ledger.add transaction ⟨place, some record.values⟩
    | none => ledger
  | .delete transaction record, .ok _ =>
    match record.place with
    | some place => ledger.add transaction ⟨place, none⟩
    | none => ledger
  | .finish transaction .commit, .ok _ => ledger.commit transaction
  | .finish transaction .abort, _ => ledger.withPending transaction []
  -- A command that failed changed no record, and looking at records changes none.
  | _, _ => ledger

/-- Notes what commands did, one after the other. -/
def noteAll (ledger : Ledger) (trace : List (Command × Except Failure Reply)) : Ledger :=
  trace.foldl (fun ledger entry => ledger.note entry.1 entry.2) ledger

/-- The ledger of commands and their answers, in order. -/
def ofTrace (trace : List (Command × Except Failure Reply)) : Ledger := empty.noteAll trace

end Ledger

namespace Standing

variable {standing other : Standing} {id : PageId} {place : RecordId}

/-- The records that are stored. -/
def recordMap (standing : Standing) : RecordMap := fun place =>
  (standing.stored? place.page).bind fun page => page.values? place.slot

/-- Every stored page can be read, and so can its records. -/
def Legible (standing : Standing) : Prop :=
  ∀ id image, standing.image? id = some image → ∃ page, Page.ofImage id image = .ok page ∧ page.Legible

/-- No store is told to fail. -/
def Quiet (standing : Standing) : Prop :=
  ∀ number, (standing.shown number).readsFail = false ∧ (standing.shown number).writesFail = false

/-- A database over one heap is not told to fail. -/
theorem quiet_overImages (settings : Settings) (images : List Bytes) :
    (Database.overImages settings images).standing.Quiet := by
  intro number
  rw [Database.overImages_shown]
  split
  · exact ⟨rfl, rfl⟩
  · exact ⟨rfl, rfl⟩

/-- A database over one heap is legible if each of its pages is. -/
theorem legible_overImages {settings : Settings} {images : List Bytes}
    (each : ∀ number image, images[number]? = some image →
      ∃ page, Page.ofImage ⟨1, number⟩ image = .ok page ∧ page.Legible) :
    (Database.overImages settings images).standing.Legible := by
  intro id image found
  rw [image?, Database.overImages_shown] at found
  split at found
  · rename_i here
    have name : id = ⟨1, id.number⟩ := by
      cases id
      exact congrArg (PageId.mk · _) here
    rw [name]
    exact each id.number image found
  · cases found

/-- The records of a page are those of its image. -/
theorem recordMap_congr (same : standing.image? place.page = other.image? place.page) :
    standing.recordMap place = other.recordMap place := by
  unfold recordMap stored?
  rw [same]

/-- The records of a page whose image is known are those read from it. -/
theorem recordMap_eq {image : Bytes} {page : Page} (found : standing.image? place.page = some image)
    (read : Page.ofImage place.page image = .ok page) :
    standing.recordMap place = page.values? place.slot := by
  unfold recordMap stored?
  rw [found, Option.bind_some, read]
  rfl

end Standing

namespace Database

open Standing

variable {kind : ImageKind} {before after : Database} {id : PageId} {place : RecordId}

/-- A heap that grows has new room, but no new records. -/
theorem Consistent.grows_image? {grown : Standing} {number : Nat} (consistent : before.Consistent kind)
    (grows : before.standing.Grows number grown) (id : PageId) :
    grown.image? id = before.standing.image? id ∨ before.standing.image? id = none
      ∧ ∃ image page, grown.image? id = some image ∧ Page.ofImage id image = .ok page
        ∧ page.cells = [] := by
  rcases grows with rfl | ⟨image, encoded, rfl⟩
  · exact .inl rfl
  -- A page of another table keeps its image; in this one the position decides.
  by_cases here : id.table = number
  · subst here
    rcases Nat.lt_trichotomy id.number (before.standing.shown id.table).images.length with
      within | last | past
    · left
      simp only [image?, withShown, ↓reduceIte]
      exact List.getElem?_append_left within
    · -- Only the image that was appended is new, and its page is empty.
      right
      have absent : before.standing.image? id = none := List.getElem?_eq_none (Nat.le_of_eq last.symm)
      refine ⟨absent, image, ?_⟩
      have found : (before.standing.withShown id.table { before.standing.shown id.table with
          images := (before.standing.shown id.table).images ++ [image] }).image? id = some image := by
        simp only [image?, withShown, ↓reduceIte]
        rw [List.getElem?_append_right (Nat.le_of_eq last.symm), last, Nat.sub_self]
        rfl
      cases registered : before.catalog.heap? id.table with
      | none =>
        -- A page of no size has no image.
        simp only [standing, registered, StoreView.nothing] at encoded
        cases encoded
      | some heap =>
        obtain ⟨least, most⟩ := pageSize_bounds consistent
        have size := consistent.orderly.sizes id.table heap registered
        obtain ⟨sound, _, cells, _⟩ := Page.empty_sound
          ⟨0, (before.standing.shown id.table).images.length⟩
          (size ▸ Nat.le_of_succ_le least) (size ▸ most)
        obtain ⟨page, read, agrees, _⟩ := sound.ofImage_image encoded id
        exact ⟨page, found, read, (agrees.symm.cells sound).symm.trans cells⟩
    · left
      simp only [image?, withShown, ↓reduceIte]
      rw [List.getElem?_eq_none (by simp; omega), List.getElem?_eq_none (Nat.le_of_lt past)]
  · left
    simp only [image?, withShown, if_neg here]

theorem Consistent.grows_recordMap {grown : Standing} {number : Nat} (consistent : before.Consistent kind)
    (grows : before.standing.Grows number grown) : grown.recordMap = before.standing.recordMap := by
  funext place
  rcases consistent.grows_image? grows place.page with same | ⟨absent, image, page, found, read, nothing⟩
  · exact recordMap_congr same
  · -- The new page has no cells, and there were no records where there was no page.
    rw [recordMap_eq found read, Page.values?, nothing, recordMap, Standing.stored?, absent]
    rfl

theorem Consistent.grows_legible {grown : Standing} {number : Nat} (consistent : before.Consistent kind)
    (grows : before.standing.Grows number grown) (legible : before.standing.Legible) : grown.Legible := by
  intro id image found
  rcases consistent.grows_image? grows id with same | ⟨_, new, page, there, read, nothing⟩
  · rw [same] at found
    exact legible id image found
  · rw [found, Option.some.injEq] at there
    subst there
    refine ⟨page, read, fun slot cell held => ?_⟩
    -- The new page has no cell that would have to be read.
    rw [nothing] at held
    cases held

/-- A page that was written has the records that it had when it was changed. -/
theorem Flushes.image?_written {done : List PageId} (flushes : Flushes kind done before after)
    (consistent : before.Consistent kind) (member : id ∈ done) {page : Page}
    (unwritten : before.standing.unwritten id = some page) :
    ∃ image read, after.standing.image? id = some image ∧ Page.ofImage id image = .ok read
      ∧ page.cells = read.cells := by
  obtain ⟨image, encoded, found⟩ := flushes.written id member page unwritten
  have sound := (consistent.fits_unwritten unwritten).sound
  obtain ⟨read, outcome, agrees, _⟩ := sound.ofImage_image encoded id
  exact ⟨image, read, found, outcome, agrees.symm.cells sound⟩

end Database

end HeapEngine

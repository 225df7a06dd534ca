import HeapEngine.Proofs.Page.Erase

/-!
A page behaves as a list of optional cells.

Whatever is asked of a page that began empty, the answers are those of the list, and what the page
holds is the list. Where cells lie, and how they move, cannot be told from the answers.
-/

namespace HeapEngine

/-- What a caller may ask of the cells of a page. -/
inductive CellRequest where
  | insert (cell : Bytes)
  | erase (slot : Nat)
  /-- Erases a record by the place it is stored in. -/
  | eraseRecord (record : Record)
  | look (slot : Nat)
deriving DecidableEq

/-- What a caller is told when a request succeeds. -/
inductive CellReply where
  | stored (slot : Nat)
  | erased
  | found (cell : Option Bytes)
deriving DecidableEq

/-- Nothing in memory is longer than half of the addresses there are. -/
def CellRequest.Addressable : CellRequest → Prop
  | insert cell => cell.length < 2 ^ 63
  | _ => True

namespace Page

/-- Does what a request asks for. -/
def serve (page : Page) : CellRequest → Outcome (Page × CellReply)
  | .insert cell => do
    let (page, slot) ← page.insert cell
    .ok (page, .stored slot)
  | .erase slot => do .ok (← page.erase slot, .erased)
  | .eraseRecord record => do .ok (← page.eraseRecord record, .erased)
  | .look slot => do .ok (page, .found (← page.cell? slot))

/-- Serves requests in turn. A failure leaves the page as it is, and only a trap ends the service. -/
def serveAll (page : Page) : List CellRequest →
    Except Trap (Page × List (Except Failure CellReply))
  | [] => .ok (page, [])
  | request :: rest =>
    match page.serve request with
    | .ok (after, reply) => (after.serveAll rest).map fun (last, replies) => (last, .ok reply :: replies)
    | .error (.failed failure) =>
      (page.serveAll rest).map fun (last, replies) => (last, .error failure :: replies)
    | .error (.trapped cause) => .error cause

end Page

namespace SlotList

/-- Whether the header, the directory with one more cell, the cells and the new one fit a page. -/
def hasRoom (list : SlotList) (size : Nat) (cell : Bytes) : Bool :=
  16 + 4 * (list.put cell).1.length + list.total + cell.length ≤ size

/-- Does to the list what a request asks of the page with a name and a size. -/
def serve (id : PageId) (size : Nat) (list : SlotList) :
    CellRequest → Except Failure (SlotList × CellReply)
  | .insert cell =>
    if cell = [] then .error (.encoding .emptyCell)
    else if list.hasRoom size cell then .ok ((list.put cell).1, .stored (list.put cell).2)
    else .error (.noRoom id)
  | .erase slot =>
    match list[slot]? with
    | some (some _) => .ok (list.remove slot, .erased)
    | some none => .error (.noRecord id slot)
    | none => .error (.noSlot slot list.length)
  | .eraseRecord record =>
    match record.place with
    | none => .error (.misuse .unplacedOnPage)
    | some place =>
      if place.page ≠ id then .error (.misuse (.onOtherPage place id))
      else
        -- A slot that is gone and a slot that is free are the same to a record.
        match list[place.slot]? with
        | some (some _) => .ok (list.remove place.slot, .erased)
        | _ => .error (.noRecord id place.slot)
  | .look slot => .ok (list, .found list[slot]?.join)

/-- Serves requests in turn. A failure leaves the list as it is. -/
def serveAll (id : PageId) (size : Nat) (list : SlotList) :
    List CellRequest → SlotList × List (Except Failure CellReply)
  | [] => (list, [])
  | request :: rest =>
    match list.serve id size request with
    | .ok (after, reply) =>
      let (last, replies) := after.serveAll id size rest
      (last, .ok reply :: replies)
    | .error failure =>
      let (last, replies) := list.serveAll id size rest
      (last, .error failure :: replies)

/-- A list becomes longer by a slot exactly if the page has to pay for one more entry. -/
theorem length_put (page : Page) (cell : Bytes) :
    4 * (page.cells.put cell).1.length = 4 * page.slots.length + page.entryCost := by
  simp only [put, Page.freeSlot?_cells, Page.entryCost, Page.entrySize]
  cases page.freeSlot? with
  | some index => simp
  | none =>
    simp
    omega

end SlotList

namespace Page

variable {page : Page}

/-- The empty page holds nothing, in a form that later pages keep. -/
theorem empty_sound (id : PageId) {size : Nat} (least : 20 ≤ size) (most : size ≤ 65535) :
    (empty id size).Sound ∧ (empty id size).Packed ∧ (empty id size).cells = []
      ∧ (empty id size).size = size := by
  have length : (empty id size).size = size := Bytes.length_zeros size
  have start : (empty id size).cellStart = size := Nat.mod_eq_of_lt (by unfold wordLimit; omega)
  have slots : (empty id size).slots = [] := rfl
  refine ⟨⟨?_, ?_, ?_, by simp [slots], ?_, by simp [slots]⟩, ?_, rfl, length⟩
  · rw [length]
    simp only [headerSize, entrySize]
    omega
  · rw [length]
    unfold wordLimit
    omega
  · rw [start, directoryEnd, slots]
    simp only [List.length_nil, headerSize]
    omega
  · rw [start, length, slots]
    exact Nat.le_refl _
  · rw [Packed, start, length, slots]
    rfl

namespace Sound

/-- On a packed page the rule of room is that of the list. -/
theorem hasRoom_iff (sound : page.Sound) (packed : page.Packed) {cell : Bytes} (nonempty : cell ≠ []) :
    page.cells.hasRoom page.size cell = true
      ↔ cell.length + page.entryCost ≤ page.cellStart - page.directoryEnd := by
  have length := SlotList.length_put page cell
  have directory := sound.directory
  have positive := List.length_pos_iff.2 nonempty
  unfold Packed at packed
  simp only [SlotList.hasRoom, sound.total_cells, decide_eq_true_eq]
  simp only [directoryEnd, headerSize, entrySize] at directory ⊢
  omega

/-- A record whose slot holds nothing is not found, whether the slot is free or gone. -/
theorem eraseRecord_gone (sound : page.Sound) {record : Record} {place : RecordId}
    (placed : record.place = some place) (here : place.page = page.id)
    (gone : ∀ cell, page.cells[place.slot]? ≠ some (some cell)) :
    page.eraseRecord record = fail (.noRecord page.id place.slot) := by
  simp only [eraseRecord, placed, here, ne_eq, not_true_eq_false, ↓reduceIte]
  -- Past the directory the record is refused at once; else its slot is free.
  by_cases beyond : page.slots.length ≤ place.slot
  · rw [if_pos beyond]
  · rw [if_neg beyond]
    have within : place.slot < page.cells.length := by
      rw [length_cells]
      omega
    refine sound.erase_free ?_
    cases held : page.cells[place.slot] with
    | none => rw [List.getElem?_eq_getElem within, held]
    | some cell => exact absurd (by rw [List.getElem?_eq_getElem within, held]) (gone cell)

/-- A record whose slot holds a cell is erased with it. -/
theorem eraseRecord_used (sound : page.Sound) {record : Record} {place : RecordId} {cell : Bytes}
    (placed : record.place = some place) (here : place.page = page.id)
    (used : page.cells[place.slot]? = some (some cell)) :
    ∃ after, page.eraseRecord record = .ok after ∧ page.Evolves after ∧ after.Packed
      ∧ after.cells = page.cells.remove place.slot := by
  obtain ⟨after, erased, facts⟩ := sound.erase_used used
  have within := (List.getElem?_eq_some_iff.1 used).1
  rw [length_cells] at within
  refine ⟨after, ?_, facts⟩
  simp [eraseRecord, placed, here, Nat.not_le.2 within, erased]

/-- One request has the same answer from a packed page as from its list of cells. -/
theorem serve_eq (sound : page.Sound) (packed : page.Packed) {request : CellRequest}
    (addressable : request.Addressable) :
    match page.cells.serve page.id page.size request with
    | .ok (list, reply) => ∃ after, page.serve request = .ok (after, reply)
        ∧ page.Evolves after ∧ after.cells = list
    | .error failure => page.serve request = fail failure := by
  have unchanged : page.Evolves page := ⟨rfl, rfl, rfl, sound, fun packed => packed⟩
  cases request with
  | insert cell =>
    -- An empty cell is refused before anybody asks for room.
    by_cases nonempty : cell = []
    · simp [SlotList.serve, serve, Page.insert, nonempty, fail, Bind.bind, Except.bind]
    have inserted := sound.insert_eq nonempty (by
      simp only [CellRequest.Addressable] at addressable
      simp only [entrySize, sizeLimit]
      omega)
    -- The page compares with its free space, the list with all that is stored.
    have rule := sound.hasRoom_iff packed nonempty
    by_cases room : cell.length + page.entryCost ≤ page.cellStart - page.directoryEnd
    · obtain ⟨evolves, cells⟩ := sound.withCell_evolves nonempty room
      simp only [SlotList.serve, nonempty, ↓reduceIte, rule.2 room]
      refine ⟨page.withCell cell, ?_, evolves, cells⟩
      simp [serve, inserted, room, Bind.bind, Except.bind]
    · simp only [SlotList.serve, nonempty, ↓reduceIte, mt rule.1 room, Bool.false_eq_true]
      simp [serve, inserted, room, fail, Bind.bind, Except.bind]
  | erase slot =>
    simp only [SlotList.serve]
    split
    · rename_i list reply answered
      split at answered <;> cases answered
      rename_i cell used
      obtain ⟨after, erased, evolves, _, cells⟩ := sound.erase_used used
      exact ⟨after, by simp [serve, erased, Bind.bind, Except.bind], evolves, cells⟩
    · rename_i failure answered
      split at answered <;> cases answered
      · rename_i free
        simp [serve, sound.erase_free free, fail, Bind.bind, Except.bind]
      · rename_i beyond
        simp [serve, erase_beyond (List.getElem?_eq_none_iff.1 beyond), fail, Bind.bind, Except.bind]
  | eraseRecord record =>
    cases placed : record.place with
    | none => simp [SlotList.serve, serve, Page.eraseRecord, placed, fail, Bind.bind, Except.bind]
    | some place =>
      by_cases here : place.page = page.id
      · -- Whether the slot is free or gone, the answer is the same.
        cases held : page.cells[place.slot]?.join with
        | none =>
          have gone : ∀ cell, page.cells[place.slot]? ≠ some (some cell) := fun cell used => by
            rw [used] at held
            cases held
          have refused := sound.eraseRecord_gone placed here gone
          simp only [SlotList.serve, placed, here, ne_eq, not_true_eq_false, ↓reduceIte]
          simp [serve, refused, fail, Bind.bind, Except.bind]
        | some cell =>
          have used := Option.join_eq_some_iff.1 held
          obtain ⟨after, erased, evolves, _, cells⟩ := sound.eraseRecord_used placed here used
          simp only [SlotList.serve, placed, here, ne_eq, not_true_eq_false, ↓reduceIte, used]
          exact ⟨after, by simp [serve, erased, Bind.bind, Except.bind], evolves, cells⟩
      · simp [SlotList.serve, serve, Page.eraseRecord, placed, here, fail, Bind.bind, Except.bind]
  | look slot =>
    refine ⟨page, ?_, unchanged, rfl⟩
    simp [serve, sound.cell?_eq slot, Bind.bind, Except.bind]

/-- All requests have the same answers from a packed page as from its list of cells. -/
theorem serveAll_eq (sound : page.Sound) (packed : page.Packed) {requests : List CellRequest}
    (addressable : ∀ request ∈ requests, request.Addressable) :
    ∃ after, page.serveAll requests
        = .ok (after, (page.cells.serveAll page.id page.size requests).2)
      ∧ after.cells = (page.cells.serveAll page.id page.size requests).1 := by
  -- What one request leaves is packed again, so the next one finds what it needs.
  induction requests generalizing page with
  | nil => exact ⟨page, rfl, rfl⟩
  | cons request rest ih =>
    have step := sound.serve_eq packed (addressable request (by simp))
    have later : ∀ other ∈ rest, other.Addressable := fun other member =>
      addressable other (by simp [member])
    simp only [SlotList.serveAll, serveAll]
    cases answer : page.cells.serve page.id page.size request with
    | ok result =>
      obtain ⟨list, reply⟩ := result
      rw [answer] at step
      obtain ⟨after, served, evolves, rfl⟩ := step
      obtain ⟨last, servedAll, cells⟩ := ih evolves.sound (evolves.packed packed) later
      rw [evolves.id, evolves.size] at servedAll cells
      exact ⟨last, by simp [served, servedAll, Except.map], by simpa using cells⟩
    | error failure =>
      rw [answer] at step
      obtain ⟨last, servedAll, cells⟩ := ih sound packed later
      exact ⟨last, by simp [step, fail, servedAll, Except.map], by simpa using cells⟩

end Sound

/--
A page that began empty answers every sequence of requests as the empty list of cells does, without
a trap, and holds afterwards what that list holds.
-/
theorem serveAll_empty {id : PageId} {size : Nat} {requests : List CellRequest}
    (least : 21 ≤ size) (most : size ≤ 65535)
    (addressable : ∀ request ∈ requests, request.Addressable) :
    ∃ page, (empty id size).serveAll requests
        = .ok (page, (SlotList.serveAll id size [] requests).2)
      ∧ page.cells = (SlotList.serveAll id size [] requests).1 := by
  -- The empty page is packed, and its list of cells is the empty one.
  obtain ⟨sound, packed, cells, sized⟩ := empty_sound id (Nat.le_of_succ_le least) most
  have served := sound.serveAll_eq packed addressable
  rwa [cells, sized] at served

/-- A slot freed below another one is used again, and the page is full when a byte is missing. -/
theorem serveAll_empty_reuse :
    (21 ≤ 30 ∧ 30 ≤ 65535 ∧ ∀ request ∈ ([.insert [1, 2], .insert [3, 4], .erase 0, .insert [5, 6, 7, 8, 9],
        .insert [5, 6, 7, 8], .look 1, .erase 2, .eraseRecord ⟨some ⟨⟨1, 0⟩, 0⟩, []⟩] : List CellRequest),
        request.Addressable)
      ∧ ∃ page, (empty ⟨1, 0⟩ 30).serveAll [.insert [1, 2], .insert [3, 4], .erase 0,
          .insert [5, 6, 7, 8, 9], .insert [5, 6, 7, 8], .look 1, .erase 2, .eraseRecord ⟨some ⟨⟨1, 0⟩, 0⟩, []⟩]
        = .ok (page, [.ok (.stored 0), .ok (.stored 1), .ok .erased, .error (.noRoom ⟨1, 0⟩),
          .ok (.stored 0), .ok (.found (some [3, 4])), .error (.noSlot 2 2), .ok .erased])
      ∧ page.cells = [none, some [3, 4]] := by
  have addressable : ∀ request ∈ ([.insert [1, 2], .insert [3, 4], .erase 0, .insert [5, 6, 7, 8, 9],
      .insert [5, 6, 7, 8], .look 1, .erase 2, .eraseRecord ⟨some ⟨⟨1, 0⟩, 0⟩, []⟩] : List CellRequest),
      request.Addressable := by simp [CellRequest.Addressable]
  exact ⟨⟨by decide, by decide, addressable⟩,
    serveAll_empty (by decide : 21 ≤ 30) (by decide) addressable⟩

end Page

end HeapEngine

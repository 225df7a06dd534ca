import HeapEngine.Proofs.Page.Image
import HeapEngine.Proofs.Page.Records

/-!
A page whose cells have room side by side can be used.

Requests on it do not trap, each changes at most the slot it is about, and the image of what they leave
is read back. Reading an image checks every cell alone, so cells that overlap may be read that have no
room side by side; the first one erased from such a page can end in a trap.
-/

namespace HeapEngine

/-- What a request that succeeds puts into a slot, if it changes the slot. -/
def CellRequest.puts (reply : CellReply) (slot : Nat) : CellRequest → Option (Option Bytes)
  | .insert cell => if reply = .stored slot then some (some cell) else none
  | .erase erased => if erased = slot then some none else none
  | .eraseRecord record => if record.place.map RecordId.slot = some slot then some none else none
  | .look _ => none

namespace SlotList

/-- A cell is put into a slot that held nothing. -/
theorem join_put_free (list : SlotList) (cell : Bytes) : list[(list.put cell).2]?.join = none := by
  unfold put
  cases free : list.freeSlot? with
  | some index =>
    obtain ⟨within, nothing, _⟩ := List.findIdx?_eq_some_iff_getElem.1 free
    rw [List.getElem?_eq_getElem within, Option.isNone_iff_eq_none.1 nothing]
    rfl
  | none => simp

end SlotList

namespace Page

variable {page : Page}

/-- A form later than a later one is a later form. -/
theorem Evolves.trans {last after : Page} (first : page.Evolves after) (second : after.Evolves last) :
    page.Evolves last :=
  ⟨second.id.trans first.id, second.size.trans first.size, second.changedBy.trans first.changedBy,
    second.sound, fun packed => second.packed (first.packed packed)⟩

/-- What a request that succeeds does to a page: it changes its own slot, and no other. -/
structure Answers (page : Page) (request : CellRequest) (reply : CellReply) (after : Page) : Prop where
  evolves : page.Evolves after
  /-- Every other slot holds the cell it held. -/
  shown : ∀ slot, after.cells[slot]?.join = (request.puts reply slot).getD page.cells[slot]?.join
  /-- No cell is put where another one is. -/
  free : ∀ cell slot, request = .insert cell → reply = .stored slot → page.cells[slot]?.join = none

namespace Sound

/-- A request to a sound page is answered or refused, without a trap. -/
theorem serve_ends (sound : page.Sound) {request : CellRequest} (addressable : request.Addressable) :
    (∃ after reply, page.serve request = .ok (after, reply) ∧ page.Answers request reply after)
      ∨ ∃ failure, page.serve request = fail failure := by
  cases request with
  | insert cell =>
    -- The cell and its directory entry fit into a word, as they do where the cell is addressable.
    have short : cell.length + entrySize < sizeLimit := by
      simp only [CellRequest.Addressable] at addressable
      simp only [entrySize, sizeLimit]
      omega
    rcases sound.insert_ends short with ⟨after, inserted, evolves, cells⟩ | ⟨failure, refused⟩
    · refine .inl ⟨after, .stored (page.cells.put cell).2,
        by simp [serve, inserted, Bind.bind, Except.bind], evolves, fun slot => ?_, ?_⟩
      · -- The list of cells has the new one in the slot that is told.
        rw [cells, SlotList.join_put, CellRequest.puts]
        by_cases here : slot = (page.cells.put cell).2
        · simp [here]
        · simp [here, Ne.symm here]
      · intro _ slot _ told
        cases told
        exact page.cells.join_put_free cell
    · exact .inr ⟨failure, by simp [serve, refused, fail, Bind.bind, Except.bind]⟩
  | erase index =>
    rcases sound.erase_ends index with ⟨after, erased, evolves, cells⟩ | ⟨failure, refused⟩
    · refine .inl ⟨after, .erased, by simp [serve, erased, Bind.bind, Except.bind], evolves,
        fun slot => ?_, by simp⟩
      rw [cells, SlotList.join_remove, CellRequest.puts]
      by_cases here : index = slot
      · simp [here]
      · simp [here, Ne.symm here]
    · exact .inr ⟨failure, by simp [serve, refused, fail, Bind.bind, Except.bind]⟩
  | eraseRecord record =>
    rcases sound.eraseRecord_ends record with
      ⟨after, place, _, erased, evolves, placed, _, _, cells⟩ | ⟨failure, refused⟩
    · refine .inl ⟨after, .erased, by simp [serve, erased, Bind.bind, Except.bind], evolves,
        fun slot => ?_, by simp⟩
      rw [cells, SlotList.join_remove, CellRequest.puts, placed]
      by_cases here : place.slot = slot
      · simp [here]
      · simp [here, Ne.symm here]
    · exact .inr ⟨failure, by simp [serve, refused, fail, Bind.bind, Except.bind]⟩
  | look slot =>
    refine .inl ⟨page, .found page.cells[slot]?.join,
      by simp [serve, sound.cell?_eq slot, Bind.bind, Except.bind], ?_, fun _ => rfl, by simp⟩
    exact ⟨rfl, rfl, rfl, sound, fun packed => packed⟩

/-- All requests to a sound page are answered or refused, and leave a sound page of the same name. -/
theorem serveAll_ends (sound : page.Sound) {requests : List CellRequest}
    (addressable : ∀ request ∈ requests, request.Addressable) :
    ∃ last replies, page.serveAll requests = .ok (last, replies) ∧ page.Evolves last := by
  -- A page stays sound whichever way a request goes, so the next one meets what the first one met.
  induction requests generalizing page with
  | nil => exact ⟨page, [], rfl, rfl, rfl, rfl, sound, fun packed => packed⟩
  | cons request rest ih =>
    have later : ∀ other ∈ rest, other.Addressable := fun other member =>
      addressable other (List.mem_cons_of_mem _ member)
    rcases sound.serve_ends (addressable request List.mem_cons_self) with
      ⟨after, reply, served, answers⟩ | ⟨failure, refused⟩
    · obtain ⟨last, replies, servedAll, evolves⟩ := ih answers.evolves.sound later
      exact ⟨last, .ok reply :: replies, by simp [serveAll, served, servedAll, Except.map],
        answers.evolves.trans evolves⟩
    · -- A request that is refused leaves the page as it is.
      obtain ⟨last, replies, servedAll, evolves⟩ := ih sound later
      exact ⟨last, .error failure :: replies, by simp [serveAll, refused, fail, servedAll, Except.map],
        evolves⟩

end Sound

/--
A page that is read from an image, and whose cells have room side by side, can be used for ever.

No sequence of requests traps, the image of what it leaves is read back as a page that agrees, and the
next request changes only the slot it is about.
-/
theorem ofImage_usable {id : PageId} {image : Bytes} {page : Page} {requests : List CellRequest}
    (read : ofImage id image = .ok page) (room : page.cellStart + Slot.total page.slots ≤ page.size)
    (addressable : ∀ request ∈ requests, request.Addressable) :
    ∃ last replies, page.serveAll requests = .ok (last, replies)
      ∧ (∃ written again, last.image = .ok written ∧ ofImage id written = .ok again
        ∧ again.Agrees last ∧ again.cells = last.cells)
      ∧ ∀ request : CellRequest, request.Addressable →
        (∃ after reply, last.serve request = .ok (after, reply) ∧ last.Answers request reply after)
          ∨ ∃ failure, last.serve request = fail failure := by
  obtain ⟨last, replies, served, evolves⟩ := (ofImage_sound read room).serveAll_ends addressable
  obtain ⟨written, encoded, _⟩ := evolves.sound.exists_image
  obtain ⟨again, decoded, agrees, _, _⟩ := evolves.sound.ofImage_image encoded id
  exact ⟨last, replies, served,
    ⟨written, again, encoded, decoded, agrees, (agrees.symm.cells evolves.sound).symm⟩,
    fun _ addressable => evolves.sound.serve_ends addressable⟩

/-- An outcome whose result is known is that result. -/
theorem eq_ok_of_toOption {α : Type} {outcome : Outcome α} {result : α}
    (told : outcome.toOption = some result) : outcome = .ok result := by
  cases outcome with
  | error fault => cases told
  | ok value =>
    cases told
    rfl

/-- The image of a page with three cells of ten bytes, all in the same place. -/
def sharedImage : Bytes :=
  [126, 60, 251, 33] ++ [3, 0, 28, 0] ++ Bytes.zeros 8 ++ [50, 0, 10, 0, 50, 0, 10, 0, 50, 0, 10, 0] ++ Bytes.zeros 32

/-- What that image holds. -/
def shared : Page :=
  ⟨⟨1, 0⟩, [⟨50, 10⟩, ⟨50, 10⟩, ⟨50, 10⟩], 28, sharedImage, none⟩

/-- Cells in one place do no harm where there is room for all of them. -/
theorem ofImage_usable_shared :
    (ofImage ⟨1, 0⟩ sharedImage = .ok shared ∧ shared.cellStart + Slot.total shared.slots ≤ shared.size
      ∧ ∀ request ∈ ([.erase 0, .insert [1, 2]] : List CellRequest), request.Addressable)
      ∧ ∃ last replies, shared.serveAll [.erase 0, .insert [1, 2]] = .ok (last, replies)
        ∧ (∃ written again, last.image = .ok written ∧ ofImage ⟨1, 0⟩ written = .ok again
          ∧ again.Agrees last ∧ again.cells = last.cells)
        ∧ ∀ request : CellRequest, request.Addressable →
          (∃ after reply, last.serve request = .ok (after, reply) ∧ last.Answers request reply after)
            ∨ ∃ failure, last.serve request = fail failure := by
  have decoded : (ofImage ⟨1, 0⟩ sharedImage).toOption = some shared := by decide +kernel
  have read := eq_ok_of_toOption decoded
  have room : shared.cellStart + Slot.total shared.slots ≤ shared.size := by decide
  have addressable : ∀ request ∈ ([.erase 0, .insert [1, 2]] : List CellRequest),
      request.Addressable := by simp [CellRequest.Addressable]
  exact ⟨⟨read, room, addressable⟩, ofImage_usable read room addressable⟩

/-- The image of a page with three cells of all its space, all in the same place. -/
def overlappingImage : Bytes :=
  [56, 2, 166, 35] ++ [3, 0, 28, 0] ++ Bytes.zeros 8 ++ [28, 0, 32, 0, 28, 0, 32, 0, 28, 0, 32, 0] ++ Bytes.zeros 32

/-- What that image holds. -/
def overlapping : Page :=
  ⟨⟨1, 0⟩, [⟨28, 32⟩, ⟨28, 32⟩, ⟨28, 32⟩], 28, overlappingImage, none⟩

/-- Two of the three cells are left to move. -/
theorem inUse_overlapping : inUse (trimFree (overlapping.slots.set 0 .free))
    = [(⟨28, 32⟩, 1), (⟨28, 32⟩, 2)] := by
  simp [inUse, trimFree, overlapping, Slot.isFree, Slot.free, List.zipIdx, List.mergeSort,
    List.MergeSort.Internal.splitInTwo]

/-- Such an image is read, and the first cell erased from it ends in a trap. -/
theorem overlapping_traps : ofImage ⟨1, 0⟩ overlappingImage = .ok overlapping
    ∧ overlapping.serve (.erase 0) = trap .overflow := by
  have decoded : (ofImage ⟨1, 0⟩ overlappingImage).toOption = some overlapping := by decide +kernel
  refine ⟨eq_ok_of_toOption decoded, ?_⟩
  -- There is no room for the second of the cells that are left.
  have packed : pack { overlapping with slots := trimFree (overlapping.slots.set 0 .free) }
      = trap .overflow := by
    unfold pack
    rw [inUse_overlapping]
    rfl
  show (pack { overlapping with slots := trimFree (overlapping.slots.set 0 .free) } >>= _) = _
  rw [packed]
  rfl

end Page

end HeapEngine

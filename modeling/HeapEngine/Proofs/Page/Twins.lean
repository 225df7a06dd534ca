import HeapEngine.Proofs.Page.Encodable
import HeapEngine.Proofs.Page.Usable

/-!
Pages that agree cannot be told apart.

A page that is read back has other bytes below its cells than the page that was written. No request
shows them: what is asked of both has the same answers, and they agree again afterwards.
-/

namespace HeapEngine

/-- The same fault, or results that correspond. -/
inductive Outcome.Alike {α β : Type} (corresponds : α → β → Prop) : Outcome α → Outcome β → Prop
  | result {a : α} {b : β} : corresponds a b → Outcome.Alike corresponds (.ok a) (.ok b)
  | fault (fault : Fault) : Outcome.Alike corresponds (.error fault) (.error fault)

namespace Outcome.Alike

variable {α β γ δ : Type} {corresponds : α → β → Prop} {later : γ → δ → Prop}

/-- Steps in turn correspond if each does. -/
theorem bind {first : Outcome α} {second : Outcome β} {next : α → Outcome γ} {other : β → Outcome δ}
    (alike : Alike corresponds first second)
    (continued : ∀ a b, corresponds a b → Alike later (next a) (other b)) :
    Alike later (first >>= next) (second >>= other) := by
  cases alike with
  | result same => exact continued _ _ same
  | fault fault => exact .fault fault

/-- After the same step the ways on have to correspond. -/
theorem after {first : Outcome α} {next : α → Outcome γ} {other : α → Outcome δ}
    (continued : ∀ a, first = .ok a → Alike later (next a) (other a)) :
    Alike later (first >>= next) (first >>= other) := by
  cases first with
  | ok value => exact continued value rfl
  | error fault => exact .fault fault

end Outcome.Alike

namespace Page

/-- Two pages of one name that agree. -/
structure Twins (a b : Page) : Prop where
  id : a.id = b.id
  agrees : a.Agrees b

variable {a b : Page}

/-- The cell of a slot in use is the same bytes in pages that agree. -/
theorem Agrees.cellAt (agrees : a.Agrees b) {slot : Slot} (among : a.cellStart ≤ slot.offset) :
    a.cellAt slot = b.cellAt slot := by
  have tail := agrees.stored
  rw [← agrees.cellStart] at tail
  -- The cell is read from the lowest cell on, where the pages have the same bytes.
  have bytes : a.buffer.window slot.offset slot.length = b.buffer.window slot.offset slot.length := by
    rw [Bytes.window_drop _ a.buffer among, tail, ← Bytes.window_drop _ b.buffer among]
  rw [Page.cellAt, Page.cellAt, agrees.size, bytes]

/-- Packing moves the same bytes to the same places in pages that agree. -/
theorem Agrees.foldlM_packCell (agrees : a.Agrees b) {entries : List (Slot × Nat)}
    (among : ∀ entry ∈ entries, a.cellStart ≤ entry.1.offset) (packing : Packing) :
    entries.foldlM a.packCell packing = entries.foldlM b.packCell packing := by
  induction entries generalizing packing with
  | nil => rfl
  | cons entry rest ih =>
    have moved : a.packCell packing entry = b.packCell packing entry := by
      rw [packCell, packCell, agrees.cellAt (among entry List.mem_cons_self)]
    rw [List.foldlM_cons, List.foldlM_cons, moved]
    congr 1
    funext next
    exact ih (fun other member => among other (List.mem_cons_of_mem _ member)) next

/-- Room is counted from the directory and the lowest cell alone. -/
theorem Agrees.fits (agrees : a.Agrees b) (length : Nat) : a.fits length = b.fits length := by
  have room : a.room = b.room := by
    rw [Page.room, Page.room, directoryEnd, directoryEnd, agrees.slots, agrees.cellStart]
  have cost : a.entryCost = b.entryCost := by
    rw [entryCost, entryCost, freeSlot?, freeSlot?, agrees.slots]
  rw [Page.fits, Page.fits, room, cost]

namespace Twins

theorem refl (page : Page) : page.Twins page := ⟨rfl, .refl page⟩

theorem symm (twins : a.Twins b) : b.Twins a := ⟨twins.id.symm, twins.agrees.symm⟩

/-- A cell that is written right below the others leaves pages that agree. -/
theorem overwrite (twins : a.Twins b) {cell : Bytes} (below : cell.length ≤ a.cellStart)
    (within : a.cellStart ≤ a.size) :
    (a.buffer.overwrite (a.cellStart - cell.length) cell).drop (a.cellStart - cell.length)
        = (b.buffer.overwrite (a.cellStart - cell.length) cell).drop (a.cellStart - cell.length)
      ∧ (a.buffer.overwrite (a.cellStart - cell.length) cell).length
        = (b.buffer.overwrite (a.cellStart - cell.length) cell).length := by
  have size := twins.agrees.size
  have tail := twins.agrees.stored
  rw [← twins.agrees.cellStart] at tail
  unfold Page.size at size within
  have begins : a.cellStart - cell.length + cell.length = a.cellStart := by omega
  refine ⟨?_, ?_⟩
  · -- From the new cell on there is the cell, and then what both pages had.
    rw [Bytes.drop_overwrite_self (by omega), Bytes.drop_overwrite_self (by omega), begins, tail]
  · rw [Bytes.length_overwrite (by omega), Bytes.length_overwrite (by omega), size]

/-- A cell goes to the same place in both pages, or it is refused by both. -/
theorem insert (twins : a.Twins b) (cell : Bytes) :
    Outcome.Alike (fun x y => x.1.Twins y.1 ∧ x.2 = y.2) (a.insert cell) (b.insert cell) := by
  have slots := twins.agrees.slots
  have start := twins.agrees.cellStart
  have assigned : ∀ entry, a.assign entry = b.assign entry := fun entry => by
    rw [assign, assign, freeSlot?, freeSlot?, slots]
  unfold Page.insert
  split
  · exact .fault _
  rw [← twins.agrees.fits cell.length]
  refine .after fun fitting counted => ?_
  cases fitting with
  | false =>
    rw [twins.id]
    exact .fault _
  | true =>
    have room := le_of_fits counted
    have below : cell.length ≤ a.cellStart := by omega
    simp only [Bool.not_true, Bool.false_eq_true, ↓reduceIte, ← twins.agrees.size, ← start, assigned]
    split
    · exact .fault _
    rename_i within
    obtain ⟨stored, length⟩ := twins.overwrite below (by omega)
    exact .result ⟨⟨twins.id, rfl, rfl, length, stored⟩, rfl⟩

section Sound

variable (twins : a.Twins b) (sound : a.Sound)

include twins sound

/-- The cells of both pages move to the same places. -/
theorem pack : Outcome.Alike Twins a.pack b.pack := by
  have slots := twins.agrees.slots
  have size := twins.agrees.size
  -- Only slots in use are packed, and those are where the pages have the same bytes.
  have among : ∀ entry ∈ inUse b.slots, a.cellStart ≤ entry.1.offset := fun entry member => by
    obtain ⟨found, used⟩ := mem_inUse.1 member
    rw [← slots] at found
    exact (sound.inside entry.1 (List.mem_of_getElem? found) used).1
  unfold Page.pack
  rw [slots, size, twins.agrees.foldlM_packCell among]
  exact .after fun packing _ => .result ⟨twins.id, ⟨rfl, rfl, rfl, rfl⟩⟩

/-- A slot is freed on both pages, or on neither. -/
theorem erase (index : Nat) : Outcome.Alike Twins (a.erase index) (b.erase index) := by
  have vacated : (a.vacate index).Twins (b.vacate index) := by
    have agrees := twins.agrees
    refine ⟨twins.id, ⟨?_, agrees.cellStart, agrees.size, agrees.stored⟩⟩
    simp only [Page.vacate, agrees.slots]
  unfold Page.erase
  rw [← twins.agrees.slots, ← twins.id]
  split
  · exact .fault _
  split
  · exact .fault _
  · have packed := vacated.pack (sound.vacate index)
    simpa only [Page.vacate, twins.agrees.slots, twins.id] using packed

/-- A record is erased from both pages, or from neither. -/
theorem eraseRecord (record : Record) :
    Outcome.Alike Twins (a.eraseRecord record) (b.eraseRecord record) := by
  unfold Page.eraseRecord
  rw [← twins.agrees.slots, ← twins.id]
  cases record.place with
  | none => exact .fault _
  | some place =>
    simp only
    split
    · exact .fault _
    split
    · exact .fault _
    · exact twins.erase sound place.slot

/-- Both pages show the same cell in every slot. -/
theorem cell?_eq (index : Nat) : a.cell? index = b.cell? index := by
  rw [sound.cell?_eq, (twins.agrees.sound sound).cell?_eq, twins.agrees.cells sound]

/-- Every request is answered alike. -/
theorem serve (request : CellRequest) :
    Outcome.Alike (fun x y => x.1.Twins y.1 ∧ x.2 = y.2) (a.serve request) (b.serve request) := by
  cases request with
  | insert cell =>
    refine (twins.insert cell).bind fun x y same => ?_
    exact .result ⟨same.1, congrArg CellReply.stored same.2⟩
  | erase slot =>
    exact (twins.erase sound slot).bind fun x y same => .result ⟨same, rfl⟩
  | eraseRecord record =>
    exact (twins.eraseRecord sound record).bind fun x y same => .result ⟨same, rfl⟩
  | look slot =>
    simp only [Page.serve, twins.cell?_eq sound slot]
    exact .after fun cell _ => .result ⟨twins, rfl⟩

/-- All requests have the same answers on both pages, and leave pages that agree and can be stored. -/
theorem serveAll {requests : List CellRequest} (addressable : ∀ request ∈ requests, request.Addressable) :
    ∃ after other replies, a.serveAll requests = .ok (after, replies)
      ∧ b.serveAll requests = .ok (other, replies) ∧ after.Twins other ∧ after.Sound := by
  induction requests generalizing a b with
  | nil => exact ⟨a, b, [], rfl, rfl, twins, sound⟩
  | cons request rest ih =>
    have later : ∀ other ∈ rest, other.Addressable := fun other member =>
      addressable other (List.mem_cons_of_mem _ member)
    have alike := twins.serve sound request
    rcases sound.serve_ends (addressable request List.mem_cons_self) with
      ⟨next, reply, served, answers⟩ | ⟨failure, refused⟩
    · -- What the request leaves on both pages agrees, and the rest of the requests meets it.
      rw [served] at alike
      cases told : b.serve request with
      | error fault => rw [told] at alike; cases alike
      | ok result =>
        rw [told] at alike
        cases alike with
        | result same =>
          obtain ⟨nextTwins, replies⟩ := same
          obtain ⟨other, reply'⟩ := result
          cases replies
          obtain ⟨after, last, replies, servedAll, toldAll, facts⟩ := ih nextTwins answers.evolves.sound later
          exact ⟨after, last, .ok reply :: replies, by simp [Page.serveAll, served, servedAll, Except.map],
            by simp [Page.serveAll, told, toldAll, Except.map], facts⟩
    · rw [refused] at alike
      cases told : b.serve request with
      | ok result => rw [told] at alike; cases alike
      | error fault =>
        rw [told] at alike
        cases alike
        obtain ⟨after, last, replies, servedAll, toldAll, facts⟩ := ih twins sound later
        exact ⟨after, last, .error failure :: replies,
          by simp [Page.serveAll, refused, fail, servedAll, Except.map],
          by simp [Page.serveAll, told, toldAll, Except.map], facts⟩

end Sound

end Twins

/--
The page has an image that reads back as a page which nobody can tell from it.

The page that is read is clean and has the same directory, the same lowest cell and the same cells.
After every further sequence of requests both pages have given the same answers and have the same image.
-/
def RoundTrips (page : Page) : Prop :=
  ∃ image read, page.image = .ok image ∧ ofImage page.id image = .ok read
    ∧ read.id = page.id ∧ read.changedBy = none ∧ read.slots = page.slots
    ∧ read.cellStart = page.cellStart ∧ read.cells = page.cells
    ∧ ∀ further : List CellRequest, (∀ request ∈ further, request.Addressable) →
      ∃ last lastRead replies lastImage, page.serveAll further = .ok (last, replies)
        ∧ read.serveAll further = .ok (lastRead, replies)
        ∧ last.image = .ok lastImage ∧ lastRead.image = .ok lastImage

/-- A sound page reads back. -/
theorem Sound.roundTrips {page : Page} (sound : page.Sound) : page.RoundTrips := by
  obtain ⟨image, encoded, _⟩ := sound.exists_image
  obtain ⟨read, decoded, agrees, named, clean⟩ := sound.ofImage_image encoded page.id
  have twins : page.Twins read := ⟨named.symm, agrees.symm⟩
  refine ⟨image, read, encoded, decoded, named, clean, agrees.slots, agrees.cellStart,
    (agrees.symm.cells sound).symm, fun further addressable => ?_⟩
  -- What the requests leave on both pages agrees, so it has one image.
  obtain ⟨last, lastRead, replies, kept, keptRead, lastTwins, lastSound⟩ :=
    twins.serveAll sound addressable
  obtain ⟨lastImage, told, _⟩ := lastSound.exists_image
  exact ⟨last, lastRead, replies, lastImage, kept, keptRead, told, lastTwins.agrees.image ▸ told⟩

/-- Whatever was asked of a page that began empty, the page that it has become reads back. -/
theorem roundTrips_empty {id : PageId} {size : Nat} {history : List CellRequest}
    (least : 21 ≤ size) (most : size ≤ 65535)
    (addressable : ∀ request ∈ history, request.Addressable) :
    ∃ page answers, (empty id size).serveAll history = .ok (page, answers) ∧ page.RoundTrips := by
  obtain ⟨emptySound, _⟩ := empty_sound id (Nat.le_of_succ_le least) most
  obtain ⟨page, answers, served, evolves⟩ := emptySound.serveAll_ends addressable
  exact ⟨page, answers, served, evolves.sound.roundTrips⟩

/-- A page of the least size, once full, reads back. -/
theorem roundTrips_empty_full : (21 ≤ 21 ∧ 21 ≤ 65535
      ∧ ∀ request ∈ ([.insert [7], .insert [8], .look 0] : List CellRequest), request.Addressable)
    ∧ ∃ page answers, (empty ⟨1, 0⟩ 21).serveAll [.insert [7], .insert [8], .look 0]
      = .ok (page, answers) ∧ page.RoundTrips := by
  have addressable : ∀ request ∈ ([.insert [7], .insert [8], .look 0] : List CellRequest),
      request.Addressable := by simp [CellRequest.Addressable]
  exact ⟨⟨by decide, by decide, addressable⟩,
    roundTrips_empty (by decide : 21 ≤ 21) (by decide) addressable⟩

end Page

end HeapEngine

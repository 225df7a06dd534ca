import HeapEngine.Page.Image
import HeapEngine.Proofs.Operation
import HeapEngine.Proofs.Page.Behaviour

/-!
The image of a page reads back as a page that nobody can tell from it.

Bytes below the cells have no meaning, so the page read back agrees with the one written on the
directory and on what lies from the lowest cell on.
-/

namespace HeapEngine.Page

/-- Two pages have the same directory and the same bytes from the lowest cell on. -/
structure Agrees (a b : Page) : Prop where
  slots : a.slots = b.slots
  cellStart : a.cellStart = b.cellStart
  size : a.size = b.size
  stored : a.buffer.drop a.cellStart = b.buffer.drop b.cellStart

namespace Agrees

variable {a b c : Page}

theorem refl (page : Page) : page.Agrees page := ⟨rfl, rfl, rfl, rfl⟩

theorem symm (agrees : a.Agrees b) : b.Agrees a :=
  ⟨agrees.slots.symm, agrees.cellStart.symm, agrees.size.symm, agrees.stored.symm⟩

theorem trans (first : a.Agrees b) (second : b.Agrees c) : a.Agrees c :=
  ⟨first.slots.trans second.slots, first.cellStart.trans second.cellStart,
    first.size.trans second.size, first.stored.trans second.stored⟩

/-- A mark is no part of what a page holds. -/
theorem markChanged (page : Page) (transaction : TransactionId) :
    page.Agrees (page.markChanged transaction) := ⟨rfl, rfl, rfl, rfl⟩

theorem markWritten (page : Page) : page.Agrees page.markWritten := ⟨rfl, rfl, rfl, rfl⟩

/-- Soundness speaks of the directory and the size alone. -/
theorem sound (agrees : a.Agrees b) (sound : a.Sound) : b.Sound where
  large := agrees.size ▸ sound.large
  small := agrees.size ▸ sound.small
  directory := by
    have := sound.directory
    rwa [directoryEnd, agrees.slots, agrees.cellStart] at this
  inside slot member used := by
    rw [← agrees.cellStart, ← agrees.size]
    exact sound.inside slot (agrees.slots ▸ member) used
  apart := by
    rw [← agrees.cellStart, ← agrees.size, ← agrees.slots]
    exact sound.apart
  words slot member := sound.words slot (agrees.slots ▸ member)

/-- Readable pages that agree hold the same cells. -/
theorem cells_of_readable (agrees : a.Agrees b) (readable : a.Readable) : a.cells = b.cells := by
  have tail := agrees.stored
  rw [← agrees.cellStart] at tail
  rw [Page.cells, Page.cells, ← agrees.slots]
  exact List.map_congr_left fun slot member =>
    Slot.content_congr tail fun used => (readable.inside slot member used).1

theorem cells (agrees : a.Agrees b) (sound : a.Sound) : a.cells = b.cells :=
  agrees.cells_of_readable sound.readable

/-- Pages that agree have the same image. -/
theorem image (agrees : a.Agrees b) : a.image = b.image := by
  have front : a.front = b.front := by simp only [Page.front, agrees.slots, agrees.cellStart]
  have unsealed : a.unsealed = b.unsealed := by
    rw [Page.unsealed, Page.unsealed, front, agrees.stored, agrees.size, agrees.cellStart]
  rw [Page.image, Page.image, unsealed, directoryEnd, directoryEnd, agrees.slots, agrees.size,
    agrees.cellStart]

end Agrees

variable {page : Page}

@[simp] theorem length_entryBytes (slot : Slot) : (entryBytes slot).length = entrySize := by
  simp [entryBytes, entrySize]

theorem length_directory (slots : List Slot) :
    (slots.flatMap entryBytes).length = slots.length * entrySize := by
  -- Every entry has the same length.
  induction slots with
  | nil => simp
  | cons slot rest ih =>
    rw [List.flatMap_cons, List.length_append, ih, length_entryBytes, List.length_cons]
    simp only [entrySize]
    omega

/-- What follows the checksum: the two numbers, the reserved bytes, the directory and the rest. -/
def body (page : Page) : Bytes :=
  Bytes.ofNumber 2 page.slots.length ++ (Bytes.ofNumber 2 page.cellStart ++ (Bytes.zeros 8
    ++ (page.slots.flatMap entryBytes ++ (Bytes.zeros (page.cellStart - page.directoryEnd)
      ++ page.buffer.drop page.cellStart))))

@[simp] theorem length_checksumBytes (image : Bytes) : (checksumBytes image).length = 4 :=
  Bytes.length_ofNumber 4 _

namespace Readable

/-- The bytes before the checksum is set are four zeros and the body. -/
theorem unsealed_eq (readable : page.Readable) : page.unsealed = Bytes.zeros 4 ++ page.body := by
  have directory := readable.directory
  have within := readable.within
  have front : page.front.length = page.directoryEnd := by
    simp only [front, List.length_append, Bytes.length_zeros, Bytes.length_ofNumber, length_directory,
      directoryEnd, headerSize, checksumSize]
  -- Of the zeros after the directory as many stay as there are bytes up to the lowest cell.
  have padded : ((page.front ++ Bytes.zeros page.size).take page.size).take page.cellStart
      = page.front ++ Bytes.zeros (page.cellStart - page.directoryEnd) := by
    rw [List.take_take, Nat.min_eq_left within, List.take_append, front,
      List.take_of_length_le (by omega), Bytes.zeros, List.take_replicate, Bytes.zeros,
      Nat.min_eq_left (by omega)]
  rw [unsealed, padded]
  simp [Page.front, body, checksumSize]

theorem length_body (readable : page.Readable) : page.body.length + 4 = page.size := by
  have directory := readable.directory
  have within := readable.within
  unfold Page.size at within ⊢
  simp only [directoryEnd, headerSize] at directory
  -- The unused space fills up exactly what directory and cells leave of the page.
  simp only [body, List.length_append, Bytes.length_ofNumber, Bytes.length_zeros, length_directory,
    List.length_drop, directoryEnd, headerSize]
  omega

/-- A readable page has an image: the checksum of the body, and the body. -/
theorem image_eq (readable : page.Readable) :
    page.image = .ok (checksumBytes (Bytes.zeros 4 ++ page.body) ++ page.body) := by
  have header := readable.headerSize_le
  have within := readable.within
  have directory := readable.directory
  unfold headerSize at header
  have long : ¬ page.size < checksumSize + 4 := by
    unfold checksumSize
    omega
  have fits : ¬ (page.slots ≠ [] ∧ page.size < page.directoryEnd) := by
    intro ended
    obtain ⟨_, short⟩ := ended
    omega
  rw [image, if_neg long, if_neg fits, if_neg (Nat.not_lt.2 within), readable.unsealed_eq]
  simp [checksumSize, Bytes.zeros]

/-- A readable page has an image, which is as long as the page. -/
theorem exists_image (readable : page.Readable) :
    ∃ image, page.image = .ok image ∧ image.length = page.size := by
  refine ⟨_, readable.image_eq, ?_⟩
  rw [List.length_append, length_checksumBytes, ← readable.length_body]
  omega

end Readable

/-- Directory entries that lie among the cells read back as they were written. -/
theorem readEntries_entryBytes (id : PageId) {cellStart size : Nat} {slots : List Slot} (rest : Bytes)
    (words : ∀ slot ∈ slots, slot.offset < wordLimit ∧ slot.length < wordLimit)
    (inside : ∀ slot ∈ slots, slot.isFree = false →
      cellStart ≤ slot.offset ∧ slot.offset + slot.length ≤ size) :
    readEntries id cellStart size slots.length (slots.flatMap entryBytes ++ rest) = .ok slots := by
  induction slots with
  | nil => rfl
  | cons slot others ih =>
    have word := words slot (by simp)
    simp only [wordLimit] at word
    have tail := ih (fun other member => words other (by simp [member]))
      (fun other member => inside other (by simp [member]))
    have offset : Bytes.toNumber (Bytes.window 0 2
        ((slot :: others).flatMap entryBytes ++ rest)) = slot.offset := by
      have seen := Bytes.window_middle [] (Bytes.ofNumber 2 slot.offset)
        (Bytes.ofNumber 2 slot.length ++ (others.flatMap entryBytes ++ rest))
      rw [Bytes.length_ofNumber] at seen
      rw [List.flatMap_cons, entryBytes, List.append_assoc, List.append_assoc]
      exact (congrArg Bytes.toNumber seen).trans (Bytes.toNumber_ofNumber (by omega))
    have length : Bytes.toNumber (Bytes.window 2 2
        ((slot :: others).flatMap entryBytes ++ rest)) = slot.length := by
      have seen := Bytes.window_middle (Bytes.ofNumber 2 slot.offset)
        (Bytes.ofNumber 2 slot.length) (others.flatMap entryBytes ++ rest)
      rw [Bytes.length_ofNumber, Bytes.length_ofNumber] at seen
      rw [List.flatMap_cons, entryBytes, List.append_assoc, List.append_assoc]
      exact (congrArg Bytes.toNumber seen).trans (Bytes.toNumber_ofNumber (by omega))
    -- The cell of a slot in use lies among the cells, so it is not refused.
    have among : ¬ (slot.length ≠ 0 ∧ (slot.offset < cellStart ∨ size < slot.offset + slot.length)) := by
      intro ended
      obtain ⟨used, outside⟩ := ended
      have := inside slot (by simp) (Slot.isFree_eq_false_iff.2 used)
      omega
    have dropped : ((slot :: others).flatMap entryBytes ++ rest).drop entrySize
        = others.flatMap entryBytes ++ rest := by
      rw [List.flatMap_cons, List.append_assoc, List.drop_left' (length_entryBytes slot)]
    simp only [List.length_cons, readEntries, offset, length, if_neg among, dropped, tail]
    rfl

namespace Readable

section Written

variable {image : Bytes} (readable : page.Readable) (written : page.image = .ok image)

include readable written

/-- An image begins with the checksum of all that follows, which is the body. -/
theorem image_eq_append : image = checksumBytes image ++ page.body := by
  have whole := readable.image_eq
  rw [written, Except.ok.injEq] at whole
  -- The checksum does not cover itself, so it is that of the finished image as well.
  have same : checksumBytes image = checksumBytes (Bytes.zeros 4 ++ page.body) := by
    have body : image.drop checksumSize = page.body := by
      rw [whole]
      exact List.drop_left' (length_checksumBytes _)
    rw [checksumBytes, checksumBytes, body]
    rfl
  rw [same]
  exact whole

theorem length_image : image.length = page.size := by
  rw [readable.image_eq_append written, List.length_append, length_checksumBytes, ← readable.length_body]
  omega

theorem isSealed_image : isSealed image = true := by
  have front : image.take checksumSize = checksumBytes image := by
    have taken : (checksumBytes image ++ page.body).take checksumSize = checksumBytes image :=
      List.take_left' (length_checksumBytes _)
    rwa [← readable.image_eq_append written] at taken
  have long : checksumSize ≤ image.length := by
    have large := readable.large
    rw [readable.length_image written]
    simp only [headerSize, entrySize] at large
    unfold checksumSize
    omega
  simp [isSealed, front, long]

/-- The number of slots is read where it was written. -/
theorem count_image : Bytes.toNumber (image.window 4 2) = page.slots.length := by
  have few := readable.contained.slots_lt
  simp only [wordLimit] at few
  -- The number follows the checksum, which is four bytes long.
  have seen := Bytes.window_middle (checksumBytes image) (Bytes.ofNumber 2 page.slots.length)
    (page.body.drop 2)
  rw [length_checksumBytes, Bytes.length_ofNumber] at seen
  rw [readable.image_eq_append written]
  exact (congrArg Bytes.toNumber seen).trans (Bytes.toNumber_ofNumber (by omega))

/-- The place of the lowest cell is read where it was written. -/
theorem cellStart_image : Bytes.toNumber (image.window 6 2) = page.cellStart := by
  have small := readable.small
  have within := readable.within
  simp only [wordLimit] at small
  have seen := Bytes.window_middle (checksumBytes image ++ Bytes.ofNumber 2 page.slots.length)
    (Bytes.ofNumber 2 page.cellStart) (page.body.drop 4)
  rw [List.length_append, length_checksumBytes, Bytes.length_ofNumber, Bytes.length_ofNumber,
    List.append_assoc] at seen
  rw [readable.image_eq_append written]
  exact (congrArg Bytes.toNumber seen).trans (Bytes.toNumber_ofNumber (by omega))

/-- After the header stand the directory, unused space and the cells. -/
theorem drop_headerSize_image : image.drop headerSize = page.slots.flatMap entryBytes
    ++ (Bytes.zeros (page.cellStart - page.directoryEnd) ++ page.buffer.drop page.cellStart) := by
  have front : (checksumBytes image ++ Bytes.ofNumber 2 page.slots.length
      ++ Bytes.ofNumber 2 page.cellStart ++ Bytes.zeros 8).length = headerSize := by
    simp [headerSize]
  rw [readable.image_eq_append written]
  have whole : checksumBytes image ++ page.body = checksumBytes image
      ++ Bytes.ofNumber 2 page.slots.length ++ Bytes.ofNumber 2 page.cellStart ++ Bytes.zeros 8
      ++ (page.slots.flatMap entryBytes
        ++ (Bytes.zeros (page.cellStart - page.directoryEnd) ++ page.buffer.drop page.cellStart)) := by
    simp only [body, List.append_assoc]
  rw [whole, List.drop_left' front]

/-- From the lowest cell on the image is the buffer. -/
theorem drop_cellStart_image : image.drop page.cellStart = page.buffer.drop page.cellStart := by
  have header := readable.headerSize_le
  have directory := readable.directory
  -- What stands between the header and the lowest cell is the directory and unused space.
  have front : (page.slots.flatMap entryBytes
      ++ Bytes.zeros (page.cellStart - page.directoryEnd)).length = page.cellStart - headerSize := by
    simp only [directoryEnd, headerSize] at directory
    simp only [List.length_append, length_directory, Bytes.length_zeros, directoryEnd, headerSize]
    omega
  have split : page.cellStart = headerSize + (page.cellStart - headerSize) := by omega
  rw [split, ← List.drop_drop, readable.drop_headerSize_image written, ← List.append_assoc,
    List.drop_left' front, ← split]

/-- The place of the lowest cell is not zero, so the image is not one of zeros alone. -/
theorem not_zero_image : image.all (· = 0) = false := by
  refine Bool.eq_false_iff.2 fun zero => ?_
  have header := readable.headerSize_le
  have within := readable.within
  have length := readable.length_image written
  simp only [headerSize] at header
  -- If all bytes were zero, the two that tell the place would be.
  have nothing : image.window 6 2 = Bytes.zeros 2 := by
    refine List.eq_replicate_iff.2 ⟨Bytes.length_window (by omega), fun byte member => ?_⟩
    have among := List.mem_of_mem_drop (List.mem_of_mem_take member)
    simpa using List.all_eq_true.1 zero byte among
  have start := readable.cellStart_image written
  rw [nothing] at start
  simp [Bytes.zeros, Bytes.toNumber, List.replicate] at start
  omega

/-- The image of a readable page reads back under any name as a clean page that agrees with it. -/
theorem ofImage_image (id : PageId) :
    ∃ read, ofImage id image = .ok read ∧ read.Agrees page ∧ read.id = id
      ∧ read.changedBy = none := by
  have size := readable.length_image written
  have cells := readable.drop_cellStart_image written
  refine ⟨⟨id, page.slots, page.cellStart, image, none⟩, ?_, ⟨rfl, rfl, size, cells⟩, rfl, rfl⟩
  have large := readable.large
  have small := readable.small
  have within := readable.within
  have directory := readable.directory
  unfold directoryEnd at directory
  -- Nothing is refused: not the size, not the directory, and not the place of the lowest cell.
  have sized : ¬ (image.length < headerSize + entrySize ∨ wordLimit ≤ image.length) := by omega
  have directoryFits : ¬ image.length < headerSize + page.slots.length * entrySize := by omega
  have startFits : ¬ (page.cellStart < headerSize + page.slots.length * entrySize
      ∨ image.length < page.cellStart) := by
    omega
  have slots : readEntries id page.cellStart image.length page.slots.length (image.drop headerSize)
      = .ok page.slots := by
    rw [readable.drop_headerSize_image written]
    exact readEntries_entryBytes id _ readable.words fun slot member used =>
      size ▸ readable.inside slot member used
  simp only [ofImage, sized, ↓reduceIte, readable.not_zero_image written, Bool.false_eq_true,
    readable.isSealed_image written, Bool.not_true, readable.count_image written,
    readable.cellStart_image written, directoryFits, startFits, slots, Bind.bind, Except.bind]

end Written

end Readable

namespace Sound

theorem exists_image (sound : page.Sound) : ∃ image, page.image = .ok image ∧ image.length = page.size :=
  sound.readable.exists_image

theorem ofImage_image (sound : page.Sound) {image : Bytes} (written : page.image = .ok image) (id : PageId) :
    ∃ read, ofImage id image = .ok read ∧ read.Agrees page ∧ read.id = id
      ∧ read.changedBy = none :=
  sound.readable.ofImage_image written id

end Sound

/-- Directory entries are read or refused, without a trap. -/
theorem readEntries_ends (id : PageId) (cellStart size count : Nat) (directory : Bytes) :
    ∃ result, readEntries id cellStart size count directory = Outcome.ofResult result := by
  induction count generalizing directory with
  | zero => exact ⟨.ok [], rfl⟩
  | succ count ih =>
    simp only [readEntries]
    -- An entry is refused, or it is read and the others decide.
    split
    · exact ⟨.error _, rfl⟩
    · obtain ⟨result, read⟩ := ih (directory.drop entrySize)
      rw [read]
      cases result with
      | ok slots => exact ⟨.ok _, rfl⟩
      | error failure => exact ⟨.error failure, rfl⟩

/-- Any bytes are read as a page or refused, without a trap. -/
theorem ofImage_ends (id : PageId) (image : Bytes) :
    ∃ result, ofImage id image = Outcome.ofResult result := by
  unfold ofImage
  simp only
  split
  · exact ⟨.error _, rfl⟩
  split
  · exact ⟨.ok _, rfl⟩
  split
  · exact ⟨.error _, rfl⟩
  split
  · exact ⟨.error _, rfl⟩
  split
  · exact ⟨.error _, rfl⟩
  · obtain ⟨result, read⟩ := readEntries_ends id (Bytes.toNumber (image.window 6 2)) image.length
      (Bytes.toNumber (image.window 4 2)) (image.drop headerSize)
    rw [read]
    cases result with
    | ok slots => exact ⟨.ok _, rfl⟩
    | error failure => exact ⟨.error failure, rfl⟩

/-- A page read from an image is the empty one, or the image's own directory over its bytes. -/
theorem ofImage_cases {id : PageId} {image : Bytes} {page : Page} (read : ofImage id image = .ok page) :
    (headerSize + entrySize ≤ image.length ∧ image.length < wordLimit)
      ∧ (page = empty id image.length ∨ ∃ slots cellStart,
        page = ⟨id, slots, cellStart, image, none⟩
          ∧ readEntries id cellStart image.length (Bytes.toNumber (image.window 4 2))
            (image.drop headerSize) = .ok slots
          ∧ headerSize + Bytes.toNumber (image.window 4 2) * entrySize ≤ cellStart
          ∧ cellStart ≤ image.length) := by
  unfold ofImage at read
  simp only at read
  split at read
  · cases read
  rename_i sized
  refine ⟨by omega, ?_⟩
  -- Only an image of zeros and one that passes every check are read.
  split at read
  · cases read
    exact .inl rfl
  split at read
  · cases read
  split at read
  · cases read
  split at read
  · cases read
  rename_i start
  obtain ⟨slots, entries, whole⟩ := Outcome.exists_of_bind read
  cases whole
  exact .inr ⟨slots, _, rfl, entries, by omega, by omega⟩

/-- A page read from an image has the name that was asked for, the size of the image and no mark. -/
theorem ofImage_eq_ok {id : PageId} {image : Bytes} {page : Page} (read : ofImage id image = .ok page) :
    page.id = id ∧ page.size = image.length ∧ page.changedBy = none := by
  obtain ⟨_, rfl | ⟨slots, cellStart, rfl, _⟩⟩ := ofImage_cases read
  · exact ⟨rfl, Bytes.length_zeros _, rfl⟩
  · exact ⟨rfl, rfl, rfl⟩

/-- Numbers of two bytes are words, wherever they stand. -/
theorem toNumber_window_lt (start : Nat) (bytes : Bytes) :
    Bytes.toNumber (bytes.window start 2) < wordLimit := by
  have bound := Bytes.toNumber_lt (bytes.window start 2)
  have short : (bytes.window start 2).length ≤ 2 := List.length_take_le 2 _
  calc Bytes.toNumber (bytes.window start 2)
      < 256 ^ (bytes.window start 2).length := bound
    _ ≤ 256 ^ 2 := Nat.pow_le_pow_right (by decide) short

/-- Entries that are read are so many, of words, and their cells lie where they must. -/
theorem readEntries_eq_ok {id : PageId} {cellStart size count : Nat} {directory : Bytes}
    {slots : List Slot} (read : readEntries id cellStart size count directory = .ok slots) :
    slots.length = count ∧ ∀ slot ∈ slots,
      (slot.isFree = false → cellStart ≤ slot.offset ∧ slot.offset + slot.length ≤ size)
        ∧ slot.offset < wordLimit ∧ slot.length < wordLimit := by
  induction count generalizing directory slots with
  | zero =>
    cases read
    exact ⟨rfl, fun slot member => absurd member List.not_mem_nil⟩
  | succ count ih =>
    simp only [readEntries] at read
    split at read
    · cases read
    -- The first entry was not refused, and the others are read from what follows it.
    rename_i among
    obtain ⟨rest, others, whole⟩ := Outcome.exists_of_bind read
    cases whole
    obtain ⟨number, all⟩ := ih others
    refine ⟨congrArg Nat.succ number, fun slot member => ?_⟩
    rcases List.mem_cons.1 member with rfl | later
    · refine ⟨fun used => ?_, toNumber_window_lt 0 directory, toNumber_window_lt 2 directory⟩
      have positive := Slot.isFree_eq_false_iff.1 used
      -- Only the cell of a slot in use has to lie among the cells.
      rcases Nat.lt_or_ge (Bytes.toNumber (directory.window 0 2)) cellStart with low | high
      · exact absurd ⟨positive, .inl low⟩ among
      · refine ⟨high, Nat.le_of_not_lt fun long => ?_⟩
        exact among ⟨positive, .inr long⟩
    · exact all slot later

/-- A page read from an image is readable. -/
theorem ofImage_readable {id : PageId} {image : Bytes} {page : Page} (read : ofImage id image = .ok page) :
    page.Readable := by
  -- An empty page is sound, and a directory that was read was checked entry by entry.
  obtain ⟨⟨large, small⟩, rfl | ⟨slots, cellStart, rfl, entries, start, within⟩⟩ := ofImage_cases read
  · exact (empty_sound id large (Nat.le_of_lt_succ small)).1.readable
  · obtain ⟨number, all⟩ := readEntries_eq_ok entries
    refine ⟨large, small, ?_, within, fun slot member => (all slot member).1,
      fun slot member => (all slot member).2⟩
    show headerSize + slots.length * entrySize ≤ cellStart
    rw [number]
    exact start

/-- A page read from an image is sound if its cells have room side by side. -/
theorem ofImage_sound {id : PageId} {image : Bytes} {page : Page} (read : ofImage id image = .ok page)
    (room : page.cellStart + Slot.total page.slots ≤ page.size) : page.Sound :=
  have readable := ofImage_readable read
  ⟨readable.large, readable.small, readable.directory, readable.inside, room, readable.words⟩

end HeapEngine.Page

import HeapEngine.Proofs.Page.Encodable
import HeapEngine.Proofs.Page.Undo
import HeapEngine.Settings

/-!
Settings accept exactly the page sizes that pages can be worked with in, and give requests deadlines.

How large a page may be is said in several places: settings are checked against two bounds, an image is refused
for its size, offsets are words, and the largest cell is computed on its own. All of them agree.
-/

namespace HeapEngine

namespace Page

/-- An empty page of a size can be worked with: it is stored and read back as it was, and it takes a cell. -/
structure Workable (id : PageId) (size : Nat) : Prop where
  stored : ∃ image read, (empty id size).image = .ok image ∧ ofImage id image = .ok read
    ∧ (empty id size).Restores read
  takes : ∃ cell after slot, cell ≠ [] ∧ (empty id size).insert cell = .ok (after, slot)

/-- An empty page of any size takes a cell that has a byte and fits beside the header and its entry. -/
theorem insert_empty_iff (id : PageId) (size : Nat) (cell : Bytes) :
    (∃ after slot, (empty id size).insert cell = .ok (after, slot))
      ↔ 1 ≤ cell.length ∧ cell.length + 20 ≤ size % wordLimit := by
  -- The offset of the cells is a word, so this is all of the page that counts.
  have start : (empty id size).cellStart = size % wordLimit := rfl
  have within : size % wordLimit ≤ (empty id size).size := by
    rw [Page.size, empty, Bytes.length_zeros]
    exact Nat.mod_le size wordLimit
  have directory : (empty id size).directoryEnd = 16 := rfl
  have cost : (empty id size).entryCost = 4 := rfl
  constructor
  · rintro ⟨after, slot, inserted⟩
    obtain ⟨nonempty, _, room, _⟩ := eq_withCell_of_insert inserted
    have positive := List.length_pos_iff.2 nonempty
    omega
  · rintro ⟨positive, short⟩
    have word : size % wordLimit < sizeLimit := Nat.lt_trans (Nat.mod_lt size (by decide)) (by decide)
    exact ⟨_, _, insert_eq_ok (List.length_pos_iff.1 positive) (by omega) (start ▸ within) (start ▸ word)⟩

/-- The largest cell is what the header and one entry leave of the page. -/
theorem largestCell_eq {size : Nat} (least : 20 ≤ size) : largestCell size = .ok (size - 20) := by
  unfold largestCell headerSize entrySize
  rw [if_neg (by omega)]
  rfl

/-- A clean sound page is read back from its image as it is. -/
theorem Sound.exists_restores {page : Page} (sound : page.Sound) (clean : page.changedBy = none) :
    ∃ image read, page.image = .ok image ∧ ofImage page.id image = .ok read ∧ page.Restores read := by
  obtain ⟨image, encoded, _⟩ := sound.exists_image
  obtain ⟨read, decoded, agrees, named, unchanged⟩ := sound.ofImage_image encoded page.id
  exact ⟨image, read, encoded, decoded, named, unchanged.trans clean.symm, agrees, image, encoded,
    agrees.image.trans encoded⟩

/-- Pages can be worked with if they have room for one byte, and if all offsets in them are words. -/
theorem workable_iff (id : PageId) (size : Nat) : Workable id size ↔ 21 ≤ size ∧ size ≤ 65535 := by
  constructor
  · intro workable
    obtain ⟨image, read, _, decoded, restores⟩ := workable.stored
    obtain ⟨cell, after, slot, _, inserted⟩ := workable.takes
    -- The cell bounds the size from below, and reading the image bounds it from above.
    have room := (insert_empty_iff id size cell).1 ⟨after, slot, inserted⟩
    have most := Nat.mod_le size wordLimit
    have length : image.length = size := by
      rw [← (ofImage_eq_ok decoded).2.1, restores.agrees.size]
      exact Bytes.length_zeros size
    have small := (ofImage_cases decoded).1.2
    unfold wordLimit at small
    omega
  · rintro ⟨least, most⟩
    obtain ⟨sound, _⟩ := empty_sound id (Nat.le_of_succ_le least) most
    -- A single byte is a cell that fits.
    have takes : ∃ after slot, (empty id size).insert [0] = .ok (after, slot) := by
      have word : size % wordLimit = size := Nat.mod_eq_of_lt (Nat.lt_succ_of_le most)
      rw [insert_empty_iff, List.length_singleton, word]
      omega
    obtain ⟨after, slot, inserted⟩ := takes
    exact ⟨sound.exists_restores rfl, [0], after, slot, List.cons_ne_nil _ _, inserted⟩

end Page

namespace Settings

variable {settings : Settings}

/-- What settings are checked for: a page in memory, a page size within the bounds, and some patience. -/
theorem check_eq_ok_iff : settings.check = .ok ()
    ↔ 1 ≤ settings.capacity ∧ (21 ≤ settings.pageSize ∧ settings.pageSize ≤ 65535)
      ∧ settings.patience ≠ .zero := by
  have least : leastPageSize = 21 := rfl
  have most : mostPageSize = 65535 := rfl
  unfold check
  rw [least, most]
  -- Each refusal goes with the condition that is not met.
  split
  · rename_i noPages
    simp [noPages]
  split
  · rename_i outside
    have unfit : ¬ (21 ≤ settings.pageSize ∧ settings.pageSize ≤ 65535) := by omega
    simp [unfit]
  split
  · rename_i noPatience
    simp [noPatience]
  · rename_i pages inside waits
    exact iff_of_true rfl ⟨by omega, by omega, waits⟩

/-- Settings that were not refused leave room for a page, and a page has room for a record. -/
theorem check_eq_ok (accepted : settings.check = .ok ()) :
    0 < settings.capacity ∧ 21 ≤ settings.pageSize ∧ settings.pageSize ≤ 65535 := by
  obtain ⟨pages, sizes, _⟩ := check_eq_ok_iff.1 accepted
  exact ⟨pages, sizes⟩

/-- Whether patience is so short that requests have deadlines: less than 146 billion years. -/
def Timely (settings : Settings) : Prop := settings.patience.seconds < 2 ^ 62

instance : Decidable settings.Timely := Nat.decLt _ _

/-- A request has a deadline if it begins while the clock was not running for ages. -/
theorem Timely.exists_deadline (timely : settings.Timely) {now : Duration} (early : now.seconds < 2 ^ 62) :
    ∃ moment, settings.deadline now = .ok moment := by
  unfold Timely Duration.seconds at timely
  unfold Duration.seconds at early
  -- The whole seconds of both add up to a word, even with one more for what is left of them.
  have soon : (now.nanoseconds + settings.patience.nanoseconds) / 1000000000 < 2 ^ 63 := by omega
  exact ⟨_, if_neg (Nat.not_le.2 soon)⟩

/--
The bounds of settings are those of pages.

Take settings that ask for a page in memory at least and that have some patience. They are accepted exactly if
an empty page of their size is stored, is read back as it was, and takes a cell. If they are, the cells that an
empty page takes are those of one byte to the largest cell.
-/
theorem check_iff_workable (id : PageId) (pages : 1 ≤ settings.capacity) (waits : settings.patience ≠ .zero) :
    (settings.check = .ok () ↔ Page.Workable id settings.pageSize)
      ∧ (settings.check = .ok () → ∃ largest, Page.largestCell settings.pageSize = .ok largest
        ∧ ∀ cell : Bytes, (∃ after slot, (Page.empty id settings.pageSize).insert cell = .ok (after, slot))
          ↔ 1 ≤ cell.length ∧ cell.length ≤ largest) := by
  constructor
  · rw [check_eq_ok_iff, Page.workable_iff]
    exact ⟨fun accepted => accepted.2.1, fun sizes => ⟨pages, sizes, waits⟩⟩
  · intro accepted
    obtain ⟨_, least, most⟩ := check_eq_ok accepted
    refine ⟨_, Page.largestCell_eq (Nat.le_of_succ_le least), fun cell => ?_⟩
    have word : settings.pageSize % Page.wordLimit = settings.pageSize := Nat.mod_eq_of_lt (Nat.lt_succ_of_le most)
    rw [Page.insert_empty_iff, word]
    omega

/-- The settings with the least of everything. -/
def scantiest : Settings := ⟨21, 1, ⟨1⟩⟩

/-- In pages of the least size the largest cell is a single byte. -/
theorem check_iff_workable_scantiest :
    (1 ≤ scantiest.capacity ∧ scantiest.patience ≠ .zero)
      ∧ scantiest.check = .ok () ∧ Page.Workable ⟨1, 0⟩ 21
      ∧ ∃ largest, Page.largestCell 21 = .ok largest
        ∧ ∀ cell : Bytes, (∃ after slot, (Page.empty ⟨1, 0⟩ 21).insert cell = .ok (after, slot))
          ↔ 1 ≤ cell.length ∧ cell.length ≤ largest := by
  have pages : 1 ≤ scantiest.capacity := by decide
  have waits : scantiest.patience ≠ .zero := by decide
  obtain ⟨same, cells⟩ := check_iff_workable ⟨1, 0⟩ pages waits
  exact ⟨⟨pages, waits⟩, rfl, same.1 rfl, cells rfl⟩

end Settings

end HeapEngine

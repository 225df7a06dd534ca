import HeapEngine.Proofs.Checksum
import HeapEngine.Proofs.Page.Layout
import HeapEngine.Proofs.Page.Usable

/-!
A page that was damaged in one place is not read.

The checksum is four bytes long, as is the register it is made in. So damage to the checksum alone shows,
and damage to the bytes it covers shows as long as it lies within four of them.
-/

namespace HeapEngine

namespace Bytes

/-- Byte strings of one length that differ at most in so many bytes from a place on. -/
structure DiffersWithin (start width : Nat) (a b : Bytes) : Prop where
  length : a.length = b.length
  outside : ∀ place, place < start ∨ start + width ≤ place → a[place]? = b[place]?

namespace DiffersWithin

variable {start width : Nat} {a b : Bytes}

/-- What comes before the place is the same. -/
theorem take_eq (differs : DiffersWithin start width a b) : a.take start = b.take start := by
  refine List.ext_getElem? fun place => ?_
  rcases Nat.lt_or_ge place start with before | past
  · rw [List.getElem?_take_of_lt before, List.getElem?_take_of_lt before]
    exact differs.outside place (.inl before)
  · rw [List.getElem?_take_eq_none past, List.getElem?_take_eq_none past]

/-- What comes after the bytes is the same. -/
theorem drop_eq (differs : DiffersWithin start width a b) :
    a.drop (start + width) = b.drop (start + width) := by
  refine List.ext_getElem? fun place => ?_
  rw [List.getElem?_drop, List.getElem?_drop]
  exact differs.outside _ (.inr (Nat.le_add_right _ _))

/-- The two strings are one but for a part. -/
theorem split (differs : DiffersWithin start width a b) :
    a = a.take start ++ (a.window start width ++ a.drop (start + width))
      ∧ b = a.take start ++ (b.window start width ++ a.drop (start + width))
      ∧ (a.window start width).length = (b.window start width).length := by
  have whole : ∀ bytes : Bytes,
      bytes = bytes.take start ++ (bytes.window start width ++ bytes.drop (start + width)) :=
    fun bytes => by
      rw [window, ← List.drop_drop, List.take_append_drop, List.take_append_drop]
  refine ⟨whole a, ?_, ?_⟩
  · rw [differs.take_eq, differs.drop_eq]
    exact whole b
  · simp only [window, List.length_take, List.length_drop, differs.length]

/-- Strings that are one but for a part differ within it. -/
theorem of_append (before part other after : Bytes) (length : part.length = other.length) :
    DiffersWithin before.length part.length (before ++ (part ++ after)) (before ++ (other ++ after)) where
  length := by simp [length]
  outside place away := by
    rcases away with ahead | past
    · rw [List.getElem?_append_left ahead, List.getElem?_append_left ahead]
    · -- Past the part both strings go on with the same bytes.
      rw [List.getElem?_append_right (by omega), List.getElem?_append_right (by omega),
        List.getElem?_append_right (by omega), List.getElem?_append_right (by omega), length]

end DiffersWithin

/-- A number that fits is told by its bytes. -/
theorem ofNumber_injective {width a b : Nat} (fitsA : a < 256 ^ width) (fitsB : b < 256 ^ width)
    (same : ofNumber width a = ofNumber width b) : a = b := by
  rw [← toNumber_ofNumber fitsA, same, toNumber_ofNumber fitsB]

end Bytes

namespace Page

/-- Byte strings with the same checksum bytes have the same checksum. -/
theorem crc32_eq_of_checksumBytes {a b : Bytes} (same : checksumBytes a = checksumBytes b) :
    Checksum.crc32 (a.drop checksumSize) = Checksum.crc32 (b.drop checksumSize) :=
  UInt32.toNat_inj.1 (Bytes.ofNumber_injective (UInt32.toNat_lt _) (UInt32.toNat_lt _) same)

/-- An image and its checksum do not fit any more once the one or the other was damaged. -/
theorem not_isSealed_of_differsWithin {image changed : Bytes} (sealed : isSealed image = true)
    (other : changed ≠ image) (damaged : Bytes.DiffersWithin 0 checksumSize image changed
      ∨ ∃ start, checksumSize ≤ start ∧ Bytes.DiffersWithin start 4 image changed) :
    isSealed changed = false := by
  refine Bool.eq_false_iff.2 fun still => other ?_
  simp only [isSealed, Bool.and_eq_true, decide_eq_true_eq] at sealed still
  obtain onChecksum | ⟨start, past, onBody⟩ := damaged
  · -- The checksum is that of the same bytes, so it has to be the same.
    have body : image.drop checksumSize = changed.drop checksumSize := by
      simpa using onChecksum.drop_eq
    have front : image.take checksumSize = changed.take checksumSize := by
      rw [sealed.2, still.2, checksumBytes, checksumBytes, body]
    rw [← List.take_append_drop checksumSize image, front, body, List.take_append_drop]
  · -- The checksum is the same, so the bytes have to be.
    have front : image.take checksumSize = changed.take checksumSize := by
      have longer := congrArg (List.take checksumSize) onBody.take_eq
      rwa [List.take_take, List.take_take, Nat.min_eq_left past] at longer
    have same := crc32_eq_of_checksumBytes (sealed.2.symm.trans (front.trans still.2))
    obtain ⟨whole, wholeChanged, length⟩ := onBody.split
    have covered : checksumSize ≤ (image.take start).length := by
      rw [List.length_take]
      exact Nat.le_min.2 ⟨past, sealed.1⟩
    have few : (image.window start 4).length ≤ 4 := List.length_take_le 4 _
    rw [whole, wholeChanged, List.drop_append_of_le_length covered,
      List.drop_append_of_le_length covered] at same
    rw [wholeChanged, ← Checksum.eq_of_crc32_eq length few same, ← whole]

/-- Damage to the checksum or to four bytes in a row is noticed, unless nothing but zeros is left. -/
theorem ofImage_differsWithin {image changed : Bytes} (id : PageId) (sealed : isSealed image = true)
    (large : headerSize + entrySize ≤ image.length) (small : image.length < wordLimit)
    (other : changed ≠ image)
    (damaged : Bytes.DiffersWithin 0 checksumSize image changed
      ∨ ∃ start, checksumSize ≤ start ∧ Bytes.DiffersWithin start 4 image changed)
    (used : changed.all (· = 0) = false) :
    ofImage id changed = fail (.corruptPage id .checksum) := by
  have length : image.length = changed.length := by
    obtain differs | ⟨_, _, differs⟩ := damaged <;> exact differs.length
  have sized : ¬ (changed.length < headerSize + entrySize ∨ wordLimit ≤ changed.length) := by omega
  simp [ofImage, sized, used, not_isSealed_of_differsWithin sealed other damaged, fail]

/-- Bytes that are too few or too many for a page are refused before anything is read of them. -/
theorem ofImage_wrongSize (id : PageId) {bytes : Bytes} (wrong : bytes.length < 20 ∨ 65535 < bytes.length) :
    ofImage id bytes = fail (.wrongPageSize defaultSize bytes.length) := by
  have refused : bytes.length < headerSize + entrySize ∨ wordLimit ≤ bytes.length := by
    simp only [headerSize, entrySize, wordLimit]
    omega
  simp [ofImage, refused]

/--
Whatever was done to a page that began empty, its image is not read any more once its checksum was
changed, or up to four bytes in a row that the checksum covers, unless nothing but zeros is left.

Bytes that are too few or too many for a page are refused for that.
-/
theorem damage_noticed {id : PageId} {size : Nat} {changes : List PageChange}
    (least : 20 ≤ size) (most : size ≤ 65535)
    (addressable : ∀ change ∈ changes, change.Addressable) :
    (∃ page image, (empty id size).changeAll changes = .ok page
      ∧ page.image = .ok image ∧ image.length = size
      ∧ ∀ damaged : Bytes, damaged ≠ image →
        (Bytes.DiffersWithin 0 checksumSize image damaged
          ∨ ∃ start, checksumSize ≤ start ∧ Bytes.DiffersWithin start 4 image damaged) →
        damaged.all (· = 0) = false →
        ofImage page.id damaged = fail (.corruptPage page.id .checksum))
      ∧ ∀ (id : PageId) (bytes : Bytes), bytes.length < 20 ∨ 65535 < bytes.length →
        ofImage id bytes = fail (.wrongPageSize defaultSize bytes.length) := by
  obtain ⟨emptyLayout, emptySize⟩ := empty_layout id least most
  obtain ⟨page, done, layout, sized⟩ := emptyLayout.changeAll_ends addressable
  have sound := layout.sound
  obtain ⟨image, written, length⟩ := sound.exists_image
  refine ⟨⟨page, image, done, written, ?_, fun damaged other within used => ?_⟩,
    fun id bytes wrong => ofImage_wrongSize id wrong⟩
  · rw [length, sized, emptySize]
  · exact ofImage_differsWithin page.id (sound.readable.isSealed_image written) (length ▸ sound.large)
      (length ▸ sound.small) other within used

/-- What stands between the checksum and the last four bytes of a page of 24 bytes with one cell. -/
def smallMiddle : Bytes := [1, 0, 23, 0, 0, 0, 0, 0, 0, 0, 0, 0, 23, 0, 1, 0]

/-- A flipped bit of the one cell is noticed, and so is one of the checksum. -/
theorem damage_noticed_flipped :
    (20 ≤ 24 ∧ 24 ≤ 65535 ∧ ∀ change ∈ ([.insert [7]] : List PageChange), change.Addressable)
      ∧ (∃ page, (empty ⟨1, 0⟩ 24).changeAll [.insert [7]] = .ok page
        ∧ page.image = .ok ([131, 136, 121, 134] ++ smallMiddle ++ [0, 0, 0, 7]))
      ∧ ofImage ⟨1, 0⟩ ([131, 136, 121, 134] ++ smallMiddle ++ [0, 0, 0, 6])
        = fail (.corruptPage ⟨1, 0⟩ .checksum)
      ∧ ofImage ⟨1, 0⟩ ([130, 136, 121, 134] ++ smallMiddle ++ [0, 0, 0, 7])
        = fail (.corruptPage ⟨1, 0⟩ .checksum)
      ∧ ofImage ⟨1, 0⟩ smallMiddle = fail (.wrongPageSize 4096 16) := by
  have addressable : ∀ change ∈ ([.insert [7]] : List PageChange), change.Addressable := by
    simp [PageChange.Addressable]
  obtain ⟨⟨page, image, done, written, _, noticed⟩, sized⟩ :=
    @damage_noticed ⟨1, 0⟩ 24 _ (by decide) (by decide) addressable
  have held : (empty ⟨1, 0⟩ 24).changeAll [.insert [7]]
      = .ok ⟨⟨1, 0⟩, [⟨23, 1⟩], 23, Bytes.zeros 23 ++ [7], none⟩ := rfl
  rw [held] at done
  cases done
  have stored : image = [131, 136, 121, 134] ++ smallMiddle ++ [0, 0, 0, 7] :=
    Except.ok.inj (written.symm.trans (eq_ok_of_toOption (by decide +kernel)))
  subst stored
  refine ⟨⟨by decide, by decide, addressable⟩, ⟨_, held, written⟩, ?_, ?_, sized _ _ (by decide)⟩
  · have last := Bytes.DiffersWithin.of_append ([131, 136, 121, 134] ++ smallMiddle)
      [0, 0, 0, 7] [0, 0, 0, 6] []
    exact noticed _ (by decide) (.inr ⟨20, by decide, last rfl⟩) rfl
  · have first := Bytes.DiffersWithin.of_append [] [131, 136, 121, 134] [130, 136, 121, 134]
      (smallMiddle ++ [0, 0, 0, 7])
    exact noticed _ (by decide) (.inl (first rfl)) rfl

/-- A page may be too small for a directory, and then its image is refused for its size. -/
theorem damage_unnoticed_tiny :
    (empty ⟨1, 0⟩ 10).changeAll [] = .ok (empty ⟨1, 0⟩ 10)
      ∧ (empty ⟨1, 0⟩ 10).image = .ok ([199, 65, 127, 222] ++ [0, 0, 10, 0, 0, 0])
      ∧ Bytes.DiffersWithin 0 checksumSize ([199, 65, 127, 222] ++ [0, 0, 10, 0, 0, 0])
        ([198, 65, 127, 222] ++ [0, 0, 10, 0, 0, 0])
      ∧ ofImage ⟨1, 0⟩ ([198, 65, 127, 222] ++ [0, 0, 10, 0, 0, 0]) = fail (.wrongPageSize 4096 10)
      ∧ ofImage ⟨1, 0⟩ ([198, 65, 127, 222] ++ [0, 0, 10, 0, 0, 0])
        ≠ fail (.corruptPage ⟨1, 0⟩ .checksum) :=
  ⟨rfl, eq_ok_of_toOption (by decide +kernel), .of_append [] [199, 65, 127, 222] [198, 65, 127, 222] _ rfl,
    rfl, fun same => nomatch same⟩

end Page

end HeapEngine

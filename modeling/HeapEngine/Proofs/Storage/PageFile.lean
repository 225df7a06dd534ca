import HeapEngine.Storage.PageFile
import HeapEngine.Proofs.Bytes

/-!
The whole pages in the bytes of a file: writing one over another sets its image, and writing right
after them adds one.
-/

namespace HeapEngine

namespace Bytes

/-- A window that ends before the part just written shows what it showed before. -/
theorem window_overwrite_before {buffer part : Bytes} {start place length : Nat}
    (before : place + length ≤ start) (within : start ≤ buffer.length) :
    (overwrite buffer start part).window place length = buffer.window place length := by
  have front : (buffer.take start).length = start := by
    rw [List.length_take]
    omega
  -- The window lies in what was taken from the front, and so the rest does not matter.
  rw [window, window, overwrite, List.append_assoc,
    List.drop_append_of_le_length (by omega), List.take_append_of_le_length (by
      rw [List.length_drop]
      omega), List.drop_take, List.take_take, Nat.min_eq_left (by omega)]

/-- A window on the part just written shows that part. -/
theorem window_overwrite_self {buffer : Bytes} (part : Bytes) {start : Nat} (within : start ≤ buffer.length) :
    (overwrite buffer start part).window start part.length = part := by
  rw [window, drop_overwrite_self within, List.take_left]

/-- A window that begins after the part just written shows what it showed before. -/
theorem window_overwrite_after {buffer part : Bytes} {start place : Nat} (length : Nat)
    (within : start ≤ buffer.length) (after : start + part.length ≤ place) :
    (overwrite buffer start part).window place length = buffer.window place length := by
  rw [window, window, drop_overwrite within after]

end Bytes

namespace PageFile

/-- The images of the whole pages in the bytes of a file. -/
def images (pageSize : Nat) (content : Bytes) : List Bytes :=
  (List.range (content.length / pageSize)).map fun number =>
    content.window (number * pageSize) pageSize

variable {pageSize number : Nat} {content image : Bytes}

@[simp] theorem length_images : (images pageSize content).length = content.length / pageSize := by
  simp [images]

/-- Whole pages lie one after the other from the beginning of the file. -/
theorem getElem?_images : (images pageSize content)[number]?
    = if number < content.length / pageSize then some (content.window (number * pageSize) pageSize)
      else none := by
  by_cases within : number < content.length / pageSize <;> simp [images, within]

/-- A page among the whole pages ends within the file. -/
theorem end_le (within : number < content.length / pageSize) :
    number * pageSize + pageSize ≤ content.length := by
  have whole := Nat.div_mul_le_self content.length pageSize
  have next : (number + 1) * pageSize ≤ content.length / pageSize * pageSize :=
    Nat.mul_le_mul_right _ within
  rw [Nat.succ_mul] at next
  omega

/-- Pages lie apart: one ends where the next begins, or before. -/
theorem end_le_start (pageSize : Nat) {other : Nat} (before : other < number) :
    other * pageSize + pageSize ≤ number * pageSize := by
  have next : (other + 1) * pageSize ≤ number * pageSize := Nat.mul_le_mul_right _ before
  rwa [Nat.succ_mul] at next

/-- Writing over a whole page sets its image. -/
theorem images_overwrite (sized : image.length = pageSize)
    (within : number < content.length / pageSize) :
    images pageSize (content.overwrite (number * pageSize) image)
      = (images pageSize content).set number image := by
  have fits := end_le within
  have length : (content.overwrite (number * pageSize) image).length = content.length :=
    Bytes.length_overwrite (by omega)
  -- The images are compared one position at a time, before, at and after the page.
  refine List.ext_getElem? fun other => ?_
  rw [getElem?_images, length, List.getElem?_set]
  by_cases here : number = other
  · subst here
    have seen := Bytes.window_overwrite_self image (show number * pageSize ≤ content.length by omega)
    rw [sized] at seen
    simp [within, seen]
  · rw [if_neg here, getElem?_images]
    by_cases whole : other < content.length / pageSize
    · rw [if_pos whole, if_pos whole]
      rcases Nat.lt_or_gt_of_ne here with after | before
      · have apart := end_le_start pageSize after
        rw [Bytes.window_overwrite_after _ (by omega) (by omega)]
      · have apart := end_le_start pageSize before
        rw [Bytes.window_overwrite_before (by omega) (by omega)]
    · rw [if_neg whole, if_neg whole]

/-- Writing right after the whole pages adds an image, over whatever incomplete page was there. -/
theorem images_append (positive : 0 < pageSize) (sized : image.length = pageSize) :
    images pageSize (content.overwrite (content.length / pageSize * pageSize) image)
      = images pageSize content ++ [image] := by
  have whole := Nat.div_mul_le_self content.length pageSize
  have rest : content.length < content.length / pageSize * pageSize + pageSize :=
    Nat.lt_div_mul_add positive
  have length : (content.overwrite (content.length / pageSize * pageSize) image).length
      = (content.length / pageSize + 1) * pageSize := by
    rw [Nat.succ_mul]
    simp only [Bytes.overwrite, List.length_append, List.length_take, List.length_drop]
    omega
  refine List.ext_getElem? fun other => ?_
  rw [getElem?_images, length, Nat.mul_div_cancel _ positive, List.getElem?_append, length_images,
    getElem?_images]
  by_cases before : other < content.length / pageSize
  · have apart := end_le_start pageSize before
    rw [if_pos (by omega), if_pos before, if_pos before,
      Bytes.window_overwrite_before (by omega) whole]
  · rw [if_neg before]
    by_cases here : other = content.length / pageSize
    · subst here
      have seen := Bytes.window_overwrite_self image whole
      rw [sized] at seen
      simp [seen]
    · -- Past the new page there is nothing on either side.
      rw [if_neg (by omega), List.getElem?_eq_none (by simp; omega)]

end PageFile

end HeapEngine

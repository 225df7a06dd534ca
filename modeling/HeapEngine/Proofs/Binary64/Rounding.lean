import HeapEngine.Binary64

/-!
A whole number becomes the double nearest to it, and of two that are equally near the even one.

Every finite double is a whole multiple of the smallest positive one, so doubles are compared as whole
numbers. What is told of rounding alone, that no double is nearer, makes it keep the order of numbers.
-/

namespace HeapEngine.Binary64

/-- Whether the bits stand for a number that is not infinite. -/
def IsFinite (x : Binary64) : Prop := x.magnitude < infiniteMagnitude

instance (x : Binary64) : Decidable x.IsFinite := inferInstanceAs (Decidable (_ < _))

/-- A size with a sign. -/
def signed (negative : Bool) (size : Nat) : Int := if negative then -(size : Int) else size

/-- How many times the smallest positive number, `2 ^ -1074`, a finite number is. -/
def count (x : Binary64) : Int := signed x.isNegative (x.parts.1 * 2 ^ (x.parts.2 + 1074).toNat)

/-- How many times the smallest positive number one is. -/
def countOfOne : Nat := 2 ^ 1074

theorem two_pow_eq_mul_countOfOne (exponent : Nat) : 2 ^ (exponent + 1074) = 2 ^ exponent * countOfOne := by
  unfold countOfOne
  -- The power itself is far too large to be written out.
  generalize 1074 = least
  exact Nat.pow_add 2 exponent least

theorem countOfOne_pos : 0 < countOfOne := by
  unfold countOfOne
  generalize 1074 = least
  exact Nat.two_pow_pos least

/-- The count of a whole number. -/
def countOfInt (value : Int) : Int := value * countOfOne

/-- The double that a whole number is rounded to: no other is nearer, and if one is as near this one is even. -/
structure IsNearest (x : Binary64) (value : Int) : Prop where
  finite : x.IsFinite
  /-- Zero has no sign, and other numbers have that of the whole number. -/
  sign : x.isNegative = decide (value < 0)
  nearest : ∀ y : Binary64, y.IsFinite →
    (x.count - countOfInt value).natAbs ≤ (y.count - countOfInt value).natAbs
  even : ∀ y : Binary64, y.IsFinite →
    (x.count - countOfInt value).natAbs = (y.count - countOfInt value).natAbs → y.count ≠ x.count →
    x.bits.toNat % 2 = 0

/-- The count of a positive number with a magnitude. -/
def countOfMagnitude (magnitude : Nat) : Nat :=
  if magnitude / 2 ^ 52 = 0 then magnitude else (2 ^ 52 + magnitude % 2 ^ 52) * 2 ^ (magnitude / 2 ^ 52 - 1)

/-- A number is as many times the smallest one as its magnitude tells, with its sign. -/
theorem count_eq (x : Binary64) : x.count = signed x.isNegative (countOfMagnitude x.magnitude) := by
  have times : x.parts.1 * 2 ^ (x.parts.2 + 1074).toNat = countOfMagnitude x.magnitude := by
    unfold parts countOfMagnitude
    simp only
    split
    · have small : x.magnitude % 2 ^ 52 = x.magnitude := by omega
      simp [small]
    · have exponent : (((x.magnitude / 2 ^ 52 : Nat) : Int) - 1075 + 1074).toNat = x.magnitude / 2 ^ 52 - 1 := by
        omega
      simp only [exponent]
  rw [count, times]

/-- A full significand, or the next power of two, over an exponent. -/
theorem countOfMagnitude_normal {exponent significand : Nat} (least : 2 ^ 52 ≤ significand)
    (most : significand ≤ 2 ^ 53) :
    countOfMagnitude (exponent * 2 ^ 52 + significand) = significand * 2 ^ exponent := by
  unfold countOfMagnitude
  by_cases carry : significand = 2 ^ 53
  · -- A significand that overflows raises the exponent, and the number is the same.
    have top : (exponent * 2 ^ 52 + significand) / 2 ^ 52 = exponent + 2 := by omega
    have low : (exponent * 2 ^ 52 + significand) % 2 ^ 52 = 0 := by omega
    rw [top, low, if_neg (by omega), carry, show exponent + 2 - 1 = exponent + 1 from rfl, Nat.pow_succ]
    omega
  · have top : (exponent * 2 ^ 52 + significand) / 2 ^ 52 = exponent + 1 := by omega
    have low : 2 ^ 52 + (exponent * 2 ^ 52 + significand) % 2 ^ 52 = significand := by omega
    rw [top, low, if_neg (by omega), Nat.add_sub_cancel]

/-- The next magnitude stands for a larger number. -/
theorem countOfMagnitude_lt_succ (magnitude : Nat) : countOfMagnitude magnitude < countOfMagnitude (magnitude + 1) := by
  by_cases small : magnitude < 2 ^ 52
  · -- The smallest numbers are counted by their magnitudes, up to the first one with a full significand.
    have here : countOfMagnitude magnitude = magnitude := by rw [countOfMagnitude, if_pos (by omega)]
    have next : countOfMagnitude (magnitude + 1) = magnitude + 1 := by
      by_cases last : magnitude + 1 = 2 ^ 52
      · rw [last]
        rfl
      · rw [countOfMagnitude, if_pos (by omega)]
    omega
  · obtain ⟨exponent, significand, rfl, least, most⟩ : ∃ exponent significand,
        magnitude = exponent * 2 ^ 52 + significand ∧ 2 ^ 52 ≤ significand ∧ significand < 2 ^ 53 :=
      ⟨magnitude / 2 ^ 52 - 1, 2 ^ 52 + magnitude % 2 ^ 52, by omega, by omega, by omega⟩
    rw [Nat.add_assoc, countOfMagnitude_normal least (Nat.le_of_lt most), countOfMagnitude_normal (by omega) most]
    exact Nat.mul_lt_mul_of_pos_right (Nat.lt_succ_self _) (Nat.two_pow_pos _)

/-- Larger magnitudes stand for larger numbers. -/
theorem countOfMagnitude_lt {a b : Nat} (below : a < b) : countOfMagnitude a < countOfMagnitude b := by
  induction b with
  | zero => omega
  | succ b ih =>
    have step := countOfMagnitude_lt_succ b
    rcases Nat.lt_succ_iff_lt_or_eq.1 below with lower | rfl
    · exact Nat.lt_trans (ih lower) step
    · exact step

theorem countOfMagnitude_le {a b : Nat} (below : a ≤ b) : countOfMagnitude a ≤ countOfMagnitude b := by
  rcases Nat.lt_or_eq_of_le below with lower | rfl
  · exact Nat.le_of_lt (countOfMagnitude_lt lower)
  · exact Nat.le_refl _

/-- A number that stands before another one is smaller. -/
theorem count_lt_of_rank_lt {a b : Binary64} (before : a.rank < b.rank) : a.count < b.count := by
  have zero : countOfMagnitude 0 = 0 := rfl
  rw [count_eq, count_eq]
  unfold rank at before
  -- Of numbers with one sign the magnitudes decide, and a negative one is below every other.
  cases signA : a.isNegative <;> cases signB : b.isNegative <;>
    simp only [signed, signA, signB, Bool.false_eq_true, ↓reduceIte] at before ⊢
  · have larger := countOfMagnitude_lt (show a.magnitude < b.magnitude by omega)
    omega
  · omega
  · rcases Nat.eq_zero_or_pos a.magnitude with none | some
    · have larger := countOfMagnitude_lt (show 0 < b.magnitude by omega)
      rw [none]
      omega
    · have larger := countOfMagnitude_lt some
      omega
  · have larger := countOfMagnitude_lt (show b.magnitude < a.magnitude by omega)
    omega

/-- Numbers of one place are the same, as both zeros are. -/
theorem count_eq_of_rank_eq {a b : Binary64} (same : a.rank = b.rank) : a.count = b.count := by
  unfold rank at same
  have magnitudes : a.magnitude = b.magnitude := by
    split at same <;> split at same <;> omega
  rw [count_eq, count_eq, magnitudes]
  by_cases zero : b.magnitude = 0
  · -- Zero is the same with either sign.
    rw [zero]
    cases a.isNegative <;> cases b.isNegative <;> rfl
  · have signs : a.isNegative = b.isNegative := by
      cases signA : a.isNegative <;> cases signB : b.isNegative <;>
        simp only [signA, signB, Bool.false_eq_true, ↓reduceIte] at same ⊢ <;> omega
    rw [signs]

theorem IsFinite.isNaN {x : Binary64} (finite : x.IsFinite) : x.isNaN = false := by
  simpa [Binary64.isNaN] using Nat.le_of_lt finite

/-- Finite numbers are ordered by how large they are. -/
theorem order?_of_finite {a b : Binary64} (finiteA : a.IsFinite) (finiteB : b.IsFinite) :
    a.order? b = some (orderOfInts a.count b.count) := by
  simp only [order?, finiteA.isNaN, finiteB.isNaN, Bool.or_self, Bool.false_eq_true, ↓reduceIte, orderOfInts]
  rcases Int.lt_trichotomy a.rank b.rank with before | same | after
  · have below := count_lt_of_rank_lt before
    rw [if_pos before, if_pos below]
  · have equal := count_eq_of_rank_eq same
    rw [same, equal]
    simp
  · have above := count_lt_of_rank_lt after
    rw [if_neg (Int.lt_asymm after), if_pos after, if_neg (Int.lt_asymm above), if_pos above]

/-- Finite numbers are between the infinities. -/
theorem order?_of_infinite {a b : Binary64} (finite : a.IsFinite) (infinite : b.isInfinite = true) :
    a.order? b = some (if b.isNegative then .gt else .lt) := by
  have largest : b.magnitude = infiniteMagnitude := of_decide_eq_true infinite
  have isNumber : b.isNaN = false := by simp [isNaN, largest]
  have smaller : a.magnitude < b.magnitude := largest ▸ finite
  have within : -(b.magnitude : Int) < a.rank ∧ a.rank < b.magnitude := by
    unfold rank
    split <;> omega
  simp only [order?, finite.isNaN, isNumber, Bool.or_self, Bool.false_eq_true, ↓reduceIte, orderOfInts]
  cases sign : b.isNegative
  · have place : b.rank = b.magnitude := if_neg (Bool.eq_false_iff.1 sign)
    rw [place, if_pos within.2]
    rfl
  · have place : b.rank = -b.magnitude := if_pos sign
    rw [place, if_neg (Int.lt_asymm within.1), if_pos within.1]
    rfl

theorem order?_of_isNaN {a b : Binary64} (missing : b.isNaN = true) : a.order? b = none := by
  simp [order?, missing]

section Rounding

/--
A magnitude is the one that a count is rounded to.

The count lies from one magnitude on and before the next. It goes to the nearer one, and from half way to the
even one.
-/
def RoundsTo (count : Nat) (magnitude : Nat) : Prop :=
  ∃ lower, countOfMagnitude lower ≤ count ∧ count < countOfMagnitude (lower + 1)
    ∧ (magnitude = lower ∧ 2 * count ≤ countOfMagnitude lower + countOfMagnitude (lower + 1)
          ∧ (2 * count = countOfMagnitude lower + countOfMagnitude (lower + 1) → lower % 2 = 0)
      ∨ magnitude = lower + 1 ∧ countOfMagnitude lower + countOfMagnitude (lower + 1) ≤ 2 * count
          ∧ (2 * count = countOfMagnitude lower + countOfMagnitude (lower + 1) → lower % 2 = 1))

/-- The absolute value of a number is a magnitude's, so it does not lie between two neighbours. -/
theorem natAbs_count_apart (x : Binary64) (lower : Nat) :
    x.count.natAbs ≤ countOfMagnitude lower ∨ countOfMagnitude (lower + 1) ≤ x.count.natAbs := by
  have size : x.count.natAbs = countOfMagnitude x.magnitude := by
    rw [count_eq, signed]
    split <;> omega
  rw [size]
  rcases Nat.lt_or_ge lower x.magnitude with above | below
  · exact .inr (countOfMagnitude_le above)
  · exact .inl (countOfMagnitude_le below)

/-- No number is nearer than the one that is rounded to, and one that is as near makes it an even one. -/
theorem RoundsTo.nearest {count magnitude : Nat} (rounds : RoundsTo count magnitude) (negative : Bool) (y : Binary64) :
    let rounded := signed negative (countOfMagnitude magnitude)
    let value := signed negative count
    (rounded - value).natAbs ≤ (y.count - value).natAbs
      ∧ ((rounded - value).natAbs = (y.count - value).natAbs → y.count ≠ rounded → magnitude % 2 = 0) := by
  obtain ⟨lower, reached, before, ⟨rfl, near, tie⟩ | ⟨rfl, near, tie⟩⟩ := rounds
  · -- On both sides of the number and of its negative the next doubles are the neighbours.
    have apart := natAbs_count_apart y magnitude
    generalize countOfMagnitude magnitude = low at *
    generalize countOfMagnitude (magnitude + 1) = high at *
    cases negative <;> simp only [signed, Bool.false_eq_true, ↓reduceIte] <;> omega
  · have apart := natAbs_count_apart y lower
    generalize countOfMagnitude lower = low at *
    generalize countOfMagnitude (lower + 1) = high at *
    cases negative <;> simp only [signed, Bool.false_eq_true, ↓reduceIte] <;> omega

/-- A number between two significands over one exponent is rounded to the nearer one. -/
theorem roundsTo_significand {exponent kept dropped unit scale : Nat} (least : 2 ^ 52 ≤ kept) (most : kept < 2 ^ 53)
    (whole : 2 ^ exponent = unit * scale) (positive : 0 < scale) (rest : dropped < unit) :
    RoundsTo ((kept * unit + dropped) * scale) (exponent * 2 ^ 52 + kept
      + if unit < 2 * dropped ∨ (unit = 2 * dropped ∧ kept % 2 = 1) then 1 else 0) := by
  have lower : countOfMagnitude (exponent * 2 ^ 52 + kept) = kept * 2 ^ exponent :=
    countOfMagnitude_normal least (Nat.le_of_lt most)
  have upper : countOfMagnitude (exponent * 2 ^ 52 + kept + 1) = (kept + 1) * 2 ^ exponent := by
    rw [Nat.add_assoc]
    exact countOfMagnitude_normal (Nat.le_succ_of_le least) most
  have one : kept * 2 ^ exponent = kept * unit * scale := by rw [whole, Nat.mul_assoc]
  have two : (kept + 1) * 2 ^ exponent = kept * unit * scale + unit * scale := by
    rw [Nat.succ_mul, one, whole]
  have three : (kept * unit + dropped) * scale = kept * unit * scale + dropped * scale := Nat.add_mul _ _ _
  -- All are multiples of the scale, so the part that is dropped is compared with half a unit.
  have inside : dropped * scale < unit * scale := Nat.mul_lt_mul_of_pos_right rest positive
  have less : 2 * dropped < unit ↔ 2 * (dropped * scale) < unit * scale := by
    rw [← Nat.mul_assoc, Nat.mul_lt_mul_right positive]
  have more : unit < 2 * dropped ↔ unit * scale < 2 * (dropped * scale) := by
    rw [← Nat.mul_assoc, Nat.mul_lt_mul_right positive]
  have parity : (exponent * 2 ^ 52 + kept) % 2 = kept % 2 := by omega
  rw [one] at lower
  rw [two] at upper
  rw [three]
  generalize dropped * scale = part at inside less more ⊢
  generalize unit * scale = whole at *
  refine ⟨exponent * 2 ^ 52 + kept, by omega, by omega, ?_⟩
  rw [lower, upper, parity]
  split
  · exact .inr ⟨rfl, by omega, by omega⟩
  · exact .inl ⟨Nat.add_zero _, by omega, by omega⟩

section Significand

variable {value : Nat} (nonzero : value ≠ 0)
include nonzero

/-- A number of at most 53 bits fills the significand once it is moved up to its top. -/
theorem significand_of_short (short : value.log2 ≤ 52) :
    2 ^ 52 ≤ value * 2 ^ (52 - value.log2) ∧ value * 2 ^ (52 - value.log2) < 2 ^ 53 := by
  have least : 2 ^ value.log2 * 2 ^ (52 - value.log2) = 2 ^ 52 := by
    rw [← Nat.pow_add, Nat.add_sub_cancel' short]
  have most : 2 ^ (value.log2 + 1) * 2 ^ (52 - value.log2) = 2 ^ 53 := by
    rw [← Nat.pow_add, show value.log2 + 1 + (52 - value.log2) = 53 by omega]
  constructor
  · exact least ▸ Nat.mul_le_mul_right _ (Nat.log2_self_le nonzero)
  · exact most ▸ Nat.mul_lt_mul_of_pos_right Nat.lt_log2_self (Nat.two_pow_pos _)

/-- The upper 53 bits of a larger number fill the significand. -/
theorem significand_of_long (long : 52 < value.log2) :
    2 ^ 52 ≤ value / 2 ^ (value.log2 - 52) ∧ value / 2 ^ (value.log2 - 52) < 2 ^ 53 := by
  have unit : 0 < 2 ^ (value.log2 - 52) := Nat.two_pow_pos _
  have least : 2 ^ value.log2 = 2 ^ 52 * 2 ^ (value.log2 - 52) := by
    rw [← Nat.pow_add, show 52 + (value.log2 - 52) = value.log2 by omega]
  have most : 2 ^ (value.log2 + 1) = 2 ^ 53 * 2 ^ (value.log2 - 52) := by
    rw [← Nat.pow_add, show 53 + (value.log2 - 52) = value.log2 + 1 by omega]
  constructor
  · apply (Nat.le_div_iff_mul_le unit).2
    exact least ▸ Nat.log2_self_le nonzero
  · apply (Nat.div_lt_iff_lt_mul unit).2
    exact most ▸ Nat.lt_log2_self

end Significand

/-- The magnitude of a whole number is the one that its count is rounded to. -/
theorem roundsTo_magnitudeOfNat (value : Nat) : RoundsTo (value * countOfOne) (magnitudeOfNat value) := by
  unfold magnitudeOfNat
  by_cases zero : value = 0
  · rw [if_pos zero, zero, Nat.zero_mul]
    exact ⟨0, by decide, by decide, .inl ⟨rfl, by decide, by decide⟩⟩
  rw [if_neg zero]
  simp only
  split
  · rename_i short
    obtain ⟨least, most⟩ := significand_of_short zero short
    -- All bits are kept, so there is nothing to round.
    have exact : value * countOfOne = (value * 2 ^ (52 - value.log2) * 1 + 0) * 2 ^ (value.log2 + 1022) := by
      rw [Nat.mul_one, Nat.add_zero, Nat.mul_assoc, ← Nat.pow_add,
        show 52 - value.log2 + (value.log2 + 1022) = 1074 by omega]
      rfl
    have rounds := roundsTo_significand least most (Nat.one_mul (2 ^ (value.log2 + 1022))).symm (Nat.two_pow_pos _)
      Nat.zero_lt_one
    rw [exact]
    simpa using rounds
  · rename_i long
    obtain ⟨least, most⟩ := significand_of_long zero (Nat.not_le.1 long)
    -- What is dropped is less than a unit of the last bit that is kept.
    have rest : value % 2 ^ (value.log2 - 52) < 2 ^ (value.log2 - 52) := Nat.mod_lt _ (Nat.two_pow_pos _)
    have parts : value / 2 ^ (value.log2 - 52) * 2 ^ (value.log2 - 52) + value % 2 ^ (value.log2 - 52) = value := by
      rw [Nat.mul_comm]
      exact Nat.div_add_mod _ _
    have scale : 2 ^ (value.log2 + 1022) = 2 ^ (value.log2 - 52) * countOfOne := by
      rw [show value.log2 + 1022 = value.log2 - 52 + 1074 by omega, two_pow_eq_mul_countOfOne]
    have rounds := roundsTo_significand least most scale countOfOne_pos rest
    rwa [parts] at rounds

/-- A whole number of 64 bits is far from being too large for a finite double. -/
theorem magnitudeOfNat_lt {value : Nat} (below : value < 2 ^ 64) : magnitudeOfNat value < infiniteMagnitude := by
  unfold magnitudeOfNat infiniteMagnitude
  by_cases zero : value = 0
  · rw [if_pos zero]
    decide
  rw [if_neg zero]
  have top : value.log2 < 64 := (Nat.log2_lt zero).2 below
  simp only
  -- The significand takes less than two steps of the exponent.
  split
  · rename_i short
    have significand := significand_of_short zero short
    omega
  · rename_i long
    have significand := significand_of_long zero (Nat.not_le.1 long)
    split <;> omega

section Signed

variable (negative : Bool) {magnitude : Nat} (small : magnitude < infiniteMagnitude)
include small

theorem toNat_ofMagnitude :
    (ofMagnitude negative magnitude).bits.toNat = if negative then 2 ^ 63 + magnitude else magnitude := by
  unfold infiniteMagnitude at small
  rw [ofMagnitude, UInt64.toNat_ofNat']
  cases negative <;> simp only [Bool.false_eq_true, ↓reduceIte] <;> omega

theorem magnitude_ofMagnitude : (ofMagnitude negative magnitude).magnitude = magnitude := by
  have bits := toNat_ofMagnitude negative small
  unfold infiniteMagnitude at small
  rw [Binary64.magnitude, bits]
  cases negative <;> simp only [Bool.false_eq_true, ↓reduceIte] <;> omega

theorem isNegative_ofMagnitude : (ofMagnitude negative magnitude).isNegative = negative := by
  have bits := toNat_ofMagnitude negative small
  unfold infiniteMagnitude at small
  rw [isNegative, bits]
  cases negative <;> simp only [Bool.false_eq_true, ↓reduceIte, decide_eq_true_eq, decide_eq_false_iff_not] <;> omega

theorem count_ofMagnitude : (ofMagnitude negative magnitude).count = signed negative (countOfMagnitude magnitude) := by
  rw [count_eq, isNegative_ofMagnitude negative small, magnitude_ofMagnitude negative small]

theorem parity_ofMagnitude : (ofMagnitude negative magnitude).bits.toNat % 2 = magnitude % 2 := by
  rw [toNat_ofMagnitude negative small]
  split <;> omega

end Signed

theorem countOfInt_eq (value : Int) : countOfInt value = signed (value < 0) (value.natAbs * countOfOne) := by
  unfold countOfInt signed
  rw [Int.natCast_mul, ← Int.neg_mul]
  split
  · rename_i negative
    rw [show -(value.natAbs : Int) = value by have := of_decide_eq_true negative; omega]
  · rename_i positive
    rw [show (value.natAbs : Int) = value by have := of_decide_eq_false (Bool.eq_false_iff.2 positive); omega]

/-- A whole number of 64 bits becomes the double nearest to it. -/
theorem ofInt_isNearest {value : Int} (below : value.natAbs < 2 ^ 64) : (ofInt value).IsNearest value := by
  have small := magnitudeOfNat_lt below
  have closest := (roundsTo_magnitudeOfNat value.natAbs).nearest (value < 0)
  have count : (ofInt value).count = signed (value < 0) (countOfMagnitude (magnitudeOfNat value.natAbs)) :=
    count_ofMagnitude _ small
  exact {
    finite := by
      rw [IsFinite, ofInt, magnitude_ofMagnitude _ small]
      exact small
    sign := isNegative_ofMagnitude _ small
    nearest := fun y _ => by
      rw [count, countOfInt_eq]
      exact (closest y).1
    even := fun y _ => by
      rw [count, countOfInt_eq, ofInt, parity_ofMagnitude _ small]
      exact (closest y).2 }

/-- The double nearest to a smaller number does not stand after the one nearest to a larger number. -/
theorem IsNearest.rank_le {x y : Binary64} {a b : Int} (nearA : x.IsNearest a) (nearB : y.IsNearest b) (less : a < b) :
    x.rank ≤ y.rank := by
  refine Int.not_lt.1 fun before => ?_
  have crossed : y.count < x.count := count_lt_of_rank_lt before
  have less : countOfInt a < countOfInt b := Int.mul_lt_mul_of_pos_right less (Int.natCast_pos.2 countOfOne_pos)
  -- Of two doubles that crossed, the smaller number would be nearer to the lower one, or the larger to the upper one.
  have closestA := nearA.nearest y nearB.finite
  have closestB := nearB.nearest x nearA.finite
  omega

/-- Rounding keeps the order of whole numbers. -/
theorem ofInt_rank_le {a b : Int} (belowA : a.natAbs < 2 ^ 64) (belowB : b.natAbs < 2 ^ 64) (le : a ≤ b) :
    (ofInt a).rank ≤ (ofInt b).rank := by
  rcases Int.lt_or_eq_of_le le with less | rfl
  · exact (ofInt_isNearest belowA).rank_le (ofInt_isNearest belowB) less
  · exact Int.le_refl _

end Rounding

end HeapEngine.Binary64

import HeapEngine.Value
import HeapEngine.Proofs.Binary64.Rounding
import HeapEngine.Proofs.Bytes
import HeapEngine.Proofs.Text.Utf8

/-!
The order of values is strict, also in chains where integers and reals alternate.

An integer meets a real as the double nearest to it, and many large integers share one double. So a number
is given its place on the line of doubles, and only integers at one place are told apart. Rounding keeps the
order of integers, and between numbers of which one is a real the place alone decides.
-/

namespace HeapEngine

namespace Binary64

/-- Whole numbers have the order of the core library. -/
theorem orderOfInts_eq_compare (a b : Int) : orderOfInts a b = compare a b := by
  unfold orderOfInts
  rcases order : compare a b with _ | _ | _
  · rw [if_pos (Std.compare_eq_lt.1 order)]
  · rw [Std.compare_eq_iff_eq.1 order, if_neg (Int.lt_irrefl _), if_neg (Int.lt_irrefl _)]
  · have after := Std.compare_eq_gt.1 order
    rw [if_neg (Int.lt_asymm after), if_pos after]

theorem orderOfInts_swap (a b : Int) : orderOfInts b a = (orderOfInts a b).swap := by
  rw [orderOfInts_eq_compare, orderOfInts_eq_compare]
  exact Std.OrientedCmp.eq_swap

theorem orderOfInts_eq_lt {a b : Int} : orderOfInts a b = .lt ↔ a < b := by
  rw [orderOfInts_eq_compare]
  exact Std.compare_eq_lt

theorem orderOfInts_eq_eq {a b : Int} : orderOfInts a b = .eq ↔ a = b := by
  rw [orderOfInts_eq_compare]
  exact Std.compare_eq_iff_eq

/-- Two doubles seen from the other side have the opposite order. -/
theorem order?_swap (a b : Binary64) : b.order? a = (a.order? b).map Ordering.swap := by
  unfold order?
  rw [Bool.or_comm b.isNaN, orderOfInts_swap a.rank]
  split <;> rfl

/-- Doubles are ordered by their places, if both are numbers. -/
theorem order?_eq_lt {a b : Binary64} :
    a.order? b = some .lt ↔ a.isNaN = false ∧ b.isNaN = false ∧ a.rank < b.rank := by
  unfold order?
  cases a.isNaN <;> cases b.isNaN <;> simp [orderOfInts_eq_lt]

end Binary64

namespace Value

/-- Two values seen from the other side have the opposite order. -/
theorem order?_swap (a b : Value) : b.order? a = (a.order? b).map Ordering.swap := by
  have ofBytes : ∀ x y : Bytes, Bytes.order y x = (Bytes.order x y).swap := fun x y => by
    rw [Bytes.order_eq_compare, Bytes.order_eq_compare]
    exact Std.OrientedCmp.eq_swap
  -- Values of two kinds that are not both numbers have no order from either side, unless one is null.
  cases a with
  | null => cases b <;> rfl
  | integer m =>
    cases b with
    | integer n => exact congrArg some (Binary64.orderOfInts_swap m.toInt n.toInt)
    | real y => exact Binary64.order?_swap (realOfInteger m) y
    | _ => rfl
  | real x =>
    cases b with
    | integer n => exact Binary64.order?_swap x (realOfInteger n)
    | real y => exact Binary64.order?_swap x y
    | _ => rfl
  | text s =>
    cases b with
    | text t => exact congrArg some (ofBytes (Text.encode s) (Text.encode t))
    | _ => rfl
  | blob s =>
    cases b with
    | blob t => exact congrArg some (ofBytes s t)
    | _ => rfl

/-- No value comes before itself, as it would come after itself too. -/
theorem less_irrefl (a : Value) : a.less a = false := by
  -- From the other side the same order would be the opposite one.
  have swapped := order?_swap a a
  rw [less, decide_eq_false_iff_not]
  intro before
  rw [before] at swapped
  cases swapped

section Numbers

/-- An integer of 64 bits is one that has a nearest double. -/
theorem natAbs_toInt_lt (number : Int64) : number.toInt.natAbs < 2 ^ 64 := by
  have least := number.le_toInt
  have most := number.toInt_lt
  omega

/-- An integer meets a real as the double nearest to it, and of two that are as near as the even one. -/
theorem realOfInteger_isNearest (number : Int64) : (realOfInteger number).IsNearest number.toInt :=
  Binary64.ofInt_isNearest (natAbs_toInt_lt number)

theorem realOfInteger_isNaN (number : Int64) : (realOfInteger number).isNaN = false :=
  (realOfInteger_isNearest number).finite.isNaN

/-- A smaller integer does not become a larger double. -/
theorem realOfInteger_rank_le {m n : Int64} (le : m.toInt ≤ n.toInt) :
    (realOfInteger m).rank ≤ (realOfInteger n).rank :=
  Binary64.ofInt_rank_le (natAbs_toInt_lt m) (natAbs_toInt_lt n) le

/-- The place of a number on the line of doubles; an integer stands where the double nearest to it does. -/
def place? : Value → Option Int
  | integer number => some (realOfInteger number).rank
  | real number => if number.isNaN then none else some number.rank
  | _ => none

theorem place?_real {number : Binary64} (isNumber : number.isNaN = false) :
    (real number).place? = some number.rank := by
  simp [place?, isNumber]

/-- What has a place is an integer or a real that is a number. -/
theorem number_of_place {a : Value} {p : Int} (place : a.place? = some p) :
    (∃ number, a = .integer number ∧ (realOfInteger number).rank = p)
      ∨ ∃ number, a = .real number ∧ number.isNaN = false ∧ number.rank = p := by
  cases a with
  | integer number => exact .inl ⟨number, rfl, Option.some.inj place⟩
  | real number =>
    simp only [place?, Option.ite_none_left_eq_some, Option.some.injEq, Bool.not_eq_true] at place
    exact .inr ⟨number, rfl, place⟩
  | _ => cases place

/-- Of two numbers the one with the lower place comes first. -/
theorem less_of_place_lt {a b : Value} {p q : Int} (placeA : a.place? = some p) (placeB : b.place? = some q)
    (before : p < q) : a.less b = true := by
  refine decide_eq_true ?_
  obtain ⟨m, rfl, rfl⟩ | ⟨x, rfl, isNumberX, rfl⟩ := number_of_place placeA <;>
    obtain ⟨n, rfl, rfl⟩ | ⟨y, rfl, isNumberY, rfl⟩ := number_of_place placeB
  · -- Were the integers the other way round, so would their doubles be.
    have below : m.toInt < n.toInt := Int.not_le.1 fun le => Int.not_le.2 before (realOfInteger_rank_le le)
    exact congrArg some (Binary64.orderOfInts_eq_lt.2 below)
  · exact Binary64.order?_eq_lt.2 ⟨realOfInteger_isNaN m, isNumberY, before⟩
  · exact Binary64.order?_eq_lt.2 ⟨isNumberX, realOfInteger_isNaN n, before⟩
  · exact Binary64.order?_eq_lt.2 ⟨isNumberX, isNumberY, before⟩

end Numbers

/-- The ways in which a value comes before another. -/
inductive Precedes : Value → Value → Prop
  | null {b : Value} (present : b ≠ .null) : Precedes .null b
  | integer {m n : Int64} (before : m.toInt < n.toInt) : Precedes (.integer m) (.integer n)
  /-- Any two numbers, also two integers that do not become one double. -/
  | number {a b : Value} {p q : Int} (placeA : a.place? = some p) (placeB : b.place? = some q)
      (before : p < q) : Precedes a b
  | text {s t : String} (before : compare (Text.encode s) (Text.encode t) = .lt) : Precedes (.text s) (.text t)
  | blob {s t : Bytes} (before : compare s t = .lt) : Precedes (.blob s) (.blob t)

/-- Whatever comes before a value precedes it in one of these ways. -/
theorem precedes_of_less {a b : Value} (less : a.less b = true) : a.Precedes b := by
  have before : a.order? b = some .lt := of_decide_eq_true less
  -- The cases are those of the order itself, and where it is none of two kinds nothing comes before.
  cases a with
  | null =>
    refine .null fun same => ?_
    rw [same] at before
    cases before
  | integer m =>
    cases b with
    | integer n => exact .integer (Binary64.orderOfInts_eq_lt.1 (Option.some.inj before))
    | real y =>
      obtain ⟨-, isNumber, before⟩ := Binary64.order?_eq_lt.1 before
      exact .number rfl (place?_real isNumber) before
    | _ => cases before
  | real x =>
    cases b with
    | integer n =>
      obtain ⟨isNumber, -, before⟩ := Binary64.order?_eq_lt.1 before
      exact .number (place?_real isNumber) rfl before
    | real y =>
      obtain ⟨isNumberX, isNumberY, before⟩ := Binary64.order?_eq_lt.1 before
      exact .number (place?_real isNumberX) (place?_real isNumberY) before
    | _ => cases before
  | text s =>
    cases b with
    | text t => exact .text (Bytes.order_eq_compare _ _ ▸ Option.some.inj before)
    | _ => cases before
  | blob s =>
    cases b with
    | blob t => exact .blob (Bytes.order_eq_compare _ _ ▸ Option.some.inj before)
    | _ => cases before

/-- What precedes a value in one of these ways comes before it. -/
theorem less_of_precedes {a b : Value} (precedes : a.Precedes b) : a.less b = true := by
  cases precedes with
  | null present => cases b <;> first | rfl | exact absurd rfl present
  | integer before => exact decide_eq_true (congrArg some (Binary64.orderOfInts_eq_lt.2 before))
  | number placeA placeB before => exact less_of_place_lt placeA placeB before
  | text before => exact decide_eq_true (congrArg some ((Bytes.order_eq_compare _ _).trans before))
  | blob before => exact decide_eq_true (congrArg some ((Bytes.order_eq_compare _ _).trans before))

/-- Nothing precedes null. -/
theorem Precedes.present {a b : Value} (precedes : a.Precedes b) : b ≠ .null := by
  rintro rfl
  cases precedes with
  | null present => exact present rfl
  | number _ placeB _ => cases placeB

/-- What precedes a value precedes all that it precedes. -/
theorem Precedes.trans {a b c : Value} (first : a.Precedes b) (second : b.Precedes c) : a.Precedes c := by
  -- The middle value is of the kind of both others, or a number between numbers, or the first one is null.
  cases first with
  | null => exact .null second.present
  | integer before =>
    rename_i m n
    cases second with
    | integer after => exact .integer (Int.lt_trans before after)
    | number placeB placeC after =>
      -- The two integers may share a place, and the number after them stands behind it.
      have le := realOfInteger_rank_le (Int.le_of_lt before)
      have here : (realOfInteger n).rank = _ := Option.some.inj placeB
      exact .number (a := .integer m) rfl placeC (Int.lt_of_le_of_lt (here ▸ le) after)
  | number placeA placeB before =>
    cases second with
    | null => cases placeB
    | integer after =>
      -- The two integers may share a place, and the number before them stands in front of it.
      have le := realOfInteger_rank_le (Int.le_of_lt after)
      have here := Option.some.inj placeB
      exact .number placeA rfl (Int.lt_of_lt_of_le before (here ▸ le))
    | number placeB' placeC after =>
      have same := Option.some.inj (placeB.symm.trans placeB')
      exact .number placeA placeC (Int.lt_trans before (same ▸ after))
    | text => cases placeB
    | blob => cases placeB
  | text before =>
    cases second with
    | number placeB => cases placeB
    | text after => exact .text (Std.TransCmp.lt_trans before after)
  | blob before =>
    cases second with
    | number placeB => cases placeB
    | blob after => exact .blob (Std.TransCmp.lt_trans before after)

theorem less_trans {a b c : Value} (first : a.less b = true) (second : b.less c = true) : a.less c = true :=
  less_of_precedes ((precedes_of_less first).trans (precedes_of_less second))

/--
Values are strictly ordered, with any mixture of integers and reals among them.

Seen from the other side two values have the opposite order, none comes before itself, and what comes before a
value comes before all that are after it. An integer meets a real as the double nearest to it, and a finite
real is before or after that double as its number is smaller or larger.
-/
theorem order_strict :
    (∀ a b : Value, b.order? a = (a.order? b).map Ordering.swap)
      ∧ (∀ a : Value, a.less a = false)
      ∧ (∀ a b c : Value, a.less b = true → b.less c = true → a.less c = true)
      ∧ ∀ (number : Int64) (x : Binary64),
        (realOfInteger number).IsNearest number.toInt
          ∧ (integer number).order? (real x) = (realOfInteger number).order? x
          ∧ (x.IsFinite →
            (integer number).order? (real x) = some (Binary64.orderOfInts (realOfInteger number).count x.count))
          ∧ (x.isInfinite = true → (integer number).order? (real x) = some (if x.isNegative then .gt else .lt))
          ∧ (x.isNaN = true → (integer number).order? (real x) = none) := by
  refine ⟨order?_swap, less_irrefl, fun _ _ _ => less_trans, fun number x =>
    ⟨realOfInteger_isNearest number, rfl, fun finite => ?_, fun infinite => ?_, fun missing => ?_⟩⟩
  · exact Binary64.order?_of_finite (realOfInteger_isNearest number).finite finite
  · exact Binary64.order?_of_infinite (realOfInteger_isNearest number).finite infinite
  · exact Binary64.order?_of_isNaN missing

/-- A real between two integers that are rounded away from it, one to each side. -/
theorem order_strict_rounded :
    (integer 9007199254740993).less (integer 9007199254740995) = true
      ∧ (integer 9007199254740993).order? (real ⟨0x4340000000000001⟩) = some .lt
      ∧ (integer 9007199254740993).order? (real ⟨0xFFF0000000000000⟩) = some .gt
      ∧ (integer 9007199254740993).order? (real ⟨0x7FF8000000000000⟩) = none := by
  -- The smaller integer is rounded down to 2 ^ 53 and the larger one up to 2 ^ 53 + 4, to either side of the real.
  have pairs := order_strict.2.2.2 9007199254740993
  have chain := order_strict.2.2.1 (integer 9007199254740993) (real ⟨0x4340000000000001⟩) (integer 9007199254740995)
    (by decide) (by decide)
  exact ⟨chain, ((pairs ⟨0x4340000000000001⟩).2.2.1 (by decide)).trans (by decide +kernel),
    ((pairs ⟨0xFFF0000000000000⟩).2.2.2.1 (by decide)), (pairs ⟨0x7FF8000000000000⟩).2.2.2.2 (by decide)⟩

end Value

end HeapEngine

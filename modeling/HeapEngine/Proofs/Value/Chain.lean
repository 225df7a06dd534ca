import HeapEngine.Proofs.Value.Equality

/-!
Chains of values of which each is at most the next.

Integers at one place are told apart by each other, but not by a real at that place. So a chain may come down from
an integer to a smaller one over the real that both are rounded to. It goes wrong in no other way.
-/

namespace HeapEngine

namespace Binary64

/-- A whole number is not after another one if it is at most that. -/
theorem orderOfInts_isLE {a b : Int} : (orderOfInts a b).isLE = true ↔ a ≤ b := by
  rw [orderOfInts_eq_compare]
  exact Std.isLE_compare

/-- Doubles are at most as large as others by their places, if both are numbers. -/
theorem order?_isLE {a b : Binary64} {order : Ordering} (found : a.order? b = some order) :
    a.isNaN = false ∧ b.isNaN = false ∧ (order.isLE = true ↔ a.rank ≤ b.rank) := by
  unfold order? at found
  split at found
  · cases found
  · rename_i numbers
    cases found
    exact ⟨by simp_all, by simp_all, orderOfInts_isLE⟩

end Binary64

namespace Value

/-- What is at most a value has an order with it, and does not come after it. -/
theorem lessOrEqual_iff {a b : Value} :
    a.lessOrEqual b = true ↔ ∃ order, a.order? b = some order ∧ order.isLE = true := by
  unfold lessOrEqual
  rcases a.order? b with _ | _ | _ | _ <;> simp

/-- The ways in which a value is at most another. -/
inductive AtMost : Value → Value → Prop
  | null {b : Value} : AtMost .null b
  | integer {m n : Int64} (le : m.toInt ≤ n.toInt) : AtMost (.integer m) (.integer n)
  /-- Two numbers, of which at least one is a real. -/
  | number {a b : Value} {p q : Int} (mixed : a.kind = .real ∨ b.kind = .real) (placeA : a.place? = some p)
      (placeB : b.place? = some q) (le : p ≤ q) : AtMost a b
  | text {s t : String} (le : (compare (Text.encode s) (Text.encode t)).isLE = true) : AtMost (.text s) (.text t)
  | blob {s t : Bytes} (le : (compare s t).isLE = true) : AtMost (.blob s) (.blob t)

/-- Whatever is at most a value is so in one of these ways. -/
theorem atMost_of_lessOrEqual {a b : Value} (atMost : a.lessOrEqual b = true) : a.AtMost b := by
  obtain ⟨order, found, le⟩ := lessOrEqual_iff.1 atMost
  cases a with
  | null => exact .null
  | integer m =>
    cases b with
    | integer n =>
      cases found
      exact .integer (Binary64.orderOfInts_isLE.1 le)
    | real y =>
      obtain ⟨-, isNumber, places⟩ := Binary64.order?_isLE found
      exact .number (.inr rfl) rfl (place?_real isNumber) (places.1 le)
    | null => cases found; cases le
    | _ => cases found
  | real x =>
    cases b with
    | integer n =>
      obtain ⟨isNumber, -, places⟩ := Binary64.order?_isLE found
      exact .number (.inl rfl) (place?_real isNumber) rfl (places.1 le)
    | real y =>
      obtain ⟨isNumberX, isNumberY, places⟩ := Binary64.order?_isLE found
      exact .number (.inl rfl) (place?_real isNumberX) (place?_real isNumberY) (places.1 le)
    | null => cases found; cases le
    | _ => cases found
  | text s =>
    cases b with
    | text t =>
      cases found
      exact .text (Bytes.order_eq_compare _ _ ▸ le)
    | null => cases found; cases le
    | _ => cases found
  | blob s =>
    cases b with
    | blob t =>
      cases found
      exact .blob (Bytes.order_eq_compare _ _ ▸ le)
    | null => cases found; cases le
    | _ => cases found

/-- Two numbers, of which one is a real, are ordered by their places. -/
theorem lessOrEqual_of_places {a b : Value} {p q : Int} (mixed : a.kind = .real ∨ b.kind = .real)
    (placeA : a.place? = some p) (placeB : b.place? = some q) (le : p ≤ q) : a.lessOrEqual b = true := by
  have ofDoubles : ∀ x y : Binary64, x.isNaN = false → y.isNaN = false → x.rank ≤ y.rank →
      ∃ order, x.order? y = some order ∧ order.isLE = true := by
    intro x y isNumberX isNumberY le
    exact ⟨_, by simp [Binary64.order?, isNumberX, isNumberY], Binary64.orderOfInts_isLE.2 le⟩
  apply lessOrEqual_iff.2
  obtain ⟨m, rfl, rfl⟩ | ⟨x, rfl, isNumberX, rfl⟩ := number_of_place placeA <;>
    obtain ⟨n, rfl, rfl⟩ | ⟨y, rfl, isNumberY, rfl⟩ := number_of_place placeB
  · -- Two integers are not compared by their places.
    rcases mixed with wrong | wrong <;> cases wrong
  · exact ofDoubles _ _ (realOfInteger_isNaN m) isNumberY le
  · exact ofDoubles _ _ isNumberX (realOfInteger_isNaN n) le
  · exact ofDoubles _ _ isNumberX isNumberY le

/-- What is at most a value in one of these ways is not after it. -/
theorem lessOrEqual_of_atMost {a b : Value} (atMost : a.AtMost b) : a.lessOrEqual b = true := by
  cases atMost with
  | null => cases b <;> rfl
  | integer le => exact lessOrEqual_iff.2 ⟨_, rfl, Binary64.orderOfInts_isLE.2 le⟩
  | number mixed placeA placeB le => exact lessOrEqual_of_places mixed placeA placeB le
  | text le => exact lessOrEqual_iff.2 ⟨_, rfl, (Bytes.order_eq_compare _ _).symm ▸ le⟩
  | blob le => exact lessOrEqual_iff.2 ⟨_, rfl, (Bytes.order_eq_compare _ _).symm ▸ le⟩

/-- Two integers with the real between them that both are rounded to, the larger one first. -/
def StepsDown : Value → Value → Value → Prop
  | integer m, real x, integer n =>
    n.toInt < m.toInt ∧ x.IsFinite ∧ x.count = (realOfInteger m).count ∧ x.count = (realOfInteger n).count
  | _, _, _ => False

/-- Integers with a real between them are in order, or both are rounded to that real. -/
theorem le_or_stepsDown {m n : Int64} {x : Binary64} (isNumber : x.isNaN = false)
    (below : (realOfInteger m).rank ≤ x.rank) (above : x.rank ≤ (realOfInteger n).rank) :
    m.toInt ≤ n.toInt ∨ StepsDown (integer m) (real x) (integer n) := by
  by_cases down : n.toInt < m.toInt
  · -- Rounding keeps the order, so the three doubles are at one place.
    have crossed := realOfInteger_rank_le (Int.le_of_lt down)
    have first : x.rank = (realOfInteger m).rank := by omega
    have second : x.rank = (realOfInteger n).rank := by omega
    have same : (integer m).order? (real x) = some .eq := by
      have shared := Binary64.orderOfInts_eq_eq.2 first.symm
      change (realOfInteger m).order? x = some .eq
      simp [Binary64.order?, realOfInteger_isNaN, isNumber, shared]
    obtain ⟨finite, count⟩ := order?_integer_real_eq.1 same
    exact .inr ⟨down, finite, count, Binary64.count_eq_of_rank_eq second⟩
  · exact .inl (Int.not_lt.1 down)

/-- What is at most a value is at most all that this one is at most, or the chain steps down. -/
theorem AtMost.trans {a b c : Value} (first : a.AtMost b) (second : b.AtMost c) : a.AtMost c ∨ StepsDown a b c := by
  cases first with
  | null => exact .inl .null
  | integer le =>
    rename_i m n
    cases second with
    | integer more => exact .inl (.integer (Int.le_trans le more))
    | number mixed placeB placeC more =>
      -- The smaller integer is not at a higher place.
      have lower := realOfInteger_rank_le le
      have here : (realOfInteger n).rank = _ := Option.some.inj placeB
      have real : c.kind = .real := mixed.resolve_left (by simp [kind])
      exact .inl (.number (a := .integer m) (.inr real) rfl placeC (Int.le_trans (here ▸ lower) more))
  | number mixed placeA placeB le =>
    cases second with
    | null => cases placeB
    | integer more =>
      -- The larger integer is not at a lower place.
      have higher := realOfInteger_rank_le more
      have here := Option.some.inj placeB
      have real : a.kind = .real := mixed.resolve_right (by simp [kind])
      exact .inl (.number (.inl real) placeA rfl (Int.le_trans le (here ▸ higher)))
    | number mixed' placeB' placeC more =>
      have same := Option.some.inj (placeB.symm.trans placeB')
      have through := Int.le_trans le (same ▸ more)
      obtain ⟨m, rfl, rfl⟩ | ⟨x, rfl, isNumberX, rfl⟩ := number_of_place placeA
      · obtain ⟨n, rfl, rfl⟩ | ⟨z, rfl, isNumberZ, rfl⟩ := number_of_place placeC
        · -- Both ends are integers, so a real is between them.
          obtain ⟨_, rfl, -⟩ | ⟨y, rfl, isNumber, rfl⟩ := number_of_place placeB
          · rcases mixed with wrong | wrong <;> cases wrong
          · rcases le_or_stepsDown isNumber le (same ▸ more) with up | down
            · exact .inl (.integer up)
            · exact .inr down
        · exact .inl (.number (.inr rfl) placeA placeC through)
      · exact .inl (.number (.inl rfl) placeA placeC through)
    | text => cases placeB
    | blob => cases placeB
  | text le =>
    cases second with
    | number _ placeB => cases placeB
    | text more => exact .inl (.text (Std.TransCmp.isLE_trans le more))
  | blob le =>
    cases second with
    | number _ placeB => cases placeB
    | blob more => exact .inl (.blob (Std.TransCmp.isLE_trans le more))

/-- Where a chain steps down, each value is at most the next but the first one is after the last. -/
theorem StepsDown.chain {a b c : Value} (down : StepsDown a b c) :
    a.lessOrEqual b = true ∧ b.lessOrEqual c = true ∧ a.lessOrEqual c = false := by
  cases a with
  | integer m =>
    cases b with
    | real x =>
      cases c with
      | integer n =>
        obtain ⟨larger, finite, first, second⟩ := down
        have up : (integer m).order? (real x) = some .eq := order?_integer_real_eq.2 ⟨finite, first⟩
        have on : (real x).order? (integer n) = some .eq :=
          order?_eq_comm.1 (order?_integer_real_eq.2 ⟨finite, second⟩)
        refine ⟨lessOrEqual_iff.2 ⟨_, up, rfl⟩, lessOrEqual_iff.2 ⟨_, on, rfl⟩, Bool.eq_false_iff.2 fun wrong => ?_⟩
        -- The two integers themselves are told apart.
        cases atMost_of_lessOrEqual wrong with
        | integer le => omega
        | number mixed => rcases mixed with wrong | wrong <;> cases wrong
      | _ => exact down.elim
    | _ => exact down.elim
  | _ => exact down.elim

/--
Being at most another value is transitive on all chains but those that step down.

A chain steps down if it leads from an integer to a smaller one over the finite real that both are rounded to.
-/
theorem lessOrEqual_trans_iff (a b c : Value) :
    (a.lessOrEqual b = true → b.lessOrEqual c = true → a.lessOrEqual c = true) ↔ ¬ StepsDown a b c := by
  constructor
  · intro transitive down
    obtain ⟨first, second, after⟩ := down.chain
    exact Bool.false_ne_true (after.symm.trans (transitive first second))
  · intro never first second
    rcases (atMost_of_lessOrEqual first).trans (atMost_of_lessOrEqual second) with atMost | down
    · exact lessOrEqual_of_atMost atMost
    · exact absurd down never

/-- From `2 ^ 53 + 1` to `2 ^ 53`, over the real that is `2 ^ 53`. -/
theorem not_lessOrEqual_trans :
    ¬ ∀ a b c : Value, a.lessOrEqual b = true → b.lessOrEqual c = true → a.lessOrEqual c = true := fun transitive =>
  absurd (transitive (integer 9007199254740993) (real ⟨0x4340000000000000⟩) (integer 9007199254740992)
    (by decide) (by decide)) (by decide)

end Value

end HeapEngine

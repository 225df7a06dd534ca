import HeapEngine.Proofs.Value.Order

/-!
Values are equal where their order puts them at one place, except for an integer and the real it is rounded to.

An integer and a real are compared as numbers but are never equal, so one can be neither before nor after the
other and still differ from it.
-/

namespace HeapEngine

/-- A double is finite, infinite, or no number. -/
theorem Binary64.finite_or_not (x : Binary64) : x.IsFinite ∨ x.isInfinite = true ∨ x.isNaN = true := by
  rcases Nat.lt_trichotomy x.magnitude infiniteMagnitude with below | same | above
  · exact .inl below
  · exact .inr (.inl (decide_eq_true same))
  · exact .inr (.inr (decide_eq_true above))

namespace Value

/-- One value is an integer, and the other is the real that it is rounded to. -/
def Coincide : Value → Value → Prop
  | integer number, real x => x.IsFinite ∧ x.count = (realOfInteger number).count
  | real x, integer number => x.IsFinite ∧ x.count = (realOfInteger number).count
  | _, _ => False

/-- An integer and a real are at one place exactly if the real is the number that the integer is rounded to. -/
theorem order?_integer_real_eq {number : Int64} {x : Binary64} :
    (integer number).order? (real x) = some .eq ↔ x.IsFinite ∧ x.count = (realOfInteger number).count := by
  have rounded := (realOfInteger_isNearest number).finite
  change (realOfInteger number).order? x = some .eq ↔ _
  constructor
  · intro same
    rcases x.finite_or_not with finite | infinite | missing
    · rw [Binary64.order?_of_finite rounded finite, Option.some.injEq, Binary64.orderOfInts_eq_eq] at same
      exact ⟨finite, same.symm⟩
    · -- An infinity is on one side of all finite numbers.
      rw [Binary64.order?_of_infinite rounded infinite] at same
      split at same <;> cases same
    · rw [Binary64.order?_of_isNaN missing] at same
      cases same
  · rintro ⟨finite, same⟩
    rw [Binary64.order?_of_finite rounded finite, Binary64.orderOfInts_eq_eq.2 same.symm]

/-- Being at one place is told alike from either side. -/
theorem order?_eq_comm {a b : Value} : a.order? b = some .eq ↔ b.order? a = some .eq := by
  rw [order?_swap a b]
  rcases a.order? b with _ | _ | _ | _ <;> decide

/-- Values are at one place if they are equal, and if one is an integer and the other what it is rounded to. -/
theorem order?_eq_iff (a b : Value) : a.order? b = some .eq ↔ a.equal b = true ∨ Coincide a b := by
  have ofBytes : ∀ x y : Bytes, some (Bytes.order x y) = some .eq ↔ x = y := fun x y => by
    rw [Option.some.injEq, Bytes.order_eq_compare, Std.compare_eq_iff_eq]
  cases a with
  | null => cases b <;> simp [equal, order?, Coincide]
  | integer m =>
    cases b with
    | integer n => simp [equal, order?, Coincide, Binary64.orderOfInts_eq_eq, Int64.toInt_inj]
    | real y => simpa [equal, Coincide] using order?_integer_real_eq
    | _ => simp [equal, order?, Coincide]
  | real x =>
    cases b with
    | integer n =>
      rw [order?_eq_comm]
      simpa [equal, Coincide] using order?_integer_real_eq
    -- The doubles themselves are equal where their order says so.
    | real y => simp [equal, order?, Coincide, Binary64.equal]
    | _ => simp [equal, order?, Coincide]
  | text s =>
    cases b with
    | text t =>
      -- A text is known by its bytes.
      have same : Text.encode s = Text.encode t ↔ s = t := ⟨Text.encode_injective, congrArg Text.encode⟩
      simp [equal, order?, Coincide, ofBytes, same]
    | _ => simp [equal, order?, Coincide]
  | blob s =>
    cases b with
    | blob t => simp [equal, order?, Coincide, ofBytes]
    | _ => simp [equal, order?, Coincide]

/-- An integer and the real that it is rounded to are not equal. -/
theorem Coincide.differ {a b : Value} (coincide : Coincide a b) : a.equal b = false := by
  cases a <;> cases b <;> first | rfl | exact coincide.elim

/-- Two values are each at most the other exactly if they are at one place. -/
theorem lessOrEqual_and_greaterOrEqual {a b : Value} :
    a.lessOrEqual b = true ∧ a.greaterOrEqual b = true ↔ a.order? b = some .eq := by
  unfold lessOrEqual greaterOrEqual
  rcases a.order? b with _ | _ | _ | _ <;> decide

/--
Equality agrees with the order on all values but an integer and the real that it is rounded to.

This holds of being at one place, and of being each at most the other.
-/
theorem equal_iff_order (a b : Value) :
    ((a.equal b = true ↔ a.order? b = some .eq) ↔ ¬ Coincide a b)
      ∧ ((a.equal b = true ↔ a.lessOrEqual b = true ∧ a.greaterOrEqual b = true) ↔ ¬ Coincide a b) := by
  rw [lessOrEqual_and_greaterOrEqual, order?_eq_iff]
  by_cases coincide : Coincide a b
  · simp [coincide, coincide.differ]
  · simp [coincide]

/-- One as an integer and one as a real are at one place, and not equal. -/
theorem not_equal_iff_order : ¬ ∀ a b : Value, a.equal b = true ↔ a.order? b = some .eq := fun agree =>
  absurd (agree (integer 1) (real ⟨0x3FF0000000000000⟩)) (by decide)

end Value

end HeapEngine

import HeapEngine.Proofs.Operation

/-!
Operations that can be done in either order.

What an operation comes to and the state that it leaves are told apart here. Two operations commute where
each comes to the same before and after the other, and both orders leave one state.
-/

namespace HeapEngine

namespace Op

variable {σ α β γ : Type} {state : σ}

/-- What an operation comes to. -/
def outcome (action : Op σ α) (state : σ) : Outcome α :=
  match action state with
  | .ok value _ => .ok value
  | .error fault _ => .error fault

/-- The state that an operation leaves, whatever it comes to. -/
def last (action : Op σ α) (state : σ) : σ :=
  match action state with
  | .ok _ after => after
  | .error _ after => after

/-- Where an operation ends is what it comes to and the state that it leaves. -/
theorem run_eq_ended (action : Op σ α) (state : σ) :
    action state = ended (action.outcome state) (action.last state) := by
  unfold outcome last
  cases action state <;> rfl

/-- An operation that comes to a value runs to it. -/
theorem eq_ok_of_outcome {action : Op σ α} {value : α} (told : action.outcome state = .ok value) :
    action state = .ok value (action.last state) := by
  rw [run_eq_ended action state, told]
  rfl

/-- An operation that is known to end somewhere comes to that outcome and leaves that state. -/
theorem eq_of_ended {action : Op σ α} {outcome : Outcome α} {after : σ} (ran : action state = ended outcome after) :
    action.outcome state = outcome ∧ action.last state = after := by
  unfold Op.outcome Op.last
  rw [ran]
  cases outcome <;> exact ⟨rfl, rfl⟩

/-- What is ensured of an operation is ensured of what it comes to and leaves. -/
theorem Ensures.exists_outcome {action : Op σ α} {post : Except Failure α → σ → Prop}
    (ensures : Ensures action state post) :
    ∃ result, action.outcome state = Outcome.ofResult result ∧ post result (action.last state) := by
  obtain ⟨result, after, ran, holds⟩ := ensures.exists_run
  refine ⟨result, ?_⟩
  unfold outcome last
  rw [ran]
  cases result <;> exact ⟨rfl, holds⟩

/-- What is permitted to an operation that does not trap holds of what it comes to and leaves. -/
theorem Permits.of_outcome {action : Op σ α} {post : Except Failure α → σ → Prop} {result : Except Failure α}
    (permits : Permits action state post) (told : action.outcome state = Outcome.ofResult result) :
    post result (action.last state) := by
  -- The outcome rules out a trap, so the permission speaks of this very end.
  unfold Permits Ends at permits
  unfold outcome at told
  unfold last
  cases ran : action state with
  | ok value after =>
    rw [ran] at permits told
    cases result with
    | ok _ =>
      cases told
      exact permits
    | error failure => cases told
  | error fault after =>
    rw [ran] at permits told
    cases result with
    | ok _ => cases told
    | error failure =>
      cases told
      exact permits

theorem outcome_bind (first : Op σ β) (next : β → Op σ α) (state : σ) :
    Op.outcome (first >>= next) state = match first.outcome state with
      | .ok value => (next value).outcome (first.last state)
      | .error fault => .error fault := by
  -- The bind is opened here once, so that nothing else needs to look into the monad.
  show (match EStateM.bind first next state with
    | .ok value _ => Except.ok value
    | .error fault _ => .error fault) = _
  unfold EStateM.bind outcome last
  cases first state <;> rfl

theorem last_bind (first : Op σ β) (next : β → Op σ α) (state : σ) :
    Op.last (first >>= next) state = match first.outcome state with
      | .ok value => (next value).last (first.last state)
      | .error _ => first.last state := by
  show (match EStateM.bind first next state with
    | .ok _ after => after
    | .error _ after => after) = _
  unfold EStateM.bind outcome last
  cases first state <;> rfl

theorem outcome_attempt (action : Op σ α) (state : σ) :
    (Database.attempt action).outcome state = match action.outcome state with
      | .ok value => .ok (.ok value)
      | .error (.failed failure) => .ok (.error failure)
      | .error (.trapped cause) => .error (.trapped cause) := by
  unfold outcome Database.attempt
  cases action state with
  | ok value after => rfl
  | error fault after => cases fault <;> rfl

theorem last_attempt (action : Op σ α) (state : σ) :
    (Database.attempt action).last state = action.last state := by
  unfold last Database.attempt
  cases action state with
  | ok value after => rfl
  | error fault after => cases fault <;> rfl

/-- Each of two operations comes to the same before and after the other, and both orders leave one state. -/
structure Commutes (first : Op σ α) (second : Op σ β) (state : σ) : Prop where
  left : first.outcome (second.last state) = first.outcome state
  right : second.outcome (first.last state) = second.outcome state
  last : second.last (first.last state) = first.last (second.last state)

namespace Commutes

variable {first : Op σ α} {second : Op σ β}

theorem symm (commutes : Commutes first second state) : Commutes second first state :=
  ⟨commutes.right, commutes.left, commutes.last.symm⟩

/-- An operation that tells the same of every state, and changes none, commutes with all others. -/
theorem of_const {outcome : Outcome α} (told : ∀ state, first state = ended outcome state) (second : Op σ β)
    (state : σ) : Commutes first second state := by
  have outcomes : ∀ state, first.outcome state = outcome := fun state => (eq_of_ended (told state)).1
  have lasts : ∀ state, first.last state = state := fun state => (eq_of_ended (told state)).2
  exact ⟨by rw [outcomes, outcomes], by rw [lasts], by rw [lasts, lasts]⟩

theorem pure (value : α) (second : Op σ β) (state : σ) : Commutes (Pure.pure value : Op σ α) second state := by
  have told : ∀ state, (Pure.pure value : Op σ α) state = ended (.ok value) state := fun _ => rfl
  exact of_const told second state

/-- Only how the operations run in the one state and after each other matters. -/
theorem congr {third : Op σ α} {fourth : Op σ β} (commutes : Commutes third fourth state)
    (left : first state = third state) (leftAfter : first (second.last state) = third (second.last state))
    (right : second state = fourth state) (rightAfter : second (first.last state) = fourth (first.last state)) :
    Commutes first second state := by
  -- How an operation runs tells both what it comes to and what it leaves.
  have same {γ : Type} {one other : Op σ γ} {at_ : σ} (ran : one at_ = other at_) :
      one.outcome at_ = other.outcome at_ ∧ one.last at_ = other.last at_ := by
    unfold Op.outcome Op.last
    rw [ran]
    exact ⟨rfl, rfl⟩
  have lastFirst := (same left).2
  have lastSecond := (same right).2
  refine ⟨?_, ?_, ?_⟩
  · rw [(same leftAfter).1, (same left).1, lastSecond, commutes.left]
  · rw [(same rightAfter).1, (same right).1, lastFirst, commutes.right]
  · rw [(same rightAfter).2, (same leftAfter).2, lastFirst, lastSecond, commutes.last]

/-- Two operations in turn commute with a third if each of them does where it begins. -/
theorem bind {next : α → Op σ γ} (commutes : Commutes first second state)
    (onwards : ∀ value, first.outcome state = .ok value → Commutes (next value) second (first.last state)) :
    Commutes (first >>= next) second state := by
  cases told : first.outcome state with
  | error fault =>
    -- The next operation is not begun in either order.
    have again := commutes.left.trans told
    exact ⟨by rw [outcome_bind, outcome_bind, again, told],
      by rw [last_bind, told]; exact commutes.right,
      by rw [last_bind, last_bind, again, told]; exact commutes.last⟩
  | ok value =>
    have again := commutes.left.trans told
    have later := onwards value told
    -- Both orders leave one state between the two operations, so the rest begins there in both.
    exact ⟨by rw [outcome_bind, outcome_bind, again, told, ← commutes.last]; exact later.left,
      by rw [last_bind, told]; exact later.right.trans commutes.right,
      by rw [last_bind, last_bind, again, told, ← commutes.last]; exact later.last⟩

/-- An attempt commutes with what the operation commutes with. -/
theorem attempt (commutes : Commutes first second state) : Commutes (Database.attempt first) second state :=
  ⟨by rw [outcome_attempt, outcome_attempt, commutes.left], by rw [last_attempt]; exact commutes.right,
    by rw [last_attempt, last_attempt]; exact commutes.last⟩

/-- What was seen in the state may be the same afterwards, and then it does not matter when it is looked at. -/
theorem get_bind {next : σ → Op σ γ} (same : next (second.last state) = next state)
    (commutes : Commutes (next state) second state) : Commutes (MonadState.get >>= next) second state := by
  -- Looking at the state neither changes it nor ends anything.
  have outcomes : ∀ state, Op.outcome (MonadState.get >>= next) state = (next state).outcome state := fun _ => rfl
  have lasts : ∀ state, Op.last (MonadState.get >>= next) state = (next state).last state := fun _ => rfl
  exact ⟨by rw [outcomes, outcomes, same]; exact commutes.left, by rw [lasts]; exact commutes.right,
    by rw [lasts, lasts, same]; exact commutes.last⟩

/-- Both ways on have to commute. -/
theorem ite {condition : Prop} [Decidable condition] {yes no : Op σ α}
    (whenTrue : condition → Commutes yes second state) (whenFalse : ¬ condition → Commutes no second state) :
    Commutes (if condition then yes else no) second state := by
  split
  · rename_i holds
    exact whenTrue holds
  · rename_i fails
    exact whenFalse fails

end Commutes

end Op

/-- A part of a state, which can be looked at and replaced. -/
structure Part (σ τ : Type) where
  get : σ → τ
  put : τ → σ → σ
  get_put : ∀ part state, get (put part state) = part
  put_put : ∀ first second state, put second (put first state) = put second state

namespace Part

variable {σ τ ρ α β : Type} {state : σ} {part : Part σ τ} {other : Part σ ρ}

/-- An operation on the whole does to a part what another one does to the part alone. -/
structure Lifts (part : Part σ τ) (action : Op τ α) (whole : Op σ α) : Prop where
  outcome : ∀ state, whole.outcome state = action.outcome (part.get state)
  last : ∀ state, whole.last state = part.put (action.last (part.get state)) state

/-- It is enough to know where the operation on the whole ends. -/
theorem Lifts.of_ended {action : Op τ α} {whole : Op σ α} (ran : ∀ state, whole state
    = Op.ended (action.outcome (part.get state)) (part.put (action.last (part.get state)) state)) :
    part.Lifts action whole :=
  ⟨fun state => (Op.eq_of_ended (ran state)).1, fun state => (Op.eq_of_ended (ran state)).2⟩

/-- Two parts that have nothing in common. -/
structure Apart (part : Part σ τ) (other : Part σ ρ) : Prop where
  left : ∀ value state, part.get (other.put value state) = part.get state
  right : ∀ value state, other.get (part.put value state) = other.get state
  put : ∀ first second state, other.put second (part.put first state) = part.put first (other.put second state)

theorem Apart.symm (apart : part.Apart other) : other.Apart part :=
  ⟨apart.right, apart.left, fun first second state => (apart.put second first state).symm⟩

/-- What commutes on a part commutes on the whole. -/
theorem commutes {first : Op τ α} {second : Op τ β} {whole : Op σ α} {wholeToo : Op σ β}
    (lifts : part.Lifts first whole) (liftsToo : part.Lifts second wholeToo)
    (commutes : Op.Commutes first second (part.get state)) : Op.Commutes whole wholeToo state where
  -- What the first leaves in the part is what the second finds there, and nothing else is looked at.
  left := by rw [lifts.outcome, lifts.outcome, liftsToo.last, part.get_put, commutes.left]
  right := by rw [liftsToo.outcome, liftsToo.outcome, lifts.last, part.get_put, commutes.right]
  last := by
    rw [liftsToo.last, lifts.last, part.get_put, part.put_put, lifts.last, liftsToo.last, part.get_put, part.put_put,
      commutes.last]

/-- Operations on parts that have nothing in common commute. -/
theorem Apart.commutes (apart : part.Apart other) {first : Op τ α} {second : Op ρ β} {whole : Op σ α}
    {wholeToo : Op σ β} (lifts : part.Lifts first whole) (liftsToo : other.Lifts second wholeToo) (state : σ) :
    Op.Commutes whole wholeToo state where
  -- Neither operation finds anything in its part that the other has put.
  left := by rw [lifts.outcome, lifts.outcome, liftsToo.last, apart.left]
  right := by rw [liftsToo.outcome, liftsToo.outcome, lifts.last, apart.right]
  last := by rw [liftsToo.last, lifts.last, apart.right, apart.put, lifts.last, liftsToo.last, apart.left]

end Part

end HeapEngine

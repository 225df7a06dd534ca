import HeapEngine.Database

/-!
Where an operation ends, and whether it succeeds or fails.

What is ensured of an operation says also that it does not trap. What is permitted to it is said for
the case that it does not.
-/

namespace HeapEngine

/-- The outcome that tells a result or a failure. -/
def Outcome.ofResult {α : Type} : Except Failure α → Outcome α
  | .ok result => .ok result
  | .error failure => fail failure

/-- Steps in turn have a result only if the first has one and the rest goes on from it. -/
theorem Outcome.exists_of_bind {α β : Type} {first : Outcome α} {next : α → Outcome β} {result : β}
    (ended : first >>= next = .ok result) : ∃ value, first = .ok value ∧ next value = .ok result := by
  cases first with
  | error fault => cases ended
  | ok value => exact ⟨value, rfl, ended⟩

/-- A failure that is told is that of the first step if the second one only answers. -/
theorem Outcome.eq_fail_of_reply {α β : Type} {first : Outcome α} {answer : α → β} {failure : Failure}
    (failed : (do return answer (← first)) = (fail failure : Outcome β)) : first = fail failure := by
  cases first with
  | ok value => cases failed
  | error fault =>
    cases failed
    rfl

namespace Op

variable {σ α β : Type} {state : σ} {post : Except Failure α → σ → Prop}

/-- Operations that run alike from a state may begin another one there. -/
theorem run_congr {first other : Op σ β} (same : first state = other state) (next : β → Op σ α) :
    (first >>= next) state = (other >>= next) state := by
  show EStateM.bind first next state = EStateM.bind other next state
  unfold EStateM.bind
  rw [same]

/-- After an operation whose result is known, the next one begins with it. -/
theorem bind_of_ok {first : Op σ β} {value : β} {middle : σ} (ran : first state = .ok value middle)
    (next : β → Op σ α) : (first >>= next) state = next value middle := by
  show EStateM.bind first next state = _
  unfold EStateM.bind
  rw [ran]

/-- After an operation that did not succeed, the next one is not begun. -/
theorem bind_of_error {first : Op σ β} {fault : Fault} {middle : σ} (ran : first state = .error fault middle)
    (next : β → Op σ α) : (first >>= next) state = .error fault middle := by
  show EStateM.bind first next state = _
  unfold EStateM.bind
  rw [ran]

/-- Looking at the state hands it on. -/
theorem get_bind_run (next : σ → Op σ α) : (MonadState.get >>= next) state = next state state := rfl

/-- What is set is the state from then on. -/
theorem set_bind_run (other : σ) (next : PUnit → Op σ α) :
    (MonadStateOf.set other >>= next) state = next ⟨⟩ other := rfl

/-- Where an operation ends: its outcome, and the state that it leaves. -/
def ended (outcome : Outcome α) (state : σ) : EStateM.Result Fault σ α :=
  match outcome with
  | .ok value => .ok value state
  | .error fault => .error fault state

/-- An outcome without a state is told with the state there is. -/
theorem liftM_run (outcome : Outcome α) : (liftM outcome : Op σ α) state = ended outcome state := by
  cases outcome <;> rfl

/-- An outcome without a state is handed on with the state there is. -/
theorem liftM_bind_run (outcome : Outcome β) (next : β → Op σ α) :
    (liftM outcome >>= next) state = match outcome with
      | .ok value => next value state
      | .error fault => .error fault state := by
  cases outcome <;> rfl

/-- An operation comes to a result or a failure, and leaves a state. -/
def Gives (action : Op σ α) (state : σ) (result : Except Failure α) (after : σ) : Prop :=
  action state = ended (Outcome.ofResult result) after

/-- From a state, an operation ends in a result and a state that are as promised, or traps if it may. -/
def Ends (mayTrap : Prop) (action : Op σ α) (state : σ) (post : Except Failure α → σ → Prop) : Prop :=
  match action state with
  | .ok result after => post (.ok result) after
  | .error (.failed failure) after => post (.error failure) after
  | .error (.trapped _) _ => mayTrap

/-- An operation ends as promised, and does not trap. -/
abbrev Ensures (action : Op σ α) (state : σ) (post : Except Failure α → σ → Prop) : Prop :=
  Ends False action state post

/-- An operation ends as promised unless it traps. -/
abbrev Permits (action : Op σ α) (state : σ) (post : Except Failure α → σ → Prop) : Prop :=
  Ends True action state post

/-- What is ensured can be told from the one result and state in which the operation ends. -/
theorem Ensures.exists_run {action : Op σ α} (ensures : Ensures action state post) :
    ∃ result after, action state = (match result with
        | .ok value => .ok value after
        | .error failure => .error (.failed failure) after) ∧ post result after := by
  unfold Ensures Ends at ensures
  cases ran : action state with
  | ok value after =>
    rw [ran] at ensures
    exact ⟨.ok value, after, rfl, ensures⟩
  | error fault after =>
    rw [ran] at ensures
    cases fault with
    | failed failure => exact ⟨.error failure, after, rfl, ensures⟩
    -- A trap is excluded by what is ensured.
    | trapped cause => exact ensures.elim

/-- What is ensured can be told from what the operation gives. -/
theorem Ensures.exists_gives {action : Op σ α} (ensures : Ensures action state post) :
    ∃ result after, Gives action state result after ∧ post result after := by
  obtain ⟨result, after, ran, holds⟩ := ensures.exists_run
  refine ⟨result, after, ?_, holds⟩
  rw [Gives, ran]
  cases result <;> rfl

/-- What does not trap gives something. -/
theorem Ensures.answers {action : Op σ α} (ensures : Ensures action state post) :
    ∃ result after, Gives action state result after := by
  obtain ⟨result, after, gives, _⟩ := ensures.exists_gives
  exact ⟨result, after, gives⟩

/-- What does not trap ends as it does, whether traps are permitted or not. -/
theorem Ensures.ends {mayTrap : Prop} {action : Op σ α} (ensures : Ensures action state post) :
    Ends mayTrap action state post := by
  unfold Ensures Ends at ensures
  unfold Ends
  cases ran : action state with
  | ok value after =>
    rw [ran] at ensures
    exact ensures
  | error fault after =>
    rw [ran] at ensures
    cases fault with
    | failed failure => exact ensures
    | trapped cause => exact ensures.elim

/-- What does not trap need not be permitted to. -/
theorem Ensures.permits {action : Op σ α} (ensures : Ensures action state post) :
    Permits action state post := ensures.ends

/-- What is promised unless there is a trap holds also where there is none. -/
theorem Ensures.and_permits {action : Op σ α} {also : Except Failure α → σ → Prop}
    (ensures : Ensures action state post) (permits : Permits action state also) :
    Ensures action state fun result after => post result after ∧ also result after := by
  unfold Ensures Ends at ensures ⊢
  unfold Permits Ends at permits
  cases ran : action state with
  | ok value after =>
    rw [ran] at ensures permits
    exact ⟨ensures, permits⟩
  | error fault after =>
    rw [ran] at ensures permits
    cases fault with
    | failed failure => exact ⟨ensures, permits⟩
    | trapped cause => exact ensures

namespace Ends

variable {mayTrap : Prop}

theorem mono {action : Op σ α} {weaker : Except Failure α → σ → Prop}
    (ensures : Ends mayTrap action state post)
    (implies : ∀ result after, post result after → weaker result after) :
    Ends mayTrap action state weaker := by
  unfold Ends at ensures ⊢
  cases ran : action state with
  | ok value after =>
    rw [ran] at ensures
    exact implies _ _ ensures
  | error fault after =>
    rw [ran] at ensures
    cases fault with
    | failed failure => exact implies _ _ ensures
    -- A trap is permitted or excluded whatever is promised.
    | trapped cause => exact ensures

/-- What is promised holds of the result that the operation ran to. -/
theorem of_ok {action : Op σ α} {value : α} {after : σ} (ensures : Ends mayTrap action state post)
    (ran : action state = .ok value after) : post (.ok value) after := by
  unfold Ends at ensures
  rw [ran] at ensures
  exact ensures

/-- What is promised holds of the failure that the operation ran to. -/
theorem of_error {action : Op σ α} {failure : Failure} {after : σ} (ensures : Ends mayTrap action state post)
    (ran : action state = .error (.failed failure) after) : post (.error failure) after := by
  unfold Ends at ensures
  rw [ran] at ensures
  exact ensures

/-- What is promised holds of what the operation gives. -/
theorem of_gives {action : Op σ α} {result : Except Failure α} {after : σ} (ensures : Ends mayTrap action state post)
    (gives : Gives action state result after) : post result after := by
  cases result with
  | ok value => exact ensures.of_ok gives
  | error failure => exact ensures.of_error gives

/-- What is promised in two ways is promised together. -/
theorem and {action : Op σ α} {also : Except Failure α → σ → Prop}
    (ensures : Ends mayTrap action state post) (ensuresToo : Ends mayTrap action state also) :
    Ends mayTrap action state fun result after => post result after ∧ also result after := by
  unfold Ends at ensures ensuresToo ⊢
  cases ran : action state with
  | ok value after =>
    rw [ran] at ensures ensuresToo
    exact ⟨ensures, ensuresToo⟩
  | error fault after =>
    rw [ran] at ensures ensuresToo
    cases fault with
    | failed failure => exact ⟨ensures, ensuresToo⟩
    -- There is one trap, which is permitted or excluded.
    | trapped cause => exact ensures

theorem pure {value : α} (holds : post (.ok value) state) :
    Ends mayTrap (Pure.pure value : Op σ α) state post := holds

/-- A failure of the first operation ends both, and a result is handed to the second. -/
theorem bind {first : Op σ β} {next : β → Op σ α} {middle : Except Failure β → σ → Prop}
    (ensures : Ends mayTrap first state middle)
    (failed : ∀ failure after, middle (.error failure) after → post (.error failure) after)
    (continued : ∀ value after, middle (.ok value) after → Ends mayTrap (next value) after post) :
    Ends mayTrap (first >>= next) state post := by
  unfold Ends at ensures
  -- The sequence of two operations is the bind of the state monad with errors.
  show match EStateM.bind first next state with
    | .ok result after => post (.ok result) after
    | .error (.failed failure) after => post (.error failure) after
    | .error (.trapped _) _ => mayTrap
  unfold EStateM.bind
  cases ran : first state with
  | ok value after =>
    rw [ran] at ensures
    exact continued value after ensures
  | error fault after =>
    rw [ran] at ensures
    cases fault with
    -- The second operation is never begun.
    | failed failure => exact failed failure after ensures
    | trapped cause => exact ensures

/-- What is promised of the state however the first operation ends can be promised of both. -/
theorem andThen {kept : σ → Prop} {first : Op σ β} {next : β → Op σ α}
    (ensures : Ends mayTrap first state fun _ after => kept after)
    (continued : ∀ value after, kept after → Ends mayTrap (next value) after fun _ last => kept last) :
    Ends mayTrap (first >>= next) state fun _ last => kept last :=
  ensures.bind (fun _ _ kept => kept) continued

/-- What is promised of the state holds of it still when an answer is given. -/
theorem reply {kept : σ → Prop} {action : Op σ β} {answer : β → α}
    (ensures : Ends mayTrap action state fun _ after => kept after) :
    Ends mayTrap (do return answer (← action)) state fun _ after => kept after :=
  ensures.andThen fun _ _ kept => .pure kept

/-- What is ensured after an operation whose result is known. -/
theorem run_bind {first : Op σ β} {value : β} {middle : σ} {next : β → Op σ α}
    (ran : first state = .ok value middle) (ensures : Ends mayTrap (next value) middle post) :
    Ends mayTrap (first >>= next) state post := by
  unfold Ends at ensures ⊢
  rw [bind_of_ok ran]
  exact ensures

/-- What is ensured after an outcome that is a result. -/
theorem ofOutcome_bind {outcome : Outcome β} {value : β} {next : β → Op σ α}
    (told : outcome = .ok value) (ensures : Ends mayTrap (next value) state post) :
    Ends mayTrap (liftM outcome >>= next) state post := by
  subst told
  exact ensures

/-- Looking at the state does not change it. -/
theorem get_bind {next : σ → Op σ α} (ensures : Ends mayTrap (next state) state post) :
    Ends mayTrap (MonadState.get >>= next) state post := ensures

/-- After the state was set, the next operation begins there. -/
theorem set_bind {other : σ} {next : PUnit → Op σ α} (ensures : Ends mayTrap (next ⟨⟩) other post) :
    Ends mayTrap (MonadStateOf.set other >>= next) state post := ensures

/-- An outcome without a trap is told as it is. -/
theorem ofOutcome {outcome : Outcome α} {result : Except Failure α}
    (told : outcome = Outcome.ofResult result) (holds : post result state) :
    Ends mayTrap (liftM outcome : Op σ α) state post := by
  subst told
  cases result <;> exact holds

/-- Nothing is promised of where an operation ends. -/
theorem anywhere (action : Op σ α) (state : σ) : Permits action state fun _ _ => True := by
  unfold Permits Ends
  split
  · trivial
  · trivial
  · trivial

/-- What an operation gives is what it ran to. -/
theorem told (action : Op σ α) (state : σ) :
    Permits action state fun result after => ∀ value, result = .ok value → action state = .ok value after := by
  unfold Permits Ends
  cases ran : action state with
  | ok value after => simp
  | error fault after => cases fault <;> simp

/-- Where an operation ends is where it ran to, whether it succeeds or fails. -/
theorem ran (action : Op σ α) (state : σ) :
    Permits action state fun result after => action state = match result with
      | .ok value => .ok value after
      | .error failure => .error (.failed failure) after := by
  unfold Permits Ends
  cases ran : action state with
  | ok value after => rfl
  | error fault after => cases fault <;> trivial

/-- An operation gives the result and the state in which it ends. -/
theorem gives (action : Op σ α) (state : σ) : Permits action state (Gives action state) := by
  refine (ran action state).mono fun result after ran => ?_
  rw [Gives, ran]
  cases result <;> rfl

/-- An outcome changes no state. -/
theorem outcome {outcome : Outcome α} (told : ∀ result, post result state) :
    Permits (liftM outcome : Op σ α) state post := by
  cases outcome with
  | ok value => exact told (.ok value)
  | error fault =>
    cases fault with
    | failed failure => exact told (.error failure)
    | trapped cause => exact trivial

/-- A failure ends the operation where it stands. -/
theorem fail {failure : Failure} (holds : post (.error failure) state) :
    Ends mayTrap (liftM (HeapEngine.fail failure : Outcome α) : Op σ α) state post := holds

/-- Both ways on have to ensure what is promised. -/
theorem ite {condition : Prop} [Decidable condition] {yes no : Op σ α}
    (whenTrue : condition → Ends mayTrap yes state post)
    (whenFalse : ¬ condition → Ends mayTrap no state post) :
    Ends mayTrap (if condition then yes else no) state post := by
  split
  · rename_i holds
    exact whenTrue holds
  · rename_i fails
    exact whenFalse fails

/-- A failure becomes an answer, so nothing is reported any more. -/
theorem attempt {action : Op σ α} (ensures : Ends mayTrap action state post) :
    Ends mayTrap (Database.attempt action) state fun result after =>
      ∃ answer, result = .ok answer ∧ post answer after := by
  unfold Ends at ensures
  unfold Ends Database.attempt
  cases ran : action state with
  | ok value after =>
    rw [ran] at ensures
    exact ⟨.ok value, rfl, ensures⟩
  | error fault after =>
    rw [ran] at ensures
    cases fault with
    | failed failure => exact ⟨.error failure, rfl, ensures⟩
    | trapped cause => exact ensures

/-- What is ensured after an attempt, whose answer may be a failure. -/
theorem attempt_bind {first : Op σ β} {next : Except Failure β → Op σ α}
    {middle : Except Failure β → σ → Prop} (ensures : Ends mayTrap first state middle)
    (continued : ∀ answer after, middle answer after → Ends mayTrap (next answer) after post) :
    Ends mayTrap (Database.attempt first >>= next) state post := by
  refine ensures.attempt.bind ?_ ?_
  · intro failure after ended
    -- An attempt does not fail.
    obtain ⟨answer, told, _⟩ := ended
    cases told
  · intro answer after ended
    obtain ⟨_, ⟨⟩, held⟩ := ended
    exact continued answer after held

/-- An answer that was given is told as it is. -/
theorem ofResult {result : Except Failure α} (holds : post result state) :
    Ends mayTrap (Database.ofResult result : Op σ α) state post := by
  cases result <;> exact holds

end Ends

end Op

end HeapEngine

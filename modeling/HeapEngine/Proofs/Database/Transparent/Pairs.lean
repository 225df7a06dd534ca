import HeapEngine.Proofs.Database.Transparent.Similar

/-!
Two runs of an operation, from databases that nobody can tell apart.

Either one of the runs finds no page to drop, or both end alike, and without a trap.
-/

namespace HeapEngine

namespace Database

variable {kind : ImageKind} {a b db : Database} {α β : Type} {exhausted : α → Database → Prop}
  {rel : α → α → Database → Database → Prop} {asker : TransactionId} {id : PageId}

/-- No result tells that no page could be dropped. -/
def Never (_ : α) (_ : Database) : Prop := False

/-- A run that found no page to drop, and that failed with this or tells it in its result. -/
def Lost (exhausted : α → Database → Prop) : EStateM.Result Fault Database α → Prop
  | .ok value after => exhausted value after
  | .error (.failed (.poolFull _)) _ => True
  | .error _ _ => False

/-- Two runs that ended alike: with results that correspond, or with the same failure. -/
def Agree (kind : ImageKind) (rel : α → α → Database → Database → Prop) :
    EStateM.Result Fault Database α → EStateM.Result Fault Database α → Prop
  | .ok x a, .ok y b => rel x y a b
  | .error (.failed failure) a, .error (.failed other) b => failure = other ∧ Similar kind a b
  | _, _ => False

/-- One of two runs is lost, or both end alike. -/
def Pairs (kind : ImageKind) (exhausted : α → Database → Prop) (first second : Op Database α)
    (a b : Database) (rel : α → α → Database → Database → Prop) : Prop :=
  Lost exhausted (first a) ∨ Lost exhausted (second b) ∨ Agree kind rel (first a) (second b)

/-- The same result, and databases that nobody can tell apart. -/
structure Same (kind : ImageKind) (x y : α) (a b : Database) : Prop where
  result : x = y
  similar : Similar kind a b

/-- A lost run stays lost if what follows tells it. -/
theorem Lost.bind {first : Op Database β} {next : β → Op Database α}
    {before : β → Database → Prop} (lost : Lost before (first db))
    (told : ∀ value after, before value after → Lost exhausted (next value after)) :
    Lost exhausted ((first >>= next) db) := by
  show Lost exhausted (EStateM.bind first next db)
  unfold EStateM.bind
  -- A run that is lost early may tell so in its value, or it failed and nothing follows.
  cases ran : first db with
  | ok value after =>
    rw [ran] at lost
    exact told value after lost
  | error fault after =>
    rw [ran] at lost
    cases fault with
    | failed failure => cases failure <;> exact lost
    | trapped _ => exact lost

/-- An attempt does not fail, so a run that was lost tells it in its answer. -/
theorem Lost.attempt {action : Op Database α} (lost : Lost Never (action db)) :
    Lost (fun answer _ => ∃ capacity, answer = .error (.poolFull capacity)) (attempt action db) := by
  unfold Database.attempt
  -- The failure becomes a value, so what is lost by failing is lost by its value now.
  cases ran : action db with
  | ok value after =>
    rw [ran] at lost
    exact lost.elim
  | error fault after =>
    rw [ran] at lost
    unfold Lost at lost
    split at lost
    · exact lost.elim
    · rename_i capacity _ same
      cases same
      exact ⟨capacity, rfl⟩
    · exact lost.elim

/-- Two answers that correspond, or that are the same failure. -/
def Answers (kind : ImageKind) (rel : α → α → Database → Database → Prop) :
    Except Failure α → Except Failure α → Database → Database → Prop
  | .ok x, .ok y, a, b => rel x y a b
  | .error failure, .error other, a, b => failure = other ∧ Similar kind a b
  | _, _, _, _ => False

theorem Answers.same {x y : Except Failure α} (answers : Answers kind (Same kind) x y a b) :
    Same kind x y a b := by
  cases x <;> cases y
  · exact ⟨congrArg _ answers.1, answers.2⟩
  · exact answers.elim
  · exact answers.elim
  · exact ⟨congrArg _ answers.result, answers.similar⟩

/-- Attempts of what ends alike have answers that correspond. -/
theorem Agree.attempt {first second : Op Database α} (alike : Agree kind rel (first a) (second b)) :
    ∃ x y a' b', attempt first a = .ok x a' ∧ attempt second b = .ok y b'
      ∧ Answers kind rel x y a' b' := by
  unfold Database.attempt
  -- Both succeeded, or both failed with one failure, and no attempt is made of a trap.
  unfold Agree at alike
  split at alike
  · rename_i x a' y b' here there
    exact ⟨.ok x, .ok y, a', b', by rw [here], by rw [there], alike⟩
  · rename_i failure a' other b' here there
    exact ⟨.error failure, .error other, a', b', by rw [here], by rw [there], alike⟩
  · exact alike.elim

namespace Pairs

theorem pure {x y : α} (holds : rel x y a b) :
    Pairs kind exhausted (Pure.pure x) (Pure.pure y) a b rel := .inr (.inr holds)

theorem fail {failure : Failure} (similar : Similar kind a b) :
    Pairs kind exhausted (liftM (HeapEngine.fail failure : Outcome α))
      (liftM (HeapEngine.fail failure : Outcome α)) a b rel := .inr (.inr ⟨rfl, similar⟩)

/-- What is ensured of each run is ensured of both. -/
theorem of_ensures {first second : Op Database α} {left right : Except Failure α → Database → Prop}
    (here : Op.Ensures first a left) (there : Op.Ensures second b right)
    (agree : ∀ x y a' b', left x a' → right y b' →
      (∃ capacity, x = .error (.poolFull capacity)) ∨ (∃ capacity, y = .error (.poolFull capacity))
        ∨ Answers kind rel x y a' b') :
    Pairs kind exhausted first second a b rel := by
  -- Neither run traps, so each has an end of which what is ensured holds.
  obtain ⟨x, a', ran, held⟩ := here.exists_run
  obtain ⟨y, b', again, kept⟩ := there.exists_run
  unfold Pairs
  rw [ran, again]
  rcases agree x y a' b' held kept with ⟨capacity, rfl⟩ | ⟨capacity, rfl⟩ | alike
  · exact .inl trivial
  · exact .inr (.inl trivial)
  · cases x <;> cases y <;> exact .inr (.inr alike)

/-- Operations in turn end alike if each does. A run that is lost in its result has to stay lost. -/
theorem bind_lost {first second : Op Database β} {next other : β → Op Database α}
    {before : β → Database → Prop} {middle : β → β → Database → Database → Prop}
    (pairs : Pairs kind before first second a b middle)
    (lost : ∀ value after, before value after → Lost exhausted (next value after))
    (lostOther : ∀ value after, before value after → Lost exhausted (other value after))
    (continued : ∀ x y a' b', middle x y a' b' → Pairs kind exhausted (next x) (other y) a' b' rel) :
    Pairs kind exhausted (first >>= next) (second >>= other) a b rel := by
  rcases pairs with gone | gone | alike
  · exact .inl (gone.bind lost)
  · exact .inr (.inl (gone.bind lostOther))
  · show Lost exhausted (EStateM.bind first next a) ∨ Lost exhausted (EStateM.bind second other b)
      ∨ Agree kind rel (EStateM.bind first next a) (EStateM.bind second other b)
    -- The first operations succeeded in both runs, or failed in both with the same failure.
    unfold EStateM.bind
    cases here : first a with
    | ok x a' =>
      cases there : second b with
      | ok y b' =>
        rw [here, there] at alike
        exact continued x y a' b' alike
      | error fault b' =>
        rw [here, there] at alike
        exact alike.elim
    | error fault a' =>
      cases there : second b with
      | ok y b' =>
        rw [here, there] at alike
        cases fault <;> exact alike.elim
      | error cause b' =>
        rw [here, there] at alike
        cases fault with
        | trapped _ => exact alike.elim
        | failed _ =>
          cases cause with
          | trapped _ => exact alike.elim
          | failed _ => exact .inr (.inr alike)

/-- Operations in turn end alike if each does. -/
theorem bind {first second : Op Database β} {next other : β → Op Database α}
    {middle : β → β → Database → Database → Prop} (pairs : Pairs kind Never first second a b middle)
    (continued : ∀ x y a' b', middle x y a' b' → Pairs kind exhausted (next x) (other y) a' b' rel) :
    Pairs kind exhausted (first >>= next) (second >>= other) a b rel :=
  pairs.bind_lost (fun _ _ never => never.elim) (fun _ _ never => never.elim) continued

/-- Attempts end alike, and what follows meets results that correspond or the same failure. -/
theorem attempt_bind {first second : Op Database β} {next other : Except Failure β → Op Database α}
    {middle : β → β → Database → Database → Prop} (pairs : Pairs kind Never first second a b middle)
    (lost : ∀ capacity after, Lost exhausted (next (.error (.poolFull capacity)) after))
    (lostOther : ∀ capacity after, Lost exhausted (other (.error (.poolFull capacity)) after))
    (failed : ∀ failure a' b', Similar kind a' b' →
      Pairs kind exhausted (next (.error failure)) (other (.error failure)) a' b' rel)
    (continued : ∀ x y a' b', middle x y a' b' →
      Pairs kind exhausted (next (.ok x)) (other (.ok y)) a' b' rel) :
    Pairs kind exhausted (attempt first >>= next) (attempt second >>= other) a b rel := by
  have attempts : Pairs kind (fun answer _ => ∃ capacity, answer = .error (.poolFull capacity))
      (attempt first) (attempt second) a b (Answers kind middle) := by
    rcases pairs with gone | gone | alike
    · exact .inl gone.attempt
    · exact .inr (.inl gone.attempt)
    · obtain ⟨x, y, a', b', here, there, answers⟩ := alike.attempt
      unfold Pairs
      rw [here, there]
      exact .inr (.inr answers)
  refine attempts.bind_lost ?_ ?_ ?_
  · rintro _ after ⟨capacity, rfl⟩
    exact lost capacity after
  · rintro _ after ⟨capacity, rfl⟩
    exact lostOther capacity after
  -- The answers correspond, so they are both values or both the same failure.
  · intro x y a' b' answers
    cases x with
    | ok x =>
      cases y with
      | ok y => exact continued x y a' b' answers
      | error failure => exact answers.elim
    | error failure =>
      cases y with
      | ok y => exact answers.elim
      | error other =>
        obtain ⟨rfl, similar⟩ := answers
        exact failed failure a' b' similar

theorem mono {first second : Op Database α} {weaker : α → α → Database → Database → Prop}
    (pairs : Pairs kind exhausted first second a b rel)
    (implies : ∀ x y a' b', rel x y a' b' → weaker x y a' b') :
    Pairs kind exhausted first second a b weaker := by
  rcases pairs with lost | lost | alike
  · exact .inl lost
  · exact .inr (.inl lost)
  · refine .inr (.inr ?_)
    unfold Agree at alike ⊢
    split at alike
    · exact implies _ _ _ _ alike
    · exact alike
    · exact alike

/-- What each run is permitted to end in holds when both end alike, and when one is lost. -/
theorem permitted {first second : Op Database α} {kept : Database → Prop}
    (pairs : Pairs kind exhausted first second a b rel)
    (here : Op.Permits first a fun _ after => kept after)
    (there : Op.Permits second b fun _ after => kept after) :
    Pairs kind (fun value after => exhausted value after ∧ kept after) first second a b
      fun x y a' b' => rel x y a' b' ∧ kept a' := by
  -- A lost run ended somewhere too, and is permitted to end there only if this holds.
  have lost : ∀ {action : Op Database α} {db : Database}, Lost exhausted (action db) →
      Op.Permits action db (fun _ after => kept after) →
      Lost (fun value after => exhausted value after ∧ kept after) (action db) := by
    intro action db lost permits
    unfold Op.Permits Op.Ends at permits
    cases ran : action db with
    | ok value after =>
      rw [ran] at lost permits
      exact ⟨lost, permits⟩
    | error fault after =>
      rw [ran] at lost
      cases fault with
      | failed failure => cases failure <;> exact lost
      | trapped _ => exact lost
  rcases pairs with gone | gone | alike
  · exact .inl (lost gone here)
  · exact .inr (.inl (lost gone there))
  · refine .inr (.inr ?_)
    unfold Op.Permits Op.Ends at here
    unfold Agree at alike ⊢
    split at alike
    · rename_i ran again
      simp only [ran] at here
      exact ⟨alike, here⟩
    · exact alike
    · exact alike

/-- Looking at a database does not change it. -/
theorem get_bind {next other : Database → Op Database α}
    (pairs : Pairs kind exhausted (next a) (other b) a b rel) :
    Pairs kind exhausted (MonadState.get >>= next) (MonadState.get >>= other) a b rel := pairs

/-- Both ways on have to end alike. -/
theorem ite {condition : Prop} [Decidable condition] {yes no yesOther noOther : Op Database α}
    (whenTrue : condition → Pairs kind exhausted yes yesOther a b rel)
    (whenFalse : ¬ condition → Pairs kind exhausted no noOther a b rel) :
    Pairs kind exhausted (if condition then yes else no) (if condition then yesOther else noOther)
      a b rel := by
  split
  · rename_i holds
    exact whenTrue holds
  · rename_i fails
    exact whenFalse fails

/-- The same outcome without a trap is told as it is. -/
theorem ofOutcome_bind {outcome : Outcome β} {result : Except Failure β}
    {next other : β → Op Database α} (similar : Similar kind a b)
    (told : outcome = Outcome.ofResult result)
    (continued : ∀ value, result = .ok value → Pairs kind exhausted (next value) (other value) a b rel) :
    Pairs kind exhausted (liftM outcome >>= next) (liftM outcome >>= other) a b rel := by
  subst told
  cases result with
  | ok value => exact continued value rfl
  | error failure => exact .inr (.inr ⟨rfl, similar⟩)

theorem ofOutcome {outcome : Outcome α} {result : Except Failure α} (similar : Similar kind a b)
    (told : outcome = Outcome.ofResult result) (holds : ∀ value, rel value value a b) :
    Pairs kind exhausted (liftM outcome) (liftM outcome) a b rel := by
  subst told
  cases result with
  | ok value => exact .inr (.inr (holds value))
  | error failure => exact .inr (.inr ⟨rfl, similar⟩)

end Pairs

namespace Settled

variable (settled : db.Settled kind)

include settled

/-- Room is made without a trace, or there is no page to drop. -/
theorem ensures_makeRoom :
    Op.Ensures makeRoom db fun result after =>
      match result with
      | .ok _ => Rests kind db after
      | .error failure => ∃ capacity, failure = .poolFull capacity := by
  -- Only where as many pages are in memory as fit is one dropped.
  unfold Op.Ensures Op.Ends makeRoom
  by_cases full : db.settings.capacity ≤ db.pool.residentCount
  · rw [if_pos full, dropStalest]
    cases stale : db.pool.stalestClean with
    | none => exact ⟨_, rfl⟩
    | some id =>
      -- Only a clean page is dropped, so no change is lost with it.
      obtain ⟨page, resident, clean⟩ := Pool.stalestClean_eq_some stale
      refine settled.drop ?_
      rw [unwritten_eq resident, if_pos]
      simpa [Page.isDirty] using clean
  · rw [if_neg full]
    exact settled.rests rfl settled.cached

/-- A page is brought into memory without a trace, if it has changes or is found where it is stored. -/
theorem ensures_bring (id : PageId) :
    Op.Ensures (bring id) db fun result after =>
      match result with
      | .ok copy => Rests kind db after ∧ copy.page = id ∧ after.pool.isCurrent copy = true
        ∧ (db.standing.unwritten id = none → ∃ page, db.standing.lookup id = .ok page)
      | .error failure => (∃ capacity, failure = .poolFull capacity)
        ∨ Rests kind db after ∧ db.standing.unwritten id = none
          ∧ db.standing.lookup id = HeapEngine.fail failure := by
  obtain ⟨-, current, answer⟩ := Pool.touch_eq db.pool id
  have touched := settled.touch id
  refine .onPool_bind ?_
  cases asked : (db.pool.touch id).1 with
  | some copy =>
    rw [asked] at answer
    obtain ⟨here, there⟩ := answer
    obtain ⟨page, resident⟩ := exists_page_of_current there
    rw [here] at resident
    exact .pure ⟨touched, here, (current copy).trans there, settled.lookup_resident resident⟩
  | none =>
    rw [asked] at answer
    -- The page is not in memory, so all its changes were written.
    have absent : db.standing.unwritten id = none := by
      show Option.filter _ (db.pool.page? id) = none
      rw [answer]
      rfl
    have intact := touched.settled.intact
    -- From here on all is read past the database as it was, and asking for the page left no trace.
    refine ends_tableAt_bind intact.orderly (fun missing => ?_) fun heap registered => ?_
    · have unknown : db.standing.catalog.find id.table = _ := settled.orderly.find_eq_error missing
      exact .inr ⟨touched, absent, by rw [Standing.lookup, unknown]⟩
    have known : db.standing.catalog.find id.table = _ := settled.orderly.find_eq_ok registered
    refine (intact.housed.ensures_readStored registered).bind ?_ ?_
    · intro failure after ended
      obtain ⟨told, storage, rfl, shows⟩ := ended
      rw [touched.standing] at told
      exact .inr ⟨touched.trans (touched.settled.count registered shows), absent, by
        rw [Standing.lookup, known]; exact told⟩
    intro page after ended
    obtain ⟨told, storage, rfl, shows⟩ := ended
    have read := touched.trans (touched.settled.count registered shows)
    rw [touched.standing] at told
    refine read.settled.ensures_makeRoom.bind ?_ ?_
    · intro failure after full
      exact .inl full
    intro _ after stays
    have ready := read.trans stays
    -- What was read is stored, so it may be loaded.
    have stored := Standing.stored?_of_read told
    have loaded := ready.settled.load (ready.standing ▸ stored) (ready.standing ▸ absent)
    refine .onPool ⟨ready.trans loaded, rfl, (after.pool.load_eq id page).2.2, fun _ => ⟨page, ?_⟩⟩
    exact settled.lookup_eq stored

end Settled

/-- Both databases have the current copy of a page. -/
structure Both (kind : ImageKind) (id : PageId) (x y : CopyId) (a b : Database) : Prop where
  similar : Similar kind a b
  here : x.page = id
  there : y.page = id
  current : a.pool.isCurrent x = true
  currentOther : b.pool.isCurrent y = true

/-- The copies hold pages that match. -/
theorem Both.exists_pages {x y : CopyId} (both : Both kind id x y a b) :
    ∃ p q, a.pool.page? id = some p ∧ b.pool.page? id = some q ∧ p.Matches q := by
  obtain ⟨p, resident⟩ := exists_page_of_current both.current
  obtain ⟨q, there⟩ := exists_page_of_current both.currentOther
  rw [both.here] at resident
  rw [both.there] at there
  exact ⟨p, q, resident, there, both.similar.matches_resident resident there⟩

namespace Similar

variable (similar : Similar kind a b)

include similar

theorem locks_eq : a.locks = b.locks := similar.standing.locks

theorem catalog_eq : a.catalog = b.catalog := similar.standing.catalog

/-- A page is brought into memory in both, or is not found in either. -/
theorem bring (id : PageId) :
    Pairs kind Never (bring id) (bring id) a b fun x y a' b' =>
      Both kind id x y a' b' ∧ a'.locks = a.locks := by
  refine .of_ensures (similar.left.ensures_bring id) (similar.right.ensures_bring id) ?_
  intro x y a' b' left right
  have found := similar.standing.lookup_eq id
  have clean : a.standing.unwritten id = none ↔ b.standing.unwritten id = none :=
    similar.standing.unwritten_eq_none_iff
  -- A run that could drop no page is lost. Other runs have found the page in both, or in neither.
  cases x with
  | ok copy =>
    obtain ⟨rests, here, current, looked⟩ := left
    cases y with
    | ok other =>
      obtain ⟨restsOther, there, currentOther, _⟩ := right
      exact .inr (.inr ⟨⟨similar.rests rests restsOther, here, there, current, currentOther⟩,
        congrArg Standing.locks rests.standing⟩)
    | error failure =>
      rcases right with ⟨capacity, rfl⟩ | ⟨_, absent, missed⟩
      · exact .inr (.inl ⟨capacity, rfl⟩)
      · -- What one of them found the other one finds too, in memory or where it is stored.
        obtain ⟨page, looked⟩ := looked (clean.2 absent)
        rw [found, missed] at looked
        cases looked
  | error failure =>
    rcases left with ⟨capacity, rfl⟩ | ⟨rests, absent, missed⟩
    · exact .inl ⟨capacity, rfl⟩
    cases y with
    | ok other =>
      obtain ⟨_, _, _, looked⟩ := right
      obtain ⟨page, looked⟩ := looked (clean.1 absent)
      rw [← found, missed] at looked
      cases looked
    | error other =>
      rcases right with ⟨capacity, rfl⟩ | ⟨restsOther, _, missedOther⟩
      · exact .inr (.inl ⟨capacity, rfl⟩)
      · rw [found, missedOther] at missed
        cases missed
        exact .inr (.inr ⟨rfl, similar.rests rests restsOther⟩)

/-- A lock is granted in both, or refused in both. -/
theorem lockPage (asker : TransactionId) (id : PageId) (mode : LockMode) :
    Pairs kind Never (lockPage asker id mode) (lockPage asker id mode) a b fun _ _ a' b' =>
      Similar kind a' b' ∧ (mode = .exclusive → a'.locks.isWriter id asker = true) := by
  have patience : a.settings.patience = b.settings.patience := similar.standing.patience
  unfold Pairs Database.lockPage Locks.request
  rw [← similar.locks_eq, ← patience]
  -- The same locks are held and the asker waits as long, so the answer is the same.
  cases granted : a.locks.grant? id asker mode with
  | none => exact .inr (.inr ⟨rfl, similar⟩)
  | some locks =>
    have exclusive : a.locks.Exclusive := similar.left.orderly.locks
    exact .inr (.inr ⟨similar.withLocks (exclusive.grant? granted),
      (Locks.holds_of_grant? granted).2⟩)

/-- A page is given in both, or in neither. -/
theorem acquire (asker : TransactionId) (id : PageId) (access : Access) :
    Pairs kind Never (acquire asker id access) (acquire asker id access) a b fun x y a' b' =>
      Both kind id x y a' b' ∧ (access = .writing → a'.locks.isWriter id asker = true) := by
  -- The page is asked for again once it is locked, and the locks are the same by then.
  refine (similar.bring id).bind fun _ _ _ _ brought => ?_
  refine (brought.1.similar.lockPage asker id access.lockMode).bind fun _ _ _ _ locked => ?_
  obtain ⟨similar, writes⟩ := locked
  refine (similar.bring id).mono fun x y a' b' again => ⟨again.1, fun writing => ?_⟩
  rw [again.2]
  exact writes (congrArg Access.lockMode writing)

/-- A page is released in both, or was held in neither. -/
theorem releaseEarly (asker : TransactionId) (id : PageId) :
    Pairs kind Never (releaseEarly asker id) (releaseEarly asker id) a b fun _ _ => Similar kind := by
  have exclusive : a.locks.Exclusive := similar.left.orderly.locks
  have released := similar.withLocks (exclusive.release id asker)
  unfold Pairs Database.releaseEarly
  rw [← similar.locks_eq]
  rcases taken : a.locks.release id asker with ⟨held, locks⟩
  rw [taken] at released
  cases held with
  | true => exact .inr (.inr released)
  | false => exact .inr (.inr ⟨rfl, released⟩)

/-- A registered heap has as many pages in both. -/
theorem heapPageCount {number : Nat} {heap : Heap} (registered : a.catalog.heap? number = some heap) :
    Pairs kind Never (heapPageCount heap) (heapPageCount heap) a b fun x y a' b' =>
      x = y ∧ a' = a ∧ b' = b := by
  have there : b.catalog.heap? number = some heap := similar.catalog_eq ▸ registered
  -- Counting reads only what the store shows, and it shows the same.
  unfold Pairs
  rw [similar.left.intact.housed.heapPageCount_eq registered, similar.right.intact.housed.heapPageCount_eq there,
    similar.standing.shown]
  exact .inr (.inr ⟨rfl, rfl, rfl⟩)

/-- A heap is registered in both, or no table is in either. -/
theorem tableAt_bind {number : Nat} {next other : Table → Op Database α}
    (found : ∀ heap, a.catalog.heap? number = some heap →
      Pairs kind exhausted (next (.heap heap)) (other (.heap heap)) a b rel) :
    Pairs kind exhausted (tableAt number >>= next) (tableAt number >>= other) a b rel := by
  unfold tableAt
  show Pairs kind exhausted (ofResult (a.catalog.find number) >>= next)
    (ofResult (b.catalog.find number) >>= other) a b rel
  rw [← similar.catalog_eq]
  cases registered : a.catalog.heap? number with
  | none =>
    have none : a.catalog.find number = _ := similar.left.orderly.find_eq_error registered
    rw [none]
    exact .inr (.inr ⟨rfl, similar⟩)
  | some heap =>
    have some : a.catalog.find number = _ := similar.left.orderly.find_eq_ok registered
    rw [some]
    exact found heap registered

end Similar

/-- Looking at the current copies gives pages that match. -/
theorem Both.lookAt {x y : CopyId} (both : Both kind id x y a b) :
    Pairs kind Never (lookAt x) (lookAt y) a b fun p q a' b' => a' = a ∧ b' = b
      ∧ a.pool.page? id = some p ∧ b.pool.page? id = some q ∧ p.Matches q := by
  obtain ⟨p, q, resident, there, pages⟩ := both.exists_pages
  refine .of_ensures (ensures_lookAt both.current (both.here ▸ resident))
    (ensures_lookAt both.currentOther (both.there ▸ there)) ?_
  rintro _ _ _ _ ⟨rfl, rfl⟩ ⟨rfl, rfl⟩
  exact .inr (.inr ⟨rfl, rfl, resident, there, pages⟩)

end Database

end HeapEngine

import HeapEngine.Proofs.Database.Run

/-!
What a transaction has read it reads again, whatever others do meanwhile.

A page that is locked holds the same until its lock is released, in memory or stored. Others can
write it, drop it and read it back, but they cannot change it.
-/

namespace HeapEngine

namespace Standing

variable {before middle after : Standing} {transaction : TransactionId}

/-- A transaction keeps its locks, and the pages it holds keep their cells. Heaps only grow. -/
structure Guards (transaction : TransactionId) (before after : Standing) : Prop where
  holds : ∀ id, before.locks.holds id transaction = true → after.locks.holds id transaction = true
  content : ∀ id page, before.locks.holds id transaction = true → before.content? id = some page →
    ∃ kept, after.content? id = some kept ∧ page.Agrees kept
  heaps : ∀ number heap, before.catalog.heap? number = some heap →
    after.catalog.heap? number = some heap
      ∧ (before.shown number).images.length ≤ (after.shown number).images.length

namespace Guards

theorem refl (transaction : TransactionId) (standing : Standing) : Guards transaction standing standing :=
  ⟨fun _ holds => holds, fun _ page _ held => ⟨page, held, .refl page⟩,
    fun _ _ registered => ⟨registered, Nat.le_refl _⟩⟩

theorem trans (first : Guards transaction before middle) (second : Guards transaction middle after) :
    Guards transaction before after := by
  refine ⟨fun id holds => second.holds id (first.holds id holds), ?_, ?_⟩
  · intro id page holds held
    obtain ⟨kept, there, agrees⟩ := first.content id page holds held
    obtain ⟨last, here, again⟩ := second.content id kept (first.holds id holds) there
    exact ⟨last, here, agrees.trans again⟩
  · intro number heap registered
    obtain ⟨still, more⟩ := first.heaps number heap registered
    obtain ⟨last, again⟩ := second.heaps number heap still
    exact ⟨last, Nat.le_trans more again⟩

/-- Locks that others gain or release change no page. -/
theorem withLocks (standing : Standing) {locks : Locks}
    (kept : ∀ id, standing.locks.holds id transaction = true → locks.holds id transaction = true) :
    Guards transaction standing (standing.withLocks locks) :=
  ⟨kept, fun _ page _ held => ⟨page, held, .refl page⟩, fun _ _ registered => ⟨registered, Nat.le_refl _⟩⟩

/-- A page that another transaction may change is not held. -/
theorem withUnwritten (standing : Standing) {id : PageId} (page : Option Page)
    (free : standing.locks.holds id transaction = false) :
    Guards transaction standing (standing.withUnwritten id page) := by
  refine ⟨fun _ holds => holds, ?_, fun _ _ registered => ⟨registered, Nat.le_refl _⟩⟩
  intro other held holds there
  -- A page that is held is another one, so it is found where it was.
  have apart : other ≠ id := by
    rintro rfl
    rw [free] at holds
    cases holds
  refine ⟨held, ?_, .refl held⟩
  unfold Standing.content? at there ⊢
  simp only [Standing.withUnwritten, if_neg apart]
  exact there

end Guards

/-- A heap that grows keeps all its pages. -/
theorem Grows.guards {number : Nat} (grows : before.Grows number after) :
    Guards transaction before after := by
  refine ⟨fun id holds => ?_, ?_, ?_⟩
  · rw [grows.locks_eq]
    exact holds
  · intro id page _ held
    refine ⟨page, ?_, .refl page⟩
    unfold Standing.content? at held ⊢
    rw [grows.unwritten_eq]
    -- An unwritten page counts in place of what is stored.
    cases unwritten : before.unwritten id with
    | some changed =>
      rw [unwritten] at held
      exact held
    | none =>
      rw [unwritten] at held
      exact grows.stored? held
  · intro other heap registered
    rw [grows.catalog_eq]
    refine ⟨registered, ?_⟩
    rcases grows with rfl | ⟨image, _, rfl⟩
    · exact Nat.le_refl _
    · simp only [withShown]
      -- The heap that grew has one page more, and all others have as many as before.
      by_cases here : other = number
      · rw [if_pos here, here, List.length_append]
        exact Nat.le_add_right _ _
      · exact Nat.le_of_eq (by rw [if_neg here])

end Standing

/-- Whether a command leaves a transaction alone: others ask for it, and it takes no page away. -/
def Command.Spares (transaction : TransactionId) : Command → Prop
  | acquire asker _ _ | insert asker _ _ | delete asker _ | finish asker _ => asker ≠ transaction
  | scan cursor _ => cursor.transaction ≠ transaction
  | start request | ask request => request.transaction ≠ transaction
  -- A page that was dropped unwritten would be read as it was before.
  | releaseEarly _ _ | discard _ => False
  | _ => True

namespace Database

open Standing

variable {kind : ImageKind} {before after : Database} {asker transaction : TransactionId}

/-- A transaction that gains locks takes none from another one. -/
theorem Gains.guards (gains : Gains kind asker before after) (apart : transaction ≠ asker) :
    Guards transaction before.standing after.standing := by
  rw [gains.standing]
  refine .withLocks _ fun id holds => ?_
  rw [gains.advances.holds_other apart]
  exact holds

theorem Extends.guards {number : Nat} (extends_ : Extends kind asker number before after)
    (apart : transaction ≠ asker) : Guards transaction before.standing after.standing := by
  obtain ⟨grown, grows, stands⟩ := extends_.standing
  have grew : Guards transaction before.standing grown := grows.guards
  rw [stands]
  refine grew.trans (.withLocks _ fun id holds => ?_)
  rw [grows.locks_eq] at holds
  rw [extends_.advances.holds_other apart]
  exact holds

/-- Only the writer of a page changes it, and nobody else holds it then. -/
theorem Changes.guards {standing : Standing} {id : PageId} {page changed : Page}
    (changes : Changes kind asker standing id page changed after)
    (advances : Locks.Advances asker standing.locks after.locks) (apart : transaction ≠ asker) :
    Guards transaction standing after.standing := by
  -- The locks advance first, and then the page changes that its writer holds alone.
  have locked : Guards transaction standing (standing.withLocks after.locks) := by
    refine .withLocks _ fun other holds => ?_
    rw [advances.holds_other apart]
    exact holds
  rw [changes.standing]
  refine locked.trans (.withUnwritten _ _ ?_)
  show after.locks.holds id transaction = false
  cases holds : after.locks.holds id transaction with
  | false => rfl
  | true => exact absurd (changes.consistent.orderly.locks.eq_writer changes.writes holds) apart

/-- Writing a page changes nothing that can be read from it. -/
theorem Flushes.guards {done : List PageId} (flushes : Flushes kind done before after)
    (consistent : before.Consistent kind) : Guards transaction before.standing after.standing := by
  refine ⟨fun id holds => ?_, ?_, ?_⟩
  · show after.locks.holds id transaction = true
    rw [flushes.locks]
    exact holds
  · intro id page _ held
    by_cases untouched : id ∉ done ∨ before.standing.unwritten id = none
    · -- A page that was not written, or had nothing to write, is as it was.
      obtain ⟨image, unwritten⟩ := flushes.kept id untouched
      refine ⟨page, ?_, .refl page⟩
      rw [Standing.content?, Standing.stored?, image, unwritten]
      exact held
    · -- The page was written, and its image reads back as it was.
      obtain ⟨member, changed⟩ := not_or.1 untouched
      have written := Decidable.not_not.1 member
      obtain ⟨dirty, unwritten⟩ := Option.ne_none_iff_exists'.1 changed
      rw [Standing.content?, unwritten] at held
      cases held
      obtain ⟨image, encoded, found⟩ := flushes.written id written page unwritten
      obtain ⟨read, outcome, agrees, _⟩ :=
        (consistent.fits_unwritten unwritten).sound.ofImage_image encoded id
      refine ⟨read, ?_, agrees.symm⟩
      rw [Standing.content?, flushes.cleared id written]
      simp only [Standing.stored?, found, Option.bind_some, outcome]
      rfl
  · intro number heap registered
    show after.catalog.heap? number = some heap ∧ _
    rw [flushes.catalog, (flushes.views number).count]
    exact ⟨registered, Nat.le_refl _⟩

/-- Taking back what one transaction changed touches no page of another. -/
theorem guards_reverted {db : Database} (consistent : db.Consistent kind) (apart : transaction ≠ asker) :
    Guards transaction db.standing (db.standing.reverted (db.pool.changedBy asker)) := by
  refine ⟨fun _ holds => holds, ?_, fun _ _ registered => ⟨registered, Nat.le_refl _⟩⟩
  intro id page holds held
  -- The one who changed a page is alone on it, so a page that is held is no such page.
  have kept : id ∉ db.pool.changedBy asker := by
    intro member
    obtain ⟨changed, unwritten, mark⟩ := mem_changedBy.1 member
    have writes := consistent.isWriter unwritten mark
    exact apart (consistent.orderly.locks.eq_writer writes holds)
  refine ⟨page, ?_, .refl page⟩
  unfold Standing.content? at held ⊢
  simp only [Standing.reverted, if_neg kept]
  exact held

/-- Pages in memory and images stay when failures are asked for or heaps are registered. -/
theorem Rearranges.guards (rearranges : Rearranges kind before after) :
    Guards transaction before.standing after.standing := by
  refine ⟨fun id holds => ?_, ?_, ?_⟩
  · show after.locks.holds id transaction = true
    rw [rearranges.locks]
    exact holds
  · intro id page _ held
    refine ⟨page, ?_, .refl page⟩
    -- A page with an image belongs to a heap that was registered, which keeps its images.
    have image : ∀ image, before.standing.image? id = some image →
        after.standing.image? id = some image := by
      intro image found
      obtain ⟨heap, registered⟩ := exists_heap_of_image? found
      rw [Standing.image?, (rearranges.heaps _ heap registered).2]
      exact found
    unfold Standing.content? at held ⊢
    rw [rearranges.unwritten]
    cases unwritten : before.standing.unwritten id with
    | some changed =>
      rw [unwritten] at held
      exact held
    | none =>
      rw [unwritten] at held
      obtain ⟨bytes, found, decoded⟩ := Standing.stored?_eq_some.1 held
      exact Standing.stored?_eq_some.2 ⟨bytes, image bytes found, decoded⟩
  · intro number heap registered
    obtain ⟨still, images⟩ := rearranges.heaps number heap registered
    exact ⟨still, Nat.le_of_eq (congrArg List.length images.symm)⟩

/-- Whatever others ask for, a transaction keeps its locks and what it holds. -/
theorem Effect.guards {command : Command} {result : Except Failure Reply}
    (effect : Effect kind before result after command) (consistent : before.Consistent kind)
    (spares : command.Spares transaction) : Guards transaction before.standing after.standing := by
  cases command with
  | acquire asker page access => exact effect.1.guards (Ne.symm spares)
  | insert asker table record =>
    cases result with
    | ok reply =>
      obtain ⟨place, _, _, advances, grown, page, changed, grows, changes, _⟩ := effect
      -- The heap grows first, and then one of its pages changes.
      have grew : Guards transaction before.standing grown := grows.guards
      refine grew.trans (changes.guards ?_ (Ne.symm spares))
      rw [grows.locks_eq]
      exact advances
    | error failure => exact Extends.guards effect (Ne.symm spares)
  | delete asker record =>
    cases result with
    | ok reply =>
      obtain ⟨place, _, advances, page, changed, changes, _⟩ := effect
      exact changes.guards advances (Ne.symm spares)
    | error failure => exact Gains.guards effect (Ne.symm spares)
  | scan cursor count => exact effect.1.guards (Ne.symm spares)
  | finish asker ending =>
    -- Ending releases the locks of the one who ends, and no others.
    have released : ∀ id, before.locks.holds id transaction = true →
        (before.locks.releaseAll asker).2.holds id transaction = true := by
      intro id holds
      rw [Locks.holds_releaseAll_other (Ne.symm spares)]
      exact holds
    cases ending with
    | commit =>
      cases result with
      | ok reply =>
        obtain ⟨middle, flushes, _, stands⟩ := effect
        rw [stands]
        refine (flushes.guards consistent).trans (.withLocks _ fun id holds => released id ?_)
        rw [← flushes.locks]
        exact holds
      | error failure =>
        obtain ⟨done, _, flushes, _⟩ := effect
        exact flushes.guards consistent
    | abort =>
      rw [effect.2]
      exact (guards_reverted consistent (Ne.symm spares)).trans (.withLocks _ released)
  | writeBack page =>
    obtain ⟨done, flushes⟩ := effect
    exact flushes.guards consistent
  | writeBackOf asker =>
    obtain ⟨done, flushes⟩ := effect
    exact flushes.guards consistent
  | checkpoint =>
    obtain ⟨done, flushes⟩ := effect
    exact flushes.guards consistent
  | start request => exact effect.1.guards (Ne.symm spares)
  | ask request => exact effect.1.guards (Ne.symm spares)
  | releaseEarly asker page => exact spares.elim
  | discard page => exact spares.elim
  | setFailing store reads writes => exact Rearranges.guards effect
  | addHeap name store => exact Rearranges.guards effect

/-- However long others go on, a transaction keeps its locks and what it holds. -/
theorem Runs.guards {commands : List Command} (runs : Runs kind.allows before commands after)
    (consistent : before.Consistent kind)
    (others : ∀ command ∈ commands, command.Spares transaction) :
    Guards transaction before.standing after.standing := by
  -- Every command of others guards what is held, and guarding composes.
  induction runs with
  | done => exact .refl transaction _
  | step allowed served _ ih =>
    have effect := consistent.effect served allowed
    have once := effect.guards consistent (others _ List.mem_cons_self)
    exact once.trans (ih effect.consistent fun command later =>
      others command (List.mem_cons_of_mem _ later))

/-- What a page is said to hold is a sound page. -/
theorem Consistent.content_sound {db : Database} {id : PageId} {page : Page} (consistent : db.Consistent kind)
    (held : db.standing.content? id = some page) : page.Sound := by
  unfold Standing.content? at held
  cases unwritten : db.standing.unwritten id with
  | some changed =>
    rw [unwritten] at held
    cases held
    exact (consistent.fits_unwritten unwritten).sound
  | none =>
    rw [unwritten] at held
    exact (consistent.orderly.stored held).2.1

/-- A page that is held has the same records. -/
theorem records?_of_guards (consistent : before.Consistent kind)
    (guards : Guards transaction before.standing after.standing) {id : PageId}
    (holds : before.locks.holds id transaction = true) {records : List Record}
    (read : before.standing.records? id = some records) : after.standing.records? id = some records := by
  unfold Standing.records? at read ⊢
  cases held : before.standing.content? id with
  | none =>
    rw [held] at read
    cases read
  | some page =>
    -- The page agrees with what it was, so it has the same cells under the same slots.
    obtain ⟨kept, there, agrees⟩ := guards.content id page holds held
    rw [held] at read
    rw [there]
    simp only [← agrees.cells (consistent.content_sound held)]
    exact read

/-- Pages whose records stay give the beginning of what these and later pages give. -/
theorem recordsFrom?_prefix {before after : Standing} {heap : Heap} (left more : Nat) {page : Nat}
    {records all : List Record}
    (kept : ∀ number, page ≤ number → number < page + left → ∀ records,
      before.records? (heap.page number) = some records →
        after.records? (heap.page number) = some records)
    (first : before.recordsFrom? heap left page = some records)
    (second : after.recordsFrom? heap (left + more) page = some all) : records <+: all := by
  -- The pages are compared one by one from the first, so page and records vary.
  induction left generalizing page records all with
  | zero =>
    cases first
    exact List.nil_prefix
  | succ left ih =>
    rw [Nat.add_right_comm] at second
    unfold Standing.recordsFrom? at first second
    cases here : before.records? (heap.page page) with
    | none =>
      rw [here] at first
      cases first
    | some front =>
      -- The first page gives the same, and the other pages are a smaller case.
      rw [here] at first
      rw [kept page (Nat.le_refl _) (by omega) front here] at second
      cases rest : before.recordsFrom? heap left (page + 1) with
      | none =>
        rw [rest] at first
        cases first
      | some records =>
        rw [rest] at first
        cases first
        cases others : after.recordsFrom? heap (left + more) (page + 1) with
        | none =>
          rw [others] at second
          cases second
        | some all =>
          rw [others] at second
          cases second
          have shorter := ih (fun number above below => kept number (by omega) (by omega)) rest others
          exact (List.prefix_append_right_inj front).2 shorter

/-- A page that was given to a transaction is given to it again as it was, if only others went on. -/
def RepeatsPages (allows : Bytes → Prop) (db : Database) : Prop :=
  ∀ transaction id access copy given commands later accessAgain copyAgain again,
    db.serve (.acquire transaction id access) = .ok (.ok (.copy copy), given) →
    Runs allows given commands later → (∀ command ∈ commands, command.Spares transaction) →
    later.serve (.acquire transaction id accessAgain) = .ok (.ok (.copy copyAgain), again) →
      ∃ first second, given.copy? copy = some first ∧ again.copy? copyAgain = some second
        ∧ second.slots = first.slots ∧ second.cells = first.cells

/-- A full scan gives the beginning of what the next one gives, if only others went on in between. -/
def RepeatsScans (allows : Bytes → Prop) (db : Database) : Prop :=
  ∀ transaction heap count items ended middle commands later more moreItems moreEnded after,
    db.catalog.heap? heap.table = some heap →
    db.serve (.scan (.start heap transaction) count) = .ok (.ok (.items items ended), middle) →
    Runs allows middle commands later → (∀ command ∈ commands, command.Spares transaction) →
    later.serve (.scan (.start heap transaction) more) = .ok (.ok (.items moreItems moreEnded), after) →
      ∀ records all, items = records.map .record ++ [.done] → moreItems = all.map .record ++ [.done] →
        records <+: all

/-- A page given anew holds what it held when it was given before. -/
theorem Consistent.repeatsPages {db : Database} (consistent : db.Consistent kind) :
    db.RepeatsPages kind.allows := by
  intro transaction id access copy given commands later accessAgain copyAgain again served runs others
    servedAgain
  obtain ⟨gains, first⟩ := consistent.effect served trivial
  have before := first copy rfl
  obtain ⟨page, resident⟩ := exists_page_of_current before.current
  obtain ⟨held, content, agrees, _⟩ := gains.consistent.content resident
  -- While others go on, the page goes on holding the same.
  have guards := runs.guards gains.consistent others
  have still := runs.consistent gains.consistent
  obtain ⟨kept, there, unchanged⟩ := guards.content copy.page held (before.page ▸ before.holds) content
  obtain ⟨gainsAgain, second⟩ := still.effect servedAgain trivial
  have after := second copyAgain rfl
  obtain ⟨pageAgain, residentAgain⟩ := exists_page_of_current after.current
  obtain ⟨heldAgain, contentAgain, agreesAgain, _⟩ := gainsAgain.consistent.content residentAgain
  -- Giving it anew gains locks at most, so what it holds is what is found then.
  have same : heldAgain = kept := by
    rw [gainsAgain.standing, Standing.content?_withLocks, after.page, ← before.page, there] at contentAgain
    exact (Option.some.inj contentAgain).symm
  subst same
  have whole : page.Agrees pageAgain := (agrees.symm.trans unchanged).trans agreesAgain
  have sound := (gains.consistent.cached _ page resident).sound
  refine ⟨page, pageAgain, ?_, ?_, whole.slots.symm, (whole.cells sound).symm⟩
  · rw [Database.copy?, Pool.copy?_of_current before.current]
    exact resident
  · rw [Database.copy?, Pool.copy?_of_current after.current]
    exact residentAgain

/-- All pages of a full scan stay locked, so a later one finds their records first. -/
theorem Consistent.repeatsScans {db : Database} (consistent : db.Consistent kind) :
    db.RepeatsScans kind.allows := by
  intro transaction heap count items ended middle commands later more moreItems moreEnded after registered
    served runs others servedAgain records all full fullAgain
  obtain ⟨gains, _, _, told, completes⟩ := consistent.effect served registered
  cases told
  obtain ⟨first, locked⟩ := completes rfl records full
  have guards := runs.guards gains.consistent others
  have still := runs.consistent gains.consistent
  -- The heap is registered still, so the second scan gives all that is there.
  have registeredAgain := guards.heaps heap.table heap (by
    rw [gains.standing]
    exact registered)
  obtain ⟨_, _, _, toldAgain, completesAgain⟩ := still.effect servedAgain registeredAgain.1
  cases toldAgain
  obtain ⟨second, _⟩ := completesAgain rfl all fullAgain
  simp only [Scan.rest?, Scan.start, Bool.false_eq_true, ↓reduceIte, Nat.sub_zero, List.nil_append,
    Option.map_id'] at first second
  have grown : db.standing.count heap ≤ later.standing.count heap := by
    have more := registeredAgain.2
    rw [gains.standing] at more
    exact more
  obtain ⟨extra, sum⟩ := Nat.exists_eq_add_of_le grown
  rw [sum] at second
  refine recordsFrom?_prefix (db.standing.count heap) extra ?_ first second
  intro number _ below records read
  refine records?_of_guards gains.consistent guards ?_ ?_
  · rw [Nat.zero_add] at below
    exact locked number (Nat.zero_le _) below
  · rw [gains.standing]
    exact read

end Database

/-- The images whose cells have room side by side, if they hold a page at all. -/
def ImageKind.readable : ImageKind where
  allows image := ∀ id page, Page.ofImage id image = .ok page →
    page.cellStart + Slot.total page.slots ≤ page.size
  allows_image := by
    intro page image sound encoded id read outcome
    obtain ⟨result, same, agrees, _⟩ := sound.ofImage_image encoded id
    rw [same] at outcome
    cases outcome
    exact (agrees.symm.sound sound).apart
  sound allowed read := Page.ofImage_sound read (allowed _ _ read)

namespace Database

/--
What a transaction has read it reads again.

If the cells of each stored page have room side by side, a page that was given to a transaction is
given to it again with the same directory and the same cells, and a full scan gives the beginning of
what the next full scan gives. Others may go on in between, whatever fails.
-/
theorem repeatable_reads {db : Database} (reachable : Reachable ImageKind.readable.allows db) :
    db.RepeatsPages ImageKind.readable.allows ∧ db.RepeatsScans ImageKind.readable.allows := by
  have consistent : db.Consistent .readable := reachable.consistent
  exact ⟨consistent.repeatsPages, consistent.repeatsScans⟩

/-- A database with room for one page in memory, over two pages with one record each. -/
def twoPages : Database :=
  (overImages ⟨64, 1, .ofMilliseconds 1⟩ []).afterAll
    [.insert ⟨1⟩ 1 ⟨none, [.blob (Bytes.zeros 30)]⟩, .finish ⟨1⟩ .commit,
      .insert ⟨1⟩ 1 ⟨none, [.blob (Bytes.zeros 40)]⟩, .finish ⟨1⟩ .commit]

/-- A page is read again after another one was in its place in memory. -/
theorem repeatable_reads_evicted : Reachable ImageKind.readable.allows twoPages ∧
    ∃ first second,
      (twoPages.afterAll [.acquire ⟨2⟩ ⟨1, 0⟩ .reading]).copy? ⟨⟨1, 0⟩, 2⟩ = some first
      ∧ (twoPages.afterAll [.acquire ⟨2⟩ ⟨1, 0⟩ .reading, .acquire ⟨3⟩ ⟨1, 1⟩ .reading,
        .acquire ⟨2⟩ ⟨1, 0⟩ .reading]).copy? ⟨⟨1, 0⟩, 4⟩ = some second
      ∧ second.slots = first.slots ∧ second.cells = first.cells := by
  have reachable : Reachable ImageKind.readable.allows twoPages := by
    refine ⟨_, _, overImages_fresh (by decide) (by simp), runs_afterAll ?_ (by decide +kernel)⟩
    simp [Command.Allowed]
  exact ⟨reachable, (repeatable_reads reachable).1 ⟨2⟩ ⟨1, 0⟩ .reading ⟨⟨1, 0⟩, 2⟩ _
    [.acquire ⟨3⟩ ⟨1, 1⟩ .reading] _ .reading ⟨⟨1, 0⟩, 4⟩ _ (run_eq (by decide +kernel))
    (runs_afterAll (by simp [Command.Allowed]) (by decide +kernel)) (by simp [Command.Spares])
    (run_eq (by decide +kernel))⟩

/-- A record is erased on a page that its transaction can lock, and the page is adopted then. -/
theorem serve_delete {db middle : Database} {transaction : TransactionId} {record : Record}
    {place : RecordId} {heap : Heap} {copy : CopyId} {page changed : Page}
    (placed : record.place = some place)
    (found : db.catalog.find place.page.table = .ok (.heap heap)) (there : place.page.table = heap.table)
    (given : db.serve (.acquire transaction place.page .writing) = .ok (.ok (.copy copy), middle))
    (seen : middle.copy? copy = some page) (erased : page.eraseRecord record = .ok changed) :
    db.serve (.delete transaction record)
      = run { middle with pool := middle.pool.edit copy fun _ => changed }
        (do adoptAll transaction [copy]; return .done) := by
  -- What the command answers tells what its operation did.
  have acquired : acquire transaction place.page .writing db = .ok copy middle := by
    unfold serve run Command.perform at given
    cases outcome : acquire transaction place.page .writing db with
    | ok told after =>
      simp only [outcome, bind, EStateM.bind, pure, EStateM.pure, Except.ok.injEq, Prod.mk.injEq,
        Reply.copy.injEq] at given
      rw [given.1, given.2]
    | error fault after =>
      simp only [outcome, bind, EStateM.bind] at given
      cases fault with
      | failed failure => simp at given
      | trapped cause => simp at given
  have edited : deleteFromHeap heap transaction record db
      = .ok copy { middle with pool := middle.pool.edit copy fun _ => changed } := by
    unfold deleteFromHeap
    simp only [placed, there, ne_eq, not_true_eq_false, ↓reduceIte, bind, EStateM.bind, acquired,
      changeCopy, seen, erased, Except.bind, pure, Except.pure, EStateM.pure]
  have finds : tableAt place.page.table db = .ok (.heap heap) db := by
    show ofResult (db.catalog.find place.page.table) db = _
    rw [found]
    rfl
  have whole : delete transaction record db
      = adoptAll transaction [copy] { middle with pool := middle.pool.edit copy fun _ => changed } := by
    unfold delete
    rw [placed]
    exact (Op.bind_of_ok finds _).trans (Op.bind_of_ok edited _)
  simp only [serve, run, Command.perform, bind, EStateM.bind, whole]

/-- A page with two cells at one place within a third one, and a last cell of one byte. -/
def crowdedPage : Page :=
  ⟨⟨1, 0⟩, [⟨36, 2⟩, ⟨38, 23⟩, ⟨41, 19⟩, ⟨41, 19⟩, ⟨66, 1⟩], 36,
    [195, 16, 18, 24, 5, 0, 36, 0] ++ Bytes.zeros 8
      ++ [36, 0, 2, 0, 38, 0, 23, 0, 41, 0, 19, 0, 41, 0, 19, 0, 66, 0, 1, 0]
      ++ [1, 0] ++ [21, 0, 1, 18] ++ Bytes.zeros 25, none⟩

/-- Without its last cell, and the others moved to the end, which reach down over the directory now. -/
def crowdedPacked : Page :=
  ⟨⟨1, 0⟩, [⟨4, 2⟩, ⟨6, 23⟩, ⟨48, 19⟩, ⟨29, 19⟩], 4,
    Bytes.zeros 4 ++ [1, 0] ++ [21, 0, 1, 18] ++ Bytes.zeros 19 ++ [18] ++ Bytes.zeros 18 ++ [18]
      ++ Bytes.zeros 18, none⟩

/-- The cells are moved from the highest one down. -/
theorem inUse_crowded : Page.inUse (Page.trimFree (crowdedPage.slots.set 4 .free))
    = [(⟨41, 19⟩, 2), (⟨41, 19⟩, 3), (⟨38, 23⟩, 1), (⟨36, 2⟩, 0)] := by
  simp [Page.inUse, Page.trimFree, crowdedPage, Slot.isFree, Slot.free, List.zipIdx, List.mergeSort,
    List.MergeSort.Internal.splitInTwo]

/-- Erasing the last cell packs the page, whatever its name is. -/
theorem eraseRecord_crowded (id : PageId) :
    Page.eraseRecord { crowdedPage with id } ⟨some ⟨id, 4⟩, []⟩ = .ok { crowdedPacked with id } := by
  rw [Page.eraseRecord]
  simp only [ne_eq, not_true_eq_false, ↓reduceIte]
  show Page.pack { crowdedPage with id, slots := Page.trimFree (crowdedPage.slots.set 4 .free) } = _
  unfold Page.pack
  rw [inUse_crowded]
  rfl

/-- A database with room for one page in memory, over the crowded page and an empty one. -/
def crowded : Database :=
  overImages ⟨67, 1, .ofMilliseconds 1⟩ [crowdedPage.buffer, Bytes.zeros 67]

/-- The page is locked and packed in memory. -/
def crowdedEdited : Database :=
  let given := crowded.after (Command.acquire ⟨1⟩ ⟨1, 0⟩ .writing).perform
  { given with pool := given.pool.edit ⟨⟨1, 0⟩, 0⟩ fun _ => crowdedPacked }

/-- The last cell of the crowded page is deleted. -/
def crowdedDeleted : Database := crowdedEdited.after (do adoptAll ⟨1⟩ [⟨⟨1, 0⟩, 0⟩]; return .done)

/-- The deletion is committed. -/
def crowdedCommitted : Database := crowdedDeleted.after (Command.finish ⟨1⟩ .commit).perform

/-- The last cell of the crowded page can be deleted. -/
theorem serve_crowded_delete :
    crowded.serve (.delete ⟨1⟩ ⟨some ⟨⟨1, 0⟩, 4⟩, []⟩) = .ok (.ok .done, crowdedDeleted) := by
  have found : crowded.catalog.find 1 = .ok (.heap ⟨1, .memory 0⟩) := rfl
  have given : crowded.serve (.acquire ⟨1⟩ ⟨1, 0⟩ .writing) = .ok (.ok (.copy ⟨⟨1, 0⟩, 0⟩), _) :=
    run_eq (by decide +kernel)
  have placed : Record.place ⟨some ⟨⟨1, 0⟩, 4⟩, []⟩ = some ⟨⟨1, 0⟩, 4⟩ := rfl
  rw [serve_delete placed found rfl given (by decide +kernel) (eraseRecord_crowded ⟨1, 0⟩)]
  exact run_eq (by decide +kernel)

/-- The deletion can be committed. -/
theorem serve_crowded_commit :
    crowdedDeleted.serve (.finish ⟨1⟩ .commit) = .ok (.ok .done, crowdedCommitted) :=
  run_eq (by decide +kernel)

theorem runs_crowded : Runs (fun _ => True) crowded
    [.delete ⟨1⟩ ⟨some ⟨⟨1, 0⟩, 4⟩, []⟩, .finish ⟨1⟩ .commit] crowdedCommitted :=
  .step trivial serve_crowded_delete (.step trivial serve_crowded_commit .done)

/-- The records of the packed page. -/
def crowdedRecords : List Record :=
  [⟨some ⟨⟨1, 0⟩, 0⟩, [.null]⟩,
    ⟨some ⟨⟨1, 0⟩, 1⟩, .null :: .integer 9 :: List.replicate 19 .null⟩,
    ⟨some ⟨⟨1, 0⟩, 2⟩, List.replicate 18 .null⟩, ⟨some ⟨⟨1, 0⟩, 3⟩, List.replicate 18 .null⟩]

set_option maxRecDepth 20000 in
/--
Cells that have no room side by side are not read again.

The page that is packed in memory has another directory than the one that is read from its image.
-/
theorem crowded_not_repeated : Reachable (fun _ => True) crowdedCommitted
    ∧ ¬ crowdedCommitted.RepeatsPages (fun _ => True)
    ∧ ¬ crowdedCommitted.RepeatsScans (fun _ => True) := by
  refine ⟨⟨crowded, _, overImages_fresh (by decide) (by decide), runs_crowded⟩, ?_, ?_⟩
  · intro repeats
    -- Another transaction looks at the empty page, which takes the place of the other one in memory.
    obtain ⟨first, second, here, there, slots, _⟩ := repeats ⟨2⟩ ⟨1, 0⟩ .reading ⟨⟨1, 0⟩, 0⟩ _
      [.acquire ⟨3⟩ ⟨1, 1⟩ .reading] _ .reading ⟨⟨1, 0⟩, 2⟩ _ (run_eq (by decide +kernel))
      (.step trivial (run_eq (by decide +kernel : _ = some (.ok (.copy ⟨⟨1, 1⟩, 1⟩)))) .done)
      (by simp [Command.Spares]) (run_eq (by decide +kernel))
    -- The page packed in memory has four slots, and the one read from its image has one.
    have four : Option.map (·.slots.length) (some first) = some 4 := by
      rw [← here]
      decide +kernel
    have one : Option.map (·.slots.length) (some second) = some 1 := by
      rw [← there]
      decide +kernel
    rw [Option.map_some, Option.some.injEq] at four one
    rw [slots, four] at one
    cases one
  · intro repeats
    -- The first scan leaves the empty page in memory, so the second one reads the image.
    have registered : crowdedCommitted.catalog.heap? 1 = some ⟨1, .memory 0⟩ := by decide +kernel
    have same := repeats ⟨2⟩ ⟨1, .memory 0⟩ 5 (crowdedRecords.map .record ++ [.done])
      ⟨⟨1, .memory 0⟩, ⟨2⟩, 2, [], true⟩ _ [] _ 5 [.done] ⟨⟨1, .memory 0⟩, ⟨2⟩, 2, [], true⟩ _ registered
      (run_eq (by decide +kernel)) .done (by simp) (run_eq (by decide +kernel)) crowdedRecords [] rfl rfl
    cases List.prefix_nil.1 same

end Database

end HeapEngine

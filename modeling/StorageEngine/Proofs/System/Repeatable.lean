import StorageEngine.Proofs.System.Ownership
import StorageEngine.Proofs.System.Records
import StorageEngine.Proofs.System.StepMoves
import StorageEngine.Proofs.Workspace.Rooted

/-!
# Repeated scans

A transaction that has scanned a table holds the pages that it went through, and sees in them what
it saw while it changes nothing itself, whatever others do.  So what it finds in a later scan
begins with what it found before, and goes on with what is in the pages that were appended to the
table since (`System.Run.scans_repeat`).  Pages that there are not yet cannot be locked, so there
may be such (`System.scans_differ_noPages`).
-/

namespace StorageEngine

/-- Whether an event is a change that `txn` has made to a page, or its end. -/
def Event.alters (txn : TransactionId) : Event → Prop
  | .updated other .. => other = txn
  | .inserted other .. => other = txn
  | .deleted other .. => other = txn
  | .ended other .. => other = txn
  | _ => False

/-! ### What a transaction sees -/

namespace Workspaces

variable {spaces after : Workspaces} {txn : TransactionId} {page : PageId} {table : TableId}
  {event : Event} {events : List Event} {found : List Tuple}

/-- What a transaction sees of a page stays while it changes nothing and nobody else ends who has
changed the page. -/
theorem Step.view_eq (step : spaces.Step event after) (unaltered : ¬ event.alters txn)
    (seen : (spaces.view txn page).isSome)
    (alone : ∀ other commits result, event = .ended other commits result →
      spaces.overlay other page = none) :
  after.view txn page = spaces.view txn page
  := by
  cases step with
  | fetched | scanning | scanned => rfl
  | @updated other | @inserted other | @deleted other =>
    have distinct : txn ≠ other := Ne.symm unaltered
    rw [view, overlay_put, if_neg (by tauto)]
    rfl
  | grown new unseen =>
    rw [view, committed_grow]
    split
    · rename_i here
      subst here
      simp [view, new, unseen] at seen
    · rfl
  | @committed other =>
    have distinct : txn ≠ other := Ne.symm unaltered
    have overlay : (spaces.commit other).overlay txn page = spaces.overlay txn page := by
      rw [commit, overlay_drop, if_neg distinct]
    have committed : (spaces.commit other).committed page = spaces.view other page := rfl
    rw [view, overlay, committed, view, alone other _ _ rfl, Option.none_or]
    rfl
  | @aborted other =>
    have distinct : txn ≠ other := Ne.symm unaltered
    rw [view, overlay_drop, if_neg distinct]
    rfl

/-- What `txn` sees of `page` stays in a `run` in which it alters nothing and nobody ends. -/
theorem Run.view_eq (run : spaces.Run events after)
    (unaltered : ∀ event ∈ events, ¬ event.alters txn)
    (unended : ∀ other commits result, .ended other commits result ∉ events)
    (seen : (spaces.view txn page).isSome) :
  after.view txn page = spaces.view txn page
  := by
  induction run with
  | stop => rfl
  | @step spaces next last event events step rest ih =>
    simp only [List.mem_cons, not_or, forall_eq_or_imp] at unaltered unended
    have first := step.view_eq unaltered.1 seen fun other commits result ended =>
      absurd ended.symm (unended other commits result).1
    rw [← first] at seen ⊢
    apply ih unaltered.2 (fun other commits result => (unended other commits result).2) seen

/-- What is noted of the last scan of `txn` stays in a `run` in which it begins no other. -/
theorem Run.scans_eq (run : spaces.Run events after)
    (same : ∀ table pages, .scanning txn table pages ∉ events) :
  after.scans txn = spaces.scans txn
  := by
  induction run with
  | stop => rfl
  | @step spaces next last event events step rest ih =>
    simp only [List.mem_cons, not_or] at same
    rw [ih fun table pages => (same table pages).2]
    cases step with
    | @scanning other table pages =>
      have distinct : txn ≠ other := by
        rintro rfl
        apply (same table pages).1 rfl
      apply Function.update_of_ne distinct
    | _ => rfl

/-- What is noted of a scan when it begins stays in a `run` in which `txn` begins no other. -/
theorem Run.scans_of_scanning {pages : Nat}
    (run : spaces.Run (.scanning txn table pages :: events) after)
    (same : ∀ table pages, .scanning txn table pages ∉ events) :
  after.scans txn = some (table, pages)
  := by
  cases run with
  | step first rest =>
    rw [rest.scans_eq same]
    cases first
    apply Function.update_self

/-! ### Tuples of more pages -/

/-- What `txn` collects in `pages ++ rest` is what it collects in `pages` and then in `rest`. -/
theorem collect?_append {pages rest : List PageNo}
    (collected : spaces.collect? txn table (pages ++ rest) = some found) :
  ∃ first more, spaces.collect? txn table pages = some first
    ∧ spaces.collect? txn table rest = some more ∧ found = first ++ more
  := by
  induction pages generalizing found with
  | nil => exact ⟨[], found, rfl, collected, rfl⟩
  | cons no pages ih =>
    simp only [collect?, List.cons_append, bind, Option.bind_eq_some_iff, pure,
      Option.some.injEq] at collected ⊢
    obtain ⟨bytes, view, records, read, others, later, rfl⟩ := collected
    obtain ⟨first, more, before, after, rfl⟩ := ih later
    exact ⟨_, more, ⟨bytes, view, records, read, first, before, rfl⟩, after,
      (List.append_assoc ..).symm⟩

/-- Every `tuple` that `txn` collects is one of a page that it sees. -/
theorem record_of_collected {pages : List PageNo}
    (collected : spaces.collect? txn table pages = some found) {tuple : Tuple}
    (member : tuple ∈ found) :
  ∃ record, tuple.record = some record ∧ record.page.table = table ∧ record.page.no ∈ pages
    ∧ (spaces.view txn record.page).isSome
  := by
  induction pages generalizing found with
  | nil =>
    cases collected
    cases member
  | cons no pages ih =>
    simp only [collect?, bind, Option.bind_eq_some_iff, pure, Option.some.injEq] at collected
    obtain ⟨bytes, view, records, read, others, later, rfl⟩ := collected
    rcases List.mem_append.mp member with here | there
    · obtain ⟨⟨slot, data⟩, -, rfl⟩ := List.mem_map.mp here
      exact ⟨⟨⟨table, no⟩, slot⟩, rfl, rfl, List.mem_cons_self, Option.isSome_of_mem view⟩
    · obtain ⟨record, eq, inside, among, seen⟩ := ih later there
      exact ⟨record, eq, inside, List.mem_cons_of_mem _ among, seen⟩

/-- The numbers of `pages + more` pages begin with those of `pages`. -/
theorem pageNos_add (pages more : Nat) :
  pageNos (pages + more)
    = pageNos pages ++ (List.range more).map fun i => UInt32.ofNat (pages + i)
  := by
  simp [pageNos, List.range_add, Function.comp_def]

end Workspaces

/-! ### Events of steps -/

/-- How many pages `table` has. -/
def Pool.pagesOf (pool : Pool) (table : TableId) : Nat :=
  (pool.catalog.get? table).elim 0 fun no => (pool.store no).length

/-- Whether an event is neither one of a scan nor an end. -/
def Event.isPlain : Event → Bool
  | .scanning .. | .scanned .. | .ended .. => false
  | _ => true

theorem Round.isPlain_of_appended {event : Event} {pool : Pool} {round : Round}
    (member : event ∈ round.appended pool) :
  event.isPlain = true
  := by
  cases round with
  | grown page call =>
    obtain ⟨bytes, -, rfl⟩ := List.mem_map.mp member
    rfl
  | _ => cases member

/-- A round of `call` tells what was scanned, if it is a `.scan`, or plain events alone. -/
theorem Call.events_cases (txn : TransactionId) (pool : Pool) (call : Call) (round : Round) :
  (∃ table found no rest, call = .scan table found no rest
      ∧ call.events txn pool round = round.scanned txn table)
    ∨ ∀ event ∈ call.events txn pool round, event.isPlain = true
  := by
  cases call with
  | scan table found no rest =>
    left
    exact ⟨table, found, no, rest, rfl, rfl⟩
  | _ =>
    right
    intro event member
    unfold events at member
    split at member
    all_goals first
      | cases List.mem_singleton.mp member
        rfl
      | apply Round.isPlain_of_appended member
      | contradiction

/-- To enter `request` tells that a scan begins, if it is a `.scan`, or plain events alone. -/
theorem Request.events_cases (txn : TransactionId) (pool : Pool) (request : Request)
    (round : Round) :
  (∃ no pages, request = .scan no ∧ (pool.store no).pageNos = .ok pages
      ∧ request.events txn pool round = .scanning txn (pool.store no).table pages.length
        :: round.scanned txn (pool.store no).table)
    ∨ ∀ event ∈ request.events txn pool round, event.isPlain = true
  := by
  cases request with
  | scan no =>
    unfold events
    dsimp only
    cases listed : (pool.store no).pageNos with
    | error fault =>
      right
      intro event member
      cases member
    | ok pages =>
      left
      exact ⟨no, pages, rfl, listed, rfl⟩
  | _ =>
    right
    intro event member
    apply Round.isPlain_of_appended member

/-- A `round` tells nothing of a scan, or what was `found` in it. -/
theorem Round.scanned_cases (txn : TransactionId) (table : TableId) (round : Round) :
  round.scanned txn table = [] ∨ ∃ found, round.scanned txn table = [.scanned txn table found]
  := by
  unfold scanned
  split
  · right
    exact ⟨_, rfl⟩
  · left
    rfl

namespace System

variable {system after last : System} {spaces : Workspaces} {txn : TransactionId} {page : PageId}
  {table : TableId} {events : List Event} {found : List Tuple} {pages : Nat}

/-- The `events` of a `step` are plain; or an end; or the beginning of a scan and what it has found
by then; or what a scan has found. -/
theorem Step.events_cases (step : Step system events after) :
  (∀ event ∈ events, event.isPlain = true)
    ∨ (∃ txn commits result, events = [.ended txn commits result])
    ∨ (∃ txn no pages, system.pool.catalog.get? (system.pool.store no).table = some no
      ∧ (system.pool.store no).pageNos = .ok pages
      ∧ events = .scanning txn (system.pool.store no).table pages.length
        :: (Call.enterScan (system.pool.store no).table [] pages).scanned txn
          (system.pool.store no).table)
    ∨ ∃ txn table found no rest round, system.doing txn = .calling (.scan table found no rest)
      ∧ (Call.scan table found no rest).round txn system.pool = (round, after.pool)
      ∧ events = round.scanned txn table
  := by
  cases step with
  | @enter txn request round pool free served eq =>
    rcases request.events_cases txn pool round with ⟨no, pages, rfl, listed, told⟩ | plain
    · have same : pool = system.pool := by
        simp only [Request.enter] at eq
        split at eq <;> cases eq <;> rfl
      subst same
      right; right; left
      refine ⟨txn, no, pages, served, listed, ?_⟩
      simp only [Request.enter, listed, Prod.mk.injEq, and_true] at eq
      rw [told, eq]
    · left
      apply plain
  | @round txn call round pool under eq =>
    rcases call.events_cases txn pool round with ⟨table, found, no, rest, rfl, told⟩ | plain
    · right; right; right
      exact ⟨txn, table, found, no, rest, round, under, eq, told⟩
    · left
      apply plain
  | edit | unmarked | disrupt =>
    left
    intro event member
    cases member
  | mark =>
    left
    intro event member
    cases List.mem_singleton.mp member
    rfl
  | complete =>
    right; left
    exact ⟨_, _, _, rfl⟩

/-- A `step` in which a transaction ends has no other events. -/
theorem Step.eq_of_ended (step : Step system events after) {commits : Bool}
    {result : Except (Failure PoolError) Unit} (member : .ended txn commits result ∈ events) :
  events = [.ended txn commits result]
  := by
  rcases step.events_cases with plain | ⟨other, commits', result', rfl⟩
    | ⟨other, no, pages, -, -, rfl⟩ | ⟨other, table, found, no, rest, round, -, -, rfl⟩
  · cases plain _ member
  · rw [List.mem_singleton.mp member]
  · exfalso
    rcases (Call.enterScan (system.pool.store no).table [] pages).scanned_cases other
      (system.pool.store no).table with none | ⟨found, one⟩
    · simp [none] at member
    · simp [one] at member
  · exfalso
    rcases round.scanned_cases other table with none | ⟨found, one⟩
    · simp [none] at member
    · simp [one] at member

/-- No event follows what a `round` tells of a scan. -/
theorem last_of_round_scanned {round : Round} {event : Event} {earlier later : List Event}
    (split : round.scanned txn table = earlier ++ event :: later) :
  later = []
  := by
  rcases round.scanned_cases txn table with none | ⟨found, one⟩
  · simp [none] at split
  · rw [one] at split
    cases earlier with
    | nil => exact (List.cons.inj split).2.symm
    | cons first earlier => simp at split

/-- No event of a `step` follows the one in which a scan ends. -/
theorem Step.last_of_scanned (step : Step system events after) {earlier later : List Event}
    (split : events = earlier ++ .scanned txn table found :: later) :
  later = []
  := by
  have member : .scanned txn table found ∈ events := by
    simp [split]
  rcases step.events_cases with plain | ⟨other, commits, result, rfl⟩
    | ⟨other, no, pages, -, -, rfl⟩ | ⟨other, table', found', no, rest, round, -, -, rfl⟩
  · cases plain _ member
  · cases List.mem_singleton.mp member
  · cases earlier with
    | nil => cases (List.cons.inj split).1
    | cons first earlier => apply last_of_round_scanned (List.cons.inj split).2
  · apply last_of_round_scanned split

/-- The beginning of a scan is the first event of a `step`, and tells as many `pages` as `table`
has. -/
theorem Step.first_of_scanning (step : Step system events after)
    (numbered : ∀ no, (system.pool.store no).Numbered)
    (member : .scanning txn table pages ∈ events) :
  system.pool.pagesOf table = pages
    ∧ ∃ later, events = .scanning txn table pages :: later
      ∧ ∀ other more, .scanning txn other more ∉ later
  := by
  have unlearned : ∀ other table' round txn table pages,
      .scanning txn table pages ∉ Round.scanned other table' round := by
    intro other table' round txn table pages learned
    rcases round.scanned_cases other table' with none | ⟨found', one⟩
    · simp [none] at learned
    · simp [one] at learned
  rcases step.events_cases with plain | ⟨other, commits, result, rfl⟩
    | ⟨other, no, numbers, kept, listed, rfl⟩ | ⟨other, table', found', no, rest, round, -, -, rfl⟩
  · cases plain _ member
  · cases List.mem_singleton.mp member
  · rcases List.mem_cons.mp member with same | learned
    · cases same
      rw [Pool.pagesOf, kept, Store.pageNos_ok (numbered no) listed]
      exact ⟨by simp, _, rfl, unlearned _ _ _ txn⟩
    · cases unlearned _ _ _ _ _ _ learned
  · cases unlearned _ _ _ _ _ _ member

/-! ### Locks that are kept -/

/-- What may be done while `txn` keeps a lock on `page`. -/
def holding (page : PageId) (txn : TransactionId) : Pool.Freedom where
  relocks locks locks' := (locks.modeOf? page txn).isSome → (locks'.modeOf? page txn).isSome
  changes _ := True
  writes := True
  spoils := True

theorem holds_of_moves {pool after : Pool} (moves : Pool.Moves (holding page txn) pool after)
    (holds : (pool.locks.modeOf? page txn).isSome) :
  (after.locks.modeOf? page txn).isSome
  := by
  induction moves with
  | refl => apply holds
  | tail _ move ih =>
    obtain same | allowed := move.locks_cases
    · rw [same]
      apply ih
    · apply allowed ih

theorem holds_request {locks : LockTable} (place : PageId) (other : TransactionId)
    (mode : LockMode) (holds : (locks.modeOf? page txn).isSome) :
  ((locks.request place other mode).2.modeOf? page txn).isSome
  := by
  by_cases own : page = place ∧ txn = other
  · obtain ⟨rfl, rfl⟩ := own
    obtain ⟨held, eq⟩ := Option.isSome_iff_exists.mp holds
    obtain ⟨kept, holds', -⟩ : ∃ kept,
        (locks.request page txn mode).2.modeOf? page txn = some kept
          ∧ kept.satisfies held = true :=
      locks.modeOf?_request_of_held eq
    apply Option.isSome_of_mem holds'
  · rw [LockTable.modeOf?_request_of_ne _ _ own]
    apply holds

/-- `txn` keeps its lock on `page` in a round of the call of `other`, be that `txn` itself. -/
theorem Mirrors.holds_round {other : TransactionId} {call : Call} (mirrors : system.Mirrors spaces)
    (tidy : system.pool.Tidy) (under : system.doing other = .calling call)
    (holds : (system.pool.locks.modeOf? page txn).isSome) :
  ((call.round other system.pool).2.locks.modeOf? page txn).isSome
  := by
  have suits := mirrors.suits other
  rw [under] at suits
  have moves : Pool.Moves (holding page txn) system.pool (call.round other system.pool).2 := by
    apply Call.moves_round tidy (marks_of_suits suits) trivial
    · intro place mode
      apply holds_request place other mode
    · rintro no tuple pageNo rest rfl locks rfl holds'
      obtain ⟨-, free⟩ := suits
      rw [LockTable.modeOf?_release, if_neg]
      · apply holds'
      · rintro ⟨rfl, rfl⟩
        rw [free rfl] at holds
        cases holds
    · intro _
      trivial
  apply holds_of_moves moves holds

/-- `txn` keeps its lock on `page` in a `step` in which it does not end. -/
theorem Mirrors.holds (mirrors : system.Mirrors spaces) (tidy : system.pool.Tidy)
    (step : Step system events after)
    (unended : ∀ commits result, .ended txn commits result ∉ events)
    (holds : (system.pool.locks.modeOf? page txn).isSome) :
  (after.pool.locks.modeOf? page txn).isSome
  := by
  have idle : ∀ other, ¬ PoolService.settling.changes other := fun _ => id
  cases step with
  | @enter other request round pool free served eq =>
    have moves : Pool.Moves (holding page txn) system.pool (request.enter other system.pool).2 :=
      Request.moves_enter other served
    rw [eq] at moves
    apply holds_of_moves moves holds
  | @round other call round pool under eq =>
    have kept := mirrors.holds_round tidy under holds
    rw [eq] at kept
    apply kept
  | edit => apply holds
  | @mark other copy place edits pool hand eq
  | @unmarked other copy place edits failure pool hand eq =>
    have suits := mirrors.suits other
    rw [hand] at suits
    have moves : Pool.Moves (holding page txn) system.pool (system.pool.markDirty other copy).2 :=
      Pool.moves_markDirty tidy trivial suits.allocated
    rw [eq] at moves
    apply holds_of_moves moves holds
  | @complete other commits result pool free eq =>
    have distinct : txn ≠ other := by
      rintro rfl
      apply unended commits result
      simp
    obtain ⟨settled, moves, ⟨fault, eq'⟩ | ⟨-, eq', -⟩⟩ :=
      Pool.moves_complete tidy idle other commits fun _ => trivial
    · cases eq.symm.trans eq'
      rw [pool_moved, Pool.locks_of_moves moves fun _ _ => id]
      apply holds
    · rw [eq] at eq'
      obtain rfl : pool = settled.releaseAll other := eq'
      have locks : settled.locks = system.pool.locks := Pool.locks_of_moves moves fun _ _ => id
      have modes : (settled.releaseAll other).locks.modeOf? page txn
          = if txn = other then none else settled.locks.modeOf? page txn := by
        apply LockTable.Sound.modeOf?_releaseAll
        rw [locks]
        apply mirrors.faithful.sound
      rw [pool_moved, modes, if_neg distinct, locks]
      apply holds
  | disrupt => apply holds

/-- What `txn` sees of a `page` that it holds stays in a `step` in which it alters nothing. -/
theorem Mirrors.view_of_step {spaces' : Workspaces} (mirrors : system.Mirrors spaces)
    (step : Step system events after) (run : spaces.Run events spaces')
    (unaltered : ∀ event ∈ events, ¬ event.alters txn)
    (holds : (system.pool.locks.modeOf? page txn).isSome) (seen : (spaces.view txn page).isSome) :
  spaces'.view txn page = spaces.view txn page
  := by
  by_cases ends : ∃ other commits result, .ended other commits result ∈ events
  · obtain ⟨other, commits, result, ended⟩ := ends
    have distinct : other ≠ txn := fun same => unaltered _ ended same
    obtain rfl := step.eq_of_ended ended
    cases run with
    | step first rest =>
      cases rest
      apply first.view_eq (unaltered _ List.mem_cons_self) seen
      rintro other' commits' result' ⟨⟩
      -- Who ends has not changed a page that another transaction holds.
      apply mirrors.faithful.overlay_eq_none holds distinct
  · apply run.view_eq unaltered _ seen
    intro other commits result ended
    apply ends ⟨other, commits, result, ended⟩

/-- No `table` loses pages in a `step`. -/
theorem Mirrors.pagesOf_le (mirrors : system.Mirrors spaces) (tidy : system.pool.Tidy)
    (step : Step system events after) (table : TableId) :
  system.pool.pagesOf table ≤ after.pool.pagesOf table
  := by
  rw [Pool.pagesOf, Pool.pagesOf, (mirrors.sameTables tidy step).catalog]
  cases system.pool.catalog.get? table with
  | none => apply Nat.le_refl
  | some no => apply step.grows

/-! ### What a scan has found -/

/-- What is noted of the last scan of `txn` is as before a `step`, or has as many pages as
`table`. -/
theorem Step.scans_cases {spaces' : Workspaces} {more : Nat} (step : Step system events after)
    (numbered : ∀ no, (system.pool.store no).Numbered) (run : spaces.Run events spaces')
    (noted : spaces'.scans txn = some (table, more)) :
  spaces.scans txn = some (table, more) ∨ system.pool.pagesOf table = more
  := by
  by_cases begins : ∃ other pages, .scanning txn other pages ∈ events
  · right
    obtain ⟨other, fresh, begun⟩ := begins
    obtain ⟨all, later, rfl, same⟩ := step.first_of_scanning numbered begun
    cases noted.symm.trans (run.scans_of_scanning same)
    apply all
  · left
    rw [← noted]
    symm
    apply run.scans_eq
    intro other pages begun
    apply begins ⟨other, pages, begun⟩

/-- Whether `system` `Mirrors` the workspaces and tells how many pages there are to scan. -/
structure Tracks (system : System) (spaces : Workspaces) : Prop where
  mirrors : system.Mirrors spaces
  tidy : system.pool.Tidy
  within : ∀ txn table pages, spaces.scans txn = some (table, pages) →
    pages ≤ system.pool.pagesOf table

/-- Workspaces are tracked through every step. -/
theorem Tracks.step (tracks : system.Tracks spaces) (step : Step system events after)
    (numbered : ∀ no, (after.pool.store no).Numbered) :
  ∃ spaces', spaces.Run events spaces' ∧ after.Tracks spaces'
  := by
  obtain ⟨mirrors, tidy, within⟩ := tracks
  obtain ⟨spaces', run, mirrors'⟩ := mirrors.step step numbered
  refine ⟨spaces', run, mirrors', mirrors.tidy tidy step, ?_⟩
  intro txn table pages noted
  apply Nat.le_trans _ (mirrors.pagesOf_le tidy step table)
  rcases step.scans_cases mirrors.faithful.well.numbered run noted with before | all
  · apply within txn table pages before
  · apply Nat.le_of_eq all.symm

/-- Whether `txn` still holds and sees what it `found` in the `pages` of `table`, and has begun no
scan of fewer pages since. -/
structure Found (system : System) (spaces : Workspaces) (txn : TransactionId) (table : TableId)
    (pages : Nat) (found : List Tuple) : Prop where
  holds : ∀ no ∈ Workspaces.pageNos pages, (system.pool.locks.modeOf? ⟨table, no⟩ txn).isSome
  sees : spaces.collect? txn table (Workspaces.pageNos pages) = some found
  within : pages ≤ system.pool.pagesOf table
  counted : ∀ more, spaces.scans txn = some (table, more) → pages ≤ more

/-- A transaction goes on to hold and see what it found while it changes nothing. -/
theorem Found.step {spaces' : Workspaces} (kept : system.Found spaces txn table pages found)
    (tracks : system.Tracks spaces) (step : Step system events after)
    (run : spaces.Run events spaces') (unaltered : ∀ event ∈ events, ¬ event.alters txn) :
  after.Found spaces' txn table pages found
  := by
  obtain ⟨mirrors, tidy, -⟩ := tracks
  obtain ⟨holds, sees, within, counted⟩ := kept
  have unended : ∀ commits result, .ended txn commits result ∉ events :=
    fun commits result member => unaltered _ member rfl
  have view : ∀ no ∈ Workspaces.pageNos pages,
      spaces'.view txn ⟨table, no⟩ = spaces.view txn ⟨table, no⟩ := by
    intro no member
    apply mirrors.view_of_step step run unaltered (holds no member)
    apply Workspaces.view_isSome sees no member
  refine ⟨?_, ?_, Nat.le_trans within (mirrors.pagesOf_le tidy step table), ?_⟩
  · intro no member
    apply mirrors.holds tidy step unended (holds no member)
  · rw [Workspaces.collect?_congr view, sees]
  · intro more noted
    rcases step.scans_cases mirrors.faithful.well.numbered run noted with before | all
    · apply counted more before
    · rw [← all]
      apply within

/-- When its scan of `table` ends, `txn` holds all `pages` of which the scan was told. -/
theorem Mirrors.holds_scanned (mirrors : system.Mirrors spaces) {no : PageNo} {rest : List PageNo}
    {round : Round} {pool : Pool} (under : system.doing txn = .calling (.scan table found no rest))
    (eq : (Call.scan table found no rest).round txn system.pool = (round, pool))
    (ends : round.scanned txn table ≠ []) (begun : spaces.scans txn = some (table, pages)) :
  ∀ no ∈ Workspaces.pageNos pages, (pool.locks.modeOf? ⟨table, no⟩ txn).isSome
  := by
  have suits := mirrors.suits txn
  rw [under] at suits
  obtain ⟨done, pages', begun', all, -, locked⟩ := suits
  cases begun.symm.trans begun'
  obtain ⟨after, -, -, elsewhere, kept, fetched⟩ := mirrors.fetch_cases under ⟨table, no⟩ .readOnly
  simp only [Call.round] at eq
  rcases fetched with ⟨answer, -⟩ | ⟨failure, answer⟩ | ⟨frame, held, answer, -, holds, -⟩
  · rw [answer] at eq
    cases eq
    cases ends rfl
  · rw [answer] at eq
    cases eq
    cases ends rfl
  · rw [answer] at eq
    dsimp only at eq
    cases records : SlottedPage.records (after.copy frame.copy).bytes with
    | error fault =>
      rw [records] at eq
      cases eq
      cases ends rfl
    | ok more =>
      rw [records] at eq
      cases eq
      cases rest with
      | cons next rest => cases ends rfl
      | nil =>
        rw [← all]
        intro other member
        by_cases here : other = no
        · rw [here]
          apply Option.isSome_of_mem holds
        · rw [elsewhere _ (by simpa using here)]
          apply locked
          simpa [here] using member

/-- When its scan ends, `txn` has `Found` what it sees in pages that it holds. -/
theorem Tracks.found_of_scanned {spaces' : Workspaces} {earlier : List Event}
    (tracks : system.Tracks spaces)
    (step : Step system (earlier ++ [.scanned txn table found]) after)
    (run : spaces.Run (earlier ++ [.scanned txn table found]) spaces')
    (tracks' : after.Tracks spaces') (begun : spaces'.scans txn = some (table, pages)) :
  after.Found spaces' txn table pages found
  := by
  have sees : spaces'.collect? txn table (Workspaces.pageNos pages) = some found := by
    obtain ⟨next, -, rest⟩ := run.split
    cases rest with
    | step last rest =>
      cases rest
      cases last with
      | scanned begun' seen =>
        cases begun.symm.trans begun'
        apply seen
  refine ⟨?_, sees, tracks'.within txn table pages begun, ?_⟩
  · have member : .scanned txn table found ∈ earlier ++ [.scanned txn table found] := by
      simp
    rcases step.events_cases with plain | ⟨other, commits, result, eq⟩
      | ⟨other, no, numbers, kept, listed, eq⟩
      | ⟨other, table', found', no, rest, round, under, eq, told⟩
    · cases plain _ member
    · rw [eq] at member
      cases List.mem_singleton.mp member
    · -- No page is scanned where a scan ends as it begins.
      rw [eq] at member
      have learned := (List.mem_cons.mp member).resolve_left nofun
      cases numbers with
      | cons no rest => cases learned
      | nil =>
        cases List.mem_singleton.mp learned
        rw [eq] at run
        have none := run.scans_of_scanning (by simp [Call.enterScan, Round.scanned, Outcome.answer])
        cases begun.symm.trans none
        intro no member
        cases member
    · have ends : round.scanned other table' ≠ [] := by
        rw [← told]
        simp
      have same : .scanned txn table found ∈ round.scanned other table' := told ▸ member
      rcases round.scanned_cases other table' with nothing | ⟨found'', one⟩
      · cases ends nothing
      · rw [one] at same
        cases List.mem_singleton.mp same
        apply tracks.mirrors.holds_scanned under eq ends
        rw [← begun, ← run.scans_eq]
        rw [told, one]
        simp
  · intro more noted
    cases begun.symm.trans noted
    apply Nat.le_refl

/-! ### Runs -/

/-- A `run` in which a scan ends goes up to that step, and on from there. -/
theorem Run.cut {start : System} {told earlier later : List Event} (run : start.Run told last)
    (split : told = earlier ++ .scanned txn table found :: later) :
  ∃ system after before events, start.Run before system
    ∧ Step system (events ++ [.scanned txn table found]) after ∧ earlier = before ++ events
    ∧ after.Run later last
  := by
  induction run generalizing later with
  | start => simp at split
  | @step before events system after run step ih =>
    rcases List.append_eq_append_iff.mp split with ⟨rest, rfl, here⟩ | ⟨rest, there, eq⟩
    · obtain rfl := step.last_of_scanned here
      rw [here] at step
      exact ⟨system, after, before, rest, run, step, rfl, .start⟩
    · cases rest with
      | nil =>
        have here : events = [] ++ .scanned txn table found :: later := eq.symm
        obtain rfl := step.last_of_scanned here
        rw [here] at step
        exact ⟨system, after, before, [], run, step, by simp [there], .start⟩
      | cons event rest =>
        obtain ⟨rfl, rfl⟩ := List.cons.inj eq
        obtain ⟨system', after', before', events', run', step', split', rest'⟩ := ih there
        exact ⟨system', after', before', events', run', step', split', rest'.step step⟩

/-- Workspaces that a system `Tracks` are tracked through every `run` that leaves the stores
`Numbered`. -/
theorem Tracks.run (tracks : system.Tracks spaces) (run : system.Run events last)
    (numbered : ∀ no, (last.pool.store no).Numbered) :
  ∃ spaces', spaces.Run events spaces' ∧ last.Tracks spaces'
  := by
  induction run with
  | start => exact ⟨spaces, .stop spaces, tracks⟩
  | step _ step ih =>
    obtain ⟨spaces', run, tracks'⟩ := ih (step.grows.numbered numbered)
    obtain ⟨spaces'', run', tracks''⟩ := tracks'.step step numbered
    exact ⟨spaces'', run.append run', tracks''⟩

/-- What `txn` has `Found` stays so in a `run` in which it alters nothing. -/
theorem Found.run {spaces' : Workspaces} (kept : system.Found spaces txn table pages found)
    (tracks : system.Tracks spaces) (run : system.Run events last)
    (followed : spaces.Run events spaces') (numbered : ∀ no, (last.pool.store no).Numbered)
    (unaltered : ∀ event ∈ events, ¬ event.alters txn) :
  last.Found spaces' txn table pages found
  := by
  induction run generalizing spaces' with
  | start =>
    cases followed
    apply kept
  | step before step ih =>
    simp only [List.mem_append, or_imp, forall_and] at unaltered
    have numbered' := step.grows.numbered numbered
    obtain ⟨middle, followed', tracks'⟩ := tracks.run before numbered'
    obtain ⟨middle', first, rest⟩ := followed.split
    cases followed'.unique first
    apply (ih first numbered' unaltered.1).step tracks' step rest unaltered.2

/-- A system that starts on a pool that `create` returns `Tracks` the workspaces of what is
stored. -/
theorem tracks_start {config : PoolConfig} {catalog : Registry TableId StoreNo}
    {stores : Array Store} {pool : Pool}
    (created : Pool.create config catalog stores = .ok pool) (well : pool.WellStored) :
  (start pool).Tracks (.initial pool.stored)
  where
  mirrors := mirrors_start created well
  tidy := Pool.tidy_create created
  within := nofun

/-- Where every store is `Numbered`, no `table` has more than `UInt32.size` pages. -/
theorem pagesOf_le_size {pool : Pool} (numbered : ∀ no, (pool.store no).Numbered)
    (table : TableId) :
  pool.pagesOf table ≤ UInt32.size
  := by
  unfold Pool.pagesOf
  cases pool.catalog.get? table with
  | none => apply Nat.zero_le
  | some no => apply Nat.le_of_lt (numbered no)

/-- A `tuple` that is collected in the `more` pages after `pages` is in a page that was appended in
`events`. -/
theorem grown_of_collected {spaces' : Workspaces} (rooted : spaces.Rooted)
    (run : spaces.Run (.scanning txn table pages :: events) spaces') {more : Nat}
    (numbered : pages + more ≤ UInt32.size) {further : List Tuple}
    (collected : spaces'.collect? txn table
        ((List.range more).map fun i => UInt32.ofNat (pages + i))
      = some further) {tuple : Tuple} (member : tuple ∈ further) :
  ∃ record, tuple.record = some record ∧ record.page.table = table
    ∧ pages ≤ record.page.no.toNat ∧ ∃ bytes, .grown record.page bytes ∈ events
  := by
  obtain ⟨record, named, inside, among, seen⟩ := Workspaces.record_of_collected collected member
  obtain ⟨i, bound, eq⟩ := List.mem_map.mp among
  have bound := List.mem_range.mp bound
  have beyond : record.page.no.toNat = pages + i := by
    rw [← eq, UInt32.toNat_ofNat_of_lt']
    omega
  refine ⟨record, named, inside, by omega, ?_⟩
  by_contra ungrown
  have ungrown := not_exists.mp ungrown
  have missing : spaces.committed record.page = none := by
    cases run with
    | step first rest =>
      cases first with
      | scanning all =>
        by_contra present
        have short := all record.page.no
        rw [← inside] at short
        have short := short (Option.isSome_iff_ne_none.mpr present)
        omega
  have missing' := run.committed_eq_none rooted missing (by simpa using ungrown)
  have committed := (rooted.run run).committed_of_view seen
  simp [missing'] at committed

/-- What a transaction finds in a scan of `table`, when it has altered nothing since an earlier
scan of `table`, begins with what it found then.  Anything else is in pages that were appended to
`table` after the earlier scan had counted the pages, so where none is appended the transaction
finds the same. -/
theorem Run.scans_repeat {config : PoolConfig} {catalog : Registry TableId StoreNo}
    {stores : Array Store} {pool : Pool}
    (created : Pool.create config catalog stores = .ok pool) (well : pool.WellStored)
    {before during between rest : List Event} {found' : List Tuple}
    (run : (System.start pool).Run (before ++ .scanning txn table pages :: (during
      ++ .scanned txn table found :: (between ++ .scanned txn table found' :: rest))) last)
    (numbered : ∀ no, (last.pool.store no).Numbered)
    (same : ∀ other more, .scanning txn other more ∉ during)
    (unaltered : ∀ event ∈ between, ¬ event.alters txn) :
  (∃ more, found' = found ++ more ∧ ∀ tuple ∈ more, ∃ record, tuple.record = some record
      ∧ record.page.table = table ∧ pages ≤ record.page.no.toNat
      ∧ ∃ bytes, .grown record.page bytes ∈ during ++ between)
    ∧ ((∀ page bytes, page.table = table → .grown page bytes ∉ during ++ between) → found' = found)
  := by
  -- The run is cut where the scans end.
  have told : before ++ .scanning txn table pages :: (during
        ++ .scanned txn table found :: (between ++ .scanned txn table found' :: rest))
      = (before ++ .scanning txn table pages :: during)
        ++ .scanned txn table found :: (between ++ .scanned txn table found' :: rest) := by
    simp
  obtain ⟨system₁, system₂, early, here, run₁, step₁, split, rest₁⟩ := run.cut told
  obtain ⟨system₃, system₄, early', here', run₂, step₂, rfl, rest₂⟩ := rest₁.cut rfl
  have run₂ := run₂.step step₂
  have numbered₄ := rest₂.grows.numbered numbered
  have numbered₂ := run₂.grows.numbered numbered₄
  obtain ⟨spaces₁, followed₁, tracks₁⟩ :=
    (tracks_start created well).run run₁ (step₁.grows.numbered numbered₂)
  obtain ⟨spaces₂, followed₂, tracks₂⟩ := tracks₁.step step₁ numbered₂
  obtain ⟨spaces₄, followed₄, tracks₄⟩ := tracks₂.run run₂ numbered₄
  -- What the first scan has found is kept until the second one ends.
  have followed := followed₁.append followed₂
  rw [← List.append_assoc, ← split, List.append_assoc, List.cons_append] at followed
  obtain ⟨spaces₀, start, scan⟩ := followed.split
  have begun : spaces₂.scans txn = some (table, pages) := scan.scans_of_scanning
    (by simpa using same)
  have kept := (tracks₁.found_of_scanned step₁ followed₂ tracks₂ begun).run tracks₂ run₂ followed₄
    numbered₄ (by simpa [or_imp, forall_and, Event.alters] using unaltered)
  -- The second scan goes through those pages and maybe more.
  rw [← List.append_assoc] at followed₄
  obtain ⟨spaces₃, -, final⟩ := followed₄.split
  obtain ⟨all, begun', seen⟩ : ∃ all, spaces₄.scans txn = some (table, all)
      ∧ spaces₄.collect? txn table (Workspaces.pageNos all) = some found' := by
    cases final with
    | step last rest =>
      cases rest
      cases last with
      | scanned begun' seen => exact ⟨_, begun', seen⟩
  obtain ⟨more, rfl⟩ := Nat.exists_eq_add_of_le (kept.counted all begun')
  rw [Workspaces.pageNos_add] at seen
  obtain ⟨first, further, sees, beyond, rfl⟩ := Workspaces.collect?_append seen
  cases kept.sees.symm.trans sees
  have few : pages + more ≤ UInt32.size :=
    Nat.le_trans (tracks₄.within txn table _ begun') (pagesOf_le_size numbered₄ table)
  have rooted : spaces₀.Rooted := Workspaces.rooted_initial pool.stored |>.run start
  have grown : ∀ tuple ∈ further, ∃ record, tuple.record = some record
      ∧ record.page.table = table ∧ pages ≤ record.page.no.toNat
      ∧ ∃ bytes, .grown record.page bytes ∈ during ++ (early' ++ here') := by
    intro tuple member
    obtain ⟨record, named, inside, bound, bytes, appended⟩ :=
      grown_of_collected rooted (scan.append followed₄) few beyond member
    exact ⟨record, named, inside, bound, bytes, by simpa using appended⟩
  refine ⟨⟨further, rfl, grown⟩, ?_⟩
  intro none
  cases further with
  | nil => apply List.append_nil
  | cons tuple further =>
    obtain ⟨record, -, inside, -, bytes, appended⟩ := grown tuple List.mem_cons_self
    cases none record.page bytes inside appended

/-! ### A run -/

/-- `noPagesCommitted` after another transaction has scanned the table. -/
def noPagesScanned : Pool :=
  { noPagesCommitted with locks := LockTable.empty.grant ⟨1, 0⟩ ⟨1⟩ .shared }

/-- The tuple that was inserted in `noPagesInserted`. -/
def insertedTuple : Tuple := ⟨some ⟨⟨1, 0⟩, 0⟩, [7]⟩

/-- What happens on `noPages` between the two scans. -/
def betweenScans : List Event :=
  [.grown ⟨1, 0⟩ emptyPage, .inserted ⟨0⟩ ⟨⟨1, 0⟩, 0⟩ [7], .ended ⟨0⟩ true (.ok ()),
    .scanning ⟨1⟩ 1 1]

/-- On `noPages`, transaction 1 scans a table without pages, and again after another one has
inserted a tuple. -/
theorem run_scans_noPages :
  ∃ system, system.pool = noPagesScanned
    ∧ (System.start noPages).Run ([] ++ .scanning ⟨1⟩ 1 0 :: ([] ++ .scanned ⟨1⟩ 1 []
      :: (betweenScans ++ .scanned ⟨1⟩ 1 [insertedTuple] :: []))) system
  := by
  have insert : (Request.insert 1 [7]).enter ⟨0⟩ noPages
    = (.grown ⟨1, 0⟩ (.place ⟨1, 0⟩ [7]), noPagesGrown) := rfl
  have place : (Call.place ⟨1, 0⟩ [7]).round ⟨0⟩ noPagesGrown
    = (.done { Outcome.answer (.inserted (some ⟨⟨1, 0⟩, 0⟩)) with record := some ⟨⟨1, 0⟩, 0⟩ },
      noPagesInserted) := rfl
  have complete : noPagesInserted.complete ⟨0⟩ true = (.ok (), noPagesCommitted) := rfl
  have scan : (Call.scan 1 [] 0 []).round ⟨1⟩ noPagesCommitted
    = (.done (.answer (.tuples [⟨some ⟨⟨1, 0⟩, 0⟩, [7]⟩])), noPagesScanned) := rfl
  have served : noPages.serves (.insert 1 [7]) := serves_insert_of_one_table rfl rfl _ _
  have first := Run.start.step
    (@Step.enter (System.start noPages) ⟨1⟩ (.scan 0) _ _ trivial rfl rfl)
  have grown := first.step (@Step.enter _ ⟨0⟩ (.insert 1 [7]) _ _ trivial served insert)
  have inserted := grown.step (@Step.round _ ⟨0⟩ (.place ⟨1, 0⟩ [7]) _ _ rfl place)
  have ended := inserted.step (@Step.complete _ ⟨0⟩ true _ _ trivial complete)
  have again := ended.step (@Step.enter _ ⟨1⟩ (.scan 0) _ _ trivial rfl rfl)
  have scanned := again.step (@Step.round _ ⟨1⟩ (.scan 1 [] 0 []) _ _ rfl scan)
  exact ⟨_, rfl, scanned⟩

theorem unaltered_betweenScans :
  ∀ event ∈ betweenScans, ¬ event.alters ⟨1⟩
  := by
  simp [betweenScans, Event.alters]

theorem scans_repeat_noPages :
  ∃ system, (System.start noPages).Run ([] ++ .scanning ⟨1⟩ 1 0 :: ([] ++ .scanned ⟨1⟩ 1 []
      :: (betweenScans ++ .scanned ⟨1⟩ 1 [insertedTuple] :: []))) system
    ∧ ∃ more, [insertedTuple] = [] ++ more ∧ ∀ tuple ∈ more, ∃ record,
        tuple.record = some record ∧ record.page.table = 1 ∧ 0 ≤ record.page.no.toNat
        ∧ ∃ bytes, .grown record.page bytes ∈ [] ++ betweenScans
  := by
  obtain ⟨system, pool, run⟩ := run_scans_noPages
  have created : Pool.create noPages.config noPages.catalog noPages.stores = .ok noPages := rfl
  have numbered : ∀ no, (system.pool.store no).Numbered :=
    pool ▸ numbered_of_one_store rfl (by decide)
  have repeated := Run.scans_repeat created wellStored_noPages run numbered
    (fun _ _ => List.not_mem_nil) unaltered_betweenScans
  exact ⟨system, run, repeated.1⟩

/-- On `noPages`, transaction 1 alters nothing between two scans, and finds a tuple that it did not
find before. -/
theorem scans_differ_noPages :
  ∃ (system : System) (between : List Event) (found found' : List Tuple),
    (System.start noPages).Run (.scanning ⟨1⟩ 1 0 :: .scanned ⟨1⟩ 1 found
      :: (between ++ [.scanned ⟨1⟩ 1 found'])) system
    ∧ (∀ event ∈ between, ¬ event.alters ⟨1⟩) ∧ found' ≠ found
  := by
  obtain ⟨system, -, run⟩ := run_scans_noPages
  exact ⟨system, betweenScans, [], [insertedTuple], run, unaltered_betweenScans, nofun⟩

end System

end StorageEngine

import StorageEngine.Proofs.System.NoSteal

/-!
# Owners of changed pages

Transactions fetch and mark pages, insert and delete tuples, scan tables and end, one call at a time
each, while the stores may fail to read and to write.  Who has changed a page that is cached and not
stored yet has the page locked exclusively (`PoolService.Guarded`), so nobody else is handed what
may still be undone.

A commit that cannot store a page is the exception: it ends its transaction and releases the page,
which stays in the cache as it was changed.  So whoever fetches the page next is handed changes that
were never committed (`PoolService.unguarded_after_failed_commit`); but no page is left in any other
way (`PoolService.owner_or_left`).
-/

namespace StorageEngine

/-! ### Locks -/

namespace LockTable

variable {locks middle after : LockTable} {page : PageId} {txn : TransactionId} {mode : LockMode}

/-- Whether what `txn` has done to `locks` leaves those of others, and its own exclusive ones. -/
structure Keeps (txn : TransactionId) (locks after : LockTable) : Prop where
  sound : locks.Sound → after.Sound
  own : ∀ page, locks.modeOf? page txn = some .exclusive → after.modeOf? page txn = some .exclusive
  others : ∀ page other, other ≠ txn → after.modeOf? page other = locks.modeOf? page other

theorem Keeps.refl (txn : TransactionId) (locks : LockTable) :
  locks.Keeps txn locks
  := ⟨id, fun _ => id, fun _ _ _ => rfl⟩

theorem Keeps.trans (first : locks.Keeps txn middle) (second : middle.Keeps txn after) :
  locks.Keeps txn after
  where
  sound := second.sound ∘ first.sound
  own page := second.own page ∘ first.own page
  others page other distinct :=
    (second.others page other distinct).trans (first.others page other distinct)

/-- An exclusive lock on `page` is kept, whether `txn` or an `other` transaction holds it. -/
theorem Keeps.exclusive (keeps : locks.Keeps txn after) {other : TransactionId}
    (exclusive : locks.modeOf? page other = some .exclusive) :
  after.modeOf? page other = some .exclusive
  := by
  by_cases mine : other = txn
  · subst mine
    apply keeps.own page exclusive
  · rw [keeps.others page other mine, exclusive]

theorem keeps_request (locks : LockTable) (page : PageId) (txn : TransactionId)
    (mode : LockMode) :
  locks.Keeps txn (locks.request page txn mode).2
  where
  sound sound := sound.request
  own other exclusive := by
    by_cases here : other = page
    · subst here
      obtain ⟨kept, holds, covers⟩ := locks.modeOf?_request_of_held exclusive
      cases kept with
      | shared => cases covers
      | exclusive => apply holds
    · rw [modeOf?_request_of_ne _ _ (by tauto), exclusive]
  others other holder distinct := modeOf?_request_of_ne _ _ (by tauto)

/-- To release a lock of `txn` that is not exclusive satisfies `Keeps txn`. -/
theorem keeps_release (shared : locks.modeOf? page txn ≠ some .exclusive) :
  locks.Keeps txn (locks.release page txn)
  where
  sound sound := sound.release page txn
  own other exclusive := by
    rw [modeOf?_release, if_neg, exclusive]
    rintro ⟨rfl, -⟩
    apply shared exclusive
  others other holder distinct := by
    rw [modeOf?_release, if_neg (by tauto)]

/-- A request for a shared lock by a `txn` that has none on `page` does not give it an exclusive
one. -/
theorem modeOf?_request_shared (unheld : locks.modeOf? page txn = none) :
  (locks.request page txn .shared).2.modeOf? page txn ≠ some .exclusive
  := by
  rcases locks.request_cases page txn .shared with ⟨-, eq⟩ | ⟨-, -, eq⟩ | ⟨-, -, eq⟩
  · rw [eq, modeOf?_grant, if_pos ⟨rfl, rfl⟩, unheld]
    nofun
  · rw [eq, modeOf?_deny, unheld]
    nofun
  · rw [eq, modeOf?_clearWaits, modeOf?_deny, unheld]
    nofun

end LockTable

/-! ### Calls under way -/

/-- What holds of a call of `txn` that is under way: it marks whatever it changes, and knows if
`txn` had no lock before on the page where it looks for room. -/
def Call.Proper (pool : Pool) (txn : TransactionId) : Call → Prop
  | .probe no _ pageNo alreadyHeld _ =>
    alreadyHeld = false → pool.locks.modeOf? ⟨(pool.store no).table, pageNo⟩ txn = none
  | call => call.marks

namespace Call

variable {pool after : Pool} {txn : TransactionId} {call next : Call} {round : Round}

theorem Proper.marks (proper : call.Proper pool txn) :
  call.marks
  := by
  cases call with
  | probe => trivial
  | _ => apply proper

/-- A `call` stays `Proper` in a pool where `txn` has the same locks and the stores have the same
tables. -/
theorem Proper.of_modes (proper : call.Proper pool txn)
    (modes : ∀ page, after.locks.modeOf? page txn = pool.locks.modeOf? page txn)
    (tables : ∀ no, (after.store no).table = (pool.store no).table) :
  call.Proper after txn
  := by
  cases call with
  | probe no tuple pageNo alreadyHeld rest =>
    intro unknown
    rw [modes, tables]
    apply proper unknown
  | _ => apply proper

/-- A call that fails leads to no `next` call. -/
theorem leadsTo_failure (failure : Failure PoolError) (record : Option RecordId) :
  (Round.done { Outcome.failure failure with record }).leadsTo ≠ .calling next
  := by
  cases failure with
  | error cause => nofun
  | fault fault => nofun

/-- The `next` call of what goes on to look for room is `Proper`: it knows which locks `txn` has. -/
theorem proper_entering {no : StoreNo} {tuple : Bytes} {rest : List PageNo} {round : Round}
    (entering : Entering txn no tuple pool rest round after)
    (goes : round.leadsTo = .calling next) :
  next.Proper after txn
  := by
  cases entering with
  | refused => exact absurd goes (leadsTo_failure _ none)
  | grown =>
    cases goes
    trivial
  | next pageNo =>
    cases goes
    intro unheld
    have free : pool.locks.modeOf? ⟨(pool.store no).table, pageNo⟩ txn = none := by
      simpa [Pool.holdsLock, LockTable.holds] using unheld
    apply free

theorem proper_probe {no : StoreNo} {tuple : Bytes} {pageNo : PageNo} {alreadyHeld : Bool}
    {rest : List PageNo} (proper : (probe no tuple pageNo alreadyHeld rest).Proper pool txn)
    (goes : ((probe no tuple pageNo alreadyHeld rest).round txn pool).1.leadsTo = .calling next) :
  next.Proper ((probe no tuple pageNo alreadyHeld rest).round txn pool).2 txn
  := by
  have waiting : (pool.fetch txn ⟨(pool.store no).table, pageNo⟩ .readOnly).1 = .waiting → _ :=
    Pool.fetch_waiting
  rcases eq : (probe no tuple pageNo alreadyHeld rest).round txn pool with ⟨round, after⟩
  rw [eq] at goes
  cases Probing.of_round eq with
  | waiting fetched =>
    rw [fetched] at waiting
    obtain ⟨waits, rfl⟩ := waiting rfl
    cases goes
    intro unknown
    apply (LockTable.modeOf?_request_of_waiting _ _ _ _ waits).trans (proper unknown)
  | failed => exact absurd goes (leadsTo_failure _ none)
  | broken => cases goes
  | roomy =>
    cases goes
    trivial
  | full _ _ entering => exact proper_entering entering goes

theorem proper_scan {table : TableId} {found : List Tuple} {no : PageNo} {rest : List PageNo}
    (goes : ((scan table found no rest).round txn pool).1.leadsTo = .calling next) :
  next.Proper after txn
  := by
  rcases eq : (scan table found no rest).round txn pool with ⟨round, last⟩
  rw [eq] at goes
  cases Listing.of_round eq with
  | waiting =>
    cases goes
    trivial
  | failed => exact absurd goes (leadsTo_failure _ none)
  | broken => cases goes
  | listed =>
    cases rest with
    | nil => cases goes
    | cons no rest =>
      cases goes
      trivial

/-- The `next` call after a round of a `Proper` one is `Proper`. -/
theorem proper_round (proper : call.Proper pool txn)
    (goes : (call.round txn pool).1.leadsTo = .calling next) :
  next.Proper (call.round txn pool).2 txn
  := by
  cases call with
  | probe => apply proper_probe proper goes
  | scan => apply proper_scan goes
  | count => cases proper
  | lock page mode =>
    simp only [Call.round, run, runLock] at goes
    rcases verdict : pool.locks.request page txn mode with ⟨_ | _ | _, locks⟩
    · rw [verdict] at goes
      cases goes
    · rw [verdict] at goes
      cases goes
      trivial
    · rw [verdict] at goes
      cases goes
  | fetch page access =>
    simp only [Call.round, run, runFetch] at goes
    rcases fetched : pool.fetch txn page access with ⟨copy | _ | failure, after⟩
    · rw [fetched] at goes
      cases goes
    · rw [fetched] at goes
      cases goes
      trivial
    · rw [fetched] at goes
      exact absurd goes (leadsTo_failure failure none)
  | place page tuple =>
    simp only [Call.round, run] at goes
    rcases eq : runPlace txn page tuple pool with ⟨progress, last⟩
    rw [eq] at goes
    cases Placing.of_runPlace eq with
    | waiting =>
      cases goes
      trivial
    | failed => exact absurd goes (leadsTo_failure _ none)
    | fetched _ storing =>
      cases storing with
      | refused => exact absurd goes (leadsTo_failure _ none)
      | unmarked => exact absurd goes (leadsTo_failure _ _)
      | stored => cases goes
  | delete record marked =>
    simp only [Call.round, run] at goes
    rcases eq : runDelete txn record marked pool with ⟨progress, last⟩
    rw [eq] at goes
    cases Deleting.of_runDelete eq with
    | waiting =>
      cases goes
      apply proper
    | failed | refused | unmarked => exact absurd goes (leadsTo_failure _ none)
    | erased | deleted => cases goes

end Call

variable {pool after : Pool} {txn other : TransactionId} {page : PageId} {next : Call}

/-- The `next` call after a `request` that is served is `Proper`. -/
theorem Request.proper_enter {request : Request} (served : pool.serves request)
    (goes : (request.enter txn pool).1.leadsTo = .calling next) :
  next.Proper (request.enter txn pool).2 txn
  := by
  cases request with
  | lock page mode => cases served
  | fetch page access =>
    cases goes
    trivial
  | insert table tuple =>
    rcases eq : (insert table tuple).enter txn pool with ⟨round, after⟩
    rw [eq] at goes
    obtain ⟨failure, rfl, -⟩ | ⟨no, pages, -, entering⟩ := enter_insert_cases served eq
    · exact absurd goes (Call.leadsTo_failure failure none)
    · exact Call.proper_entering entering goes
  | delete record =>
    simp only [enter] at goes
    obtain ⟨failure, eq⟩ | ⟨record', -, eq⟩ := Call.enterDelete_cases record pool
    · rw [eq] at goes
      exact absurd goes (Call.leadsTo_failure failure none)
    · rw [eq] at goes
      cases goes
      rfl
  | erase store record => cases served
  | scan no =>
    simp only [enter] at goes ⊢
    cases numbers : (pool.store no).pageNos with
    | error failure =>
      rw [numbers] at goes
      exact absurd goes (Call.leadsTo_failure failure none)
    | ok pages =>
      rw [numbers] at goes
      cases pages with
      | nil => cases goes
      | cons no rest =>
        cases goes
        trivial

/-! ### The service of transactions -/

/-- The pages in the cache that `txn` has changed since they were last stored. -/
def Pool.changedBy (pool : Pool) (txn : TransactionId) : List PageId :=
  (pool.cache.frames.map Frame.page).filter fun page => pool.changer? page = some txn

theorem Pool.mem_changedBy_iff :
  page ∈ pool.changedBy txn ↔ pool.changer? page = some txn
  := by
  simp only [changedBy, List.mem_filter, decide_eq_true_eq, and_iff_right_iff_imp]
  intro changed
  obtain ⟨frame, found, -⟩ := changer?_eq_some_iff.mp changed
  rw [← Cache.page_of_frame? found]
  apply List.mem_map_of_mem (Cache.mem_of_frame? found)

/-- A pool and the transactions on it. -/
structure PoolService where
  pool : Pool
  /-- What each transaction that has not ended is in the midst of. -/
  doing : TransactionId → Option Activity
  /-- The pages that each transaction has left changed in the cache when it last ended, because they
  could not be stored. -/
  left : TransactionId → List PageId

namespace PoolService

/-- `pool`, on which no transaction has done anything. -/
def start (pool : Pool) : PoolService := ⟨pool, fun _ => none, fun _ => []⟩

/-- Whether no call of `txn` is under way. -/
def Free (service : PoolService) (txn : TransactionId) : Prop :=
  ∀ call, service.doing txn ≠ some (.calling call)

/-- `service` after `txn` has done something, which leaves `pool` and leads to `activity`. -/
def moved (service : PoolService) (txn : TransactionId) (pool : Pool) (activity : Activity) :
    PoolService :=
  { service with pool, doing := Function.update service.doing txn (some activity) }

/-- `service` after `txn` was told to end.  It has not ended if there was a fault. -/
def completed (service : PoolService) (txn : TransactionId) (commits : Bool) :
    PoolService :=
  match service.pool.complete txn commits with
  | (.error (.fault _), pool) => { service with pool }
  | (.error (.error _), pool) =>
    { pool
      doing := Function.update service.doing txn none
      left := Function.update service.left txn (if commits then pool.changedBy txn else []) }
  | (.ok (), pool) =>
    { pool
      doing := Function.update service.doing txn none
      left := Function.update service.left txn [] }

/-- The steps of `service`. -/
inductive Step (service : PoolService) : PoolService → Prop where
  /-- A transaction begins a call. -/
  | enter {txn : TransactionId} {request : Request} (free : service.Free txn)
      (served : service.pool.serves request) :
      Step service (service.moved txn (request.enter txn service.pool).2
        (request.enter txn service.pool).1.leadsTo)
  /-- A transaction goes on with its call, up to its next lock request. -/
  | round {txn : TransactionId} {call : Call} (under : service.doing txn = some (.calling call)) :
      Step service (service.moved txn (call.round txn service.pool).2
        (call.round txn service.pool).1.leadsTo)
  /-- A copy is overwritten. -/
  | edit (no : CopyNo) (bytes : Bytes) :
      Step service
        { service with pool := service.pool.setCopy no { service.pool.copy no with bytes } }
  /-- A transaction asks for a copy to be marked. -/
  | mark (txn : TransactionId) {no : CopyNo} (allocated : no < service.pool.copies.size) :
      Step service { service with pool := (service.pool.markDirty txn no).2 }
  /-- A transaction is told to end. -/
  | complete {txn : TransactionId} (free : service.Free txn) (commits : Bool) :
      Step service (service.completed txn commits)
  /-- A store is told which pages fail to be read and to be written, whether its pages fail to be
  counted, and how much of a page can be appended. -/
  | disrupt (no : StoreNo) (failingReads failingWrites : List PageNo)
      (failingCount : Bool := false) (appendLimit : Option Nat := none) :
      Step service
        { service with
          pool := service.pool.setStore no
            { service.pool.store no with
              failingReads, failingWrites, failingCount, appendLimit } }

/-! ### What steps keep -/

/-- Whether who has changed a cached page of `service` has it locked exclusively or has left it. -/
structure Guarded (service : PoolService) : Prop where
  tidy : service.pool.Tidy
  sound : service.pool.locks.Sound
  owned : ∀ page txn, service.pool.changer? page = some txn →
    service.pool.locks.modeOf? page txn = some .exclusive ∨ page ∈ service.left txn
  calls : ∀ txn call, service.doing txn = some (.calling call) → call.Proper service.pool txn
  ended : ∀ txn, service.doing txn = none → ∀ page, service.pool.locks.modeOf? page txn = none

end PoolService

namespace Pool

variable {may : Freedom}

/-- Moves that change locks only for a transaction keep those of others. -/
theorem keeps_of_moves (moves : Moves may pool after)
    (relocks : ∀ locks locks', may.relocks locks locks' → locks.Keeps txn locks') :
  pool.locks.Keeps txn after.locks
  := by
  induction moves with
  | refl => apply LockTable.Keeps.refl
  | tail _ move ih =>
    apply ih.trans
    obtain same | allowed := move.locks_cases
    · rw [same]
      apply LockTable.Keeps.refl
    · apply relocks _ _ allowed

/-- `moves` that may not change locks leave them. -/
theorem locks_of_moves (moves : Moves may pool after)
    (still : ∀ locks locks', ¬ may.relocks locks locks') :
  after.locks = pool.locks
  := by
  induction moves with
  | refl => rfl
  | tail _ move ih => rw [move.locks_cases.resolve_right (still _ _), ih]

/-- Where every changed page is locked exclusively by its changer or among those `left`, it is so
after `moves` that keep exclusive locks. -/
theorem Tidy.owned_of_moves (tidy : pool.Tidy) (txn : TransactionId)
    {left : TransactionId → List PageId}
    (owned : ∀ page other, pool.changer? page = some other →
      pool.locks.modeOf? page other = some .exclusive ∨ page ∈ left other)
    (moves : Moves may pool after)
    (relocks : ∀ locks locks', may.relocks locks locks' → locks.Keeps txn locks') (page : PageId)
    (other : TransactionId) (changed : after.changer? page = some other) :
  after.locks.modeOf? page other = some .exclusive ∨ page ∈ left other
  := by
  induction moves with
  | refl => apply owned page other changed
  | tail before move ih =>
    rcases (tidy.moves before).changer?_move move changed with changed | ⟨-, exclusive⟩
    · apply (ih changed).imp_left
      intro exclusive
      have keeps := keeps_of_moves (.single move) relocks
      apply keeps.exclusive exclusive
    · left
      apply exclusive

end Pool

namespace PoolService

variable {service after : PoolService} {may : Pool.Freedom} {pool : Pool} {activity : Activity}
  {settled : Pool}

/-- A service in which `txn` makes `moves`, whose locks satisfy `Keeps txn`, stays `Guarded`. -/
theorem Guarded.moved (guarded : service.Guarded) (moves : Pool.Moves may service.pool pool)
    (relocks : ∀ locks locks', may.relocks locks locks' → locks.Keeps txn locks')
    (proper : ∀ call, activity = .calling call → call.Proper pool txn) :
  (service.moved txn pool activity).Guarded
  := by
  have keeps := Pool.keeps_of_moves moves relocks
  refine ⟨guarded.tidy.moves moves, keeps.sound guarded.sound, ?_, ?_, ?_⟩
  · apply guarded.tidy.owned_of_moves txn guarded.owned moves relocks
  · intro other call under
    by_cases mine : other = txn
    · subst mine
      apply proper call
      simpa [PoolService.moved] using under
    · have under : service.doing other = some (.calling call) := by
        simpa [PoolService.moved, Function.update_of_ne mine] using under
      apply (guarded.calls other call under).of_modes
      · intro page
        apply keeps.others page other mine
      · apply (Pool.Moves.fixed moves).2.2
  · intro other ended page
    by_cases mine : other = txn
    · subst mine
      simp [PoolService.moved] at ended
    · have ended : service.doing other = none := by
        simpa [PoolService.moved, Function.update_of_ne mine] using ended
      apply (keeps.others page other mine).trans (guarded.ended other ended page)

/-- A service stays `Guarded` in `moves` that may not change locks. -/
theorem Guarded.still (guarded : service.Guarded) (moves : Pool.Moves may service.pool pool)
    (still : ∀ locks locks', ¬ may.relocks locks locks') :
  Guarded { service with pool }
  := by
  have locks := Pool.locks_of_moves moves still
  refine ⟨guarded.tidy.moves moves, ?_, ?_, ?_, ?_⟩
  · exact locks ▸ guarded.sound
  · intro page txn
    apply guarded.tidy.owned_of_moves txn guarded.owned moves
    intro locks locks' allowed
    cases still locks locks' allowed
  · intro txn call under
    apply (guarded.calls txn call under).of_modes
    · intro page
      exact locks ▸ rfl
    · apply (Pool.Moves.fixed moves).2.2
  · intro txn ended page
    exact locks ▸ guarded.ended txn ended page

/-- Other `bytes` in the copy `no` keep a service `Guarded`. -/
theorem Guarded.edit (guarded : service.Guarded) (no : CopyNo) (bytes : Bytes) :
  Guarded { service with pool := service.pool.setCopy no { service.pool.copy no with bytes } }
  := by
  refine ⟨guarded.tidy.edit no bytes, guarded.sound, ?_, ?_, guarded.ended⟩
  · intro page txn changed
    apply guarded.owned page txn
    rw [← Pool.changer?_edit, changed]
  · intro txn call under
    apply (guarded.calls txn call under).of_modes
    · intro page
      rfl
    · intro no
      rfl

/-- A service stays `Guarded` when `txn` ends and `pages` lists those that it leaves changed. -/
theorem Guarded.leave (guarded : service.Guarded) (moves : Pool.Moves may service.pool settled)
    (still : ∀ locks locks', ¬ may.relocks locks locks') (pages : List PageId)
    (listed : ∀ page, settled.changer? page = some txn → page ∈ pages) :
  Guarded
    { pool := settled.releaseAll txn
      doing := Function.update service.doing txn none
      left := Function.update service.left txn pages }
  := by
  have before := guarded.still moves still
  have modes : ∀ page other, (settled.releaseAll txn).locks.modeOf? page other
      = if other = txn then none else settled.locks.modeOf? page other :=
    fun page other => before.sound.modeOf?_releaseAll
  refine ⟨⟨before.tidy.capacity, before.tidy.bounded, before.tidy.distinct, before.tidy.framed⟩,
    before.sound.releaseAll, ?_, ?_, ?_⟩
  · intro page other changed
    by_cases mine : other = txn
    · right
      subst mine
      simpa using listed page changed
    · rw [modes, if_neg mine]
      simpa [Function.update_of_ne mine] using before.owned page other changed
  · intro other call under
    by_cases mine : other = txn
    · subst mine
      simp at under
    · have under : service.doing other = some (.calling call) := by
        simpa [Function.update_of_ne mine] using under
      apply (before.calls other call under).of_modes
      · intro page
        apply (modes page other).trans (if_neg mine)
      · intro no
        rfl
  · intro other ended page
    rw [modes]
    split
    · rfl
    · rename_i mine
      apply before.ended other
      simpa [Function.update_of_ne mine] using ended

/-- What may be done where a transaction ends. -/
def settling : Pool.Freedom where
  relocks _ _ := False
  changes _ := False
  writes := True
  spoils := False

/-- A transaction that ends leaves nothing changed but what it fails to store. -/
theorem Guarded.completed (guarded : service.Guarded) (txn : TransactionId) (commits : Bool) :
  (service.completed txn commits).Guarded
  := by
  have still : ∀ locks locks', ¬ settling.relocks locks locks' := fun _ _ => id
  have idle : ∀ other, ¬ settling.changes other := fun _ => id
  obtain ⟨settled, moves, ⟨fault, eq⟩ | ⟨faultless, released, clean⟩⟩ :=
    Pool.moves_complete guarded.tidy idle txn commits fun _ => trivial
  · simp only [PoolService.completed, eq]
    apply guarded.still moves still
  · unfold PoolService.completed
    rcases eq : service.pool.complete txn commits with ⟨(cause | fault) | _, after⟩
    · rw [eq] at released clean
      obtain rfl : after = settled.releaseAll txn := released
      apply guarded.leave moves still
      intro page changed
      cases commits with
      | true => exact Pool.mem_changedBy_iff.mpr changed
      | false => cases clean (.inl rfl) page changed
    · rw [eq] at faultless
      cases faultless fault rfl
    · rw [eq] at released clean
      obtain rfl : after = settled.releaseAll txn := released
      apply guarded.leave moves still
      intro page changed
      cases clean (.inr rfl) page changed

/-- What may be done where `txn` goes on with a call. -/
def calling (txn : TransactionId) : Pool.Freedom where
  relocks locks locks' := locks.Keeps txn locks'
  changes other := other = txn
  writes := False
  spoils := True

/-- A round of a call that is under way keeps all exclusive locks and writes to no store. -/
theorem Guarded.moves_round (guarded : service.Guarded) {call : Call}
    (under : service.doing txn = some (.calling call)) :
  Pool.Moves (calling txn) service.pool (call.round txn service.pool).2
  := by
  have proper := guarded.calls txn call under
  apply Call.moves_round guarded.tidy proper.marks rfl
  · intro page mode
    apply LockTable.keeps_request
  · rintro no tuple pageNo rest rfl locks rfl
    apply LockTable.keeps_release
    apply LockTable.modeOf?_request_shared
    apply proper rfl
  · intro _
    trivial

/-- A service stays `Guarded` in every `step`. -/
theorem Guarded.step (guarded : service.Guarded) (step : service.Step after) :
  after.Guarded
  := by
  cases step with
  | @enter txn request free served =>
    have moves : Pool.Moves (calling txn) service.pool (request.enter txn service.pool).2 :=
      Request.moves_enter txn served
    apply guarded.moved moves fun _ _ => id
    intro call goes
    apply Request.proper_enter served goes
  | @round txn call under =>
    apply guarded.moved (guarded.moves_round under) fun _ _ => id
    intro next goes
    apply Call.proper_round (guarded.calls txn call under) goes
  | edit no bytes => apply guarded.edit
  | mark txn allocated =>
    have moves : Pool.Moves { settling with changes := fun other => other = txn } service.pool _ :=
      Pool.moves_markDirty guarded.tidy rfl allocated
    apply guarded.still moves fun _ _ => id
  | complete free commits => apply guarded.completed
  | disrupt no failingReads failingWrites failingCount appendLimit =>
    have moves : Pool.Moves settling service.pool _ :=
      .single (.disrupt no failingReads failingWrites failingCount appendLimit)
    apply guarded.still moves fun _ _ => id

/-- A service that starts on a pool that `create` returns is `Guarded`: it has no changed pages. -/
theorem guarded_start {config : PoolConfig} {catalog : Registry TableId StoreNo}
    {stores : Array Store} (created : Pool.create config catalog stores = .ok pool) :
  (start pool).Guarded
  := by
  have tidy := Pool.tidy_create created
  obtain ⟨-, rfl⟩ := Pool.create_eq_ok created
  refine ⟨tidy, LockTable.sound_empty, ?_, ?_, ?_⟩
  · intro page txn changed
    cases changed
  · intro txn call under
    cases under
  · intro txn _ page
    rfl

theorem guarded_of_steps {config : PoolConfig} {catalog : Registry TableId StoreNo}
    {stores : Array Store} (created : Pool.create config catalog stores = .ok pool)
    (steps : Relation.ReflTransGen Step (start pool) service) :
  service.Guarded
  := by
  induction steps with
  | refl => apply guarded_start created
  | tail _ step ih => apply ih.step step

/-- If `txn` is handed a copy of `page` that an `other` transaction has dirtied, then `other` has
left it. -/
theorem Guarded.left_of_fetch (guarded : service.Guarded) {access : Access} {no : CopyNo}
    (answer : (service.pool.fetch txn page access).1 = .page no) (distinct : other ≠ txn)
    (dirtied : ((service.pool.fetch txn page access).2.copy no).dirtiedBy = some other) :
  page ∈ service.left other
  := by
  let may : Pool.Freedom := { calling txn with changes := fun _ => False }
  have keeps := service.pool.locks.keeps_request page txn access.lockMode
  have relocks : may.relocks service.pool.locks _ := keeps
  obtain ⟨moves, -, cached⟩ := Pool.moves_fetch guarded.tidy txn page access relocks
  obtain ⟨granted, frame, found, rfl⟩ := cached no answer
  have changed := Pool.changer?_eq_some_iff.mpr ⟨frame, found, dirtied⟩
  have before := guarded.tidy.changer?_moves (fun _ => id) moves changed
  apply (guarded.owned page other before).resolve_left
  intro exclusive
  obtain ⟨held, holds, -⟩ :=
    service.pool.locks.modeOf?_request_of_granted page txn access.lockMode granted
  have alone := PageLocks.modeOf?_of_exclusive ((keeps.sound guarded.sound).consistent page)
    (keeps.exclusive exclusive) distinct.symm
  cases alone.symm.trans holds

/-- Who has changed a page that is cached and not stored yet has it locked exclusively, or has
ended by a commit that could not store it, and `service.left` lists it.  Only a page that was left
like that is handed to another transaction with changes in it that are not stored, and once every
transaction has ended there are no other changed pages. -/
theorem owner_or_left {config : PoolConfig} {catalog : Registry TableId StoreNo}
    {stores : Array Store} (created : Pool.create config catalog stores = .ok pool)
    (steps : Relation.ReflTransGen Step (start pool) service) :
  (∀ page txn, service.pool.changer? page = some txn →
      service.pool.locks.modeOf? page txn = some .exclusive ∨ page ∈ service.left txn)
    ∧ (∀ txn page access no, (service.pool.fetch txn page access).1 = .page no →
        ∀ other, other ≠ txn →
          ((service.pool.fetch txn page access).2.copy no).dirtiedBy = some other →
          page ∈ service.left other)
    ∧ ((∀ txn, service.doing txn = none) →
        ∀ page txn, service.pool.changer? page = some txn → page ∈ service.left txn)
  := by
  have guarded := guarded_of_steps created steps
  refine ⟨guarded.owned, ?_, ?_⟩
  · intro txn page access no answer other distinct dirtied
    apply guarded.left_of_fetch answer distinct dirtied
  · intro ended page txn changed
    apply (guarded.owned page txn changed).resolve_left
    intro exclusive
    cases (guarded.ended txn (ended txn) page).symm.trans exclusive

/-! ### A commit that fails -/

/-- A service on `pool` in which one transaction does something. -/
def alone (pool : Pool) (activity : Option Activity) : PoolService :=
  ⟨pool, Function.update (fun _ => none) ⟨0⟩ activity, fun _ => []⟩

theorem moved_alone (pool after : Pool) (before : Option Activity) (activity : Activity) :
  (alone pool before).moved ⟨0⟩ after activity = alone after (some activity)
  := by
  simp only [PoolService.moved, alone, Function.update_idem]

/-- `roomTaken` where the store fails to write the page that is changed. -/
def roomFailing : Pool := Pool.roomTaken.perform (.disrupt 0 [] [0])

/-- `roomFailing` after the transaction has failed to commit. -/
def roomLeft : Pool := roomFailing.perform (.complete ⟨0⟩ true)

/-- A transaction fetches a page, changes it, and fails to commit. -/
theorem steps_roomLeft :
  ∃ service, Relation.ReflTransGen Step (start Pool.roomForOne) service
    ∧ service.pool = roomLeft ∧ ∀ txn, service.doing txn = none
  := by
  let call : Call := .fetch ⟨1, 0⟩ .readWrite
  have entered : Step (start Pool.roomForOne) (alone Pool.roomForOne (some (.calling call))) :=
    @Step.enter (start Pool.roomForOne) ⟨0⟩ (.fetch ⟨1, 0⟩ .readWrite) nofun trivial
  have fetched : Step (alone Pool.roomForOne (some (.calling call)))
      (alone (call.round ⟨0⟩ Pool.roomForOne).2 (some .idle)) := by
    have round := @Step.round (alone Pool.roomForOne (some (.calling call))) ⟨0⟩ call rfl
    rw [moved_alone] at round
    apply round
  have edited := @Step.edit (alone (call.round ⟨0⟩ Pool.roomForOne).2 (some .idle)) 0 [9, 2, 3, 4]
  have marked : Step _ (alone Pool.roomTaken (some .idle)) :=
    @Step.mark (alone _ (some .idle)) ⟨0⟩ 0 (by decide)
  have failing : Step _ (alone roomFailing (some .idle)) :=
    @Step.disrupt (alone Pool.roomTaken (some .idle)) 0 [] [0] false none
  have ended := @Step.complete (alone roomFailing (some .idle)) ⟨0⟩ nofun true
  have steps : Relation.ReflTransGen Step (start Pool.roomForOne) _ :=
    ((((Relation.ReflTransGen.single entered).tail fetched).tail edited).tail marked).tail failing
      |>.tail ended
  refine ⟨_, steps, rfl, ?_⟩
  intro txn
  have complete : roomFailing.complete ⟨0⟩ true
    = (.error (.error Store.injectedFailure), roomLeft) := rfl
  simp only [PoolService.completed, alone, complete, Function.update_idem]
  exact congrFun (Function.update_eq_self ..) txn

/-- A service on `roomForOne` in which the page stays changed and is handed to transaction 1,
though transaction 0, which has changed it, has no lock any more and every transaction has
ended. -/
theorem unguarded_after_failed_commit :
  ∃ service, Relation.ReflTransGen Step (start Pool.roomForOne) service
    ∧ (∀ txn, service.doing txn = none)
    ∧ service.pool.changer? ⟨1, 0⟩ = some ⟨0⟩
    ∧ service.pool.locks.modeOf? ⟨1, 0⟩ ⟨0⟩ = none
    ∧ (service.pool.fetch ⟨1⟩ ⟨1, 0⟩ .readOnly).1 = .page 0
    ∧ (service.pool.fetch ⟨1⟩ ⟨1, 0⟩ .readOnly).2.copy 0 = ⟨⟨1, 0⟩, [9, 2, 3, 4], some ⟨0⟩⟩
  := by
  obtain ⟨service, steps, pool, ended⟩ := steps_roomLeft
  refine ⟨service, steps, ended, ?_⟩
  rw [pool]
  exact ⟨rfl, rfl, rfl, rfl⟩

/-- In that service, the page is one that transaction 0 is known to have `left`. -/
theorem owner_or_left_roomForOne :
  Pool.create Pool.roomForOne.config Pool.roomForOne.catalog Pool.roomForOne.stores
      = .ok Pool.roomForOne
    ∧ ∃ service, Relation.ReflTransGen Step (start Pool.roomForOne) service
      ∧ (∀ txn, service.doing txn = none)
      ∧ service.pool.changer? ⟨1, 0⟩ = some ⟨0⟩
      ∧ ⟨1, 0⟩ ∈ service.left ⟨0⟩
  := by
  have created : Pool.create Pool.roomForOne.config Pool.roomForOne.catalog Pool.roomForOne.stores
      = .ok Pool.roomForOne := rfl
  obtain ⟨service, steps, pool, ended⟩ := steps_roomLeft
  have changed : service.pool.changer? ⟨1, 0⟩ = some ⟨0⟩ := by
    rw [pool]
    rfl
  obtain ⟨-, -, only⟩ := owner_or_left created steps
  exact ⟨created, service, steps, ended, changed, only ended _ _ changed⟩

end PoolService

end StorageEngine

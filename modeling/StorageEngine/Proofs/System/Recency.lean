import StorageEngine.Proofs.System.Abort
import StorageEngine.Proofs.System.PoolSteps

/-!
# The least recently accessed page makes room

A clock that ticks at every step tells for each page when it was last accessed: when it was handed
out, or when its copy was put into the cache after a change.  The cache keeps its pages in the order
of these times (`TimedPool.Ordered`), whatever is done to the pool.  So when a full pool makes room,
the page that leaves is the clean one whose last access is the oldest; nothing else leaves, and
nothing changes places but the page that is accessed (`TimedPool.Run.evicts_least_recent`).
-/

namespace StorageEngine

namespace Pool

variable {pool middle after : Pool} {step : PoolStep} {page : PageId} {txn : TransactionId}

/-! ### Accesses -/

/-- The page that a step asks the cache of `pool` for. -/
def asked? (pool : Pool) : PoolStep → Option PageId
  | .fetch txn page access =>
    if (pool.locks.request page txn access.lockMode).1 = .granted then some page else none
  | .install _ no => some (pool.copy no).id
  | .mark txn no =>
    if pool.locks.modeOf? (pool.copy no).id txn = some .exclusive then some (pool.copy no).id
    else none
  | _ => none

/-- The page that is accessed in a step on `pool`: it is handed out, or its copy is put into the
cache. -/
def accessed? (pool : Pool) : PoolStep → Option PageId
  | .fetch txn page access => (pool.fetch txn page access).1.copy?.map fun _ => page
  | .install txn no => (pool.install txn no).1.toOption.map fun _ => (pool.copy no).id
  | .mark txn no => (pool.markDirty txn no).1.toOption.map fun _ => (pool.copy no).id
  | _ => none

/-- Whether room has to be made in `step`. -/
def MakesRoom (pool : Pool) (step : PoolStep) : Prop :=
  pool.cache.isFull = true ∧ ∃ page, pool.asked? step = some page ∧ page ∉ pool.pages

/-- A `step` that asks for `page` is an `Entry` of it into the cache. -/
theorem entry_take (asked : pool.asked? step = some page) :
  pool.cache.Entry page (pool.accessed? step) (pool.take step).cache
  := by
  cases step with
  | fetch txn page access =>
    simp only [asked?] at asked
    split at asked
    · rename_i granted
      cases asked
      apply entry_fetch granted
    · cases asked
  | install txn no =>
    cases asked
    apply entry_install
  | mark txn no =>
    simp only [asked?] at asked
    split at asked
    · rename_i exclusive
      cases asked
      simp only [accessed?, take, markDirty, if_pos exclusive]
      apply entry_install
    · cases asked
  | _ => cases asked

/-! ### Aborts -/

/-- Whether pages have only left the cache from `pool` to `after`, and only such as cannot be read
again. -/
structure GivesUp (pool after : Pool) : Prop where
  order : after.pages.Sublist pool.pages
  unread : ∀ page ∈ pool.pages, page ∉ after.pages →
    ∃ cause, (pool.readStored page).1 = .error (.error cause)
  reads : pool.OnlyReads after

theorem GivesUp.trans (first : pool.GivesUp middle) (second : middle.GivesUp after) :
  pool.GivesUp after
  where
  order := second.order.trans first.order
  unread page member gone := by
    by_cases stays : page ∈ middle.pages
    · rw [← first.reads.reads]
      apply second.unread page stays gone
    · apply first.unread page member stays
  reads := first.reads.trans second.reads

/-- A pool that has the same `pages` and only reads `GivesUp` none. -/
theorem GivesUp.of_pages (pages : after.pages = pool.pages) (reads : pool.OnlyReads after) :
  pool.GivesUp after
  where
  order := by rw [pages]
  unread _ member gone := by
    rw [pages] at gone
    cases gone member
  reads := reads

theorem givesUp_restore (pool : Pool) (page : PageId) (no : CopyNo) :
  pool.GivesUp (pool.restore page no).2
  := by
  obtain ⟨stores, eq, -⟩ := pool.readStored_spec page
  have reads := pool.onlyReads_readStored page
  unfold restore
  rcases read : pool.readStored page with ⟨(cause | fault) | bytes, next⟩
  all_goals
    rw [read] at eq reads
    obtain rfl : next = { pool with stores } := eq
  · refine ⟨List.filter_sublist.map _, ?_, reads.of_stores rfl rfl⟩
    intro other member gone
    have here : other = page := by
      by_contra apart
      exact gone (Cache.mem_pages_remove.mpr ⟨apart, member⟩)
    rw [here, read]
    exact ⟨cause, rfl⟩
  · exact .of_pages rfl reads
  · exact .of_pages (Cache.pages_setDirty ..) (reads.of_stores rfl rfl)

theorem givesUp_restoreAll (txn : TransactionId) (held : List PageId) (frames : List Frame)
    (outcome : Except PoolError Unit) (pool : Pool) :
  pool.GivesUp (pool.restoreAll txn held frames outcome).2
  := restoreAll_induction (fun pool => .of_pages rfl (.refl pool)) .trans givesUp_restore txn held
    frames outcome pool

/-- `pool.complete txn commits` changes nothing but `locks` after it has flushed or rolled back
`txn`. -/
theorem complete_releases (pool : Pool) (txn : TransactionId) (commits : Bool) :
  ∃ locks, (pool.complete txn commits).2
    = { (if commits then pool.flushTransaction txn else pool.rollback txn).2 with locks }
  := by
  obtain ⟨result, settled, ended, ⟨fault, -, eq⟩ | ⟨-, eq⟩⟩ := pool.complete_settles txn commits
  all_goals
    rw [eq, ended]
    exact ⟨_, rfl⟩

theorem givesUp_abort (pool : Pool) (txn : TransactionId) :
  pool.GivesUp (pool.complete txn false).2
  := by
  obtain ⟨locks, eq⟩ := pool.complete_releases txn false
  have restored := givesUp_restoreAll txn (pool.locks.heldPages txn) pool.cache.frames (.ok ()) pool
  rw [eq]
  exact ⟨restored.order, restored.unread, restored.reads.of_stores rfl rfl⟩

theorem pages_commit (pool : Pool) (txn : TransactionId) :
  (pool.complete txn true).2.pages = pool.pages
  := by
  obtain ⟨locks, eq⟩ := pool.complete_releases txn true
  rw [eq]
  apply pages_writeBackAll

/-! ### Steps -/

/-- A `step` that asks for no page accesses none, and keeps `pages` as they are, but for one that
it discards, or those that an abort `GivesUp`. -/
theorem take_of_unasked (distinct : pool.cache.Distinct) (unasked : pool.asked? step = none) :
  pool.accessed? step = none
    ∧ ((∃ page, step = .discard page ∧ (pool.take step).pages = pool.pages.erase page)
      ∨ (∃ txn, step = .complete txn false ∧ pool.GivesUp (pool.take step))
      ∨ (pool.take step).pages = pool.pages)
  := by
  cases step with
  | fetch txn page access =>
    have denied : (pool.locks.request page txn access.lockMode).1 ≠ .granted := by
      intro granted
      simp [asked?, granted] at unasked
    obtain ⟨nothing, same⟩ := fetch_of_denied denied
    refine ⟨?_, .inr (.inr (congrArg Cache.pages same))⟩
    rw [accessed?, nothing]
    rfl
  | install txn no => cases unasked
  | mark txn no =>
    have shared : pool.locks.modeOf? (pool.copy no).id txn ≠ some .exclusive := by
      intro exclusive
      simp [asked?, exclusive] at unasked
    simp only [accessed?, take, markDirty, if_neg shared]
    exact ⟨rfl, .inr (.inr trivial)⟩
  | complete txn commits =>
    use rfl
    cases commits with
    | true => exact .inr (.inr (pool.pages_commit txn))
    | false => exact .inr (.inl ⟨txn, rfl, pool.givesUp_abort txn⟩)
  | flushPage page => exact ⟨rfl, .inr (.inr (pool.pages_flushPage page))⟩
  | flushTransaction | flushAll => exact ⟨rfl, .inr (.inr (pages_writeBackAll ..))⟩
  | discard page => exact ⟨rfl, .inl ⟨page, rfl, Cache.pages_remove distinct page⟩⟩
  | edit | relock | restock => exact ⟨rfl, .inr (.inr rfl)⟩

/-- The pages that stay in a `step` are a sublist of those before, and the page that it accesses
comes after them. -/
theorem pages_take (distinct : pool.cache.Distinct) (step : PoolStep) :
  ∃ stay, stay.Sublist pool.pages
    ∧ (pool.take step).pages = stay ++ (pool.accessed? step).toList
  := by
  cases asked : pool.asked? step with
  | none =>
    obtain ⟨none, kept⟩ := take_of_unasked distinct asked
    refine ⟨(pool.take step).pages, ?_, by simp [none]⟩
    obtain ⟨page, -, erased⟩ | ⟨txn, -, gives⟩ | same := kept
    · rw [erased]
      apply List.erase_sublist
    · exact gives.order
    · rw [same]
  | some page =>
    have entry := entry_take asked
    by_cases roomy : pool.cache.isFull = true → page ∈ pool.cache.pages
    · exact ⟨_, List.erase_sublist, entry.pages distinct roomy⟩
    · obtain ⟨full, absent⟩ := Classical.not_imp.mp roomy
      obtain ⟨-, none, same⟩ | ⟨frame, -, erased⟩ := entry.pages_of_full distinct full absent
      · refine ⟨pool.pages, .refl _, ?_⟩
        rw [none, pages, same]
        simp [pages]
      · exact ⟨_, List.erase_sublist, erased⟩

/-- Whether `page` is cached and has no changes that are not stored. -/
def Clean (pool : Pool) (page : PageId) : Prop :=
  ∃ frame, pool.cache.frame? page = some frame ∧ (pool.copy frame.copy).isDirty = false

end Pool

/-! ### Times of access -/

/-- A `pool` with a clock, and the time at which each page was last accessed. -/
structure TimedPool where
  pool : Pool
  now : Nat
  lastAccess : PageId → Option Nat

namespace TimedPool

variable {start : Pool} {timed : TimedPool} {step : PoolStep} {page other : PageId}

/-- `pool`, of which nothing has been asked. -/
def begin (pool : Pool) : TimedPool := ⟨pool, 0, fun _ => none⟩

/-- `timed` after `step`, in which the clock ticks. -/
def take (timed : TimedPool) (step : PoolStep) : TimedPool where
  pool := timed.pool.take step
  now := timed.now + 1
  lastAccess page :=
    if timed.pool.accessed? step = some page then some timed.now else timed.lastAccess page

/-- `timed` after `steps` in a row. -/
def takeAll (timed : TimedPool) (steps : List PoolStep) : TimedPool := steps.foldl take timed

theorem pool_takeAll (timed : TimedPool) (steps : List PoolStep) :
  (timed.takeAll steps).pool = timed.pool.takeAll steps
  := by
  induction steps generalizing timed with
  | nil => rfl
  | cons step steps ih => apply ih

/-- What any steps lead to from `start`. -/
inductive Run (start : Pool) : TimedPool → Prop where
  | begin : Run start (.begin start)
  | take {timed : TimedPool} (before : Run start timed) (step : PoolStep)
      (allowed : timed.pool.allowsStep step) : Run start (timed.take step)

theorem Run.takeAll {steps : List PoolStep} (run : Run start timed)
    (allowed : timed.pool.allowsSteps steps) :
  Run start (timed.takeAll steps)
  := by
  induction steps generalizing timed with
  | nil => exact run
  | cons step steps ih => exact ih (run.take step allowed.1) allowed.2

/-- Whether `page` was last accessed before `other`. -/
def Earlier (timed : TimedPool) (page other : PageId) : Prop :=
  ∃ time later, timed.lastAccess page = some time ∧ timed.lastAccess other = some later
    ∧ time < later

/-- Whether the cache of `timed` has its pages in the order of their last accesses. -/
structure Ordered (timed : TimedPool) : Prop where
  tidy : timed.pool.Tidy
  past : ∀ page time, timed.lastAccess page = some time → time < timed.now
  accessed : ∀ page ∈ timed.pool.pages, ∃ time, timed.lastAccess page = some time
  order : timed.pool.pages.Pairwise timed.Earlier

/-- Before the first step, nothing is cached and nothing was accessed. -/
theorem ordered_begin {config : PoolConfig} {catalog : Registry TableId StoreNo}
    {stores : Array Store} (created : Pool.create config catalog stores = .ok start) :
  (begin start).Ordered
  := by
  have none : start.pages = [] := by
    rw [(Pool.create_eq_ok created).2]
    rfl
  refine ⟨Pool.tidy_create created, nofun, ?_, ?_⟩
  · intro page member
    rw [show (begin start).pool.pages = [] from none] at member
    cases member
  · rw [show (begin start).pool.pages = [] from none]
    exact .nil

/-- `timed.take step` is `Ordered` by last access if `timed` is. -/
theorem Ordered.take (ordered : timed.Ordered) (allowed : timed.pool.allowsStep step) :
  (timed.take step).Ordered
  := by
  obtain ⟨tidy, past, accessed, order⟩ := ordered
  have tidy' := tidy.take allowed
  obtain ⟨stay, old, pages⟩ := Pool.pages_take tidy.distinct step
  have distinct : (stay ++ (timed.pool.accessed? step).toList).Nodup := by
    rw [← pages]
    exact tidy'.distinct
  have kept : ∀ page ∈ stay, (timed.take step).lastAccess page = timed.lastAccess page := by
    intro page member
    apply if_neg
    intro here
    apply (List.nodup_append.mp distinct).2.2 page member page _ rfl
    simp [here]
  have fresh : ∀ page ∈ (timed.pool.accessed? step).toList,
      (timed.take step).lastAccess page = some timed.now := by
    intro page member
    apply if_pos
    simpa using member
  refine ⟨tidy', ?_, ?_, ?_⟩
  · intro page time last
    simp only [TimedPool.take] at last ⊢
    split at last
    · cases last
      apply Nat.lt_succ_self
    · apply Nat.lt_succ_of_lt (past page time last)
  · intro page member
    change page ∈ (timed.pool.take step).pages at member
    rw [pages] at member
    obtain stays | new := List.mem_append.mp member
    · rw [kept page stays]
      apply accessed page (old.subset stays)
    · exact ⟨_, fresh page new⟩
  · change (timed.pool.take step).pages.Pairwise _
    rw [pages, List.pairwise_append]
    refine ⟨?_, ?_, ?_⟩
    · apply (order.sublist old).imp_of_mem
      intro page other member member' earlier
      rw [Earlier, kept page member, kept other member']
      exact earlier
    · cases timed.pool.accessed? step <;> simp
    · intro page member other new
      obtain ⟨time, last⟩ := accessed page (old.subset member)
      exact ⟨time, timed.now, (kept page member).trans last, fresh other new, past page time last⟩

/-! ### Making room -/

/-- `page` is the clean page whose last access is the oldest. -/
structure LeastRecent (timed : TimedPool) (page : PageId) : Prop where
  clean : timed.pool.Clean page
  oldest : ∀ other, timed.pool.Clean other → other ≠ page → timed.Earlier page other

/-- The victim of a cache is the clean page whose last access is the oldest. -/
theorem Ordered.leastRecent (ordered : timed.Ordered) {frame : Frame}
    (victim : timed.pool.cache.Victim frame) :
  timed.LeastRecent frame.page
  := by
  obtain ⟨tidy, -, -, order⟩ := ordered
  obtain ⟨unchanged, before, later, split, dirty⟩ := victim
  constructor
  · have found : timed.pool.cache.frame? frame.page = some frame := by
      apply (Cache.mem_frames_iff tidy.distinct).mp
      simp [split]
    obtain ⟨-, -, noted⟩ := tidy.framed _ frame found
    exact ⟨frame, found, noted.symm.trans unchanged⟩
  · rintro other ⟨frame', found, clean⟩ apart
    obtain ⟨-, -, noted⟩ := tidy.framed other frame' found
    obtain rfl := Cache.page_of_frame? found
    have member : frame' ∈ before ++ frame :: later := split ▸ Cache.mem_of_frame? found
    rw [Pool.pages, Cache.pages, split, List.map_append, List.map_cons] at order
    have after := (List.pairwise_cons.mp (List.pairwise_append.mp order).2.1).1
    obtain first | rfl | rest : frame' ∈ before ∨ frame' = frame ∨ frame' ∈ later := by
      simpa using member
    · cases (dirty frame' first).symm.trans (noted.trans clean)
    · cases apart rfl
    · apply after
      apply List.mem_map_of_mem rest

/-- What becomes of the cached pages in `step`. -/
structure Turnover (timed : TimedPool) (step : PoolStep) : Prop where
  /-- The pages that stay are in the order in which they were, before the page that is accessed. -/
  order : ∃ stay, stay.Sublist timed.pool.pages
    ∧ (timed.pool.take step).pages = stay ++ (timed.pool.accessed? step).toList
  /-- Where room has to be made, the clean page leaves whose last access is the oldest, and no
  other; only if there is no clean page, all stay and no page is accessed. -/
  room : timed.pool.MakesRoom step →
    ((∀ page, ¬ timed.pool.Clean page) ∧ (timed.pool.take step).pages = timed.pool.pages
        ∧ timed.pool.accessed? step = none)
      ∨ ∃ page, timed.LeastRecent page
        ∧ (timed.pool.take step).pages
          = timed.pool.pages.erase page ++ (timed.pool.accessed? step).toList
  /-- Elsewhere pages leave only if they are discarded, or cannot be read again in an abort. -/
  kept : ¬ timed.pool.MakesRoom step →
    ∀ page ∈ timed.pool.pages, page ∉ (timed.pool.take step).pages →
      step = .discard page
        ∨ ∃ txn cause, step = .complete txn false
          ∧ (timed.pool.readStored page).1 = .error (.error cause)
  /-- To store changes, to do something to locks, copies and tables, and to be denied a lock keeps
  all pages in their places. -/
  still : timed.pool.asked? step = none → (∀ page, step ≠ .discard page) →
    (∀ txn, step ≠ .complete txn false) → (timed.pool.take step).pages = timed.pool.pages

theorem Ordered.turnover (ordered : timed.Ordered) (step : PoolStep) :
  timed.Turnover step
  := by
  have tidy := ordered.tidy
  refine ⟨Pool.pages_take tidy.distinct step, ?_, ?_, ?_⟩
  · rintro ⟨full, page, asked, absent⟩
    obtain ⟨dirty, none, same⟩ | ⟨frame, victim, pages⟩ :=
      (Pool.entry_take asked).pages_of_full tidy.distinct full absent
    · left
      refine ⟨?_, congrArg Cache.pages same, none⟩
      rintro other ⟨frame, found, clean⟩
      obtain ⟨-, -, noted⟩ := tidy.framed other frame found
      cases (dirty frame (Cache.mem_of_frame? found)).symm.trans (noted.trans clean)
    · right
      exact ⟨frame.page, ordered.leastRecent victim, pages⟩
  · intro roomy page member gone
    cases asked : timed.pool.asked? step with
    | none =>
      obtain ⟨-, ⟨other, rfl, erased⟩ | ⟨txn, rfl, gives⟩ | same⟩ :=
        Pool.take_of_unasked tidy.distinct asked
      · left
        congr 1
        by_contra apart
        apply gone
        rw [erased]
        apply (List.mem_erase_of_ne (Ne.symm apart)).mpr member
      · right
        obtain ⟨cause, failed⟩ := gives.unread page member gone
        exact ⟨txn, cause, rfl, failed⟩
      · cases gone (same ▸ member)
    | some other =>
      exfalso
      have entry := Pool.entry_take asked
      have pages := entry.pages tidy.distinct (by
        intro full
        by_contra absent
        exact roomy ⟨full, other, asked, absent⟩)
      apply gone
      change page ∈ (timed.pool.take step).cache.pages
      rw [pages]
      by_cases here : page = other
      · subst here
        simp [entry.of_mem member]
      · apply List.mem_append_left
        apply (List.mem_erase_of_ne here).mpr member
  · intro unasked keeps commits
    obtain ⟨-, ⟨page, eq, -⟩ | ⟨txn, eq, -⟩ | same⟩ := Pool.take_of_unasked tidy.distinct unasked
    · cases keeps page eq
    · cases commits txn eq
    · exact same

/-- In a `run` from a pool that `create` returns, `timed` is `Ordered` by last access. -/
theorem Run.ordered {config : PoolConfig} {catalog : Registry TableId StoreNo}
    {stores : Array Store} (created : Pool.create config catalog stores = .ok start)
    (run : Run start timed) :
  timed.Ordered
  := by
  induction run with
  | begin => exact ordered_begin created
  | take _ step allowed ih => exact ih.take allowed

/-- Whatever is done to a pool in whatever order, its cache is `Ordered` by last access.  Every
`step` is a `Turnover`: the clean page whose last access is the oldest leaves where a full pool
makes room, and no other, and the pages that stay keep their order.  Whatever can be asked of a
pool, also by a call that is under way, is a sequence of such steps. -/
theorem Run.evicts_least_recent {config : PoolConfig} {catalog : Registry TableId StoreNo}
    {stores : Array Store} (created : Pool.create config catalog stores = .ok start)
    (run : Run start timed) :
  timed.Ordered
    ∧ (∀ step, timed.Turnover step)
    ∧ ∀ act, timed.pool.admits act →
        Run start (timed.takeAll (act.steps timed.pool))
          ∧ (timed.takeAll (act.steps timed.pool)).pool = timed.pool.performTable act
  := by
  have ordered := run.ordered created
  refine ⟨ordered, ordered.turnover, ?_⟩
  intro act admitted
  use run.takeAll (Pool.allowsSteps_steps ordered.tidy admitted)
  rw [pool_takeAll, Pool.takeAll_steps]

/-- A pool with room for three pages, over a table of four. -/
def roomForThree : Pool :=
  { config := ⟨3, 1, .ofMillis 1⟩, cache := ⟨3, []⟩, copies := #[], locks := .empty
    catalog := ⟨[(1, 0)]⟩
    stores := #[{ table := 1, medium := .counters #[[1], [2], [3], [4]] }] }

/-- `roomForThree` after three pages were fetched and the first was changed, and the second was
fetched again. -/
def threeTaken : TimedPool :=
  (begin roomForThree).takeAll
    [.fetch ⟨0⟩ ⟨1, 0⟩ .readWrite, .mark ⟨0⟩ 0, .fetch ⟨0⟩ ⟨1, 1⟩ .readOnly,
      .fetch ⟨0⟩ ⟨1, 2⟩ .readOnly, .fetch ⟨0⟩ ⟨1, 1⟩ .readOnly]

/-- In `threeTaken` page 0 is dirty and page 1 was fetched again, so page 2 makes room. -/
theorem evicts_least_recent_threeTaken :
  Pool.create roomForThree.config roomForThree.catalog roomForThree.stores = .ok roomForThree
    ∧ Run roomForThree threeTaken
    ∧ threeTaken.pool.MakesRoom (.fetch ⟨0⟩ ⟨1, 3⟩ .readOnly)
    ∧ threeTaken.pool.pages = [⟨1, 0⟩, ⟨1, 2⟩, ⟨1, 1⟩]
    ∧ threeTaken.LeastRecent ⟨1, 2⟩
    ∧ (threeTaken.take (.fetch ⟨0⟩ ⟨1, 3⟩ .readOnly)).pool.pages = [⟨1, 0⟩, ⟨1, 1⟩, ⟨1, 3⟩]
  := by
  have created : Pool.create roomForThree.config roomForThree.catalog roomForThree.stores
      = .ok roomForThree := rfl
  have run : Run roomForThree threeTaken := by
    apply Run.begin.takeAll
    have fetched : 0 < ((begin roomForThree).pool.take
        (.fetch ⟨0⟩ ⟨1, 0⟩ .readWrite)).copies.size := by decide
    exact ⟨trivial, fetched, trivial, trivial, trivial, trivial⟩
  have before : threeTaken.pool.pages = [⟨1, 0⟩, ⟨1, 2⟩, ⟨1, 1⟩] := by decide
  have after : (threeTaken.pool.take (.fetch ⟨0⟩ ⟨1, 3⟩ .readOnly)).pages
      = [⟨1, 0⟩, ⟨1, 1⟩, ⟨1, 3⟩] := by decide
  have makesRoom : threeTaken.pool.MakesRoom (.fetch ⟨0⟩ ⟨1, 3⟩ .readOnly) :=
    ⟨by decide, ⟨1, 3⟩, by decide, by decide⟩
  refine ⟨created, run, makesRoom, before, ?_, after⟩
  obtain ⟨-, turnover, -⟩ := Run.evicts_least_recent created run
  obtain ⟨-, same, -⟩ | ⟨page, least, erased⟩ := (turnover _).room makesRoom
  · rw [before, after] at same
    cases same
  · have member : page ∈ threeTaken.pool.pages := by
      obtain ⟨frame, found, -⟩ := least.clean
      apply Cache.mem_pages_iff.mpr
      rw [found]
      rfl
    rw [before] at member erased
    rw [after] at erased
    simp only [List.mem_cons, List.not_mem_nil, or_false] at member
    obtain rfl | rfl | rfl := member
    · exact absurd erased (by decide)
    · exact least
    · exact absurd erased (by decide)

end TimedPool

end StorageEngine

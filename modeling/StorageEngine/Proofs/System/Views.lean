import StorageEngine.Proofs.Pool.Reading
import StorageEngine.Proofs.System.Snapshot

/-!
# What transactions see of a pool

A transaction sees what the pool has of a page, or what is stored of it if another one holds the
page exclusively (`Pool.view`).  Where a system mirrors workspaces, that is what it sees in these
(`System.Mirrors.view_eq`).  To lock pages, to read them and to give up locks is to change nothing
of what the transaction sees, whatever the cache gives up for the pages that are read
(`Pool.Browses.view_eq`).
-/

namespace StorageEngine

namespace Pool

variable {pool middle after start : Pool} {txn : TransactionId} {page : PageId} {no : CopyNo}
  {access : Access} {config : PoolConfig} {catalog : Registry TableId StoreNo}
  {stores : Array Store}

/-- Whether a transaction other than `txn` holds `page` exclusively. -/
def withholds (pool : Pool) (page : PageId) (txn : TransactionId) : Bool :=
  (pool.locks.locksOn page).records.any fun record =>
    record.holder ≠ txn && record.mode = .exclusive

/-- What `txn` sees of `page`: what the pool has of it, or what is stored if another transaction
holds it exclusively. -/
def view (pool : Pool) (txn : TransactionId) (page : PageId) : Option Bytes :=
  if pool.withholds page txn then pool.stored page else pool.image? page

theorem withholds_iff (sound : pool.locks.Sound) :
  pool.withholds page txn = true
    ↔ ∃ other, other ≠ txn ∧ pool.locks.modeOf? page other = some .exclusive
  := by
  have held : ∀ other, pool.locks.modeOf? page other = some .exclusive
      ↔ ⟨other, .exclusive⟩ ∈ (pool.locks.locksOn page).records :=
    fun other => PageLocks.modeOf?_eq_some_iff (sound.consistent page)
  simp only [held, withholds, List.any_eq_true, Bool.and_eq_true, decide_eq_true_eq]
  constructor
  · rintro ⟨⟨other, mode⟩, member, distinct, rfl⟩
    exact ⟨other, distinct, member⟩
  · rintro ⟨other, distinct, member⟩
    exact ⟨_, member, distinct, rfl⟩

/-- A `page` whose lock is granted to `txn` is not withheld from it. -/
theorem withholds_of_granted (sound : pool.locks.Sound) {mode : LockMode}
    (granted : (pool.locks.request page txn mode).1 = .granted) :
  pool.withholds page txn = false
  := by
  apply Bool.eq_false_iff.mpr
  intro withheld
  obtain ⟨other, distinct, exclusive⟩ := (withholds_iff sound).mp withheld
  apply LockTable.request_ne_granted sound exclusive distinct.symm mode granted

/-! ### Pools in order -/

/-- Whether `pool` and its lock table are `Tidy`, its clean pages are what is stored, and its
stores are `Numbered`. -/
structure Steady (pool : Pool) : Prop where
  tidy : pool.Tidy
  current : pool.Current
  locks : pool.locks.Tidy
  numbered : ∀ no, (pool.store no).Numbered

/-- A pool in use is one to which tables neither come nor go. -/
theorem Use.reached (use : start.Use pool) :
  start.Reached pool
  := by
  induction use with
  | start => apply Reached.start
  | act _ act allowed ih =>
    apply ih.act (.use act)
    cases act with
    | round txn call =>
      intro no member
      cases call with
      | count => cases allowed.1
      | _ => cases member
    | update => apply allowed.1
    | mark => apply allowed
    | _ => trivial

/-- A pool in `Use` is `Steady` as long as its stores are `Numbered`. -/
theorem Use.steady (created : create config catalog stores = .ok start)
    (catalogued : start.Catalogued) (use : start.Use pool)
    (numbered : ∀ no, (pool.store no).Numbered) :
  pool.Steady
  where
  tidy := use.tidy (tidy_create created)
  current := use.current (tidy_create created) (current_create created catalogued) numbered
  locks := (use.reached.sound (sound_create created)).locks
  numbered := numbered

/-- A pool stays `Steady` in `moves` of one `txn` that do not spoil a copy, as long as its stores
are `Numbered`. -/
theorem Steady.of_moves {may : Freedom} (steady : pool.Steady) (moves : Moves may pool after)
    (relocks : ∀ table table', may.relocks table table' → LockTable.OnlyBy txn table table')
    (numbered : ∀ no, (after.store no).Numbered) (unspoiled : ¬ may.spoils) :
  after.Steady
  := by
  have follows := Follows.of_moves steady.tidy moves relocks
  have current := steady.current.moves steady.tidy moves numbered fun spoils =>
    absurd spoils unspoiled
  exact ⟨follows.tidy, current, (follows.locks steady.locks).1, numbered⟩

/-! ### Locking and reading pages -/

/-- What `txn` may do to look at pages. -/
def browsing (txn : TransactionId) : Freedom where
  relocks := LockTable.OnlyBy txn
  changes _ := False
  writes := False
  spoils := False

/-- Whether all that `txn` has done to `pool` up to `after` is to lock pages, to read them and to
give up locks. -/
structure Browses (txn : TransactionId) (pool after : Pool) : Prop where
  reads : pool.Reads after
  moves : Moves (browsing txn) pool after

theorem Browses.refl (txn : TransactionId) (pool : Pool) :
  Browses txn pool pool
  := ⟨.refl pool, .refl⟩

theorem Browses.trans (first : Browses txn pool middle) (second : Browses txn middle after) :
  Browses txn pool after
  := ⟨first.reads.trans second.reads, first.moves.trans second.moves⟩

theorem browses_fetch (tidy : pool.Tidy) (txn : TransactionId) (page : PageId) (access : Access) :
  Browses txn pool (pool.fetch txn page access).2
  where
  reads := reads_fetch tidy txn page access
  moves := by
    have relocks : (browsing txn).relocks pool.locks
        (pool.locks.request page txn access.lockMode).2 := LockTable.onlyBy_request _ _ _ _
    apply (moves_fetch tidy txn page access relocks).1

theorem browses_release (pool : Pool) (txn : TransactionId) (page : PageId) :
  Browses txn pool (pool.releasePage txn page)
  where
  reads := pool.reads_relock _
  moves := by
    have relocks : (browsing txn).relocks pool.locks (pool.locks.release page txn) :=
      LockTable.onlyBy_release _ _ _
    apply Relation.ReflTransGen.single (.relock relocks)

/-- To give up the lock of `page`, unless `alreadyHeld`, is browsing: `Browses txn`. -/
theorem browses_leave (pool : Pool) (txn : TransactionId) (page : PageId) (alreadyHeld : Bool) :
  Browses txn pool (if alreadyHeld then pool else pool.releasePage txn page)
  := by
  cases alreadyHeld with
  | true => apply Browses.refl
  | false => apply browses_release

theorem Browses.follows (browses : Browses txn pool after) (tidy : pool.Tidy) :
  Follows txn pool after
  := .of_moves tidy browses.moves fun _ _ => id

/-- While `txn` `Browses`, the store `no` keeps its table in the catalog. -/
theorem Browses.get?_table (browses : Browses txn pool after) {no : StoreNo}
    (found : pool.catalog.get? (pool.store no).table = some no) :
  after.catalog.get? (after.store no).table = some no
  := by
  rw [browses.reads.media.catalog, browses.reads.media.table, found]

theorem Browses.length_eq (browses : Browses txn pool after) (no : StoreNo) :
  (after.store no).length = (pool.store no).length
  := by
  rw [Store.length, Store.length, browses.reads.media.medium]

theorem Browses.steady (browses : Browses txn pool after) (steady : pool.Steady) :
  after.Steady
  := by
  apply steady.of_moves browses.moves (fun _ _ => id) _ id
  intro no
  rw [Store.Numbered, browses.length_eq]
  apply steady.numbered

/-- While `txn` `Browses`, what the pool has of `page` stays. -/
theorem Browses.image?_eq (browses : Browses txn pool after) (steady : pool.Steady)
    (page : PageId) :
  after.image? page = pool.image? page
  := by
  obtain ⟨-, media, -, copy, cached, dirty⟩ := browses.reads
  -- What leaves the cache is clean, so it is stored, and what comes into it is stored as well.
  have gone : ∀ frame, pool.cache.frame? page = some frame →
      after.cache.frame? page ≠ some frame →
      pool.stored page = some (pool.copy frame.copy).bytes := by
    intro frame found left
    apply steady.current.clean page frame found
    apply Bool.eq_false_iff.mpr
    intro changed
    apply left (dirty page frame found changed)
  unfold image?
  cases found : after.cache.frame? page with
  | some frame =>
    rcases cached page frame found with held | ⟨new, -, -, bytes, stored, copied⟩
    · obtain ⟨allocated, -⟩ := steady.tidy.framed page frame held
      rw [held]
      dsimp only
      rw [copy _ allocated]
    · dsimp only
      rw [copied]
      cases held : pool.cache.frame? page with
      | none => exact stored.symm
      | some frame' =>
        obtain ⟨allocated, -⟩ := steady.tidy.framed page frame' held
        have left : after.cache.frame? page ≠ some frame' := by
          rw [found]
          rintro ⟨⟩
          apply Nat.not_le.mpr allocated new
        exact stored.symm.trans (gone frame' held left)
  | none =>
    dsimp only
    rw [media.stored]
    cases held : pool.cache.frame? page with
    | none => rfl
    | some frame =>
      have left : after.cache.frame? page ≠ some frame := by
        rw [found]
        rintro ⟨⟩
      exact gone frame held left

/-- While `txn` `Browses`, a `page` stays withheld from it, or not. -/
theorem Browses.withholds_eq (browses : Browses txn pool after) (steady : pool.Steady)
    (page : PageId) :
  after.withholds page txn = pool.withholds page txn
  := by
  obtain ⟨tidy, others⟩ := (browses.follows steady.tidy).locks steady.locks
  rw [Bool.eq_iff_iff, withholds_iff tidy.toSound, withholds_iff steady.locks.toSound]
  apply exists_congr
  intro other
  apply and_congr_right
  intro distinct
  rw [(others other distinct).1]

/-- While `txn` `Browses`, what it sees stays. -/
theorem Browses.view_eq (browses : Browses txn pool after) (steady : pool.Steady) :
  after.view txn = pool.view txn
  := by
  funext page
  rw [view, view, browses.withholds_eq steady, browses.image?_eq steady,
    browses.reads.media.stored]

/-- A `page` that is handed out to `txn` was not withheld from it. -/
theorem Steady.withholds_of_fetch (steady : pool.Steady)
    (eq : pool.fetch txn page access = (.page no, after)) :
  pool.withholds page txn = false
  := by
  have relocks : anything.relocks pool.locks
      (pool.locks.request page txn access.lockMode).2 := trivial
  obtain ⟨-, -, answered⟩ := moves_fetch steady.tidy txn page access relocks
  obtain ⟨granted, -⟩ := answered no (congrArg Prod.fst eq)
  apply withholds_of_granted steady.locks.toSound granted

/-- `txn` is handed out what it sees of `page`. -/
theorem Steady.view_of_fetch (steady : pool.Steady)
    (eq : pool.fetch txn page access = (.page no, after)) :
  pool.view txn page = some (after.copy no).bytes
  := by
  rw [view, steady.withholds_of_fetch eq]
  apply image?_of_fetch eq

/-! ### Scans in which nobody steps in -/

/-- Whether `txn`, when it scans the store `no`, finds the tuples `found`, if nobody steps in. -/
def Scans (pool : Pool) (txn : TransactionId) (no : StoreNo) (found : List Tuple) : Prop :=
  ((Request.scan no).start txn pool).1.answer? = some (.tuples found)

/-- What `runScan` finds in `pages`, after `found`, is the list of the tuples that `txn` sees
there. -/
theorem Steady.lists_of_runScan {table : TableId} {found : List Tuple} {pages : List PageNo}
    {answer : Answer} (steady : pool.Steady) (sorted : pages.Pairwise (· < ·))
    (answered : (Call.runScan txn table found pages pool).1.answer? = some answer) :
  ∃ more, answer = .tuples (found ++ more) ∧ Lists (pool.view txn) table pages more
  := by
  induction pages generalizing pool found with
  | nil =>
    cases answered
    exact ⟨[], by rw [List.append_nil], lists_nil _ table⟩
  | cons no pages ih =>
    obtain ⟨first, sorted⟩ := List.pairwise_cons.mp sorted
    simp only [Call.runScan] at answered
    have browses := browses_fetch steady.tidy txn ⟨table, no⟩ .readOnly
    rcases fetched : pool.fetch txn ⟨table, no⟩ .readOnly with ⟨copy | _ | failure, after⟩
    all_goals
      rw [fetched] at answered browses
      dsimp only at answered
    · have seen := steady.view_of_fetch fetched
      cases listed : SlottedPage.records (after.copy copy).bytes with
      | error fault =>
        rw [listed] at answered
        cases answered
      | ok records =>
        rw [listed] at answered
        obtain ⟨more, rfl, lists⟩ := ih (browses.steady steady) sorted answered
        rw [browses.view_eq steady] at lists
        use Call.tuplesOf ⟨table, no⟩ records ++ more
        refine ⟨by rw [List.append_assoc], (lists_tuplesOf seen listed).append lists ?_⟩
        intro no' here
        obtain rfl := List.mem_singleton.mp here
        apply first
    · cases answered
    · cases answered

/-- A scan finds the list of all tuples that `txn` sees in the store `no`. -/
theorem Steady.lists_of_scans {no : StoreNo} {found : List Tuple} (steady : pool.Steady)
    (scans : pool.Scans txn no found) :
  Lists (pool.view txn) (pool.store no).table (Workspaces.pageNos (pool.store no).length) found
  := by
  have sorted := Workspaces.sorted_pageNos (Nat.le_of_lt (steady.numbered no))
  simp only [Scans, Request.start, Call.startScan] at scans
  cases listed : (pool.store no).pageNos with
  | error fault =>
    rw [listed] at scans
    cases scans
  | ok pages =>
    obtain rfl : pages = Workspaces.pageNos (pool.store no).length :=
      Store.pageNos_ok (steady.numbered no) listed
    rw [listed] at scans
    obtain ⟨more, same, lists⟩ := steady.lists_of_runScan sorted scans
    cases same
    apply lists

end Pool

/-! ### What transactions see in workspaces -/

namespace System

variable {system : System} {spaces : Workspaces} {txn : TransactionId} {page : PageId}

/-- What `txn` sees of a `page` that it is not changing is what it sees in `spaces`: its own image,
or else the committed one. -/
theorem Mirrors.view_eq (mirrors : system.Mirrors spaces)
    (calm : ¬ (system.doing txn).disturbs page) :
  system.pool.view txn page = spaces.view txn page
  := by
  have faithful := mirrors.faithful
  cases withheld : system.pool.withholds page txn with
  | true =>
    obtain ⟨other, distinct, exclusive⟩ := (Pool.withholds_iff faithful.sound).mp withheld
    have unchanged : spaces.overlay txn page = none :=
      faithful.overlay_eq_none (Option.isSome_of_mem exclusive) distinct.symm
    rw [Pool.view, withheld, if_pos rfl, Workspaces.view, unchanged, Option.none_or,
      faithful.committed]
  | false =>
    have alone : ∀ other, system.pool.locks.modeOf? page other = some .exclusive → other = txn := by
      intro other exclusive
      by_contra distinct
      rw [(Pool.withholds_iff faithful.sound).mpr ⟨other, distinct, exclusive⟩] at withheld
      cases withheld
    have tight : ¬ system.Loose page := by
      rintro ⟨other, exclusive, disturbs⟩
      obtain rfl := alone other exclusive
      apply calm disturbs
    rw [Pool.view, withheld, if_neg Bool.false_ne_true, faithful.image?_eq tight]
    cases changed : spaces.overlay txn page with
    | some bytes =>
      obtain ⟨frame, found, dirtied⟩ := faithful.overlay txn page (by rw [changed]; rfl)
      rw [Pool.changer?_of_frame? found, dirtied, Workspaces.view, changed]
      exact changed
    | none =>
      have unchanged : system.pool.changer? page = none := by
        apply Option.eq_none_iff_forall_ne_some.mpr
        intro other changes
        obtain ⟨frame, found, dirtied⟩ := Pool.changer?_eq_some_iff.mp changes
        obtain ⟨exclusive, image⟩ := (faithful.resident page frame found).owned other dirtied
        obtain rfl := alone other exclusive
        rw [changed] at image
        cases image
      rw [unchanged, Workspaces.view, changed, Option.none_or]
      rfl

end System

end StorageEngine

import StorageEngine.Pool.Completion
import StorageEngine.Pool.Fetch
import StorageEngine.Proofs.Pool.Images

/-!
# Operations on pools, case by case

What a pool is when it was created (`create_eq_ok`), and what becomes of a page that is loaded
(`load_cases`) and fetched (`fetch_cases`), of a copy that is marked (`install_cases`,
`markDirty_cases`), of a cached page when its transaction ends (`writeBack_cases`, `restore_cases`),
and of the locks of the transaction (`complete_settles`).
-/

namespace StorageEngine.Pool

variable {pool after : Pool} {txn : TransactionId} {page : PageId} {no : CopyNo}
  {selects : TransactionId → Bool}

/-! ### Creation -/

/-- A pool that `create` returns has room for a page, an empty cache, no copies and no locks, and
the `stores` that were given. -/
theorem create_eq_ok {config : PoolConfig} {catalog : Registry TableId StoreNo}
    {stores : Array Store} (created : create config catalog stores = .ok pool) :
  0 < config.poolSize
    ∧ pool = ⟨config, ⟨config.poolSize, []⟩, #[], .empty, catalog, stores⟩
  := by
  unfold create Cache.empty at created
  split at created
  · cases created
  · rename_i roomy
    use Nat.pos_of_ne_zero roomy
    split at created
    · cases created
    · rename_i eq
      cases created
      split at eq
      · cases eq
        rfl
      · cases eq

/-! ### Loading -/

/-- `pool` with a copy of `page` in a new frame, which holds `bytes`. -/
def entered (pool : Pool) (page : PageId) (bytes : Bytes) : Pool :=
  { pool with
    copies := pool.copies.push (.clean page bytes)
    cache := pool.cache.put ⟨page, pool.copies.size, false⟩ }

theorem copy_entered (pool : Pool) (page : PageId) (bytes : Bytes) (no : CopyNo) :
  (pool.entered page bytes).copy no
    = if no = pool.copies.size then .clean page bytes else pool.copy no
  := copy_newCopy pool (.clean page bytes) no

/-- What becomes of `pool.load page`: the frame of `page` counts as just accessed; or there is no
room for it; or room is made for it, and it cannot be read or is `entered`. -/
theorem load_cases (pool : Pool) (page : PageId) :
  (∃ frame, pool.cache.frame? page = some frame
      ∧ pool.load page = (.ok frame.copy, { pool with cache := pool.cache.put frame }))
    ∨ (pool.cache.frame? page = none ∧ pool.cache.makeRoom? = none
      ∧ pool.load page = (.error (.error .poolFull), pool))
    ∨ ∃ room stores, pool.cache.frame? page = none ∧ pool.cache.makeRoom? = some room
      ∧ pool.SameStores { pool with cache := room, stores }
      ∧ pool.SameWrites { pool with cache := room, stores }
      ∧ ((∃ failure, (∀ cause, failure = .error cause → cause.OfStore)
          ∧ pool.load page = (.error failure, { pool with cache := room, stores }))
        ∨ ∃ bytes, pool.stored page = some bytes ∧ bytes.length = pool.config.pageSize
          ∧ pool.load page
            = (.ok pool.copies.size,
              Pool.entered { pool with cache := room, stores } page bytes))
  := by
  unfold load
  cases found : pool.cache.frame? page with
  | some frame =>
    left
    use frame, rfl
    simp [Cache.access?, found]
  | none =>
    right
    simp only [Cache.access?, found, Option.map_none]
    cases made : pool.cache.makeRoom? with
    | none =>
      left
      trivial
    | some room =>
      right
      obtain ⟨stores, eq, noted, answers, -⟩ := readStored_spec { pool with cache := room } page
      have quiet := sameWrites_readStored { pool with cache := room } page
      have failed := @ofStore_readStored { pool with cache := room } page
      rw [eq] at quiet
      refine ⟨room, stores, trivial, rfl, ⟨noted.catalog, noted.size, noted.alike⟩, quiet, ?_⟩
      dsimp only
      generalize Pool.readStored { pool with cache := room } page = outcome at eq answers failed
      obtain ⟨result, after⟩ := outcome
      obtain rfl : after = { pool with cache := room, stores } := eq
      cases result with
      | error failure =>
        left
        refine ⟨failure, ?_, rfl⟩
        rintro cause rfl
        apply failed rfl
      | ok bytes =>
        dsimp only
        by_cases size : bytes.length = pool.config.pageSize
        · right
          use bytes, answers bytes rfl, size
          rw [if_pos size]
          rfl
        · left
          rw [if_neg size]
          refine ⟨.error (.disk (.sizeMismatch pool.config.pageSize bytes.length)), ?_, rfl⟩
          rintro cause ⟨⟩
          trivial

/-! ### Fetching -/

/-- What becomes of `pool.fetch txn page access`: the lock is `.waiting` or `.deadlock`; or it is
granted, `page` is loaded, and the answer is its copy or what has failed. -/
theorem fetch_cases (pool : Pool) (txn : TransactionId) (page : PageId) (access : Access) :
  (∃ locks, pool.locks.request page txn access.lockMode = (.waiting, locks)
      ∧ pool.fetch txn page access = (.waiting, { pool with locks }))
    ∨ (∃ locks, pool.locks.request page txn access.lockMode = (.deadlock, locks)
      ∧ pool.fetch txn page access
        = (.failed (.error (.transactionAborted txn)), { pool with locks }))
    ∨ ∃ locks, pool.locks.request page txn access.lockMode = (.granted, locks)
      ∧ ((∃ copy after, Pool.load { pool with locks } page = (.ok copy, after)
          ∧ pool.fetch txn page access = (.page copy, after))
        ∨ ∃ failure after, Pool.load { pool with locks } page = (.error failure, after)
          ∧ pool.fetch txn page access = (.failed failure, after))
  := by
  unfold fetch
  rcases asked : pool.locks.request page txn access.lockMode with ⟨_ | _ | _, locks⟩
  · right; right
    use locks, rfl
    rcases loaded : Pool.load { pool with locks } page with ⟨failure | copy, after⟩
    · right
      use failure, after, rfl
      simp only [loaded]
    · left
      use copy, after, rfl
      simp only [loaded]
  · left
    exact ⟨locks, rfl, rfl⟩
  · right; left
    exact ⟨locks, rfl, rfl⟩

/-- Where the lock on `page` is granted, `room` is made for it in the cache, and the store `of` is
willing to read it, its stored bytes are entered. -/
theorem fetch_eq_entered {access : Access} {room : Cache} {of : StoreNo} {bytes : Bytes}
    (granted : (pool.locks.request page txn access.lockMode).1 = .granted)
    (absent : pool.cache.frame? page = none) (made : pool.cache.makeRoom? = some room)
    (found : pool.catalog.get? page.table = some of) (willing : (pool.store of).failingReads = [])
    (image : (pool.store of).image page = .ok bytes) (size : bytes.length = pool.config.pageSize) :
  pool.fetch txn page access
    = (.page pool.copies.size,
      entered
        { pool.setStore of ((pool.store of).note ⟨page.no, false, false⟩) with
          locks := (pool.locks.request page txn access.lockMode).2, cache := room }
        page bytes)
  := by
  rcases asked : pool.locks.request page txn access.lockMode with ⟨verdict, locks⟩
  rw [asked] at granted
  cases granted
  have missed : pool.cache.access? page = none := by
    rw [Cache.access?, absent]
    rfl
  have known : storeOf { pool with locks, cache := room } page.table = .ok of := by
    simp only [storeOf, found]
  have same : store { pool with locks, cache := room } of = pool.store of := rfl
  have size : bytes.length
      = (setStore { pool with locks, cache := room } of
          ((pool.store of).note ⟨page.no, false, false⟩)).config.pageSize := size
  have willing : (pool.store of).failingReads.contains page.no = false := by
    rw [willing]
    rfl
  simp only [fetch, asked, load, missed, made, readStored, known, same, Store.read, willing, image,
    Bool.false_eq_true, if_false, if_pos size]
  rfl

/-- If `pool.fetch txn page access` is `.waiting`, then so is the request for its lock, and nothing
but `locks` has changed. -/
theorem fetch_waiting {access : Access} (waits : (pool.fetch txn page access).1 = .waiting) :
  (pool.locks.request page txn access.lockMode).1 = .waiting
    ∧ (pool.fetch txn page access).2
      = { pool with locks := (pool.locks.request page txn access.lockMode).2 }
  := by
  obtain ⟨locks, asked, eq⟩ | ⟨locks, -, eq⟩
    | ⟨locks, -, ⟨copy, after, -, eq⟩ | ⟨failure, after, -, eq⟩⟩ :=
    pool.fetch_cases txn page access
  · rw [asked, eq]
    exact ⟨rfl, rfl⟩
  all_goals
    rw [eq] at waits
    cases waits

/-! ### Marking -/

/-- To replace the copy `no` by itself leaves `pool`. -/
theorem setCopy_self (pool : Pool) (no : CopyNo) :
  pool.setCopy no (pool.copy no) = pool
  := by
  have same : pool.copies.setIfInBounds no (pool.copy no) = pool.copies := by
    apply Array.ext
    · simp
    · intro i _ bound
      rw [Array.getElem_setIfInBounds]
      split
      · rename_i here
        subst here
        simp [copy, Array.getD, bound]
      · rfl
  rw [setCopy, same]

/-- `pool` with the copy `no` marked as changed by `txn` and put into the cache. -/
def marked (pool : Pool) (txn : TransactionId) (no : CopyNo) : Pool :=
  { pool.setCopy no ((pool.copy no).mark (some txn)) with
    cache := pool.cache.put ⟨(pool.copy no).id, no, true⟩ }

/-- What becomes of `pool.install txn no`: the copy is `marked` and put into the cache, where room
is made for it first if its page is not cached; or there is no room, and it fails with
`.poolFull`. -/
theorem install_cases (pool : Pool) (txn : TransactionId) (no : CopyNo) :
  ((pool.cache.frame? (pool.copy no).id).isSome
      ∧ pool.install txn no = (.ok (), pool.marked txn no))
    ∨ pool.cache.frame? (pool.copy no).id = none
      ∧ ((∃ room, pool.cache.makeRoom? = some room
          ∧ pool.install txn no = (.ok (), marked { pool with cache := room } txn no))
        ∨ pool.install txn no
          = (.error (.error .poolFull), pool.setCopy no ((pool.copy no).mark (some txn))))
  := by
  unfold install
  cases found : pool.cache.frame? (pool.copy no).id with
  | some frame =>
    left
    simp [isResident, Cache.contains, setCopy, Page.mark, found, marked]
  | none =>
    right
    use rfl
    cases made : pool.cache.makeRoom? with
    | none =>
      right
      simp [isResident, Cache.contains, setCopy, Page.mark, found, made]
    | some room =>
      left
      use room, rfl
      simp [isResident, Cache.contains, setCopy, Page.mark, found, made]
      rfl

theorem copy_marked (allocated : no < pool.copies.size) (other : CopyNo) :
  (pool.marked txn no).copy other
    = if other = no then (pool.copy no).mark (some txn) else pool.copy other
  := by
  have set := pool.copy_setCopy no other ((pool.copy no).mark (some txn))
  simp only [allocated, and_true] at set
  apply set

/-- `pool` with the copy `no` overwritten with `bytes` by `txn`. -/
def changed (pool : Pool) (txn : TransactionId) (no : CopyNo) (bytes : Bytes) : Pool :=
  pool.setCopy no ⟨(pool.copy no).id, bytes, some txn⟩

theorem copy_changed (allocated : no < pool.copies.size) (bytes : Bytes) (other : CopyNo) :
  (pool.changed txn no bytes).copy other
    = if other = no then ⟨(pool.copy no).id, bytes, some txn⟩ else pool.copy other
  := by
  rw [changed, copy_setCopy]
  simp only [allocated, and_true]

/-- What becomes of a copy that is overwritten with `bytes` and installed: it is put into the
cache, where room is made for it first if its page is not cached; or there is no room, and it is
`changed` apart from the cache. -/
theorem change_cases (allocated : no < pool.copies.size) (txn : TransactionId) (bytes : Bytes) :
  ((pool.cache.frame? (pool.copy no).id).isSome
      ∧ ((pool.setCopy no { pool.copy no with bytes }).install txn no).2
        = { pool.changed txn no bytes with
            cache := pool.cache.put ⟨(pool.copy no).id, no, true⟩ })
    ∨ pool.cache.frame? (pool.copy no).id = none
      ∧ ((∃ room, pool.cache.makeRoom? = some room
          ∧ ((pool.setCopy no { pool.copy no with bytes }).install txn no).2
            = { pool.changed txn no bytes with cache := room.put ⟨(pool.copy no).id, no, true⟩ })
        ∨ ((pool.setCopy no { pool.copy no with bytes }).install txn no).2
          = pool.changed txn no bytes)
  := by
  have copy : (pool.setCopy no { pool.copy no with bytes }).copy no
      = { pool.copy no with bytes } := by
    rw [copy_setCopy, if_pos ⟨rfl, allocated⟩]
  have overwritten : (pool.setCopy no { pool.copy no with bytes }).setCopy no
      ⟨(pool.copy no).id, bytes, some txn⟩ = pool.changed txn no bytes := by
    simp [setCopy, changed]
  rcases (pool.setCopy no { pool.copy no with bytes }).install_cases txn no with
    ⟨resident, eq⟩ | ⟨absent, ⟨room, made, eq⟩ | eq⟩
  · left
    rw [copy] at resident
    use resident
    rw [eq, ← overwritten, marked, copy]
    rfl
  · right
    rw [copy] at absent
    use absent
    left
    use room, made
    rw [eq, ← overwritten, marked]
    have copy' : Pool.copy { pool.setCopy no { pool.copy no with bytes } with cache := room } no
        = { pool.copy no with bytes } := copy
    rw [copy']
    rfl
  · right
    rw [copy] at absent
    use absent
    right
    rw [eq, copy, ← overwritten]
    rfl

/-- `pool.markDirty txn no` installs the copy `no` of a page that `txn` has locked exclusively, or
fails and leaves `pool`. -/
theorem markDirty_cases (pool : Pool) (txn : TransactionId) (no : CopyNo) :
  (pool.locks.modeOf? (pool.copy no).id txn = some .exclusive
      ∧ pool.markDirty txn no = pool.install txn no)
    ∨ ∃ cause, pool.markDirty txn no = (.error (.error cause), pool)
  := by
  unfold markDirty
  dsimp only
  split
  · rename_i exclusive
    left
    exact ⟨exclusive, rfl⟩
  · right
    exact ⟨_, rfl⟩

theorem installAll_singleton (pool : Pool) (txn : TransactionId) (no : CopyNo) :
  pool.installAll txn [no] = pool.install txn no
  := by
  unfold installAll
  generalize pool.install txn no = outcome
  rcases outcome with ⟨failure | _, after⟩
  · rfl
  · rfl

/-! ### Ending transactions -/

/-- `pool` with the copy `no` of a cached `page` replaced by a clean one that holds `bytes`. -/
def cleaned (pool : Pool) (page : PageId) (no : CopyNo) (bytes : Bytes) (stores : Array Store) :
    Pool :=
  { pool.setCopy no (.clean page bytes) with cache := pool.cache.setDirty page false, stores }

/-- `pool` with a cached `page` given up, whose copy is `no`. -/
def dropped (pool : Pool) (page : PageId) (no : CopyNo) (stores : Array Store) : Pool :=
  { pool.setCopy no ((pool.copy no).mark none) with cache := pool.cache.remove page, stores }

/-- What becomes of `pool.writeBack selects no`: nothing, if the copy is not to be stored; or it
cannot be written; or it is written and `cleaned`. -/
theorem writeBack_cases (pool : Pool) (selects : TransactionId → Bool)
    (named : (pool.copy no).id = page) :
  ((pool.copy no).dirtiedBy.any selects = false ∧ pool.writeBack selects no = (.ok (), pool))
    ∨ (∃ failure stores, pool.SameMedia { pool with stores }
      ∧ pool.writeBack selects no = (.error failure, { pool with stores }))
    ∨ ∃ stores, pool.writeStored page (pool.copy no).bytes = (.ok (), { pool with stores })
      ∧ pool.writeBack selects no
        = (.ok (), pool.cleaned page no (pool.copy no).bytes stores)
  := by
  unfold writeBack
  dsimp only
  cases selected : (pool.copy no).dirtiedBy.any selects with
  | false =>
    left
    exact ⟨rfl, rfl⟩
  | true =>
    right
    obtain ⟨stores, eq, -⟩ := pool.writeStored_eq page (pool.copy no).bytes
    rw [if_pos rfl, named]
    rcases written : pool.writeStored page (pool.copy no).bytes with ⟨failure | _, after⟩
    · left
      obtain rfl : after = { pool with stores } := by rw [← eq, written]
      exact ⟨failure, stores, writeStored_error written, rfl⟩
    · right
      obtain rfl : after = { pool with stores } := by rw [← eq, written]
      use stores, rfl
      simp [cleaned, setCopy, Page.mark, Page.clean, named]

/-- What becomes of `pool.restore page no`: `page` cannot be read, and the fault is passed on or
the page is `dropped`; or its copy is `cleaned` with what is stored.  There is no fault where a
page is stored. -/
theorem restore_cases (pool : Pool) (page : PageId) (no : CopyNo) :
  ∃ stores, pool.SameStores { pool with stores } ∧ pool.SameWrites { pool with stores }
    ∧ ((∃ fault, pool.stored page = none
        ∧ pool.restore page no = (.error fault, { pool with stores }))
      ∨ (∃ cause, pool.restore page no = (.ok (.error cause), pool.dropped page no stores))
      ∨ ∃ bytes, pool.stored page = some bytes
        ∧ pool.restore page no = (.ok (.ok ()), pool.cleaned page no bytes stores))
  := by
  obtain ⟨stores, eq, same, answers, faultless⟩ := pool.readStored_spec page
  have quiet := pool.sameWrites_readStored page
  rw [eq] at quiet
  use stores, same, quiet
  unfold restore
  rcases read : pool.readStored page with ⟨(cause | fault) | bytes, after⟩
  all_goals
    rw [read] at eq answers faultless
    obtain rfl : after = { pool with stores } := eq
  · right; left
    exact ⟨cause, rfl⟩
  · left
    exact ⟨fault, faultless fault rfl, rfl⟩
  · right; right
    exact ⟨bytes, answers bytes rfl, rfl⟩

variable {Keeps : Pool → Pool → Prop}

/-- `Keeps pool after`, where `writeBackAll` leaves `pool` as `after`, if `Keeps` is reflexive and
transitive and holds where `writeBack` does. -/
theorem writeBackAll_induction (refl : ∀ pool, Keeps pool pool)
    (trans : ∀ {pool middle after}, Keeps pool middle → Keeps middle after → Keeps pool after)
    (step : ∀ pool no, Keeps pool (pool.writeBack selects no).2) (pool : Pool)
    (copies : List CopyNo) :
  Keeps pool (pool.writeBackAll selects copies).2
  := by
  induction copies generalizing pool with
  | nil => apply refl
  | cons no copies ih =>
    have first := step pool no
    unfold writeBackAll
    rcases written : pool.writeBack selects no with ⟨failure | _, after⟩
    · rw [written] at first
      exact first
    · rw [written] at first
      exact trans first (ih after)

/-- `Keeps pool after`, where `restoreAll` leaves `pool` as `after`, if `Keeps` is reflexive and
transitive and holds where `restore` does. -/
theorem restoreAll_induction (refl : ∀ pool, Keeps pool pool)
    (trans : ∀ {pool middle after}, Keeps pool middle → Keeps middle after → Keeps pool after)
    (step : ∀ pool page no, Keeps pool (pool.restore page no).2) (txn : TransactionId)
    (held : List PageId) (frames : List Frame) (outcome : Except PoolError Unit) (pool : Pool) :
  Keeps pool (pool.restoreAll txn held frames outcome).2
  := by
  induction frames generalizing pool outcome with
  | nil => apply refl
  | cons frame frames ih =>
    have first := step pool frame.page frame.copy
    unfold restoreAll
    split
    · rcases restored : pool.restore frame.page frame.copy with ⟨fault | result, after⟩
      · rw [restored] at first
        exact first
      · rw [restored] at first
        exact trans first (ih _ after)
    · apply ih

/-- `pool.complete txn commits` flushes or rolls back `txn`, with a `result`; it ends there if the
`result` is a fault, and releases the locks of `txn` if not. -/
theorem complete_settles (pool : Pool) (txn : TransactionId) (commits : Bool) :
  ∃ result settled,
    (if commits then pool.flushTransaction txn else pool.rollback txn) = (result, settled)
    ∧ ((∃ fault, result = .error (.fault fault) ∧ pool.complete txn commits = (result, settled))
      ∨ (∀ fault, result ≠ .error (.fault fault))
        ∧ pool.complete txn commits = (result, settled.releaseAll txn))
  := by
  unfold complete
  rcases (if commits then pool.flushTransaction txn else pool.rollback txn) with
    ⟨(cause | fault) | _, settled⟩
  · refine ⟨_, settled, rfl, .inr ⟨nofun, rfl⟩⟩
  · refine ⟨_, settled, rfl, .inl ⟨fault, rfl, rfl⟩⟩
  · refine ⟨_, settled, rfl, .inr ⟨nofun, rfl⟩⟩

end StorageEngine.Pool

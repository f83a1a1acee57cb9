import StorageEngine.Proofs.System.Arranged

/-!
# Pages whose length a word can tell

If a word can tell the length of every page that a pool is given, then it can tell that of every
page that the pool has at any time, in memory and in its stores (`Pool.ReachedShort.short`),
whatever is asked of the pool and whatever fails.
-/

namespace StorageEngine

/-! ### Stores -/

/-- What `file.read no` answers is no longer than a page. -/
theorem PageFile.length_read_le {file : PageFile} {no : PageNo} {bytes : Bytes}
    (eq : file.read no = .ok bytes) :
  bytes.length ≤ file.pageSize
  := by
  have page : bytes = file.page no := by
    simp only [read, orFault, bind, Except.bind, pure, Except.pure, throw, throwThe,
      MonadExceptOf.throw] at eq
    repeat' split at eq
    all_goals cases eq
    rfl
  rw [page, page_eq]
  apply List.length_take_le

namespace Store

variable {store grown : Store} {page : PageId} {bytes : Bytes}

/-- Whether a word can tell the length of every page of `store`. -/
def Short (store : Store) : Prop :=
  match store.medium with
  | .heap file => file.pageSize < UInt32.size
  | .counters pages => ∀ bytes ∈ pages, bytes.length < UInt32.size

theorem Short.of_medium (short : store.Short) (same : grown.medium = store.medium) :
  grown.Short
  := by
  unfold Short
  rw [same]
  apply short

theorem Short.image (short : store.Short) (stored : store.image page = .ok bytes) :
  bytes.length < UInt32.size
  := by
  unfold Short at short
  unfold Store.image at stored
  cases medium : store.medium with
  | heap file =>
    simp only [medium, bind, Except.bind] at short stored
    cases own : store.checkTable page with
    | error failure => simp [own] at stored
    | ok _ =>
      cases read : file.read page.no with
      | error failure => simp [own, read, widen] at stored
      | ok found =>
        obtain rfl : found = bytes := by simpa [own, read, widen] using stored
        apply Nat.lt_of_le_of_lt (PageFile.length_read_le read) short
  | counters pages =>
    simp only [medium] at short stored
    split at stored
    · rename_i found
      cases stored
      apply short _ (Array.mem_of_getElem? found)
    · cases stored

theorem Short.rewritten (short : store.Short) (length : bytes.length < UInt32.size)
    (rewritten : store.Rewritten page bytes grown) :
  grown.Short
  := by
  cases rewritten with
  | heap medium =>
    unfold Short at short ⊢
    simp only [medium] at short
    exact short
  | counters medium =>
    unfold Short at short ⊢
    simp only [medium] at short
    intro found member
    rcases Array.mem_or_eq_of_mem_setIfInBounds member with old | rfl
    · apply short found old
    · apply length

/-- To write `bytes` that are shorter than `UInt32.size` keeps a store `Short`. -/
theorem Short.write (short : store.Short) (page : PageId) (length : bytes.length < UInt32.size) :
  (store.write page bytes).2.Short
  := by
  rcases eq : store.write page bytes with ⟨result, grown⟩
  cases Writing.of_write eq with
  | refused => exact short
  | stored rewritten =>
    have noted : (store.note ⟨page.no, true, false⟩).Short := short.of_medium rfl
    exact noted.rewritten length rewritten

/-- `store.allocate` keeps a store `Short`, whatever comes of it. -/
theorem Short.allocate {result : Except (Failure PoolError) PageId} (short : store.Short)
    (eq : store.allocate = (result, grown)) :
  grown.Short
  := by
  cases Allocation.of_allocate eq with
  | refused => exact short
  | torn medium | whole medium =>
    unfold Short at short ⊢
    simp only [medium] at short
    exact short

end Store

/-! ### Pools -/

namespace Pool

variable {pool after : Pool} {may : Freedom} {page : PageId} {bytes : Bytes} {no : CopyNo}
  {txn : TransactionId}

/-- Whether a word can tell the length of every page that `pool` has, in memory and in its stores,
and of those that it may load. -/
structure Short (pool : Pool) : Prop where
  config : pool.config.pageSize < UInt32.size
  stores : ∀ no, (pool.store no).Short
  copies : ∀ no < pool.copies.size, (pool.copy no).bytes.length < UInt32.size

theorem Short.stored (short : pool.Short) (stored : pool.stored page = some bytes) :
  bytes.length < UInt32.size
  := by
  obtain ⟨no, -, image⟩ := stored_eq_some_iff.mp stored
  apply (short.stores no).image image

/-- To replace the store `no` by a `Short` one keeps a pool `Short`. -/
theorem Short.setStore (short : pool.Short) {store : Store} (other : store.Short) (no : StoreNo) :
  (pool.setStore no store).Short
  := by
  refine ⟨short.config, ?_, short.copies⟩
  intro no'
  rw [store_setStore]
  split
  · apply other
  · apply short.stores

theorem Short.writeStored (short : pool.Short) (page : PageId)
    (length : bytes.length < UInt32.size) :
  (pool.writeStored page bytes).2.Short
  := by
  unfold Pool.writeStored
  cases pool.storeOf page.table with
  | error failure => exact short
  | ok no => exact short.setStore ((short.stores no).write page length) no

/-- To replace the copy `no` by one shorter than `UInt32.size` keeps a pool `Short`. -/
theorem Short.setCopy (short : pool.Short) {copy : Page}
    (length : no < pool.copies.size → copy.bytes.length < UInt32.size) :
  (pool.setCopy no copy).Short
  := by
  refine ⟨short.config, short.stores, ?_⟩
  intro other allocated
  rw [copy_setCopy]
  split
  · rename_i here
    apply length here.2
  · apply short.copies
    simpa [Pool.setCopy] using allocated

/-- A `move` keeps a pool `Short`. -/
theorem Short.move (short : pool.Short) (move : Move may pool after) :
  after.Short
  := by
  cases move with
  | relock => exact ⟨short.config, short.stores, short.copies⟩
  | note same =>
    refine ⟨short.config, fun no => ?_, short.copies⟩
    exact (short.stores no).of_medium (same.medium no)
  | @append no page store eq => apply short.setStore ((short.stores no).allocate eq)
  | @spoil no bytes _ _ length =>
    apply short.setCopy
    intro old
    dsimp only
    rw [length]
    apply short.copies no old
  | page page elsewhere fate =>
    refine ⟨elsewhere.config ▸ short.config, fun no => ?_, fun no allocated => ?_⟩
    · cases fate with
      | absent stores | kept stores | read _ stores | changed _ _ stores =>
        rw [store, stores]
        apply short.stores
      | written no' _ old _ _ _ _ eq =>
        have written := (short.writeStored page (short.copies no' old)).stores no
        rw [eq] at written
        exact written
    · cases elsewhere.copy no allocated with
      | kept old copy =>
        rw [copy]
        apply short.copies no old
      | edited old _ _ length =>
        rw [length]
        apply short.copies no old
      | read _ copy stored =>
        rw [copy]
        apply short.stored stored

theorem Short.moves (short : pool.Short) (moves : Moves may pool after) :
  after.Short
  := by
  induction moves with
  | refl => apply short
  | tail _ move ih => apply ih.move move

theorem Short.load (short : pool.Short) (page : PageId) :
  (pool.load page).2.Short
  := by
  obtain ⟨frame, -, eq⟩ | ⟨-, -, eq⟩
    | ⟨room, stores, -, -, same, -, ⟨failure, -, eq⟩ | ⟨bytes, -, length, eq⟩⟩ :=
    pool.load_cases page
  · rw [eq]
    exact ⟨short.config, short.stores, short.copies⟩
  · rw [eq]
    exact short
  · rw [eq]
    exact ⟨short.config, fun no => (short.stores no).of_medium (same.alike no).medium, short.copies⟩
  · rw [eq]
    refine ⟨short.config, fun no => (short.stores no).of_medium (same.alike no).medium, ?_⟩
    intro no allocated
    rw [copy_entered]
    split
    · exact length ▸ short.config
    · rename_i old
      apply short.copies
      have bound : no < pool.copies.size + 1 := by simpa [entered] using allocated
      exact Nat.lt_of_le_of_ne (Nat.le_of_lt_succ bound) old

theorem Short.fetch (short : pool.Short) (txn : TransactionId) (page : PageId) (access : Access) :
  (pool.fetch txn page access).2.Short
  := by
  have relocked : ∀ locks, Pool.Short { pool with locks } := fun _ =>
    ⟨short.config, short.stores, short.copies⟩
  obtain ⟨locks, -, eq⟩ | ⟨locks, -, eq⟩
    | ⟨locks, -, ⟨copy, after, loaded, eq⟩ | ⟨failure, after, loaded, eq⟩⟩ :=
    pool.fetch_cases txn page access
  · rw [eq]
    exact relocked locks
  · rw [eq]
    exact relocked locks
  all_goals
    have short := (relocked locks).load page
    rw [loaded] at short
    rw [eq]
    exact short

theorem Short.install (short : pool.Short) (txn : TransactionId) (no : CopyNo) :
  (pool.install txn no).2.Short
  := by
  have set : (pool.setCopy no ((pool.copy no).mark (some txn))).Short :=
    short.setCopy (short.copies no)
  obtain ⟨-, eq⟩ | ⟨-, ⟨room, -, eq⟩ | eq⟩ := pool.install_cases txn no
  all_goals
    rw [eq]
    exact ⟨set.config, set.stores, set.copies⟩

theorem Short.markDirty (short : pool.Short) (txn : TransactionId) (no : CopyNo) :
  (pool.markDirty txn no).2.Short
  := by
  obtain ⟨-, eq⟩ | ⟨cause, eq⟩ := pool.markDirty_cases txn no
  · rw [eq]
    apply short.install
  · rw [eq]
    exact short

/-- The deeds of a call keep a pool `Short`. -/
theorem Does.short {hand : List CopyNo} (does : pool.Does txn hand after) (short : pool.Short) :
  after.Short
  := by
  induction does with
  | nothing => exact short
  | relock _ _ ih => exact ih ⟨short.config, short.stores, short.copies⟩
  | fetch page access _ ih => exact ih (short.fetch txn page access)
  | @edit _ pool _ no bytes length _ ih =>
    apply ih
    apply short.setCopy
    intro old
    exact length ▸ short.copies no old
  | install _ _ ih => exact ih (short.install txn _)
  | append no _ ih => exact ih (short.setStore ((short.stores no).allocate rfl) no)

end Pool

/-! ### Whatever is asked of a pool -/

/-- Whether a word can tell the length of every page that a step brings in. -/
def TableAct.Short : TableAct → Prop
  | .use (.update _ _ bytes) => bytes.length < UInt32.size
  | .edit _ bytes => bytes.length < UInt32.size
  | .addTable store => store.Short
  | .alter _ store => store.Short
  | _ => True

namespace Pool

variable {start pool : Pool} {act : TableAct}

/-- A step that brings in short pages keeps pages short. -/
theorem Short.performTable (short : pool.Short) (tidy : pool.Tidy) (brings : act.Short) :
  (pool.performTable act).Short
  := by
  cases act with
  | use act =>
    cases act with
    | enter actor request => exact (request.does_enter actor pool).short short
    | round actor call => exact (call.does_round actor pool).short short
    | update actor no bytes =>
      have brings : bytes.length < UInt32.size := brings
      apply Short.markDirty
      apply short.setCopy
      intro _
      apply brings
    | mark actor no => apply short.markDirty
    | complete actor commits => apply short.moves (moves_end tidy actor commits)
    | flushPage page =>
      have writes : ending.writes := trivial
      apply short.moves (moves_flushPage tidy writes page)
    | flushTransaction actor =>
      have writes : ending.writes := trivial
      apply short.moves (moves_flush tidy writes (fun _ => id) _).1
    | flushAll =>
      have writes : ending.writes := trivial
      apply short.moves (moves_flush tidy writes (fun _ => id) _).1
    | discard page => exact ⟨short.config, short.stores, short.copies⟩
    | release actor page => exact ⟨short.config, short.stores, short.copies⟩
    | disrupt no =>
      apply short.setStore
      exact (short.stores no).of_medium rfl
  | edit no bytes =>
    apply short.setCopy
    intro _
    apply brings
  | addTable store =>
    refine ⟨short.config, fun no => ?_, short.copies⟩
    rw [Pool.performTable, store_addTable]
    split
    · apply brings
    · apply short.stores
  | removeTable table => exact ⟨short.config, short.stores, short.copies⟩
  | alter no store => apply short.setStore brings

/-- `pool.performTable act` is `Tidy` if `pool` is and admits `act`. -/
theorem Tidy.performTable (tidy : pool.Tidy) (admitted : pool.admits act) :
  (pool.performTable act).Tidy
  := by
  have follows : Follows (act.locker?.getD default) pool (pool.performTable act) := by
    apply follows_performTable tidy admitted
    intro actor acts
    rw [Option.mem_def.mp acts]
    rfl
  exact follows.tidy

/-- The pools that steps lead to from `start` that bring in no pages but short ones, of any
transactions in any order. -/
inductive ReachedShort (start : Pool) : Pool → Prop where
  | start : ReachedShort start start
  | act {pool : Pool} (before : ReachedShort start pool) (act : TableAct)
      (admitted : pool.admits act) (brings : act.Short) :
      ReachedShort start (pool.performTable act)

/-- Whatever is asked of a pool, its pages stay short. -/
theorem ReachedShort.short (reached : start.ReachedShort pool) (tidy : start.Tidy)
    (short : start.Short) :
  pool.Tidy ∧ pool.Short
  := by
  induction reached with
  | start => exact ⟨tidy, short⟩
  | act _ act admitted brings ih =>
    obtain ⟨tidy, short⟩ := ih
    exact ⟨tidy.performTable admitted, short.performTable tidy brings⟩

end Pool

end StorageEngine

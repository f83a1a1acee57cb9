import StorageEngine.Proofs.System.Following

/-!
# Tables in order

Tables may come and go, and what they hold may change at any time, but a store stays with its table
and its pages do not become empty (`Pool.arranges`).  Then every table is kept in a store of its
own, whatever is asked of the pool (`Pool.Ordered.arranged`): nothing that is done to a pool moves
a table but a registration or a removal (`Pool.unmoved_perform`).
-/

namespace StorageEngine

namespace Pool

variable {may : Freedom} {pool middle after : Pool} {no : CopyNo} {txn : TransactionId}

/-! ### What leaves tables where they are -/

/-- A `move` makes no new store. -/
theorem Move.size (move : Move may pool after) :
  after.stores.size = pool.stores.size
  := by
  have set : ∀ no store, (pool.setStore no store).stores.size = pool.stores.size := fun _ _ =>
    Array.size_setIfInBounds ..
  cases move with
  | relock | spoil => rfl
  | note same => apply same.size
  | append => apply set
  | page page elsewhere fate =>
    cases fate with
    | absent stores | kept stores | read _ stores | changed _ _ stores => rw [stores]
    | written no _ _ _ _ _ _ eq =>
      have same : after.stores = (pool.writeStored page (pool.copy no).bytes).2.stores := by
        rw [eq]
      rw [same, writeStored]
      cases pool.storeOf page.table with
      | error failure => rfl
      | ok no => apply set

/-- Whether the tables are kept in the same stores in `after` as in `pool`, and there are no
others. -/
structure Unmoved (pool after : Pool) : Prop where
  tables : pool.SameTables after
  size : after.stores.size = pool.stores.size

theorem Unmoved.refl (pool : Pool) :
  pool.Unmoved pool
  := ⟨.refl pool, rfl⟩

theorem Unmoved.trans (first : pool.Unmoved middle) (second : middle.Unmoved after) :
  pool.Unmoved after
  := ⟨first.tables.trans second.tables, second.size.trans first.size⟩

theorem Unmoved.of_stores (catalog : after.catalog = pool.catalog)
    (stores : after.stores = pool.stores) :
  pool.Unmoved after
  := by
  have same : ∀ no, after.store no = pool.store no := fun no => by
    rw [store, store, stores]
  refine ⟨⟨catalog, ?_, ?_⟩, by rw [stores]⟩
  · intro no
    rw [same]
  · intro no
    rw [same]

theorem Moves.unmoved (moves : Moves may pool after) :
  pool.Unmoved after
  := by
  use moves.sameTables
  induction moves with
  | refl => rfl
  | tail _ move ih => apply move.size.trans ih

theorem Unmoved.of_same (same : pool.SameStores after) :
  pool.Unmoved after
  where
  tables := ⟨same.catalog, fun no => (same.alike no).table, fun no => by
    simp only [Store.shape, (same.alike no).medium]⟩
  size := same.size

theorem unmoved_load (pool : Pool) (page : PageId) :
  pool.Unmoved (pool.load page).2
  := by
  obtain ⟨frame, -, eq⟩ | ⟨-, -, eq⟩
    | ⟨room, stores, -, -, same, -, ⟨failure, -, eq⟩ | ⟨bytes, -, -, eq⟩⟩ := pool.load_cases page
  · rw [eq]
    exact .of_stores rfl rfl
  · rw [eq]
    exact .refl pool
  all_goals
    obtain ⟨⟨catalog, table, shape⟩, size⟩ := Unmoved.of_same same
    rw [eq]
    exact ⟨⟨catalog, table, shape⟩, size⟩

theorem unmoved_fetch (pool : Pool) (txn : TransactionId) (page : PageId) (access : Access) :
  pool.Unmoved (pool.fetch txn page access).2
  := by
  have relocked : ∀ locks, pool.Unmoved { pool with locks } := fun _ => .of_stores rfl rfl
  obtain ⟨locks, -, eq⟩ | ⟨locks, -, eq⟩
    | ⟨locks, -, ⟨copy, after, loaded, eq⟩ | ⟨failure, after, loaded, eq⟩⟩ :=
    pool.fetch_cases txn page access
  · rw [eq]
    exact relocked locks
  · rw [eq]
    exact relocked locks
  all_goals
    have same := unmoved_load { pool with locks } page
    rw [loaded] at same
    rw [eq]
    exact (relocked locks).trans same

theorem unmoved_install (pool : Pool) (txn : TransactionId) (no : CopyNo) :
  pool.Unmoved (pool.install txn no).2
  := by
  obtain ⟨-, eq⟩ | ⟨-, ⟨room, -, eq⟩ | eq⟩ := pool.install_cases txn no
  all_goals
    rw [eq]
    exact .of_stores rfl rfl

/-- Appending a page to the store `no` moves no table, whatever comes of it. -/
theorem unmoved_append (pool : Pool) (no : StoreNo) :
  pool.Unmoved (pool.setStore no (pool.store no).allocate.2)
  := by
  have move : Move anything pool (pool.setStore no (pool.store no).allocate.2) := .append rfl
  exact Moves.unmoved (.single move)

theorem unmoved_markDirty (pool : Pool) (txn : TransactionId) (no : CopyNo) :
  pool.Unmoved (pool.markDirty txn no).2
  := by
  obtain ⟨-, eq⟩ | ⟨cause, eq⟩ := pool.markDirty_cases txn no
  · rw [eq]
    apply unmoved_install
  · rw [eq]
    apply Unmoved.refl

theorem unmoved_writeBackAll (tidy : pool.Tidy) (selects : TransactionId → Bool) :
  pool.Unmoved (pool.writeBackAll selects (pool.cache.frames.map Frame.copy)).2
  := by
  have writes : ending.writes := trivial
  exact (moves_flush tidy writes (fun _ => id) selects).1.unmoved

theorem unmoved_flushPage (tidy : pool.Tidy) (page : PageId) :
  pool.Unmoved (pool.flushPage page).2
  := by
  have writes : ending.writes := trivial
  exact (moves_flushPage tidy writes page).unmoved

/-- The deeds of a call leave every table in its store: `pool.Unmoved after`. -/
theorem Does.unmoved {hand : List CopyNo} (does : pool.Does txn hand after) :
  pool.Unmoved after
  := by
  induction does with
  | nothing => apply Unmoved.refl
  | @relock _ pool _ locks _ ih =>
    have same : pool.Unmoved { pool with locks } := .of_stores rfl rfl
    exact same.trans ih
  | fetch page access _ ih => exact (unmoved_fetch _ txn page access).trans ih
  | @edit _ pool _ no bytes _ _ ih =>
    have same : pool.Unmoved (pool.setCopy no { pool.copy no with bytes }) := .of_stores rfl rfl
    exact same.trans ih
  | install _ _ ih => exact (unmoved_install _ txn _).trans ih
  | append no _ ih => exact (unmoved_append _ no).trans ih

/-! ### Whatever is asked of a pool -/

variable {start : Pool} {act : TableAct}

/-- `pool.perform act` moves no table and changes no size of pages: `pool.Unmoved`. -/
theorem unmoved_perform (tidy : pool.Tidy) (act : PoolAct) :
  pool.Unmoved (pool.perform act)
  := by
  cases act with
  | enter actor request => exact (request.does_enter actor pool).unmoved
  | round actor call => exact (call.does_round actor pool).unmoved
  | update actor no bytes =>
    have edited : pool.Unmoved (pool.setCopy no { pool.copy no with bytes }) :=
      .of_stores rfl rfl
    apply edited.trans
    apply unmoved_markDirty
  | mark actor no => apply unmoved_markDirty
  | complete actor commits => apply (moves_end tidy actor commits).unmoved
  | flushPage page => apply unmoved_flushPage tidy
  | flushTransaction actor => apply unmoved_writeBackAll tidy
  | flushAll => apply unmoved_writeBackAll tidy
  | discard page => exact .of_stores rfl rfl
  | release actor page => exact .of_stores rfl rfl
  | disrupt no failingReads failingWrites failingCount appendLimit =>
    have moves : Moves anything pool
        (pool.perform (.disrupt no failingReads failingWrites failingCount appendLimit)) :=
      .single (.disrupt no failingReads failingWrites failingCount appendLimit)
    exact moves.unmoved

/-- Whether every table in the catalog of `pool` is kept in a store of its own that exists, and no
page of a file is empty. -/
structure Arranged (pool : Pool) : Prop where
  catalogued : pool.Catalogued
  paged : ∀ no, (pool.store no).Paged

/-- Whether a step on `pool` leaves tables in order: a table that is registered has pages that are
not empty, and what happens to a store neither moves it to another table nor empties its pages. -/
def arranges (pool : Pool) : TableAct → Prop
  | .addTable store => store.Paged
  | .alter no store => store.table = (pool.store no).table ∧ store.Paged
  | _ => True

theorem Arranged.unmoved (arranged : pool.Arranged) (unmoved : pool.Unmoved after) :
  after.Arranged
  := by
  constructor
  · intro table no found
    rw [unmoved.tables.catalog] at found
    rw [unmoved.size, unmoved.tables.table]
    apply arranged.catalogued table no found
  · intro no pageSize shape
    apply arranged.paged no pageSize (unmoved.tables.shape no ▸ shape)

/-- After `pool.addTable store` the next number is that of `store`, and the other stores keep
theirs. -/
theorem store_addTable (pool : Pool) (store : Store) (no : StoreNo) :
  (pool.addTable store).store no
    = if no = pool.stores.size then store else pool.store no
  := by
  simp only [addTable, newStore, Pool.store, Array.getD_eq_getD_getElem?, Array.getElem?_push]
  by_cases here : no = pool.stores.size <;> simp [here]

theorem Arranged.addTable (arranged : pool.Arranged) {store : Store} (paged : store.Paged) :
  (pool.addTable store).Arranged
  := by
  constructor
  · intro table no found
    have size : (pool.addTable store).stores.size = pool.stores.size + 1 := Array.size_push ..
    have found : (pool.catalog.insert store.table pool.stores.size).get? table = some no := found
    rw [Registry.get?_insert] at found
    rw [store_addTable, size]
    split at found
    · rename_i here
      cases found
      rw [if_pos rfl, here]
      exact ⟨Nat.lt_succ_self _, rfl⟩
    · obtain ⟨inside, own⟩ := arranged.catalogued table no found
      rw [if_neg (Nat.ne_of_lt inside)]
      exact ⟨Nat.lt_succ_of_lt inside, own⟩
  · intro no
    rw [store_addTable]
    split
    · apply paged
    · apply arranged.paged

theorem Arranged.removeTable (arranged : pool.Arranged) (table : TableId) :
  (pool.removeTable table).Arranged
  := by
  use ?_, arranged.paged
  intro other no found
  have found : (pool.catalog.erase table).get? other = some no := found
  rw [Registry.get?_erase] at found
  split at found
  · cases found
  · apply arranged.catalogued other no found

theorem Arranged.alter (arranged : pool.Arranged) {no : StoreNo} {store : Store}
    (own : store.table = (pool.store no).table) (paged : store.Paged) :
  (pool.setStore no store).Arranged
  := by
  constructor
  · intro table other found
    have size : (pool.setStore no store).stores.size = pool.stores.size :=
      Array.size_setIfInBounds ..
    obtain ⟨inside, named⟩ := arranged.catalogued table other found
    use size ▸ inside
    rw [store_setStore]
    split
    · rename_i here
      rw [own, ← here.1, named]
    · apply named
  · intro other
    rw [store_setStore]
    split
    · apply paged
    · apply arranged.paged

/-- `pool.performTable act` is `Arranged` if `pool` is and `pool.arranges act`. -/
theorem Arranged.performTable (arranged : pool.Arranged) (tidy : pool.Tidy)
    (orderly : pool.arranges act) :
  (pool.performTable act).Arranged
  := by
  cases act with
  | use act => apply arranged.unmoved (unmoved_perform tidy act)
  | edit no bytes => exact arranged.unmoved (.of_stores rfl rfl)
  | addTable store => apply arranged.addTable orderly
  | removeTable table => apply arranged.removeTable
  | alter no store => apply arranged.alter orderly.1 orderly.2

/-- The pools that steps lead to from `start` that leave tables in order, of any transactions in
any order. -/
inductive Ordered (start : Pool) : Pool → Prop where
  | start : Ordered start start
  | act {pool : Pool} (before : Ordered start pool) (act : TableAct) (admitted : pool.admits act)
      (orderly : pool.arranges act) : Ordered start (pool.performTable act)

theorem Ordered.reached (ordered : start.Ordered pool) :
  start.Reached pool
  := by
  induction ordered with
  | start => apply Reached.start
  | act _ act admitted _ ih => apply ih.act act admitted

/-- In an `Ordered` run from a pool that is `Arranged`, every pool is. -/
theorem Ordered.arranged (ordered : start.Ordered pool) (sound : start.Sound)
    (arranged : start.Arranged) :
  pool.Arranged
  := by
  induction ordered with
  | start => apply arranged
  | act before act _ orderly ih => apply ih.performTable (before.reached.sound sound).tidy orderly

end Pool

end StorageEngine

import StorageEngine.Cache
import StorageEngine.Config
import StorageEngine.Lock.Table
import StorageEngine.Store

/-!
# Buffer pools

A buffer pool shares cached pages between transactions.  It knows the tables by a catalog,
which names the store of each.  A store keeps its number when its table is taken out of the
catalog or given another store, and a copy of a page keeps its number when its page leaves the
cache: who was handed a copy goes on using that copy.
-/

namespace StorageEngine

/-- The number of a store. -/
abbrev StoreNo := Nat

/-- A buffer pool, with the stores behind it. -/
structure Pool where
  config : PoolConfig
  cache : Cache
  /-- The copies of pages in memory, by number. -/
  copies : Array Page
  locks : LockTable
  /-- The store of each table. -/
  catalog : Registry TableId StoreNo
  /-- The stores, by number. -/
  stores : Array Store

namespace Pool

/-- What an operation on a pool results in, and the pool after it. -/
abbrev Result (α : Type) := Except (Failure PoolError) α × Pool

/-- A pool without cached pages and locks over given stores, if it has room for a page. -/
def create (config : PoolConfig) (catalog : Registry TableId StoreNo) (stores : Array Store) :
    Except (Failure PoolError) Pool :=
  if config.poolSize = 0 then .error (.error (.misuse .noCapacity))
  else
    match Cache.empty config.poolSize with
    | .error fault => .error (.fault fault)
    | .ok cache => .ok { config, cache, copies := #[], locks := .empty, catalog, stores }

/-! ## Copies -/

/-- The copy with a given number. -/
def copy (pool : Pool) (no : CopyNo) : Page := pool.copies.getD no default

/-- The pool with a copy replaced. -/
def setCopy (pool : Pool) (no : CopyNo) (page : Page) : Pool :=
  { pool with copies := pool.copies.setIfInBounds no page }

/-- The pool with a new copy, and the number of that copy. -/
def newCopy (pool : Pool) (page : Page) : CopyNo × Pool :=
  (pool.copies.size, { pool with copies := pool.copies.push page })

/-- Replacing a copy leaves the other copies. -/
theorem copy_setCopy (pool : Pool) (no other : CopyNo) (page : Page) :
  (pool.setCopy no page).copy other
    = if other = no ∧ no < pool.copies.size then page else pool.copy other
  := by
  simp only [copy, setCopy, Array.getD_eq_getD_getElem?, Array.getElem?_setIfInBounds]
  by_cases h : other = no
  · subst h
    by_cases g : other < pool.copies.size <;> simp [g]
  · simp [h, Ne.symm h]

/-- A new copy has a number of its own. -/
theorem copy_newCopy (pool : Pool) (page : Page) (other : CopyNo) :
  (pool.newCopy page).2.copy other
    = if other = (pool.newCopy page).1 then page else pool.copy other
  := by
  simp only [copy, newCopy, Array.getD_eq_getD_getElem?, Array.getElem?_push]
  by_cases h : other = pool.copies.size <;> simp [h]

/-! ## Stores -/

/-- The store with a given number. -/
def store (pool : Pool) (no : StoreNo) : Store := pool.stores.getD no default

/-- The pool with a store replaced. -/
def setStore (pool : Pool) (no : StoreNo) (store : Store) : Pool :=
  { pool with stores := pool.stores.setIfInBounds no store }

/-- The pool with a new store, and the number of that store. -/
def newStore (pool : Pool) (store : Store) : StoreNo × Pool :=
  (pool.stores.size, { pool with stores := pool.stores.push store })

/-- Replacing a store leaves the other stores. -/
theorem store_setStore (pool : Pool) (no other : StoreNo) (store : Store) :
  (pool.setStore no store).store other
    = if other = no ∧ no < pool.stores.size then store else pool.store other
  := by
  simp only [Pool.store, setStore, Array.getD_eq_getD_getElem?, Array.getElem?_setIfInBounds]
  by_cases h : other = no
  · subst h
    by_cases g : other < pool.stores.size <;> simp [g]
  · simp [h, Ne.symm h]

/-- The number of a table's store. -/
def storeOf (pool : Pool) (table : TableId) : Except (Failure PoolError) StoreNo :=
  match pool.catalog.get? table with
  | some no => .ok no
  | none => .error (.error (.tableNotFound table))

/-- Reads a page from its table's store. -/
def readStored (pool : Pool) (page : PageId) : Result Bytes :=
  match pool.storeOf page.table with
  | .error failure => (.error failure, pool)
  | .ok no =>
    let (result, store) := (pool.store no).read page
    (result, pool.setStore no store)

/-- Writes a page to its table's store. -/
def writeStored (pool : Pool) (page : PageId) (bytes : Bytes) : Result Unit :=
  match pool.storeOf page.table with
  | .error failure => (.error failure, pool)
  | .ok no =>
    let (result, store) := (pool.store no).write page bytes
    (result, pool.setStore no store)

/-! ## Locks -/

/-- Whether a transaction holds a lock on a page. -/
def holdsLock (pool : Pool) (txn : TransactionId) (page : PageId) : Bool :=
  pool.locks.holds page txn

/-- Releases a transaction's lock on a page before the transaction ends.  The transaction has
not changed the page and relies on nothing that it read there. -/
def releasePage (pool : Pool) (txn : TransactionId) (page : PageId) : Pool :=
  { pool with locks := pool.locks.release page txn }

/-! ## Residency -/

/-- The number of cached pages. -/
def residentCount (pool : Pool) : Nat := pool.cache.size

/-- Whether a page is cached. -/
def isResident (pool : Pool) (page : PageId) : Bool := pool.cache.contains page

/-- Drops a page from the cache without storing it. -/
def discard (pool : Pool) (page : PageId) : Pool :=
  { pool with cache := pool.cache.remove page }

end Pool

end StorageEngine

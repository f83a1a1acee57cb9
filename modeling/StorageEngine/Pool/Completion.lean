import StorageEngine.Pool.Basic

/-!
# Storing changes and ending transactions

A page that a transaction has changed is stored when the transaction commits.  Until then the
store holds the page as it was before, so a transaction is undone by reading its pages again.
A transaction loses all of its locks when it ends, also if storing or reading a page fails.
-/

namespace StorageEngine.Pool

/-! ## Storing changes -/

/-- Stores a copy and marks it clean, if it was changed by a transaction that `selects`
accepts. -/
def writeBack (pool : Pool) (selects : TransactionId → Bool) (copy : CopyNo) : Result Unit :=
  let page := pool.copy copy
  if page.dirtiedBy.any selects then
    match pool.writeStored page.id page.bytes with
    | (.error failure, pool) => (.error failure, pool)
    | (.ok (), pool) =>
      let pool := pool.setCopy copy (page.mark none)
      (.ok (), { pool with cache := pool.cache.setDirty page.id false })
  else (.ok (), pool)

/-- Stores copies one by one, up to the first failure. -/
def writeBackAll (pool : Pool) (selects : TransactionId → Bool) : List CopyNo → Result Unit
  | [] => (.ok (), pool)
  | copy :: copies =>
    match pool.writeBack selects copy with
    | (.error failure, pool) => (.error failure, pool)
    | (.ok (), pool) => pool.writeBackAll selects copies

/-- Stores a cached page if it is dirty. -/
def flushPage (pool : Pool) (page : PageId) : Result Unit :=
  match pool.cache.frame? page with
  | none => (.error (.error (.pageNotFound page)), pool)
  | some frame => pool.writeBack (fun _ => true) frame.copy

/-- Stores every dirty page that is cached, also those of transactions that have not ended. -/
def flushAll (pool : Pool) : Result Unit :=
  pool.writeBackAll (fun _ => true) (pool.cache.frames.map Frame.copy)

/-- Stores every cached page that a transaction has changed. -/
def flushTransaction (pool : Pool) (txn : TransactionId) : Result Unit :=
  pool.writeBackAll (· = txn) (pool.cache.frames.map Frame.copy)

/-! ## Undoing changes -/

/-- The first of two outcomes that is an error. -/
def firstError (first second : Except PoolError Unit) : Except PoolError Unit :=
  match first with
  | .ok () => second
  | .error cause => .error cause

/-- Reads a page again into its cached copy.  A page that cannot be read leaves the cache, so
that its changes are seen by nobody. -/
def restore (pool : Pool) (page : PageId) (copy : CopyNo) :
    Except Fault (Except PoolError Unit) × Pool :=
  match pool.readStored page with
  | (.error (.fault fault), pool) => (.error fault, pool)
  | (.error (.error cause), pool) =>
    let pool := pool.setCopy copy ((pool.copy copy).mark none)
    (.ok (.error cause), { pool with cache := pool.cache.remove page })
  | (.ok bytes, pool) =>
    let pool := pool.setCopy copy (.clean page bytes)
    (.ok (.ok ()), { pool with cache := pool.cache.setDirty page false })

/-- Restores those of the given frames that a transaction holds a lock on, as told by `held`,
or has changed.  Every one is tried; the first error is reported. -/
def restoreAll (pool : Pool) (txn : TransactionId) (held : List PageId) :
    List Frame → Except PoolError Unit → Result Unit
  | [], outcome => (outcome.mapError .error, pool)
  | frame :: frames, outcome =>
    if held.contains frame.page || (pool.copy frame.copy).dirtiedBy = some txn then
      match pool.restore frame.page frame.copy with
      | (.error fault, pool) => (.error (.fault fault), pool)
      | (.ok restored, pool) => pool.restoreAll txn held frames (firstError outcome restored)
    else pool.restoreAll txn held frames outcome

/-- Restores every cached page that a transaction holds a lock on or has changed. -/
def rollback (pool : Pool) (txn : TransactionId) : Result Unit :=
  pool.restoreAll txn (pool.locks.heldPages txn) pool.cache.frames (.ok ())

/-! ## Ending transactions -/

/-- The pool after a transaction released all of its locks. -/
def releaseAll (pool : Pool) (txn : TransactionId) : Pool :=
  { pool with locks := pool.locks.releaseAll txn }

/-- Ends a transaction: its changes are stored if it commits and undone if not, and its locks
are released. -/
def complete (pool : Pool) (txn : TransactionId) (commits : Bool) : Result Unit :=
  match if commits then pool.flushTransaction txn else pool.rollback txn with
  | (.error (.fault fault), pool) => (.error (.fault fault), pool)
  | (result, pool) => (result, pool.releaseAll txn)

end StorageEngine.Pool

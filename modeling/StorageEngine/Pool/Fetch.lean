import StorageEngine.Pool.Basic

/-!
# Fetching and changing pages

A page is fetched under a lock: shared to read it, exclusive to change it.  A page that is not
cached is read from its table's store, in place of the least recently accessed clean page if
the cache is full.  Who has changed a copy in place marks it, which puts that copy into the
cache, in place of any other copy of its page.
-/

namespace StorageEngine.Pool

/-- What becomes of a request for a page. -/
inductive Fetched where
  | page (copy : CopyNo)
  /-- The lock is not to be had now. -/
  | waiting
  | failed (failure : Failure PoolError)

/-- The copy of a page in the cache, where it is put first if it is not there. -/
def load (pool : Pool) (page : PageId) : Result CopyNo :=
  match pool.cache.access? page with
  | some (copy, cache) => (.ok copy, { pool with cache })
  | none =>
    match pool.cache.makeRoom? with
    | none => (.error (.error .poolFull), pool)
    | some cache =>
      match { pool with cache }.readStored page with
      | (.error failure, pool) => (.error failure, pool)
      | (.ok bytes, pool) =>
        if bytes.length = pool.config.pageSize then
          let (copy, pool) := pool.newCopy (.clean page bytes)
          (.ok copy, { pool with cache := pool.cache.put ⟨page, copy, false⟩ })
        else
          (.error (.error (.disk (.sizeMismatch pool.config.pageSize bytes.length))), pool)

/-- Requests a page for a transaction. -/
def fetch (pool : Pool) (txn : TransactionId) (page : PageId) (access : Access) :
    Fetched × Pool :=
  match pool.locks.request page txn access.lockMode with
  | (.waiting, locks) => (.waiting, { pool with locks })
  | (.deadlock, locks) => (.failed (.error (.transactionAborted txn)), { pool with locks })
  | (.granted, locks) =>
    match { pool with locks }.load page with
    | (.ok copy, pool) => (.page copy, pool)
    | (.error failure, pool) => (.failed failure, pool)

/-- Marks a copy as changed by a transaction and puts it into the cache. -/
def install (pool : Pool) (txn : TransactionId) (copy : CopyNo) : Result Unit :=
  let page := (pool.copy copy).mark (some txn)
  let pool := pool.setCopy copy page
  let room := if pool.isResident page.id then some pool.cache else pool.cache.makeRoom?
  match room with
  | none => (.error (.error .poolFull), pool)
  | some cache => (.ok (), { pool with cache := cache.put ⟨page.id, copy, true⟩ })

/-- Marks copies as changed by a transaction and puts them into the cache, one by one. -/
def installAll (pool : Pool) (txn : TransactionId) : List CopyNo → Result Unit
  | [] => (.ok (), pool)
  | copy :: copies =>
    match pool.install txn copy with
    | (.error failure, pool) => (.error failure, pool)
    | (.ok (), pool) => pool.installAll txn copies

/-- Marks a copy that a transaction has changed in place.  The transaction must hold the
exclusive lock on the page. -/
def markDirty (pool : Pool) (txn : TransactionId) (copy : CopyNo) : Result Unit :=
  let page := (pool.copy copy).id
  if pool.locks.modeOf? page txn = some .exclusive then pool.install txn copy
  else (.error (.error (.misuse (.notExclusive txn page))), pool)

end StorageEngine.Pool

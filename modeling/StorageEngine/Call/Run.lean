import StorageEngine.Call.Delete
import StorageEngine.Call.Insert
import StorageEngine.Call.Scan

/-!
# Running calls

A request is run until the call is done or has to wait for a lock.  A call that has waited asks
for its lock again and goes on from there in the same way.
-/

namespace StorageEngine

/-- What a transaction asks of a pool. -/
inductive Request where
  | lock (page : PageId) (mode : LockMode)
  | fetch (page : PageId) (access : Access)
  | insert (table : TableId) (tuple : Bytes)
  | delete (record : Option RecordId)
  /-- Deletes a record of a store without marking its page as changed. -/
  | erase (store : StoreNo) (record : Option RecordId)
  | scan (store : StoreNo)

namespace Call

/-- Locks a page. -/
def runLock (txn : TransactionId) (page : PageId) (mode : LockMode) (pool : Pool) :
    Progress × Pool :=
  match pool.locks.request page txn mode with
  | (.granted, locks) => (.done (.answer .locked), { pool with locks })
  | (.waiting, locks) => (.waiting (.lock page mode), { pool with locks })
  | (.deadlock, locks) =>
    (.done { result := .error (.error (.lock (.deadlock txn page))) }, { pool with locks })

/-- Fetches a page. -/
def runFetch (txn : TransactionId) (page : PageId) (access : Access) (pool : Pool) :
    Progress × Pool :=
  match pool.fetch txn page access with
  | (.waiting, pool) => (.waiting (.fetch page access), pool)
  | (.failed failure, pool) => fail failure pool
  | (.page copy, pool) => (.done (.answer (.page copy)), pool)

/-- Takes up a waiting call again. -/
def run (txn : TransactionId) (pool : Pool) : Call → Progress × Pool
  | lock page mode => runLock txn page mode pool
  | fetch page access => runFetch txn page access pool
  | probe no tuple pageNo alreadyHeld rest =>
    runProbe txn no tuple (some alreadyHeld) (pageNo :: rest) pool
  | place page tuple => runPlace txn page tuple pool
  | count table touched record no rest => runCount txn table touched record (no :: rest) pool
  | delete record marks => runDelete txn record marks pool
  | scan table found no rest => runScan txn table found (no :: rest) pool

end Call

/-- Starts the call that a request asks for. -/
def Request.start (txn : TransactionId) (pool : Pool) : Request → Progress × Pool
  | lock page mode => Call.runLock txn page mode pool
  | fetch page access => Call.runFetch txn page access pool
  | insert table tuple => Call.startInsert txn table tuple pool
  | delete record => Call.startDelete txn record pool
  | erase store record => Call.startDeleteIn txn store record false pool
  | scan store => Call.startScan txn store pool

end StorageEngine

import StorageEngine.Pool.Completion
import StorageEngine.Pool.Fetch

/-!
# Calls

A call is what a transaction asks of a pool and what may have to wait for page locks.  A call
that waits is kept as a value, which says how far the call has come; it is taken up again by
running that value on the pool of a later time.
-/

namespace StorageEngine

/-- Why a call fails. -/
inductive CallError where
  | lock (cause : LockError)
  | pool (cause : PoolError)
  deriving DecidableEq

/-- The wording of a call's error. -/
def CallError.message : CallError → String
  | .lock cause => cause.message
  | .pool cause => cause.message

/-- What a call answers. -/
inductive Answer where
  /-- The lock is held. -/
  | locked
  /-- The page is at hand, in the copy with this number. -/
  | page (copy : CopyNo)
  /-- The tuple is stored, if anywhere then there. -/
  | inserted (record : Option RecordId)
  | deleted
  /-- A record was deleted in so many pages, none of which was marked as changed. -/
  | erased (pages : Nat)
  | tuples (found : List Tuple)

/-- The tuples that an answer holds. -/
def Answer.found : Answer → List Tuple
  | .tuples found => found
  | _ => []

/-- How a call ends. -/
structure Outcome where
  result : Except (Failure CallError) Answer
  /-- Where an insertion has put its tuple, also if it failed after that. -/
  record : Option RecordId := none

namespace Outcome

/-- A call that succeeds. -/
def answer (answer : Answer) : Outcome := { result := .ok answer }

/-- A call that fails in the pool. -/
def failure (failure : Failure PoolError) : Outcome :=
  { result := .error (failure.map .pool) }

end Outcome

/-- A call that waits for a lock, and how far it has come. -/
inductive Call where
  /-- Locks a page. -/
  | lock (page : PageId) (mode : LockMode)
  /-- Fetches a page. -/
  | fetch (page : PageId) (access : Access)
  /-- Looks for room for a tuple in the pages of a heap table, in page `no` first.  If the
  transaction had no lock on that page before, it keeps none on it for lack of room. -/
  | probe (store : StoreNo) (tuple : Bytes) (no : PageNo) (alreadyHeld : Bool)
      (rest : List PageNo)
  /-- Stores a tuple in a page of a heap table. -/
  | place (page : PageId) (tuple : Bytes)
  /-- Counts up the pages of a counter table that the bytes of a tuple name, after those in
  `touched` were. -/
  | count (table : TableId) (touched : List CopyNo) (record : Option RecordId) (no : UInt8)
      (rest : Bytes)
  /-- Deletes a record of a heap table, and marks its page as changed or not. -/
  | delete (record : RecordId) (marks : Bool)
  /-- Collects the records of a heap table, after those in `found` in page `no` first. -/
  | scan (table : TableId) (found : List Tuple) (no : PageNo) (rest : List PageNo)

/-- How far a call gets. -/
inductive Progress where
  | done (outcome : Outcome)
  | waiting (call : Call)

namespace Call

/-- Ends a call with what marking the changed copies results in. -/
def finish (answer : Answer) (record : Option RecordId) : Pool.Result Unit → Progress × Pool
  | (.ok (), pool) => (.done { result := .ok answer, record }, pool)
  | (.error failure, pool) =>
    (.done { Outcome.failure failure with record }, pool)

/-- Ends a call in failure. -/
def fail (failure : Failure PoolError) (pool : Pool) : Progress × Pool :=
  (.done (.failure failure), pool)

/-- A bound on the number of locks that a call still requests. -/
def requests : Call → Nat
  | lock .. => 1
  | fetch .. => 1
  | probe _ _ _ _ rest => 2 * rest.length + 3
  | place .. => 1
  | count _ _ _ _ rest => rest.length + 1
  | delete .. => 1
  | scan _ _ _ rest => rest.length + 1

end Call

end StorageEngine

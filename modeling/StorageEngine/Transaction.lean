import StorageEngine.Call.Run

/-!
# Transactions

A transaction is begun, makes calls, and ends once: it commits or aborts.  It is over as soon
as it was told to end, also if the pool reports an error then.  A transaction that is given up
while it is active aborts.
-/

namespace StorageEngine

/-- Where a transaction stands. -/
inductive TransactionState where
  | active
  | committed
  | aborted
  deriving DecidableEq

/-- Why a transaction refuses an operation. -/
inductive TransactionError where
  /-- The transaction has ended. -/
  | ended (txn : TransactionId)
  | pool (cause : PoolError)
  deriving DecidableEq

namespace TransactionError

/-- The wording of a transaction error. -/
def message : TransactionError → String
  | .ended txn => s!"Transaction {txn.render} is already committed or aborted"
  | .pool cause => cause.message

/-- Whether the transaction is the victim of a deadlock and may be tried again. -/
def isDeadlock : TransactionError → Bool
  | .ended _ => false
  | .pool cause => cause.isDeadlock

end TransactionError

/-- A transaction on a pool. -/
structure Transaction where
  id : TransactionId
  state : TransactionState
  deriving DecidableEq

namespace Transaction

/-- A transaction that has done nothing yet. -/
def begin (id : TransactionId) : Transaction := ⟨id, .active⟩

/-- Refuses a transaction that has ended. -/
def checkActive (transaction : Transaction) : Except TransactionError Unit :=
  if transaction.state = .active then .ok () else .error (.ended transaction.id)

/-- The state of a transaction that was told to end. -/
def endState (commits : Bool) : TransactionState := if commits then .committed else .aborted

/-- Ends a transaction. -/
def complete (transaction : Transaction) (commits : Bool) (pool : Pool) :
    Except (Failure TransactionError) Unit × Transaction × Pool :=
  match transaction.checkActive with
  | .error cause => (.error (.error cause), transaction, pool)
  | .ok () =>
    let (result, pool) := pool.complete transaction.id commits
    (widen .pool result, { transaction with state := endState commits }, pool)

/-- Commits a transaction. -/
def commit (transaction : Transaction) (pool : Pool) :
    Except (Failure TransactionError) Unit × Transaction × Pool :=
  transaction.complete true pool

/-- Aborts a transaction. -/
def abort (transaction : Transaction) (pool : Pool) :
    Except (Failure TransactionError) Unit × Transaction × Pool :=
  transaction.complete false pool

/-- Marks a copy that the transaction has changed in place. -/
def markDirty (transaction : Transaction) (copy : CopyNo) (pool : Pool) :
    Except (Failure TransactionError) Unit × Pool :=
  match transaction.checkActive with
  | .error cause => (.error (.error cause), pool)
  | .ok () =>
    let (result, pool) := pool.markDirty transaction.id copy
    (widen .pool result, pool)

/-- Starts a call of the transaction. -/
def call (transaction : Transaction) (request : Request) (pool : Pool) :
    Except TransactionError Progress × Pool :=
  match transaction.checkActive with
  | .error cause => (.error cause, pool)
  | .ok () =>
    let (progress, pool) := request.start transaction.id pool
    (.ok progress, pool)

/-- Gives a transaction up: it aborts if it is active, and an error then is lost. -/
def drop (transaction : Transaction) (pool : Pool) : Pool :=
  (transaction.abort pool).2.2

end Transaction

end StorageEngine

import StorageEngine.Transaction

/-!
# Workloads

A workload gives each of several workers the same number of transactions, each of which inserts
the same number of tuples into one table.  A worker whose transaction is the victim of a
deadlock aborts it and makes the same inserts again in a new transaction.  Any other failure
ends the worker, and its transaction is given up.  Workers take turns in any order: a step is
one call of one worker, as far as that call gets.
-/

namespace StorageEngine

/-- What every worker has to do. -/
structure Workload where
  table : TableId
  /-- The number of transactions. -/
  transactions : Nat
  /-- The number of tuples that each transaction inserts. -/
  tuples : Nat
  deriving DecidableEq

/-- Whether a worker is still at work, and how it ended if not. -/
inductive WorkerStatus where
  | working
  | finished
  | failed (cause : TransactionError)
  | faulted (reason : Fault)
  deriving DecidableEq

/-- A worker. -/
structure Worker where
  number : Nat
  /-- The transactions that the worker has committed. -/
  committed : Nat := 0
  /-- The transactions that it has aborted after a deadlock. -/
  aborted : Nat := 0
  /-- The tuples that its current transaction has inserted. -/
  inserted : Nat := 0
  /-- Its current transaction. -/
  transaction : Option Transaction := none
  /-- The call that waits. -/
  call : Option Call := none
  status : WorkerStatus := .working

namespace Worker

/-- The text of a tuple: the worker, the number of its transaction, and that of the tuple. -/
def tupleText (worker batch row : Nat) : String :=
  s!"worker={worker} batch={batch} row={row}"

/-- The tuple that the worker inserts next. -/
def nextTuple (worker : Worker) : Bytes :=
  (tupleText worker.number worker.committed worker.inserted).toUTF8.toList

/-- The worker between two transactions. -/
def rest (worker : Worker) : Worker :=
  { worker with inserted := 0, transaction := none, call := none }

/-- The worker as it ends. -/
def stop (worker : Worker) (status : WorkerStatus) : Worker :=
  { worker.rest with status }

/-- The status that a failure ends a worker with. -/
def statusOf : Failure TransactionError → WorkerStatus
  | .error cause => .failed cause
  | .fault reason => .faulted reason

/-- Ends the worker's transaction after a failure. -/
def giveUp (worker : Worker) (transaction : Transaction) (failure : Failure TransactionError)
    (pool : Pool) : Worker × Pool :=
  (worker.stop (statusOf failure), transaction.drop pool)

/-- Commits the worker's transaction. -/
def commit (worker : Worker) (transaction : Transaction) (pool : Pool) : Worker × Pool :=
  match transaction.commit pool with
  | (.ok (), _, pool) => ({ worker.rest with committed := worker.committed + 1 }, pool)
  | (.error failure, transaction, pool) => worker.giveUp transaction failure pool

/-- Aborts the worker's transaction after a deadlock. -/
def retry (worker : Worker) (transaction : Transaction) (pool : Pool) : Worker × Pool :=
  match transaction.abort pool with
  | (.ok (), _, pool) => ({ worker.rest with aborted := worker.aborted + 1 }, pool)
  | (.error failure, transaction, pool) => worker.giveUp transaction failure pool

/-- The error of a call as an error of its transaction. -/
def transactionError (transaction : Transaction) : CallError → TransactionError
  | .pool cause => .pool cause
  | .lock (.deadlock _ _) => .pool (.transactionAborted transaction.id)

/-- Goes on after an insertion has come so far. -/
def follow (worker : Worker) (transaction : Transaction) :
    Progress → Pool → Worker × Pool
  | .waiting call, pool => ({ worker with call := some call }, pool)
  | .done outcome, pool =>
    match outcome.result with
    | .ok _ => ({ worker with inserted := worker.inserted + 1, call := none }, pool)
    | .error failure =>
      match failure.map (transactionError transaction) with
      | .fault reason => worker.giveUp transaction (.fault reason) pool
      | .error cause =>
        if cause.isDeadlock then worker.retry transaction pool
        else worker.giveUp transaction (.error cause) pool

/-- Makes the next call of the worker's transaction, or takes up the one that waits. -/
def advance (worker : Worker) (workload : Workload) (transaction : Transaction) (pool : Pool) :
    Worker × Pool :=
  match worker.call with
  | some call =>
    let (progress, pool) := call.run transaction.id pool
    worker.follow transaction progress pool
  | none =>
    if worker.inserted < workload.tuples then
      match transaction.call (.insert workload.table worker.nextTuple) pool with
      | (.error cause, pool) => worker.giveUp transaction (.error cause) pool
      | (.ok progress, pool) => worker.follow transaction progress pool
    else worker.commit transaction pool

end Worker

/-! ## Crews -/

/-- Workers on a pool. -/
structure Crew where
  workload : Workload
  pool : Pool
  workers : Array Worker
  /-- The number of the transaction that is begun next. -/
  nextId : UInt64

namespace Crew

/-- A number of workers that have done nothing yet. -/
def create (workload : Workload) (pool : Pool) (workers : Nat) : Crew where
  workload := workload
  pool := pool
  workers := (Array.range workers).map fun number => { number }
  nextId := 1

/-- The crew after a worker became another. -/
def setWorker (crew : Crew) (i : Nat) (worker : Worker) : Crew :=
  { crew with workers := crew.workers.setIfInBounds i worker }

/-- Lets a worker take a step. -/
def step (crew : Crew) (i : Nat) : Crew :=
  match crew.workers[i]? with
  | none => crew
  | some worker =>
    if worker.status ≠ .working then crew
    else
      match worker.transaction with
      | some transaction =>
        let (worker, pool) := worker.advance crew.workload transaction crew.pool
        { crew with pool }.setWorker i worker
      | none =>
        if worker.committed < crew.workload.transactions then
          let transaction := Transaction.begin ⟨crew.nextId⟩
          { crew with nextId := crew.nextId + 1 }.setWorker i
            { worker with transaction := some transaction }
        else crew.setWorker i (worker.stop .finished)

/-- Lets workers take steps in the order of a schedule. -/
def follow (crew : Crew) (schedule : List Nat) : Crew := schedule.foldl step crew

/-- Whether a worker is still at work. -/
def isWorking (crew : Crew) (i : Nat) : Bool :=
  crew.workers[i]?.any fun worker => worker.status = .working

/-- Lets a worker take a number of steps, or fewer if it ends before. -/
def work (i : Nat) : Nat → Crew → Crew
  | 0, crew => crew
  | steps + 1, crew => if crew.isWorking i then work i steps (crew.step i) else crew

/-- The number of steps within which a worker ends that is never kept waiting: one to begin each
transaction, one for each tuple, one to commit, and one to end. -/
def stepsAlone (workload : Workload) : Nat :=
  workload.transactions * (workload.tuples + 2) + 1

/-- Lets the workers work one after another. -/
def workInTurn (crew : Crew) : Crew :=
  (List.range crew.workers.size).foldl (fun crew i => work i (stepsAlone crew.workload) crew)
    crew

/-- The status of the first worker that has not finished its work, if there is one. -/
def failure? (crew : Crew) : Option WorkerStatus :=
  (crew.workers.find? fun worker => worker.status ≠ .finished).map Worker.status

/-- The number of transactions that the workers committed. -/
def committed (crew : Crew) : Nat :=
  crew.workers.foldl (fun sum worker => sum + worker.committed) 0

/-- The number of transactions that the workers aborted after a deadlock. -/
def aborted (crew : Crew) : Nat :=
  crew.workers.foldl (fun sum worker => sum + worker.aborted) 0

end Crew

end StorageEngine

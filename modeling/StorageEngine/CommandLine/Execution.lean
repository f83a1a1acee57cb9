import StorageEngine.CommandLine.Help
import StorageEngine.Workload

/-!
# Executing command lines

What a command line prints, which code it exits with, and what it leaves in the table's file.
The file is read when the program starts and is given with the bytes that it holds then.
-/

namespace StorageEngine.CommandLine

/-- The table that the program keeps. -/
def tableId : TableId := 1

/-- The name of the table's file within its directory. -/
def fileName : String := s!"table_{tableId.toNat}.dat"

/-- A line of output. -/
inductive OutputLine where
  | text (line : String)
  /-- The time that the workload took. -/
  | elapsed
  deriving DecidableEq

/-- What an execution leads to. -/
structure Execution where
  exitCode : UInt32
  output : List OutputLine
  /-- The lines of the error report. -/
  report : List String
  /-- The bytes of the table's file afterwards. -/
  file : Array UInt8

/-! ## Error reports -/

/-- The lines for the causes of an error: a single one by itself, several with their
numbers. -/
def causeLines : List String → List String
  | [] => []
  | [cause] => ["", "Caused by:", s!"    {cause}"]
  | causes =>
    ["", "Caused by:"] ++ causes.mapIdx fun index cause => s!"    {index}: {cause}"

/-- The report of an error with its causes. -/
def errorReport (message : String) (causes : List String) : List String :=
  s!"Error: {message}" :: causeLines causes

/-- The report of a pool error. -/
def poolReport (error : PoolError) : List String := errorReport error.message error.causes

/-- The report of a transaction error. -/
def transactionReport : TransactionError → List String
  | .pool cause => poolReport cause
  | error => errorReport error.message []

/-! ## Executions -/

/-- The bytes of the table's file behind a pool. -/
def fileOf (pool : Pool) : Array UInt8 :=
  match (pool.store 0).medium with
  | .heap file => file.contents
  | .counters _ => #[]

/-- An execution that fails after some output. -/
def failed (output : List OutputLine) (report : List String) (file : Array UInt8) : Execution :=
  ⟨1, output, report, file⟩

/-- An execution that a fault brings down after some output. -/
def broken (output : List OutputLine) (file : Array UInt8) : Execution := ⟨101, output, [], file⟩

/-- The pool over the table's file. -/
def openPool (invocation : Invocation) (file : Array UInt8) :
    Except (Failure PoolError) Pool :=
  match Store.openHeap tableId ⟨invocation.pageSize, ⟨file⟩⟩ with
  | .error cause => .error (.error cause)
  | .ok store =>
    Pool.create { poolSize := invocation.poolSize, pageSize := invocation.pageSize }
      ((∅ : Registry TableId StoreNo).insert tableId 0) #[store]

/-- The number of stored tuples, as a transaction counts them.  Nobody else holds a lock then, so
a transaction that has to wait would wait for ever and is given up. -/
def countTuples (txn : TransactionId) (pool : Pool) :
    Except (Failure TransactionError) Nat × Pool :=
  let transaction := Transaction.begin txn
  match (Request.scan 0).start txn pool with
  | (.waiting _, pool) =>
    (.error (.error (.pool (.transactionAborted txn))), transaction.drop pool)
  | (.done outcome, pool) =>
    match outcome.result with
    | .error failure =>
      (.error (failure.map (Worker.transactionError transaction)), transaction.drop pool)
    | .ok answer =>
      match transaction.commit pool with
      | (.ok (), _, pool) => (.ok answer.found.length, pool)
      | (.error failure, _, pool) => (.error failure, pool)

/-- Counts the stored tuples, after some output. -/
def report (txn : TransactionId) (output : List OutputLine) (pool : Pool) : Execution :=
  match countTuples txn pool with
  | (.ok count, pool) =>
    ⟨0, output ++ [.text s!"Tuples in table: {count}"], [], fileOf pool⟩
  | (.error (.error cause), pool) => failed output (transactionReport cause) (fileOf pool)
  | (.error (.fault _), pool) => broken output (fileOf pool)

/-- The outcome of a workload that its workers have ended. -/
def conclude (crew : Crew) : Execution :=
  match crew.failure? with
  | some (.failed cause) => failed [] (transactionReport cause) (fileOf crew.pool)
  | some _ => failed [] (errorReport "worker thread panicked" []) (fileOf crew.pool)
  | none =>
    report ⟨crew.nextId⟩
      [ .text s!"Committed transactions: {crew.committed}",
        .text s!"Deadlock aborts (retried): {crew.aborted}",
        .elapsed ]
      crew.pool

/-- Carries out an action on a pool. -/
def perform (action : Action) (pool : Pool) : Execution :=
  match action with
  | .scan => report ⟨1⟩ [] pool
  | .run workers transactions tuples =>
    conclude (Crew.create ⟨tableId, transactions, tuples⟩ pool workers).workInTurn

/-- Executes an invocation on the bytes of the table's file. -/
def execute (invocation : Invocation) (file : Array UInt8) : Execution :=
  match openPool invocation file with
  | .ok pool => perform invocation.action pool
  | .error (.error cause) => failed [] (poolReport cause) file
  | .error (.fault _) => broken [] file

/-- The execution of a command line that is not carried out. -/
def decline (halt : Halt) (file : Array UInt8) : Execution :=
  match halt with
  | .help topic => ⟨0, (helpLines topic).map .text, [], file⟩
  | .version => ⟨0, [.text versionLine], [], file⟩
  | .usage => ⟨2, [], usageLines, file⟩

/-- Executes a command line on the bytes of the table's file. -/
def run (words : List String) (file : Array UInt8) : Execution :=
  match read words with
  | .ok invocation => execute invocation file
  | .error halt => decline halt file

end StorageEngine.CommandLine

import StorageEngine.Transaction

/-!
# Sessions

A session drives a pool step by step on behalf of many transactions.  It knows the tables that
were ever opened, the transactions that were begun, the copies of pages under the names that
they were given, and the calls that wait for a lock.
-/

namespace StorageEngine

/-! ## Steps -/

/-- A table to open. -/
inductive TableSpec where
  /-- A heap table: a file with these bytes, and so many empty pages appended to it. -/
  | heap (table : TableId) (pageSize : Nat) (contents : Bytes) (pages : Nat)
  /-- A counter table with so many pages. -/
  | counters (table : TableId) (pageSize : Nat) (pages : Nat)

/-- How a step names the tuple to delete. -/
inductive Target where
  /-- The tuple stored there. -/
  | record (record : RecordId)
  /-- The tuple inserted after so many others. -/
  | inserted (index : Nat)
  /-- A tuple that is not stored. -/
  | unstored

/-- What a transaction that was begun does. -/
inductive TransactionAct where
  | fetch (page : PageId) (access : Access) (name : Option String)
  | insert (table : TableId) (data : Bytes)
  | delete (target : Target)
  | markDirty (name : String)
  | complete (commits : Bool)
  | showState
  /-- The transaction is given up. -/
  | drop

/-- A step of a session. -/
inductive Command where
  | acquire (txn : TransactionId) (page : PageId) (mode : LockMode)
  | tryAcquire (txn : TransactionId) (page : PageId) (mode : LockMode)
  | unlock (txn : TransactionId) (page : PageId)
  | unlockAll (txn : TransactionId)
  | holds (txn : TransactionId) (page : PageId)
  | mode (txn : TransactionId) (page : PageId)
  | held (txn : TransactionId)
  | cycle (txn : TransactionId)
  | holders (page : PageId)
  | consistent
  | info
  | fetch (txn : TransactionId) (page : PageId) (access : Access) (name : Option String)
  | insert (txn : TransactionId) (table : TableId) (data : Bytes)
  | delete (txn : TransactionId) (target : Target)
  /-- Deletes a tuple of a table without marking its page as changed. -/
  | erase (txn : TransactionId) (table : TableId) (target : Target)
  | scan (txn : TransactionId) (table : TableId)
  | markDirty (txn : TransactionId) (name : String)
  | discard (page : PageId)
  | flushPage (page : PageId)
  | flushAll
  | flushTransaction (txn : TransactionId)
  | complete (txn : TransactionId) (commits : Bool)
  /-- Overwrites bytes of a copy without marking it. -/
  | poke (name : String) (start : Nat) (data : Bytes)
  | peek (name : String) (start length : Nat)
  /-- Whether two names stand for the same copy. -/
  | same (a b : String)
  | begin (txn : TransactionId)
  /-- A step of a transaction that was begun. -/
  | transact (txn : TransactionId) (act : TransactionAct)
  | stored (table : TableId) (no : PageNo)
  | storeRead (table : TableId) (page : PageId)
  | storeWrite (table : TableId) (page : PageId) (data : Bytes)
  | pageCount (table : TableId)
  | allocate (table : TableId)
  | heapSize (table : TableId)
  /-- Tells a table which pages fail from now on. -/
  | fail (table : TableId) (reads writes : List PageNo)
  /-- The accesses to a table since they were last asked for. -/
  | accesses (table : TableId)
  | addTable (spec : TableSpec)
  | removeTable (table : TableId)
  /-- Puts a new pool over the stored pages. -/
  | reopen (poolSize : Nat) (pageSize : Option Nat)

/-! ## Replies -/

/-- What a step answers. -/
inductive Reply where
  | nothing
  | flag (value : Bool)
  | number (value : Nat)
  /-- Whether a lock was granted. -/
  | verdict (granted : Bool)
  | mode (mode : Option LockMode)
  | pages (pages : List PageId)
  | holders (records : List LockRecord)
  | info (config : PoolConfig) (tables : List TableId)
  | page (page : PageId)
  /-- A fetched page: its size, and who has changed it. -/
  | fetched (page : PageId) (size : Nat) (dirtiedBy : Option TransactionId)
  | record (record : Option RecordId)
  | tuples (tuples : List Tuple)
  | bytes (bytes : Bytes)
  /-- Some bytes of a copy, and who has changed it. -/
  | peeked (page : PageId) (bytes : Bytes) (dirtiedBy : Option TransactionId)
  | read (page : Page)
  | state (state : TransactionState)
  | accesses (accesses : List StoreAccess)

/-- Why a step fails. -/
inductive SessionError where
  | call (cause : CallError)
  | transaction (cause : TransactionError)

/-- The wording of a session error. -/
def SessionError.message : SessionError → String
  | .call cause => cause.message
  | .transaction cause => cause.message

/-- What becomes of a step. -/
inductive Response where
  | ok (reply : Reply)
  /-- The step failed; an insertion may have put its tuple somewhere before that. -/
  | failed (failure : Failure SessionError) (record : Option RecordId)
  /-- The step's call waits for a lock. -/
  | blocked
  /-- The step was not taken, because a call of its transaction waits. -/
  | busy
  /-- The step makes no sense, since it names something that does not exist. -/
  | unusable

/-! ## Sessions -/

/-- A call that waits. -/
structure PendingCall where
  /-- The step that made the call. -/
  step : Nat
  txn : TransactionId
  call : Call
  /-- The name for the page that the call fetches. -/
  name : Option String

/-- A session. -/
structure Session where
  pool : Pool
  /-- The page size of tables that are given none. -/
  pageSize : Nat
  /-- The store of every table, also of those taken out of the catalog. -/
  tables : Registry TableId StoreNo
  /-- The transactions that were begun and not given up. -/
  transactions : Registry TransactionId Transaction
  /-- The copies that have names. -/
  copies : Registry String CopyNo
  /-- The records of the tuples inserted so far. -/
  records : Array RecordId
  /-- The calls that wait, in the order of their steps. -/
  pending : List PendingCall
  /-- The calls that wait for ever, because their pool is gone. -/
  stranded : List PendingCall
  /-- The pages named by steps so far. -/
  named : List PageId
  /-- The number of steps taken so far. -/
  steps : Nat

namespace Session

/-- The store of a table. -/
def storeOf? (session : Session) (table : TableId) : Option StoreNo :=
  session.tables.get? table

/-- The copy with a given name. -/
def copyOf? (session : Session) (name : String) : Option CopyNo :=
  session.copies.get? name

/-- Whether a call of a transaction waits. -/
def isBusy (session : Session) (txn : TransactionId) : Bool :=
  (session.pending ++ session.stranded).any fun pending => pending.txn = txn

/-! ## Opening tables -/

/-- A heap table with empty pages appended. -/
def extend (store : Store) : Nat → Except (Failure PoolError) Store
  | 0 => .ok store
  | n + 1 =>
    match store.allocate with
    | (.error failure, _) => .error failure
    | (.ok _, store) => extend store n

/-- Opens a table. -/
def openTable : TableSpec → Except (Failure PoolError) Store
  | .counters table pageSize pages => .ok (Store.counters table pages pageSize)
  | .heap table pageSize contents pages =>
    match Store.openHeap table ⟨pageSize, ⟨contents.toArray⟩⟩ with
    | .error cause => .error (.error cause)
    | .ok store => extend store pages

/-- Opens tables and numbers their stores. -/
def openTables : List TableSpec → Registry TableId StoreNo → Array Store →
    Except (Failure PoolError) (Registry TableId StoreNo × Array Store)
  | [], catalog, stores => .ok (catalog, stores)
  | spec :: specs, catalog, stores =>
    match openTable spec with
    | .error failure => .error failure
    | .ok store =>
      openTables specs (catalog.insert store.table stores.size) (stores.push store)

/-- A session over a new pool with the given tables. -/
def create (config : PoolConfig) (pageSize : Nat) (specs : List TableSpec) :
    Except (Failure PoolError) Session :=
  match openTables specs ∅ #[] with
  | .error failure => .error failure
  | .ok (catalog, stores) =>
    match Pool.create config catalog stores with
    | .error failure => .error failure
    | .ok pool =>
      .ok
        { pool, pageSize, tables := catalog, transactions := ∅, copies := ∅, records := #[]
          pending := [], stranded := [], named := [], steps := 0 }

/-! ## Opening the stored pages again -/

/-- The store of a table as a new process finds it: a file is opened with the given page size,
and memory is kept. -/
def reopenStore (pageSize : Nat) (store : Store) : Except PoolError Store :=
  match store.medium with
  | .heap file => Store.openHeap store.table (file.withPageSize pageSize)
  | .counters _ => .ok store

/-- Opens the stores of tables again. -/
def reopenStores (pageSize : Nat) : List (TableId × StoreNo) → Array Store →
    Except PoolError (Array Store)
  | [], stores => .ok stores
  | (_, no) :: tables, stores =>
    match reopenStore pageSize (stores.getD no default) with
    | .error cause => .error cause
    | .ok store => reopenStores pageSize tables (stores.setIfInBounds no store)

/-- The session over a new pool.  Tables and copies stay, and the calls that wait are left
behind. -/
def reopen (session : Session) (poolSize : Nat) (pageSize : Option Nat) :
    Except (Failure PoolError) Session :=
  let pageSize := pageSize.getD session.pool.config.pageSize
  match reopenStores pageSize session.tables.entries session.pool.stores with
  | .error cause => .error (.error cause)
  | .ok stores =>
    match Pool.create { session.pool.config with poolSize, pageSize } session.tables stores with
    | .error failure => .error failure
    | .ok pool =>
      .ok
        { session with
          pool := { pool with copies := session.pool.copies }
          pageSize
          pending := []
          stranded := session.stranded ++ session.pending }

end Session

end StorageEngine

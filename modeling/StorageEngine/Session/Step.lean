import StorageEngine.Session.Schedule

/-!
# Steps of a session

What each step does.  A transaction makes one call at a time: while a call of its waits, its
other calls are turned away.
-/

namespace StorageEngine.Session

/-! ## Results as responses -/

/-- A response to a step that the pool refuses. -/
def refuse (failure : Failure PoolError) : Response :=
  .failed (failure.map fun cause => .call (.pool cause)) none

/-- A response to a step that a transaction refuses. -/
def refuseEnded (failure : Failure TransactionError) : Response :=
  .failed (failure.map .transaction) none

/-- What becomes of a step that changes the pool and answers nothing. -/
def answerUnit (session : Session) : Pool.Result Unit → Response × Session
  | (.ok (), pool) => (.ok .nothing, { session with pool })
  | (.error failure, pool) => (refuse failure, { session with pool })

/-- What becomes of a step that looks at the pool. -/
def answerWith {α : Type} (session : Session) (reply : α → Reply) :
    Except (Failure PoolError) α → Response × Session
  | .ok value => (.ok (reply value), session)
  | .error failure => (refuse failure, session)

/-! ## Calls -/

/-- What becomes of a step whose call has come so far. -/
def follow (session : Session) (txn : TransactionId) (name : Option String) :
    Progress → Response × Session
  | .done outcome => session.finishCall name outcome
  | .waiting call =>
    (.blocked,
      { session with pending := session.pending ++ [⟨session.steps, txn, call, name⟩] })

/-- The session after a transaction forgot what it waited for without a waiting call. -/
def forgetWait (session : Session) (txn : TransactionId) : Session :=
  { session with
    pool := { session.pool with locks := session.pool.locks.clearWaits txn } }

/-- Starts a call. -/
def start (session : Session) (txn : TransactionId) (request : Request)
    (name : Option String) : Response × Session :=
  if session.isBusy txn then (.busy, session)
  else
    let session := session.forgetWait txn
    let (progress, pool) := request.start txn session.pool
    { session with pool }.follow txn name progress

/-- Starts a call of a transaction that was begun. -/
def startBegun (session : Session) (transaction : Transaction) (request : Request)
    (name : Option String) : Response × Session :=
  let session := session.forgetWait transaction.id
  match transaction.call request session.pool with
  | (.error cause, pool) => (refuseEnded (.error cause), { session with pool })
  | (.ok progress, pool) => { session with pool }.follow transaction.id name progress

/-- The tuple that a step means to delete: the record that stores it, if any does. -/
def recordOf? (session : Session) : Target → Option (Option RecordId)
  | .record record => some (some record)
  | .inserted index => (session.records[index]?).map some
  | .unstored => some none

/-- Does something with the record that a step means. -/
def withTarget (session : Session) (target : Target)
    (act : Option RecordId → Response × Session) : Response × Session :=
  match session.recordOf? target with
  | none => (.unusable, session)
  | some record => act record

/-! ## Copies -/

/-- Does something with the copy that has a given name. -/
def withCopy (session : Session) (name : String) (act : CopyNo → Response × Session) :
    Response × Session :=
  match session.copyOf? name with
  | none => (.unusable, session)
  | some copy => act copy

/-- Overwrites bytes of a copy. -/
def poke (session : Session) (copy : CopyNo) (start : Nat) (data : Bytes) :
    Response × Session :=
  let page := session.pool.copy copy
  match page.bytes.overwrite? start data with
  | none => (refuse (.fault .outOfRange), session)
  | some bytes =>
    (.ok .nothing, { session with pool := session.pool.setCopy copy { page with bytes } })

/-- Shows bytes of a copy. -/
def peek (session : Session) (copy : CopyNo) (start length : Nat) : Response × Session :=
  let page := session.pool.copy copy
  match page.bytes.slice? start length with
  | none => (refuse (.fault .outOfRange), session)
  | some bytes => (.ok (.peeked page.id bytes page.dirtiedBy), session)

/-! ## Transactions -/

/-- Begins a transaction, in place of one of the same name, which is given up. -/
def begin (session : Session) (txn : TransactionId) : Session :=
  let pool := match session.transactions.get? txn with
    | some transaction => transaction.drop session.pool
    | none => session.pool
  { session with
    pool
    transactions := session.transactions.insert txn (.begin txn) }

/-- Ends a transaction. -/
def completeBegun (session : Session) (transaction : Transaction) (commits : Bool) :
    Response × Session :=
  let (result, transaction, pool) := transaction.complete commits session.pool
  let session :=
    { session with
      pool
      transactions := session.transactions.insert transaction.id transaction }
  match result with
  | .ok () => (.ok .nothing, session)
  | .error failure => (refuseEnded failure, session)

/-- Marks a copy that a transaction which was begun has changed. -/
def markBegun (session : Session) (transaction : Transaction) (copy : CopyNo) :
    Response × Session :=
  let (result, pool) := transaction.markDirty copy session.pool
  let session := { session with pool }
  match result with
  | .ok () => (.ok .nothing, session)
  | .error failure => (refuseEnded failure, session)

/-- Gives a transaction up. -/
def dropBegun (session : Session) (transaction : Transaction) : Session :=
  { session with
    pool := transaction.drop session.pool
    transactions := session.transactions.erase transaction.id }

/-- What a transaction that was begun does. -/
def act (session : Session) (transaction : Transaction) :
    TransactionAct → Response × Session
  | .fetch page access name => session.startBegun transaction (.fetch page access) name
  | .insert table data => session.startBegun transaction (.insert table data) none
  | .delete target =>
    session.withTarget target fun record => session.startBegun transaction (.delete record) none
  | .markDirty name => session.withCopy name fun copy => session.markBegun transaction copy
  | .complete commits => session.completeBegun transaction commits
  | .showState => (.ok (.state transaction.state), session)
  | .drop => (.ok .nothing, session.dropBegun transaction)

/-- Lets a transaction that was begun do something, unless a call of its waits. -/
def transact (session : Session) (txn : TransactionId) (what : TransactionAct) :
    Response × Session :=
  if session.isBusy txn then (.busy, session)
  else
    match session.transactions.get? txn with
    | none => (.unusable, session)
    | some transaction => session.act transaction what

/-! ## Tables -/

/-- Does something with the store of a table. -/
def withStore (session : Session) (table : TableId) (act : StoreNo → Response × Session) :
    Response × Session :=
  match session.storeOf? table with
  | none => (.unusable, session)
  | some no => act no

/-- Does something with the file of a heap table. -/
def withHeap (session : Session) (table : TableId)
    (act : StoreNo → PageFile → Response × Session) : Response × Session :=
  session.withStore table fun no =>
    match (session.pool.store no).medium with
    | .counters _ => (.unusable, session)
    | .heap file => act no file

/-- Writes a page to a store behind the pool's back. -/
def storeWrite (session : Session) (no : StoreNo) (page : PageId) (data : Bytes) :
    Response × Session :=
  match (session.pool.store no).withImage page data with
  | .error failure => (refuse failure, session)
  | .ok store => (.ok .nothing, { session with pool := session.pool.setStore no store })

/-- Appends an empty page to a heap table. -/
def allocate (session : Session) (no : StoreNo) : Response × Session :=
  let (result, store) := (session.pool.store no).allocate
  ({ session with pool := session.pool.setStore no store }).answerWith .page result

/-- Registers a table, in place of one with the same number. -/
def addTable (session : Session) (spec : TableSpec) : Response × Session :=
  match openTable spec with
  | .error failure => (refuse failure, session)
  | .ok store =>
    let (no, pool) := session.pool.newStore store
    (.ok (.flag (pool.catalog.contains store.table)),
      { session with
        pool := { pool with catalog := pool.catalog.insert store.table no }
        tables := session.tables.insert store.table no })

/-- Takes a table out of the catalog. -/
def removeTable (session : Session) (table : TableId) : Response × Session :=
  let pool := session.pool
  (.ok (.flag (pool.catalog.contains table)),
    { session with pool := { pool with catalog := pool.catalog.erase table } })

/-- Tells a store which pages fail. -/
def fail (session : Session) (no : StoreNo) (reads writes : List PageNo) : Session :=
  let store := { session.pool.store no with failingReads := reads, failingWrites := writes }
  { session with pool := session.pool.setStore no store }

/-- The accesses to a store, which forgets them. -/
def takeAccesses (session : Session) (no : StoreNo) : Response × Session :=
  let store := session.pool.store no
  (.ok (.accesses store.accesses.reverse),
    { session with pool := session.pool.setStore no { store with accesses := [] } })

/-- The tables of the catalog, in the order of their numbers. -/
def tableIds (session : Session) : List TableId :=
  session.pool.catalog.keys.mergeSort (· ≤ ·)

/-! ## Steps -/

/-- What a step does. -/
def perform (session : Session) : Command → Response × Session
  | .acquire txn page mode => session.start txn (.lock page mode) none
  | .tryAcquire txn page mode =>
    if session.isBusy txn then (.busy, session)
    else
      let (granted, locks) := session.pool.locks.tryAcquire page txn mode
      (.ok (.verdict granted), { session with pool := { session.pool with locks } })
  | .unlock txn page =>
    (.ok .nothing, { session with pool := session.pool.releasePage txn page })
  | .unlockAll txn => (.ok .nothing, { session with pool := session.pool.releaseAll txn })
  | .holds txn page => (.ok (.flag (session.pool.holdsLock txn page)), session)
  | .mode txn page => (.ok (.mode (session.pool.locks.modeOf? page txn)), session)
  | .held txn =>
    (.ok (.pages ((session.pool.locks.heldPages txn).mergeSort PageId.le)), session)
  | .cycle txn => (.ok (.flag (session.pool.locks.hasCycleFrom txn)), session)
  | .holders page => (.ok (.holders (session.pool.locks.locksOn page).records), session)
  | .consistent => (.ok (.flag session.pool.locks.isConsistent), session)
  | .info => (.ok (.info session.pool.config session.tableIds), session)
  | .fetch txn page access name => session.start txn (.fetch page access) name
  | .insert txn table data => session.start txn (.insert table data) none
  | .delete txn target =>
    session.withTarget target fun record => session.start txn (.delete record) none
  | .erase txn table target =>
    session.withStore table fun no =>
      session.withTarget target fun record => session.start txn (.erase no record) none
  | .scan txn table => session.withHeap table fun no _ => session.start txn (.scan no) none
  | .markDirty txn name =>
    session.withCopy name fun copy => session.answerUnit (session.pool.markDirty txn copy)
  | .discard page => (.ok .nothing, { session with pool := session.pool.discard page })
  | .flushPage page => session.answerUnit (session.pool.flushPage page)
  | .flushAll => session.answerUnit session.pool.flushAll
  | .flushTransaction txn => session.answerUnit (session.pool.flushTransaction txn)
  | .complete txn commits => session.answerUnit (session.pool.complete txn commits)
  | .poke name start data => session.withCopy name fun copy => session.poke copy start data
  | .peek name start length => session.withCopy name fun copy => session.peek copy start length
  | .same a b =>
    session.withCopy a fun a => session.withCopy b fun b => (.ok (.flag (a = b)), session)
  | .begin txn => (.ok .nothing, session.begin txn)
  | .transact txn what => session.transact txn what
  | .stored table no =>
    session.withStore table fun store =>
      session.answerWith .bytes ((session.pool.store store).image ⟨table, no⟩)
  | .storeRead table page =>
    session.withStore table fun store =>
      session.answerWith (fun bytes => .read (.clean page bytes))
        ((session.pool.store store).image page)
  | .storeWrite table page data =>
    session.withStore table fun store => session.storeWrite store page data
  | .pageCount table =>
    session.withStore table fun store =>
      session.answerWith (fun count => .number count.toNat)
        (session.pool.store store).pageCount
  | .allocate table => session.withHeap table fun store _ => session.allocate store
  | .heapSize table => session.withHeap table fun _ file => (.ok (.number file.pageSize), session)
  | .fail table reads writes =>
    session.withStore table fun store => (.ok .nothing, session.fail store reads writes)
  | .accesses table => session.withStore table session.takeAccesses
  | .addTable spec => session.addTable spec
  | .removeTable table => session.removeTable table
  | .reopen poolSize pageSize =>
    match session.reopen poolSize pageSize with
    | .ok session => (.ok .nothing, session)
    | .error failure => (refuse failure, session)

/-- The page that a step names. -/
def pageOf? : Command → Option PageId
  | .acquire _ page _ | .tryAcquire _ page _ | .unlock _ page | .holds _ page | .mode _ page
  | .holders page | .fetch _ page _ _ | .discard page | .flushPage page
  | .transact _ (.fetch page _ _) | .storeRead _ page | .storeWrite _ page _ => some page
  | _ => none

/-- Takes a step, and then takes up the waiting calls: what becomes of the step, and what became
of earlier steps whose calls ended. -/
def step (session : Session) (command : Command) :
    Response × List (Nat × Response) × Session :=
  let named := match pageOf? command with
    | some page => if session.named.contains page then session.named else page :: session.named
    | none => session.named
  let (response, session) := { session with named }.perform command
  let (ended, session) := session.settle
  (response, ended, { session with steps := session.steps + 1 })

end StorageEngine.Session

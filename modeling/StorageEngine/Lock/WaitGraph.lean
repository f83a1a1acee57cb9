import StorageEngine.Lock.PageLocks
import StorageEngine.Registry

/-!
# The wait-for graph

A transaction that is denied a lock waits for the transactions that held a lock on the page
at that time.  An edge of the graph counts only while its target still holds a lock on the
page that conflicts with the request, so an edge that a release has made void closes no cycle.
-/

namespace StorageEngine

/-- The request of a waiting transaction, and the transactions that it waits for. -/
structure Wait where
  page : PageId
  mode : LockMode
  blockers : List TransactionId
  deriving DecidableEq

/-- The waits of the waiting transactions. -/
structure WaitGraph where
  waits : Registry TransactionId Wait

namespace WaitGraph

/-- The graph without waits. -/
def empty : WaitGraph := ⟨∅⟩

/-- Records that a transaction waits, in place of what it waited for before.  No transaction
waits for itself. -/
def recordWait (graph : WaitGraph) (waiter : TransactionId) (page : PageId) (mode : LockMode)
    (blockers : List TransactionId) : WaitGraph :=
  ⟨graph.waits.insert waiter ⟨page, mode, (blockers.filter (· ≠ waiter)).eraseDups⟩⟩

/-- Forgets what a transaction waits for. -/
def clearWaits (graph : WaitGraph) (waiter : TransactionId) : WaitGraph :=
  ⟨graph.waits.erase waiter⟩

/-- What a transaction waits for. -/
def waitOf? (graph : WaitGraph) (waiter : TransactionId) : Option Wait :=
  graph.waits.get? waiter

/-- Whether a transaction waits. -/
def isWaiting (graph : WaitGraph) (waiter : TransactionId) : Bool :=
  (graph.waitOf? waiter).isSome

/-- Recording what a transaction waits for changes nothing for the others. -/
theorem waitOf?_recordWait (graph : WaitGraph) (waiter other : TransactionId) (page : PageId)
    (mode : LockMode) (blockers : List TransactionId) :
  (graph.recordWait waiter page mode blockers).waitOf? other
    = if other = waiter then some ⟨page, mode, (blockers.filter (· ≠ waiter)).eraseDups⟩
      else graph.waitOf? other
  := Registry.get?_insert ..

/-- Forgetting what a transaction waits for changes nothing for the others. -/
theorem waitOf?_clearWaits (graph : WaitGraph) (waiter other : TransactionId) :
  (graph.clearWaits waiter).waitOf? other
    = if other = waiter then none else graph.waitOf? other
  := Registry.get?_erase ..

/-- The transactions among `blockers` that hold a lock which conflicts with a request. -/
def conflicting (locks : PageLocks) (mode : LockMode) (blockers : List TransactionId) :
    List TransactionId :=
  blockers.filter fun blocker => (locks.modeOf? blocker).any fun held => !held.isCompatibleWith mode

/-- The transactions that a transaction waits for and that still block it. -/
def liveBlockers (graph : WaitGraph) (pages : Registry PageId PageLocks)
    (waiter : TransactionId) : List TransactionId :=
  match graph.waitOf? waiter with
  | none => []
  | some wait =>
    match pages.get? wait.page with
    | none => []
    | some locks => conflicting locks wait.mode wait.blockers

/-! ## Cycles -/

/-- A depth-first search under way. -/
structure Search where
  /-- The transactions from which every edge was followed. -/
  finished : List TransactionId
  /-- The path to the transaction that is being searched, innermost first, each with the
  edges still to follow. -/
  path : List (TransactionId × List TransactionId)

namespace Search

/-- Whether a transaction lies on the path. -/
def onPath (search : Search) (txn : TransactionId) : Bool :=
  search.path.any fun node => node.1 = txn

/-- What a step of a search leads to: a cycle, the end of the search, or more of it. -/
inductive Progress where
  | cycle
  | exhausted
  | going (search : Search)

/-- One step of a search: follow the next edge from the innermost transaction, or finish that
transaction if it has none left.  An edge to the path closes a cycle. -/
def step (successors : TransactionId → List TransactionId) (search : Search) : Progress :=
  match search.path with
  | [] => .exhausted
  | (txn, []) :: path => .going ⟨txn :: search.finished, path⟩
  | (txn, next :: pending) :: path =>
    if search.onPath next then .cycle
    else if search.finished.contains next then .going ⟨search.finished, (txn, pending) :: path⟩
    else .going ⟨search.finished, (next, successors next) :: (txn, pending) :: path⟩

/-- Whether a search meets a cycle within a number of steps. -/
def run (successors : TransactionId → List TransactionId) : Nat → Search → Bool
  | 0, _ => false
  | steps + 1, search =>
    match search.step successors with
    | .cycle => true
    | .exhausted => false
    | .going search => run successors steps search

end Search

/-- The number of steps within which every search ends: each transaction is entered and
finished at most once, and each of its edges is followed at most once. -/
def searchBound (graph : WaitGraph) : Nat :=
  graph.waits.entries.foldl (fun bound entry => bound + 2 * entry.2.blockers.length + 2) 3

/-- Whether a cycle of edges that still count can be reached from a transaction. -/
def hasCycleFrom (graph : WaitGraph) (pages : Registry PageId PageLocks)
    (start : TransactionId) : Bool :=
  let successors := graph.liveBlockers pages
  Search.run successors graph.searchBound ⟨[], [(start, successors start)]⟩

end WaitGraph

end StorageEngine

import StorageEngine.Proofs.Call.Cases
import StorageEngine.Proofs.Pool.Images
import StorageEngine.Proofs.Workspace.Basic

/-!
# Transactions on a shared pool

A pool and any number of transactions on it, each of which does one thing at a time: it fetches
pages and edits them in place, inserts and deletes tuples, scans tables, and ends.  In between any
two lock requests of a call, and before every edit, other transactions may take steps.  Stores may
fail to read at any time; they never fail to write, and have a number for each of their pages.
-/

namespace StorageEngine

/-! ### What a transaction does -/

/-- What a transaction is in the midst of. -/
inductive Activity where
  | idle
  /-- A call is under way. -/
  | calling (call : Call)
  /-- A page that was fetched to be changed is at hand, with edits made that are not marked. -/
  | editing (copy : CopyNo) (page : PageId) (edits : List Edit)
  /-- A call has broken off. -/
  | faulted

/-- Whether a transaction may make a call.  Edits must be marked first. -/
def Activity.mayCall : Activity → Prop
  | idle => True
  | editing _ _ edits => edits = []
  | _ => False

/-- Whether a transaction may end.  After a call has broken off, `.faulted`, it may only abort. -/
def Activity.mayEnd (commits : Bool) : Activity → Prop
  | faulted => commits = false
  | activity => activity.mayCall

/-- What a transaction is in the midst of after a round of a call. -/
def Round.leadsTo : Round → Activity
  | .done { result := .error (.fault _), .. } => .faulted
  | .done _ => .idle
  | .waiting call => .calling call
  | .next call => .calling call
  | .grown _ call => .calling call

/-- What a transaction is in the midst of after a round of a given call, by which a page is at hand
after a `.fetch` to change it. -/
def Call.leadsTo : Call → Round → Activity
  | .fetch page .readWrite, .done { result := .ok (.page copy), .. } => .editing copy page []
  | _, round => round.leadsTo

/-! ### What a transaction learns -/

/-- What `txn` learns of a scan of `table` in a round. -/
def Round.scanned (txn : TransactionId) (table : TableId) : Round → List Event
  | .done { result := .ok (.tuples found), .. } => [.scanned txn table found]
  | _ => []

/-- The page that a round has appended to a table, if it has, with what `after` has stored of
it. -/
def Round.appended (after : Pool) : Round → List Event
  | .grown page _ => (after.stored page).toList.map (.grown page)
  | _ => []

/-- What happens in a round of a call of `txn` that leaves `after`. -/
def Call.events (txn : TransactionId) (after : Pool) : Call → Round → List Event
  | .fetch page _, .done { result := .ok (.page copy), .. } =>
    [.fetched txn page (after.copy copy).bytes]
  | .place _ tuple, .done { result := .ok (.inserted (some record)), .. } =>
    [.inserted txn record tuple]
  | .delete record _, .done { result := .ok .deleted, .. } => [.deleted txn record]
  | .scan table .., round => round.scanned txn table
  | _, round => round.appended after

/-- What happens before the first lock request of a call of `txn`, up to the pool `after`. -/
def Request.events (txn : TransactionId) (after : Pool) : Request → Round → List Event
  | .scan no, round =>
    let store := after.store no
    match store.pageNos with
    | .ok pages => .scanning txn store.table pages.length :: round.scanned txn store.table
    | .error _ => []
  | _, round => round.appended after

/-! ### Systems -/

/-- A `pool`, and what each transaction on it is `doing`. -/
structure System where
  pool : Pool
  doing : TransactionId → Activity

namespace System

/-- `pool`, on which no transaction has done anything. -/
def start (pool : Pool) : System := ⟨pool, fun _ => .idle⟩

/-- `system` after `txn` has done something, which leaves `pool` and leads to `activity`. -/
def moved (system : System) (txn : TransactionId) (pool : Pool) (activity : Activity) : System :=
  ⟨pool, Function.update system.doing txn activity⟩

@[simp]
theorem pool_moved (system : System) (txn : TransactionId) (pool : Pool) (activity : Activity) :
  (system.moved txn pool activity).pool = pool
  := rfl

@[simp]
theorem doing_moved_self (system : System) (txn : TransactionId) (pool : Pool)
    (activity : Activity) :
  (system.moved txn pool activity).doing txn = activity
  := Function.update_self ..

theorem doing_moved_of_ne (system : System) {txn other : TransactionId} (pool : Pool)
    (activity : Activity) (distinct : other ≠ txn) :
  (system.moved txn pool activity).doing other = system.doing other
  := Function.update_of_ne distinct ..

end System

/-- Whether a request is one that transactions make on `pool`: pages are fetched, tuples are
inserted into heap tables and deleted from tables, and tables of the catalog are scanned. -/
def Pool.serves (pool : Pool) : Request → Prop
  | .fetch _ _ => True
  | .insert table _ => ∀ no, pool.catalog.get? table = some no →
    ∃ file, (pool.store no).medium = .heap file
  | .delete _ => True
  | .scan no => pool.catalog.get? (pool.store no).table = some no
  | _ => False

/-- An insertion that `pool.serves` fails before it does anything, or goes on to look for room in
the pages of its `table`. -/
theorem Request.enter_insert_cases {txn : TransactionId} {table : TableId} {tuple : Bytes}
    {pool after : Pool} {round : Round} (served : pool.serves (.insert table tuple))
    (eq : (Request.insert table tuple).enter txn pool = (round, after)) :
  (∃ failure, round = .done (.failure failure) ∧ after = pool)
    ∨ ∃ no pages, pool.catalog.get? table = some no
      ∧ Call.Entering txn no tuple pool pages round after
  := by
  cases Call.Beginning.of_enterInsert eq with
  | unknown | unfit | uncounted =>
    left
    exact ⟨_, rfl, rfl⟩
  | counters known medium =>
    obtain ⟨file, heap⟩ := served _ (Pool.storeOf_eq_ok known)
    cases medium.symm.trans heap
  | entering known _ _ _ entering =>
    right
    exact ⟨_, _, Pool.storeOf_eq_ok known, entering⟩

namespace System

/-- The steps of a system, with what happens in each. -/
inductive Step : System → List Event → System → Prop where
  /-- A transaction begins a call. -/
  | enter {system : System} {txn : TransactionId} {request : Request} {round : Round}
      {pool : Pool} (free : (system.doing txn).mayCall) (served : system.pool.serves request)
      (eq : request.enter txn system.pool = (round, pool)) :
      Step system (request.events txn pool round) (system.moved txn pool round.leadsTo)
  /-- A transaction goes on with its call, up to its next lock request. -/
  | round {system : System} {txn : TransactionId} {call : Call} {round : Round} {pool : Pool}
      (under : system.doing txn = .calling call)
      (eq : call.round txn system.pool = (round, pool)) :
      Step system (call.events txn pool round) (system.moved txn pool (call.leadsTo round))
  /-- A transaction edits the page that it has at hand. -/
  | edit {system : System} {txn : TransactionId} {copy : CopyNo} {page : PageId}
      {edits : List Edit} {edit : Edit} {bytes : Bytes}
      (hand : system.doing txn = .editing copy page edits)
      (fits : (system.pool.copy copy).bytes.overwrite? edit.start edit.data = some bytes) :
      Step system []
        (system.moved txn (system.pool.setCopy copy { system.pool.copy copy with bytes })
          (.editing copy page (edits ++ [edit])))
  /-- A transaction marks the page that it has at hand as changed. -/
  | mark {system : System} {txn : TransactionId} {copy : CopyNo} {page : PageId}
      {edits : List Edit} {pool : Pool} (hand : system.doing txn = .editing copy page edits)
      (eq : system.pool.markDirty txn copy = (.ok (), pool)) :
      Step system [.updated txn page edits] (system.moved txn pool .idle)
  /-- The page that a transaction has at hand cannot be marked. -/
  | unmarked {system : System} {txn : TransactionId} {copy : CopyNo} {page : PageId}
      {edits : List Edit} {failure : Failure PoolError} {pool : Pool}
      (hand : system.doing txn = .editing copy page edits)
      (eq : system.pool.markDirty txn copy = (.error failure, pool)) :
      Step system [] (system.moved txn pool .idle)
  /-- A transaction ends. -/
  | complete {system : System} {txn : TransactionId} {commits : Bool}
      {result : Except (Failure PoolError) Unit} {pool : Pool}
      (free : (system.doing txn).mayEnd commits)
      (eq : system.pool.complete txn commits = (result, pool)) :
      Step system [.ended txn commits result] (system.moved txn pool .idle)
  /-- A store is told which pages fail to be read, whether its pages fail to be counted, and how
  much of a page can be appended. -/
  | disrupt (system : System) (no : StoreNo) (failingReads : List PageNo) (failingCount : Bool)
      (appendLimit : Option Nat) :
      Step system []
        { system with
          pool := system.pool.setStore no
            { system.pool.store no with failingReads, failingCount, appendLimit } }

/-- What happens from `start` on in a run of steps in any order. -/
inductive Run (start : System) : List Event → System → Prop where
  | start : Run start [] start
  | step {events events' : List Event} {system after : System} (before : Run start events system)
      (step : Step system events' after) : Run start (events ++ events') after

end System

end StorageEngine

import StorageEngine.Session.Basic

/-!
# Reports on a session

What a session shows of its state: locks, waits, waiting calls and cached pages.  Locks and
cached pages are shown of the pages that steps have named and of the pages of the tables.
-/

namespace StorageEngine

/-- The letter for a lock mode. -/
def LockMode.letter : LockMode → String
  | .shared => "S"
  | .exclusive => "X"

namespace Session

/-- The written form of a lock: the holder's number and the letter of the mode. -/
def renderRecord (record : LockRecord) : String :=
  s!"{record.holder.number.toNat}{record.mode.letter}"

/-- The written form of the locks on a page, the holders in the order of their numbers. -/
def renderLocks (page : PageId) (locks : PageLocks) : String :=
  let records := locks.records.mergeSort fun a b => a.holder.le b.holder
  page.render ++ "=" ++ String.intercalate "," (records.map renderRecord)

/-- The written form of a wait, the blockers in the order of their numbers. -/
def renderWait (waiter : TransactionId) (wait : Wait) : String :=
  let blockers := (wait.blockers.mergeSort TransactionId.le).map fun blocker =>
    toString blocker.number.toNat
  s!"{waiter.number.toNat}>{wait.page.render}=" ++ String.intercalate "," blockers

/-- Whether a page belongs to a stored page of a table. -/
def isStored (session : Session) (page : PageId) : Bool :=
  match session.storeOf? page.table with
  | none => false
  | some no =>
    match (session.pool.store no).pageCount with
    | .ok count => page.no < count
    | .error _ => false

/-- Whether a report shows a page. -/
def shows (session : Session) (page : PageId) : Bool :=
  session.named.contains page || session.isStored page

/-- What a report shows. -/
structure Report where
  locks : List String
  waits : List String
  /-- The steps whose calls wait. -/
  blocked : List Nat
  resident : List PageId
  residentCount : Nat

/-- The report on a session. -/
def report (session : Session) : Report where
  locks :=
    let locked := session.pool.locks.pages.entries.filter fun entry => session.shows entry.1
    (locked.mergeSort fun a b => a.1.le b.1).map fun entry => renderLocks entry.1 entry.2
  waits :=
    (session.pool.locks.graph.waits.entries.mergeSort fun a b => a.1.le b.1).map fun entry =>
      renderWait entry.1 entry.2
  blocked := ((session.stranded ++ session.pending).map PendingCall.step).mergeSort (· ≤ ·)
  resident :=
    ((session.pool.cache.frames.map Frame.page).filter session.shows).mergeSort PageId.le
  residentCount := session.pool.residentCount

end Session

end StorageEngine

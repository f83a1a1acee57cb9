import StorageEngine.Lock.WaitGraph

/-!
# The lock table

The locks on every page, the pages that every transaction holds a lock on, and the waits of
the transactions that were denied a lock.  A transaction that cannot be granted a lock waits,
unless waiting closes a cycle of waiting transactions; then it is the victim that gives up.

The main statements say how granting and releasing change the locks on each page
(`locksOn_grant`, `locksOn_release`) and the pages that each transaction holds
(`heldPages_grant`, `heldPages_forget`).
-/

namespace StorageEngine

/-- Why a transaction does not get a lock. -/
inductive LockError where
  /-- Waiting would close a cycle of waiting transactions. -/
  | deadlock (txn : TransactionId) (page : PageId)
  deriving DecidableEq

/-- The wording of a lock error. -/
def LockError.message : LockError → String
  | .deadlock txn page =>
    s!"Deadlock detected: {txn.render} aborted while waiting for page {page.render}"

/-- The locks of all transactions. -/
structure LockTable where
  /-- The locks on each locked page. -/
  pages : Registry PageId PageLocks
  /-- The pages that each transaction holds a lock on. -/
  held : Registry TransactionId (List PageId)
  graph : WaitGraph

namespace LockTable

/-- The table without locks and waits. -/
def empty : LockTable := ⟨∅, ∅, .empty⟩

/-! ## What the table says -/

/-- The locks on a page. -/
def locksOn (table : LockTable) (page : PageId) : PageLocks :=
  (table.pages.get? page).getD .none

/-- The mode in which a transaction holds a lock on a page, if it holds one. -/
def modeOf? (table : LockTable) (page : PageId) (txn : TransactionId) : Option LockMode :=
  (table.locksOn page).modeOf? txn

/-- Whether a transaction holds a lock on a page. -/
def holds (table : LockTable) (page : PageId) (txn : TransactionId) : Bool :=
  (table.modeOf? page txn).isSome

/-- The pages that a transaction holds a lock on. -/
def heldPages (table : LockTable) (txn : TransactionId) : List PageId :=
  (table.held.get? txn).getD []

/-- Whether a cycle of waiting transactions can be reached from a transaction. -/
def hasCycleFrom (table : LockTable) (txn : TransactionId) : Bool :=
  table.graph.hasCycleFrom table.pages txn

/-- Whether the locks on every page are consistent. -/
def isConsistent (table : LockTable) : Bool :=
  table.pages.entries.all fun entry => entry.2.isConsistent

/-! ## Requests -/

/-- The table with a lock granted.  The holder waits no longer. -/
def grant (table : LockTable) (page : PageId) (txn : TransactionId) (mode : LockMode) :
    LockTable :=
  let held := table.heldPages txn
  { pages := table.pages.insert page ((table.locksOn page).grant txn mode)
    held := table.held.insert txn (if held.contains page then held else held ++ [page])
    graph := table.graph.clearWaits txn }

/-- The table with a lock denied: the transaction waits for all holders. -/
def deny (table : LockTable) (page : PageId) (txn : TransactionId) (mode : LockMode) :
    LockTable :=
  { table with graph := table.graph.recordWait txn page mode (table.locksOn page).holders }

/-- Tries once to lock a page and says whether the lock was granted. -/
def tryAcquire (table : LockTable) (page : PageId) (txn : TransactionId) (mode : LockMode) :
    Bool × LockTable :=
  if (table.locksOn page).admits txn mode then (true, table.grant page txn mode)
  else (false, table.deny page txn mode)

/-- The table with a transaction's waits forgotten. -/
def clearWaits (table : LockTable) (txn : TransactionId) : LockTable :=
  { table with graph := table.graph.clearWaits txn }

/-- What becomes of a request. -/
inductive Verdict where
  | granted
  /-- The lock is not to be had now. -/
  | waiting
  /-- The lock is not to be had, and waiting for it would close a cycle. -/
  | deadlock
  deriving DecidableEq

/-- Requests a lock: it is granted, or the transaction waits, or it is the victim of a
deadlock and waits no longer. -/
def request (table : LockTable) (page : PageId) (txn : TransactionId) (mode : LockMode) :
    Verdict × LockTable :=
  match table.tryAcquire page txn mode with
  | (true, table) => (.granted, table)
  | (false, table) =>
    if table.hasCycleFrom txn then (.deadlock, table.clearWaits txn) else (.waiting, table)

/-! ## Releases -/

/-- The pages held by a transaction without one of them; none is no entry. -/
def forget (held : Registry TransactionId (List PageId)) (page : PageId) (txn : TransactionId) :
    Registry TransactionId (List PageId) :=
  match held.get? txn with
  | none => held
  | some pages =>
    match pages.filter (· ≠ page) with
    | [] => held.erase txn
    | rest => held.insert txn rest

/-- Releases the lock that a transaction holds on a page, if it holds one. -/
def release (table : LockTable) (page : PageId) (txn : TransactionId) : LockTable :=
  match table.pages.get? page with
  | none => table
  | some locks =>
    if (locks.modeOf? txn).isNone then table
    else
      let rest := locks.release txn
      { table with
        pages := if rest.isEmpty then table.pages.erase page else table.pages.insert page rest
        held := forget table.held page txn }

/-- Releases every lock that a transaction holds and forgets its waits. -/
def releaseAll (table : LockTable) (txn : TransactionId) : LockTable :=
  ((table.heldPages txn).foldl (fun table page => table.release page txn) table).clearWaits txn

/-! ## What requests and releases change -/

@[simp]
theorem locksOn_deny (table : LockTable) (page other : PageId) (txn : TransactionId)
    (mode : LockMode) :
  (table.deny page txn mode).locksOn other = table.locksOn other
  := rfl

@[simp]
theorem locksOn_clearWaits (table : LockTable) (page : PageId) (txn : TransactionId) :
  (table.clearWaits txn).locksOn page = table.locksOn page
  := rfl

/-- A grant changes the locks on its page alone. -/
theorem locksOn_grant (table : LockTable) (page other : PageId) (txn : TransactionId)
    (mode : LockMode) :
  (table.grant page txn mode).locksOn other
    = if other = page then (table.locksOn page).grant txn mode else table.locksOn other
  := by
  unfold locksOn grant
  rw [Registry.get?_insert]
  by_cases h : other = page <;> simp [h, locksOn]

/-- A grant adds its page to those that its transaction holds. -/
theorem heldPages_grant (table : LockTable) (page : PageId) (txn other : TransactionId)
    (mode : LockMode) :
  (table.grant page txn mode).heldPages other
    = if other = txn then
        if (table.heldPages txn).contains page then table.heldPages txn
        else table.heldPages txn ++ [page]
      else table.heldPages other
  := by
  unfold heldPages grant
  rw [Registry.get?_insert]
  by_cases h : other = txn <;> simp [h, heldPages]

/-- A release changes the locks on its page alone. -/
theorem locksOn_release (table : LockTable) (page other : PageId) (txn : TransactionId) :
  (table.release page txn).locksOn other
    = if other = page then (table.locksOn page).release txn else table.locksOn other
  := by
  unfold release
  cases found : table.pages.get? page with
  | none =>
    by_cases h : other = page
    · simp [h, locksOn, found, PageLocks.release, PageLocks.none]
    · simp [h]
  | some locks =>
    have on : table.locksOn page = locks := by simp [locksOn, found]
    by_cases held : locks.modeOf? txn = none
    · by_cases h : other = page
      · simp [held, h, on, PageLocks.release_eq_self held]
      · simp [held, h]
    · rw [on]
      by_cases last : (locks.release txn).isEmpty
      · have gone := PageLocks.isEmpty_iff.mp last
        by_cases h : other = page
        · simp [held, h, gone, locksOn, PageLocks.isEmpty, PageLocks.none]
        · simp [held, h, last, locksOn, Registry.get?_erase]
      · by_cases h : other = page
        · simp [held, h, last, locksOn]
        · simp [held, h, last, locksOn, Registry.get?_insert]

/-- Forgetting a page takes it from those that its transaction holds. -/
theorem heldPages_forget (held : Registry TransactionId (List PageId)) (page : PageId)
    (txn other : TransactionId) :
  ((forget held page txn).get? other).getD []
    = if other = txn then ((held.get? txn).getD []).filter (· ≠ page)
      else (held.get? other).getD []
  := by
  unfold forget
  cases found : held.get? txn with
  | none => by_cases h : other = txn <;> simp [h, found]
  | some pages =>
    dsimp only
    rw [Option.getD_some]
    generalize pages.filter (· ≠ page) = rest
    cases rest <;> by_cases h : other = txn <;> simp [h, Registry.get?_erase, Registry.get?_insert]

end LockTable

end StorageEngine

import StorageEngine.PageFile
import StorageEngine.SlottedPage.Layout

/-!
# Pool errors

Why a buffer pool, or a table behind it, refuses an operation.
-/

namespace StorageEngine

/-- How a pool or a table was misused. -/
inductive Misuse where
  /-- A pool without room for a page. -/
  | noCapacity
  /-- A page marked as changed by a transaction that may not change it. -/
  | notExclusive (txn : TransactionId) (page : PageId)
  /-- The deletion of a tuple that is not stored. -/
  | noRecordId
  /-- A heap table whose pages have no room for a record. -/
  | pageTooSmall (size : Nat)
  /-- A page asked of a table that it does not belong to. -/
  | foreignPage (page : PageId) (table : TableId)
  /-- The deletion of a tuple from a table without records. -/
  | rawPages
  /-- Anything else, in words. -/
  | other (reason : String)
  deriving DecidableEq

/-- The wording of a misuse. -/
def Misuse.message : Misuse → String
  | .noCapacity => "Buffer pool must hold at least one page"
  | .notExclusive txn page =>
    s!"{txn.render} does not hold an exclusive lock on page {page.render}"
  | .noRecordId => "Cannot delete a tuple without a record ID"
  | .pageTooSmall size => s!"Page size {size} is too small for a heap page"
  | .foreignPage page table => s!"Page {page.render} does not belong to table {table.toNat}"
  | .rawPages => "memory store holds raw pages"
  | .other reason => reason

/-- Why a pool refuses an operation. -/
inductive PoolError where
  /-- The transaction is the victim of a deadlock. -/
  | transactionAborted (txn : TransactionId)
  /-- No page can make room for another. -/
  | poolFull
  | pageNotFound (page : PageId)
  | tableNotFound (table : TableId)
  | disk (cause : DiskError)
  | page (cause : PageError)
  | misuse (cause : Misuse)
  deriving DecidableEq

namespace PoolError

/-- The wording of a pool error. -/
def message : PoolError → String
  | .transactionAborted txn => s!"Transaction {txn.render} aborted: deadlock detected"
  | .poolFull => "Buffer pool is full: every resident page is dirty"
  | .pageNotFound id => s!"Page {id.render} not found in buffer pool"
  | .tableNotFound table => s!"Table {table.toNat} not found in catalog"
  | .disk cause => s!"Disk manager error: {cause.message}"
  | .page cause => s!"Page error: {cause.message}"
  | .misuse cause => s!"Invalid operation: {cause.message}"

/-- Whether the transaction is the victim of a deadlock and may be tried again. -/
def isDeadlock : PoolError → Bool
  | .transactionAborted _ => true
  | _ => false

/-- The wordings of the errors that led to an error, the nearest first. -/
def causes : PoolError → List String
  | .disk (.io reason) => [DiskError.message (.io reason), reason]
  | .disk cause => [cause.message]
  | .page cause => [cause.message]
  | _ => []

end PoolError

end StorageEngine

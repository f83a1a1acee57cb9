import StorageEngine.Bytes
import StorageEngine.Fault
import StorageEngine.Identifier

/-!
# Pages and tuples in memory

A page in memory is a copy of a stored page that a transaction may have changed since.  It is
dirty exactly when it names the transaction that changed it.
-/

namespace StorageEngine

/-- A copy of a page in memory. -/
structure Page where
  id : PageId
  bytes : Bytes
  /-- The transaction that changed the copy since it was last stored. -/
  dirtiedBy : Option TransactionId
  deriving DecidableEq, Inhabited

namespace Page

/-- A copy of a stored page. -/
def clean (id : PageId) (bytes : Bytes) : Page := ⟨id, bytes, none⟩

/-- The zero-filled page of a given size. -/
def zero (id : PageId) (size : Nat) : Except Fault Page := do
  return clean id (← zeros size)

/-- Whether the copy was changed since it was last stored. -/
def isDirty (page : Page) : Bool := page.dirtiedBy.isSome

/-- The copy marked as changed by a transaction, or as unchanged. -/
def mark (page : Page) (txn : Option TransactionId) : Page := { page with dirtiedBy := txn }

end Page

/-- A row of a table: its bytes, and where they are stored, once they are. -/
structure Tuple where
  record : Option RecordId
  data : Bytes
  deriving DecidableEq

end StorageEngine

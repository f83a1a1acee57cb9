/-!
# Identifiers

The names of what the engine stores and of those who use it: tables, the pages of a table,
the slots of a page, records, and transactions.  Each name has one written form, and pages
and transactions are ordered by number.
-/

namespace StorageEngine

/-- The number of a table. -/
abbrev TableId := UInt32

/-- The number of a page within its table, counted from zero. -/
abbrev PageNo := UInt32

/-- The index of a slot within its page, counted from zero. -/
abbrev SlotId := UInt32

/-! ## Pages -/

/-- A page: the table it belongs to and its number there. -/
structure PageId where
  table : TableId
  no : PageNo
  deriving DecidableEq, Inhabited

namespace PageId

/-- The written form of a page: table and number, with a colon between. -/
def render (page : PageId) : String :=
  s!"{page.table.toNat}:{page.no.toNat}"

/-- Pages are ordered by table first and by number within a table. -/
def order (a b : PageId) : Ordering :=
  (compare a.table b.table).then (compare a.no b.no)

/-- Whether `a` does not come after `b`. -/
def le (a b : PageId) : Bool := (a.order b).isLE

end PageId

/-! ## Records -/

/-- A record: the page that holds it and its slot there. -/
structure RecordId where
  page : PageId
  slot : SlotId
  deriving DecidableEq

/-- The written form of a record: its page, a stroke, and its slot. -/
def RecordId.render (record : RecordId) : String :=
  s!"{record.page.render}/{record.slot.toNat}"

/-! ## Transactions -/

/-- A transaction, identified by a number. -/
structure TransactionId where
  number : UInt64
  deriving DecidableEq, Inhabited

namespace TransactionId

/-- The written form of a transaction: its number after `txn#`. -/
def render (txn : TransactionId) : String :=
  s!"txn#{txn.number.toNat}"

/-- Transactions are ordered by number. -/
def order (a b : TransactionId) : Ordering :=
  compare a.number b.number

/-- Whether `a` does not come after `b`. -/
def le (a b : TransactionId) : Bool := (a.order b).isLE

/-- The first `n` transactions that are begun, with consecutive numbers from `first` on. -/
def fresh (first : UInt64) : Nat → List TransactionId
  | 0 => []
  | n + 1 => ⟨first⟩ :: fresh (first + 1) n

end TransactionId

end StorageEngine

import StorageEngine.Page
import StorageEngine.Pool.Error

/-!
# Stores

A store holds the pages of one table.  A heap table keeps slotted pages in a page file, and a
counter table keeps raw pages in memory.  A store notes every page that is read from it or
written to it, and can be told what fails: pages to be read or written, its pages to be counted, a
page to be appended as a whole.
-/

namespace StorageEngine

/-- A page read from a store or written to it. -/
structure StoreAccess where
  no : PageNo
  isWrite : Bool
  /-- Whether the store was told to fail. -/
  failed : Bool
  deriving DecidableEq

/-- What holds the pages of a table. -/
inductive Medium where
  /-- Slotted pages in a file. -/
  | heap (file : PageFile)
  /-- Raw pages in memory. -/
  | counters (pages : Array Bytes)
  deriving Inhabited

/-- The pages of a table. -/
structure Store where
  table : TableId
  medium : Medium
  /-- The pages that fail to be read. -/
  failingReads : List PageNo := []
  /-- The pages that fail to be written. -/
  failingWrites : List PageNo := []
  /-- Whether the pages fail to be counted. -/
  failingCount : Bool := false
  /-- How many bytes can be appended at once, if not all can. -/
  appendLimit : Option Nat := none
  /-- The pages read and written, the last first. -/
  accesses : List StoreAccess := []
  deriving Inhabited

namespace Store

/-- What a store answers when it was told to fail. -/
def injectedFailure : PoolError := .disk (.io "injected failure")

/-! ## Opening -/

/-- A file as a heap table, if its pages have room for a record. -/
def openHeap (table : TableId) (file : PageFile) : Except PoolError Store :=
  if file.pageSize ≤ SlottedPage.headerSize + SlottedPage.slotSize then
    .error (.misuse (.pageTooSmall file.pageSize))
  else .ok { table, medium := .heap file }

/-- A counter table of zero-filled pages. -/
def counters (table : TableId) (count pageSize : Nat) : Store :=
  { table, medium := .counters (Array.replicate count (List.replicate pageSize 0)) }

/-! ## Pages -/

/-- The number of stored pages. -/
def pageCount (store : Store) : Except (Failure PoolError) PageNo :=
  if store.failingCount then .error (.error injectedFailure)
  else
    match store.medium with
    | .heap file => orFault file.pageCount
    | .counters pages => .ok (UInt32.ofNat pages.size)

/-- The numbers of the stored pages, in order. -/
def pageNos (store : Store) : Except (Failure PoolError) (List PageNo) := do
  return (List.range (← store.pageCount).toNat).map UInt32.ofNat

/-- Refuses a page that belongs to another table. -/
def checkTable (store : Store) (page : PageId) : Except (Failure PoolError) Unit :=
  if page.table = store.table then .ok ()
  else .error (.error (.misuse (.foreignPage page store.table)))

/-- The stored bytes of a page. -/
def image (store : Store) (page : PageId) : Except (Failure PoolError) Bytes :=
  match store.medium with
  | .heap file => do
    store.checkTable page
    widen PoolError.disk (file.read page.no)
  | .counters pages =>
    match pages[page.no.toNat]? with
    | some bytes => .ok bytes
    | none => .error (.error (.pageNotFound page))

/-- The store with other bytes for a page. -/
def withImage (store : Store) (page : PageId) (bytes : Bytes) :
    Except (Failure PoolError) Store :=
  match store.medium with
  | .heap file => do
    store.checkTable page
    let file ← widen PoolError.disk (file.write page.no bytes)
    return { store with medium := .heap file }
  | .counters pages =>
    if page.no.toNat < pages.size then
      .ok { store with medium := .counters (pages.setIfInBounds page.no.toNat bytes) }
    else .error (.error (.pageNotFound page))

/-- The store with an access noted. -/
def note (store : Store) (access : StoreAccess) : Store :=
  { store with accesses := access :: store.accesses }

/-- Reads a page. -/
def read (store : Store) (page : PageId) : Except (Failure PoolError) Bytes × Store :=
  if store.failingReads.contains page.no then
    (.error (.error injectedFailure), store.note ⟨page.no, false, true⟩)
  else (store.image page, store.note ⟨page.no, false, false⟩)

/-- Writes a page. -/
def write (store : Store) (page : PageId) (bytes : Bytes) :
    Except (Failure PoolError) Unit × Store :=
  if store.failingWrites.contains page.no then
    (.error (.error injectedFailure), store.note ⟨page.no, true, true⟩)
  else
    let store := store.note ⟨page.no, true, false⟩
    match store.withImage page bytes with
    | .ok store => (.ok (), store)
    | .error failure => (.error failure, store)

/-- The empty slotted page of a given size. -/
def emptyHeapPage (size : Nat) : Except Fault Bytes := do
  SlottedPage.init (← zeros size)

/-- Appends a page to the file of a heap table.  If not all of its bytes can be appended, those that
can are left after the whole pages. -/
def extend (store : Store) (file : PageFile) (bytes : Bytes) :
    Except (Failure PoolError) PageId × Store :=
  if store.failingCount then (.error (.error injectedFailure), store)
  else
    match widen PoolError.disk (file.allocate bytes) with
    | .error failure => (.error failure, store)
    | .ok (no, grown) =>
      let written := bytes.take (store.appendLimit.getD bytes.length)
      if written.length < bytes.length then
        (.error (.error injectedFailure), { store with medium := .heap (file.store no written) })
      else (.ok ⟨store.table, no⟩, { store with medium := .heap grown })

/-- Appends an empty page to a heap table. -/
def allocate (store : Store) : Except (Failure PoolError) PageId × Store :=
  match store.medium with
  | .counters _ => (.error (.error (.misuse .rawPages)), store)
  | .heap file =>
    match orFault (emptyHeapPage file.pageSize) with
    | .error failure => (.error failure, store)
    | .ok bytes => store.extend file bytes

end Store

end StorageEngine

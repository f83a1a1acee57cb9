import StorageEngine.Call.Basic

/-!
# Scanning tables

A scan collects every record of a heap table, in the order of pages and slots.  It takes a
shared lock on every page that the table had when the scan began, and keeps these locks.
-/

namespace StorageEngine.Call

/-- The records of a page as tuples. -/
def tuplesOf (page : PageId) (records : List (SlotId × Bytes)) : List Tuple :=
  records.map fun (slot, data) => ⟨some ⟨page, slot⟩, data⟩

/-- Collects the records of the given pages, after those in `found`. -/
def runScan (txn : TransactionId) (table : TableId) :
    List Tuple → List PageNo → Pool → Progress × Pool
  | found, [], pool => (.done (.answer (.tuples found)), pool)
  | found, no :: rest, pool =>
    let page : PageId := ⟨table, no⟩
    match pool.fetch txn page .readOnly with
    | (.waiting, pool) => (.waiting (.scan table found no rest), pool)
    | (.failed failure, pool) => fail failure pool
    | (.page copy, pool) =>
      match SlottedPage.records (pool.copy copy).bytes with
      | .error fault => fail (.fault fault) pool
      | .ok records => runScan txn table (found ++ tuplesOf page records) rest pool

/-- Collects the records of a store. -/
def startScan (txn : TransactionId) (no : StoreNo) (pool : Pool) : Progress × Pool :=
  let store := pool.store no
  match store.pageNos with
  | .error failure => fail failure pool
  | .ok pages => runScan txn store.table [] pages pool

end StorageEngine.Call

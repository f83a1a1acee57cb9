import StorageEngine.Call.Basic

/-!
# Deleting tuples

A tuple is deleted by the record that stores it, in a page that the transaction locks
exclusively.
-/

namespace StorageEngine.Call

/-- Deletes a record, and marks its page as changed or not. -/
def runDelete (txn : TransactionId) (record : RecordId) (marks : Bool) (pool : Pool) :
    Progress × Pool :=
  match pool.fetch txn record.page .readWrite with
  | (.waiting, pool) => (.waiting (.delete record marks), pool)
  | (.failed failure, pool) => fail failure pool
  | (.page copy, pool) =>
    let page := pool.copy copy
    match SlottedPage.delete page.bytes record.slot with
    | (.error failure, bytes) =>
      fail (failure.map .page) (pool.setCopy copy { page with bytes })
    | (.ok (), bytes) =>
      let pool := pool.setCopy copy { page with bytes }
      if marks then finish .deleted none (pool.installAll txn [copy])
      else (.done (.answer (.erased 1)), pool)

/-- Deletes a record of a given store, and marks its page as changed or not. -/
def startDeleteIn (txn : TransactionId) (no : StoreNo) (record : Option RecordId) (marks : Bool)
    (pool : Pool) : Progress × Pool :=
  let store := pool.store no
  match store.medium, record with
  | .counters _, _ => fail (.error (.misuse .rawPages)) pool
  | .heap _, none => fail (.error (.misuse .noRecordId)) pool
  | .heap _, some record =>
    match store.checkTable record.page with
    | .error failure => fail failure pool
    | .ok () => runDelete txn record marks pool

/-- Deletes a tuple from its table. -/
def startDelete (txn : TransactionId) (record : Option RecordId) (pool : Pool) : Progress × Pool :=
  match record with
  | none => fail (.error (.misuse .noRecordId)) pool
  | some record =>
    match pool.storeOf record.page.table with
    | .error failure => fail failure pool
    | .ok no => startDeleteIn txn no (some record) true pool

end StorageEngine.Call

import StorageEngine.Call.Run

/-!
# Rounds of calls

A call requests locks one after another, and other transactions may take steps between two of its
requests also where none of them is denied.  A round of a call is one request with what the call
does from there to its next request.  To start or to take up a call is to run its rounds one after
another (`Request.start_eq_proceed`, `Call.run_eq_proceed`), so what every round keeps is kept by
every call, wherever others step in between.
-/

namespace StorageEngine

/-- What a round of a call leads to. -/
inductive Round where
  | done (outcome : Outcome)
  /-- The lock is not to be had now. -/
  | waiting (call : Call)
  /-- The call comes to its next request. -/
  | next (call : Call)
  /-- The call has appended a page to a table and comes to its next request. -/
  | grown (page : PageId) (call : Call)

namespace Round

/-- A round with which the call ends or waits, as a `Progress` says. -/
def last : Progress × Pool → Round × Pool
  | (.done outcome, pool) => (.done outcome, pool)
  | (.waiting call, pool) => (.waiting call, pool)

/-- The rest of the call of `txn`, if nobody steps in between. -/
def proceed (txn : TransactionId) : Round × Pool → Progress × Pool
  | (.done outcome, pool) => (.done outcome, pool)
  | (.waiting call, pool) => (.waiting call, pool)
  | (.next call, pool) => call.run txn pool
  | (.grown _ call, pool) => call.run txn pool

@[simp]
theorem proceed_last (txn : TransactionId) (progress : Progress × Pool) :
  proceed txn (last progress) = progress
  := by
  rcases progress with ⟨outcome | call, pool⟩
  · rfl
  · rfl

end Round

namespace Call

/-- Goes on to look for room for `tuple` in the given pages of the store `no`, and appends a page
if there are none. -/
def enterProbe (txn : TransactionId) (no : StoreNo) (tuple : Bytes) :
    List PageNo → Pool → Round × Pool
  | [], pool =>
    match (pool.store no).allocate with
    | (.error failure, store) => (.done (.failure failure), pool.setStore no store)
    | (.ok page, store) => (.grown page (.place page tuple), pool.setStore no store)
  | pageNo :: rest, pool =>
    let page : PageId := ⟨(pool.store no).table, pageNo⟩
    (.next (.probe no tuple pageNo (pool.holdsLock txn page) rest), pool)

/-- Goes on to collect the records of the given pages of `table`, after those in `found`. -/
def enterScan (table : TableId) (found : List Tuple) : List PageNo → Round
  | [] => .done (.answer (.tuples found))
  | no :: rest => .next (.scan table found no rest)

/-- One round of a call of `txn` on `pool`. -/
def round (txn : TransactionId) (pool : Pool) : Call → Round × Pool
  | probe no tuple pageNo alreadyHeld rest =>
    let page : PageId := ⟨(pool.store no).table, pageNo⟩
    match pool.fetch txn page .readOnly with
    | (.waiting, pool) => (.waiting (.probe no tuple pageNo alreadyHeld rest), pool)
    | (.failed failure, pool) => (.done (.failure failure), pool)
    | (.page copy, pool) =>
      match SlottedPage.hasRoom (pool.copy copy).bytes tuple.length with
      | .error fault => (.done (.failure (.fault fault)), pool)
      | .ok true => (.next (.place page tuple), pool)
      | .ok false =>
        enterProbe txn no tuple rest (if alreadyHeld then pool else pool.releasePage txn page)
  | scan table found no rest =>
    let page : PageId := ⟨table, no⟩
    match pool.fetch txn page .readOnly with
    | (.waiting, pool) => (.waiting (.scan table found no rest), pool)
    | (.failed failure, pool) => (.done (.failure failure), pool)
    | (.page copy, pool) =>
      match SlottedPage.records (pool.copy copy).bytes with
      | .error fault => (.done (.failure (.fault fault)), pool)
      | .ok records => (enterScan table (found ++ tuplesOf page records) rest, pool)
  | call => Round.last (call.run txn pool)

/-- Where a page has no room for a tuple, its lock is released, if it was not held before, and the
call goes on to the pages `rest`. -/
theorem round_probe_full {txn : TransactionId} {no : StoreNo} {tuple : Bytes} {pageNo : PageNo}
    {pool after : Pool} {copy : CopyNo}
    (fetched : pool.fetch txn ⟨(pool.store no).table, pageNo⟩ .readOnly = (.page copy, after))
    (full : SlottedPage.hasRoom (after.copy copy).bytes tuple.length = .ok false)
    (alreadyHeld : Bool) (rest : List PageNo) :
  (probe no tuple pageNo alreadyHeld rest).round txn pool
    = enterProbe txn no tuple rest
        (if alreadyHeld then after else after.releasePage txn ⟨(pool.store no).table, pageNo⟩)
  := by
  simp only [round, fetched, full]

/-- `runProbe` is `Round.proceed` from the round that `enterProbe` takes to the first page of
`rest`. -/
theorem runProbe_eq_proceed (txn : TransactionId) (no : StoreNo) (tuple : Bytes)
    (rest : List PageNo) (pool : Pool) :
  runProbe txn no tuple none rest pool = Round.proceed txn (enterProbe txn no tuple rest pool)
  := by
  cases rest with
  | nil =>
    simp only [runProbe, append, enterProbe]
    rcases (pool.store no).allocate with ⟨failure | page, store⟩
    · rfl
    · rfl
  | cons pageNo rest => rfl

/-- `runScan` is `Round.proceed` from the round that `enterScan` takes to the first page of
`rest`. -/
theorem runScan_eq_proceed (txn : TransactionId) (table : TableId) (found : List Tuple)
    (rest : List PageNo) (pool : Pool) :
  runScan txn table found rest pool = Round.proceed txn (enterScan table found rest, pool)
  := by
  cases rest with
  | nil => rfl
  | cons no rest => rfl

/-- `call.run` is `Round.proceed` from the round of `call`. -/
theorem run_eq_proceed (txn : TransactionId) (call : Call) (pool : Pool) :
  call.run txn pool = Round.proceed txn (call.round txn pool)
  := by
  cases call with
  | probe no tuple pageNo alreadyHeld rest =>
    simp only [run, runProbe, round, Option.getD_some]
    obtain ⟨fetched, after⟩ := pool.fetch txn ⟨(pool.store no).table, pageNo⟩ .readOnly
    cases fetched with
    | page copy =>
      dsimp only
      cases SlottedPage.hasRoom (after.copy copy).bytes tuple.length with
      | error fault => rfl
      | ok room =>
        cases room with
        | true => rfl
        | false => apply runProbe_eq_proceed
    | waiting => rfl
    | failed failure => rfl
  | scan table found no rest =>
    simp only [run, runScan, round]
    obtain ⟨fetched, after⟩ := pool.fetch txn ⟨table, no⟩ .readOnly
    cases fetched with
    | page copy =>
      dsimp only
      cases SlottedPage.records (after.copy copy).bytes with
      | error fault => rfl
      | ok records => apply runScan_eq_proceed
    | waiting => rfl
    | failed failure => rfl
  | _ => exact (Round.proceed_last ..).symm

/-- Goes on to delete `record` from the store `no`. -/
def enterDeleteIn (no : StoreNo) (record : Option RecordId) (marks : Bool) (pool : Pool) : Round :=
  let store := pool.store no
  match store.medium, record with
  | .counters _, _ => .done (.failure (.error (.misuse .rawPages)))
  | .heap _, none => .done (.failure (.error (.misuse .noRecordId)))
  | .heap _, some record =>
    match store.checkTable record.page with
    | .error failure => .done (.failure failure)
    | .ok () => .next (.delete record marks)

/-- Goes on to delete `record` from its table. -/
def enterDelete (record : Option RecordId) (pool : Pool) : Round :=
  match record with
  | none => .done (.failure (.error (.misuse .noRecordId)))
  | some record =>
    match pool.storeOf record.page.table with
    | .error failure => .done (.failure failure)
    | .ok no => enterDeleteIn no (some record) true pool

/-- `enterDelete` ends with a failure, or goes on to `.delete record' true` for the record that it
was given. -/
theorem enterDelete_cases (record : Option RecordId) (pool : Pool) :
  (∃ failure, enterDelete record pool = .done (.failure failure))
  ∨ ∃ record', record = some record' ∧ enterDelete record pool = .next (.delete record' true)
  := by
  cases record with
  | none =>
    left
    exact ⟨_, rfl⟩
  | some record =>
    simp only [enterDelete]
    cases pool.storeOf record.page.table with
    | error failure =>
      left
      exact ⟨_, rfl⟩
    | ok no =>
      simp only [enterDeleteIn]
      cases (pool.store no).medium with
      | counters pages =>
        left
        exact ⟨_, rfl⟩
      | heap file =>
        dsimp only
        cases (pool.store no).checkTable record.page with
        | error failure =>
          left
          exact ⟨_, rfl⟩
        | ok _ =>
          right
          exact ⟨_, rfl, rfl⟩

/-- Goes on to insert `tuple` into `table`. -/
def enterInsert (txn : TransactionId) (table : TableId) (tuple : Bytes) (pool : Pool) :
    Round × Pool :=
  match pool.storeOf table with
  | .error failure => (.done (.failure failure), pool)
  | .ok no =>
    let store := pool.store no
    match store.medium with
    | .counters _ => Round.last (runCount txn store.table [] none tuple pool)
    | .heap file =>
      if fits file.pageSize tuple then
        match store.pageNos with
        | .error failure => (.done (.failure failure), pool)
        | .ok pages => enterProbe txn no tuple pages pool
      else (.done (.failure (.error (.page .insufficientSpace))), pool)

@[simp]
theorem pool_last (progress : Progress × Pool) :
  (Round.last progress).2 = progress.2
  := by
  rcases progress with ⟨outcome | call, pool⟩
  · rfl
  · rfl

theorem pool_finish (answer : Answer) (record : Option RecordId) (marked : Pool.Result Unit) :
  (finish answer record marked).2 = marked.2
  := by
  rcases marked with ⟨failure | _, pool⟩
  · rfl
  · rfl

end Call

/-- What a request of `txn` comes to before its first lock request. -/
def Request.enter (txn : TransactionId) (pool : Pool) : Request → Round × Pool
  | lock page mode => (.next (.lock page mode), pool)
  | fetch page access => (.next (.fetch page access), pool)
  | insert table tuple => Call.enterInsert txn table tuple pool
  | delete record => (Call.enterDelete record pool, pool)
  | erase store record => (Call.enterDeleteIn store record false pool, pool)
  | scan no =>
    let store := pool.store no
    match store.pageNos with
    | .error failure => (.done (.failure failure), pool)
    | .ok pages => (Call.enterScan store.table [] pages, pool)

/-- To delete a record of a store is to go on to its page. -/
theorem Call.startDeleteIn_eq_proceed (txn : TransactionId) (no : StoreNo)
    (record : Option RecordId) (marks : Bool) (pool : Pool) :
  startDeleteIn txn no record marks pool
    = Round.proceed txn (enterDeleteIn no record marks pool, pool)
  := by
  simp only [startDeleteIn, enterDeleteIn]
  cases (pool.store no).medium with
  | counters pages => rfl
  | heap file =>
    cases record with
    | none => rfl
    | some record =>
      dsimp only
      cases (pool.store no).checkTable record.page with
      | error failure => rfl
      | ok _ => rfl

/-- `request.start` is `Round.proceed` from the round by which `request` is entered. -/
theorem Request.start_eq_proceed (txn : TransactionId) (request : Request) (pool : Pool) :
  request.start txn pool = Round.proceed txn (request.enter txn pool)
  := by
  cases request with
  | lock page mode => rfl
  | fetch page access => rfl
  | insert table tuple =>
    simp only [start, enter, Call.startInsert, Call.enterInsert]
    cases pool.storeOf table with
    | error failure => rfl
    | ok no =>
      dsimp only
      cases (pool.store no).medium with
      | counters pages => simp
      | heap file =>
        dsimp only
        split
        · cases (pool.store no).pageNos with
          | error failure => rfl
          | ok pages => apply Call.runProbe_eq_proceed
        · rfl
  | delete record =>
    cases record with
    | none => rfl
    | some record =>
      simp only [start, enter, Call.startDelete, Call.enterDelete]
      cases pool.storeOf record.page.table with
      | error failure => rfl
      | ok no => apply Call.startDeleteIn_eq_proceed
  | erase store record => apply Call.startDeleteIn_eq_proceed
  | scan no =>
    simp only [start, enter, Call.startScan]
    cases (pool.store no).pageNos with
    | error failure => rfl
    | ok pages => apply Call.runScan_eq_proceed

end StorageEngine

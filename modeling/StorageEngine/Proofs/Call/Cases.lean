import StorageEngine.Proofs.Call.Rounds
import StorageEngine.Proofs.Pool.Cases

/-!
# What rounds come to

There are few ways for a round of a call to go.  For each part that calls are made of, an inductive
has one case a way, with the equations by which it comes about: to look for room in the pages that
are left (`Call.Entering`), a round of `.probe` (`Call.Probing`), one of `.scan` (`Call.Listing`),
to store a tuple in a page (`Call.Placing`), to delete one (`Call.Deleting`), and what an insertion
begins with (`Call.Beginning`).  Whatever holds after such a part is proved case by case.
-/

namespace StorageEngine.Call

variable {txn : TransactionId} {pool after : Pool} {round : Round} {progress : Progress}
  {no : StoreNo} {table : TableId} {page : PageId} {tuple : Bytes} {copy : CopyNo}
  {pageNo : PageNo} {alreadyHeld : Bool} {rest : List PageNo} {found : List Tuple}
  {record : RecordId} {marks : Bool}

/-! ### Storing and deleting tuples -/

/-- What comes of `store txn tuple copy pool`: the page of `copy` does not take `tuple`, or it does
and is marked, or it cannot be marked. -/
inductive Storing (txn : TransactionId) (tuple : Bytes) (copy : CopyNo) (pool : Pool) :
    Progress → Pool → Prop where
  | refused {failure : Failure PageError} {bytes : Bytes}
      (inserted : SlottedPage.insert (pool.copy copy).bytes tuple = (.error failure, bytes)) :
      Storing txn tuple copy pool (.done (.failure (failure.map .page)))
        (pool.setCopy copy { pool.copy copy with bytes })
  | unmarked {slot : SlotId} {bytes : Bytes} {failure : Failure PoolError} {after : Pool}
      (inserted : SlottedPage.insert (pool.copy copy).bytes tuple = (.ok slot, bytes))
      (marked : (pool.setCopy copy { pool.copy copy with bytes }).install txn copy
        = (.error failure, after)) :
      Storing txn tuple copy pool
        (.done { Outcome.failure failure with record := some ⟨(pool.copy copy).id, slot⟩ }) after
  | stored {slot : SlotId} {bytes : Bytes} {after : Pool}
      (inserted : SlottedPage.insert (pool.copy copy).bytes tuple = (.ok slot, bytes))
      (marked : (pool.setCopy copy { pool.copy copy with bytes }).install txn copy
        = (.ok (), after)) :
      Storing txn tuple copy pool
        (.done { Outcome.answer (.inserted (some ⟨(pool.copy copy).id, slot⟩)) with
          record := some ⟨(pool.copy copy).id, slot⟩ }) after

theorem Storing.of_store (eq : store txn tuple copy pool = (progress, after)) :
  Storing txn tuple copy pool progress after
  := by
  simp only [store] at eq
  rcases inserted : SlottedPage.insert (pool.copy copy).bytes tuple with ⟨failure | slot, bytes⟩
  · rw [inserted] at eq
    cases eq
    exact .refused inserted
  · rw [inserted] at eq
    dsimp only at eq
    rw [Pool.installAll_singleton] at eq
    rcases marked : (pool.setCopy copy { pool.copy copy with bytes }).install txn copy with
      ⟨failure | _, last⟩
    · rw [marked] at eq
      cases eq
      exact .unmarked inserted marked
    · rw [marked] at eq
      cases eq
      exact .stored inserted marked

/-- What comes of `runPlace txn page tuple pool`: it waits for the exclusive lock of `page`, or the
page cannot be fetched, or it is, and `tuple` is stored in it. -/
inductive Placing (txn : TransactionId) (page : PageId) (tuple : Bytes) (pool : Pool) :
    Progress → Pool → Prop where
  | waiting {after : Pool} (fetched : pool.fetch txn page .readWrite = (.waiting, after)) :
      Placing txn page tuple pool (.waiting (.place page tuple)) after
  | failed {failure : Failure PoolError} {after : Pool}
      (fetched : pool.fetch txn page .readWrite = (.failed failure, after)) :
      Placing txn page tuple pool (.done (.failure failure)) after
  | fetched {copy : CopyNo} {middle after : Pool} {progress : Progress}
      (fetched : pool.fetch txn page .readWrite = (.page copy, middle))
      (storing : Storing txn tuple copy middle progress after) :
      Placing txn page tuple pool progress after

theorem Placing.of_runPlace (eq : runPlace txn page tuple pool = (progress, after)) :
  Placing txn page tuple pool progress after
  := by
  simp only [runPlace] at eq
  rcases fetched : pool.fetch txn page .readWrite with ⟨copy | _ | failure, middle⟩
  · rw [fetched] at eq
    exact .fetched fetched (.of_store eq)
  · rw [fetched] at eq
    cases eq
    exact .waiting fetched
  · rw [fetched] at eq
    cases eq
    exact .failed fetched

/-- What comes of `runDelete txn record marks pool`: it waits for the exclusive lock of the page, or
the page cannot be fetched, or has no such record; or the record is deleted, and the page is left
as it is unless the call `marks`, or is marked, or cannot be marked. -/
inductive Deleting (txn : TransactionId) (record : RecordId) (marks : Bool) (pool : Pool) :
    Progress → Pool → Prop where
  | waiting {after : Pool} (fetched : pool.fetch txn record.page .readWrite = (.waiting, after)) :
      Deleting txn record marks pool (.waiting (.delete record marks)) after
  | failed {failure : Failure PoolError} {after : Pool}
      (fetched : pool.fetch txn record.page .readWrite = (.failed failure, after)) :
      Deleting txn record marks pool (.done (.failure failure)) after
  | refused {copy : CopyNo} {after : Pool} {failure : Failure PageError} {bytes : Bytes}
      (fetched : pool.fetch txn record.page .readWrite = (.page copy, after))
      (deleted : SlottedPage.delete (after.copy copy).bytes record.slot = (.error failure, bytes)) :
      Deleting txn record marks pool (.done (.failure (failure.map .page)))
        (after.setCopy copy { after.copy copy with bytes })
  | erased {copy : CopyNo} {after : Pool} {bytes : Bytes} (silent : marks = false)
      (fetched : pool.fetch txn record.page .readWrite = (.page copy, after))
      (deleted : SlottedPage.delete (after.copy copy).bytes record.slot = (.ok (), bytes)) :
      Deleting txn record marks pool (.done (.answer (.erased 1)))
        (after.setCopy copy { after.copy copy with bytes })
  | unmarked {copy : CopyNo} {middle after : Pool} {bytes : Bytes} {failure : Failure PoolError}
      (marking : marks = true)
      (fetched : pool.fetch txn record.page .readWrite = (.page copy, middle))
      (deleted : SlottedPage.delete (middle.copy copy).bytes record.slot = (.ok (), bytes))
      (marked : (middle.setCopy copy { middle.copy copy with bytes }).install txn copy
        = (.error failure, after)) :
      Deleting txn record marks pool (.done (.failure failure)) after
  | deleted {copy : CopyNo} {middle after : Pool} {bytes : Bytes} (marking : marks = true)
      (fetched : pool.fetch txn record.page .readWrite = (.page copy, middle))
      (deleted : SlottedPage.delete (middle.copy copy).bytes record.slot = (.ok (), bytes))
      (marked : (middle.setCopy copy { middle.copy copy with bytes }).install txn copy
        = (.ok (), after)) :
      Deleting txn record marks pool (.done (.answer .deleted)) after

theorem Deleting.of_runDelete (eq : runDelete txn record marks pool = (progress, after)) :
  Deleting txn record marks pool progress after
  := by
  simp only [runDelete] at eq
  rcases fetched : pool.fetch txn record.page .readWrite with ⟨copy | _ | failure, middle⟩
  · rw [fetched] at eq
    dsimp only at eq
    rcases deleted : SlottedPage.delete (middle.copy copy).bytes record.slot with
      ⟨failure | _, bytes⟩
    · rw [deleted] at eq
      cases eq
      exact .refused fetched deleted
    · rw [deleted] at eq
      dsimp only at eq
      cases marks with
      | false =>
        cases eq
        exact .erased rfl fetched deleted
      | true =>
        rw [if_pos rfl, Pool.installAll_singleton] at eq
        rcases marked : (middle.setCopy copy { middle.copy copy with bytes }).install txn copy with
          ⟨failure | _, last⟩
        · rw [marked] at eq
          cases eq
          exact .unmarked rfl fetched deleted marked
        · rw [marked] at eq
          cases eq
          exact .deleted rfl fetched deleted marked
  · rw [fetched] at eq
    cases eq
    exact .waiting fetched
  · rw [fetched] at eq
    cases eq
    exact .failed fetched

/-! ### Looking for room -/

/-- What comes of `enterProbe txn no tuple rest pool`: it goes on to the first page of `rest`; or
there is none, and a page is appended for `tuple`, or cannot be appended. -/
inductive Entering (txn : TransactionId) (no : StoreNo) (tuple : Bytes) (pool : Pool) :
    List PageNo → Round → Pool → Prop where
  | refused {failure : Failure PoolError} {store : Store}
      (allocated : (pool.store no).allocate = (.error failure, store)) :
      Entering txn no tuple pool [] (.done (.failure failure)) (pool.setStore no store)
  | grown {page : PageId} {store : Store}
      (allocated : (pool.store no).allocate = (.ok page, store)) :
      Entering txn no tuple pool [] (.grown page (.place page tuple)) (pool.setStore no store)
  | next (pageNo : PageNo) (rest : List PageNo) :
      Entering txn no tuple pool (pageNo :: rest)
        (.next (.probe no tuple pageNo (pool.holdsLock txn ⟨(pool.store no).table, pageNo⟩) rest))
        pool

theorem Entering.of_enterProbe (eq : enterProbe txn no tuple rest pool = (round, after)) :
  Entering txn no tuple pool rest round after
  := by
  cases rest with
  | nil =>
    simp only [enterProbe] at eq
    rcases allocated : (pool.store no).allocate with ⟨failure | page, store⟩
    · rw [allocated] at eq
      cases eq
      exact .refused allocated
    · rw [allocated] at eq
      cases eq
      exact .grown allocated
  | cons pageNo rest =>
    cases eq
    exact .next pageNo rest

/-- What comes of a round of `.probe no tuple pageNo alreadyHeld rest`: it waits for the shared lock
of the page, or the page cannot be fetched, or is no slotted page, or has room for `tuple`, or its
lock is released, unless it was `alreadyHeld`, and the call goes on to `rest`. -/
inductive Probing (txn : TransactionId) (no : StoreNo) (tuple : Bytes) (pageNo : PageNo)
    (alreadyHeld : Bool) (rest : List PageNo) (pool : Pool) : Round → Pool → Prop where
  | waiting {after : Pool}
      (fetched : pool.fetch txn ⟨(pool.store no).table, pageNo⟩ .readOnly = (.waiting, after)) :
      Probing txn no tuple pageNo alreadyHeld rest pool
        (.waiting (.probe no tuple pageNo alreadyHeld rest)) after
  | failed {failure : Failure PoolError} {after : Pool}
      (fetched : pool.fetch txn ⟨(pool.store no).table, pageNo⟩ .readOnly
        = (.failed failure, after)) :
      Probing txn no tuple pageNo alreadyHeld rest pool (.done (.failure failure)) after
  | broken {copy : CopyNo} {after : Pool} {fault : Fault}
      (fetched : pool.fetch txn ⟨(pool.store no).table, pageNo⟩ .readOnly = (.page copy, after))
      (room : SlottedPage.hasRoom (after.copy copy).bytes tuple.length = .error fault) :
      Probing txn no tuple pageNo alreadyHeld rest pool (.done (.failure (.fault fault))) after
  | roomy {copy : CopyNo} {after : Pool}
      (fetched : pool.fetch txn ⟨(pool.store no).table, pageNo⟩ .readOnly = (.page copy, after))
      (room : SlottedPage.hasRoom (after.copy copy).bytes tuple.length = .ok true) :
      Probing txn no tuple pageNo alreadyHeld rest pool
        (.next (.place ⟨(pool.store no).table, pageNo⟩ tuple)) after
  | full {copy : CopyNo} {middle after : Pool} {round : Round}
      (fetched : pool.fetch txn ⟨(pool.store no).table, pageNo⟩ .readOnly = (.page copy, middle))
      (room : SlottedPage.hasRoom (middle.copy copy).bytes tuple.length = .ok false)
      (entering : Entering txn no tuple
        (if alreadyHeld then middle else middle.releasePage txn ⟨(pool.store no).table, pageNo⟩)
        rest round after) :
      Probing txn no tuple pageNo alreadyHeld rest pool round after

theorem Probing.of_round
    (eq : (probe no tuple pageNo alreadyHeld rest).round txn pool = (round, after)) :
  Probing txn no tuple pageNo alreadyHeld rest pool round after
  := by
  simp only [Call.round] at eq
  rcases fetched : pool.fetch txn ⟨(pool.store no).table, pageNo⟩ .readOnly with
    ⟨copy | _ | failure, middle⟩
  · rw [fetched] at eq
    dsimp only at eq
    rcases room : SlottedPage.hasRoom (middle.copy copy).bytes tuple.length with fault | _ | _
    · rw [room] at eq
      cases eq
      exact .broken fetched room
    · rw [room] at eq
      exact .full fetched room (.of_enterProbe eq)
    · rw [room] at eq
      cases eq
      exact .roomy fetched room
  · rw [fetched] at eq
    cases eq
    exact .waiting fetched
  · rw [fetched] at eq
    cases eq
    exact .failed fetched

/-! ### Scanning -/

/-- What comes of a round of `.scan table found pageNo rest`: it waits for the shared lock of the
page, or the page cannot be fetched, or is no slotted page, or its records are listed and the call
goes on to `rest`. -/
inductive Listing (txn : TransactionId) (table : TableId) (found : List Tuple) (pageNo : PageNo)
    (rest : List PageNo) (pool : Pool) : Round → Pool → Prop where
  | waiting {after : Pool}
      (fetched : pool.fetch txn ⟨table, pageNo⟩ .readOnly = (.waiting, after)) :
      Listing txn table found pageNo rest pool (.waiting (.scan table found pageNo rest)) after
  | failed {failure : Failure PoolError} {after : Pool}
      (fetched : pool.fetch txn ⟨table, pageNo⟩ .readOnly = (.failed failure, after)) :
      Listing txn table found pageNo rest pool (.done (.failure failure)) after
  | broken {copy : CopyNo} {after : Pool} {fault : Fault}
      (fetched : pool.fetch txn ⟨table, pageNo⟩ .readOnly = (.page copy, after))
      (listed : SlottedPage.records (after.copy copy).bytes = .error fault) :
      Listing txn table found pageNo rest pool (.done (.failure (.fault fault))) after
  | listed {copy : CopyNo} {after : Pool} {records : List (SlotId × Bytes)}
      (fetched : pool.fetch txn ⟨table, pageNo⟩ .readOnly = (.page copy, after))
      (listed : SlottedPage.records (after.copy copy).bytes = .ok records) :
      Listing txn table found pageNo rest pool
        (enterScan table (found ++ tuplesOf ⟨table, pageNo⟩ records) rest) after

theorem Listing.of_round (eq : (scan table found pageNo rest).round txn pool = (round, after)) :
  Listing txn table found pageNo rest pool round after
  := by
  simp only [Call.round] at eq
  rcases fetched : pool.fetch txn ⟨table, pageNo⟩ .readOnly with ⟨copy | _ | failure, middle⟩
  · rw [fetched] at eq
    dsimp only at eq
    rcases listed : SlottedPage.records (middle.copy copy).bytes with fault | records
    · rw [listed] at eq
      cases eq
      exact .broken fetched listed
    · rw [listed] at eq
      cases eq
      exact .listed fetched listed
  · rw [fetched] at eq
    cases eq
    exact .waiting fetched
  · rw [fetched] at eq
    cases eq
    exact .failed fetched

/-! ### Rounds that do one thing to a pool -/

/-- A round of `.lock page mode` requests that lock and does nothing else to `pool`. -/
theorem pool_round_lock (txn : TransactionId) (pool : Pool) (page : PageId) (mode : LockMode) :
  ((lock page mode).round txn pool).2
    = { pool with locks := (pool.locks.request page txn mode).2 }
  := by
  simp only [Call.round, pool_last, run, runLock]
  rcases pool.locks.request page txn mode with ⟨_ | _ | _, locks⟩
  all_goals rfl

/-- A round of `.fetch page access` fetches that page and does nothing else to `pool`. -/
theorem pool_round_fetch (txn : TransactionId) (pool : Pool) (page : PageId) (access : Access) :
  ((fetch page access).round txn pool).2 = (pool.fetch txn page access).2
  := by
  simp only [Call.round, pool_last, run, runFetch]
  rcases pool.fetch txn page access with ⟨copy | _ | failure, after⟩
  all_goals rfl

/-- A round of `.scan` fetches its page and does nothing else to `pool`. -/
theorem pool_round_scan (txn : TransactionId) (pool : Pool) (table : TableId)
    (found : List Tuple) (pageNo : PageNo) (rest : List PageNo) :
  ((scan table found pageNo rest).round txn pool).2
    = (pool.fetch txn ⟨table, pageNo⟩ .readOnly).2
  := by
  rcases eq : (scan table found pageNo rest).round txn pool with ⟨round, after⟩
  cases Listing.of_round eq with
  | waiting fetched | failed fetched | broken fetched | listed fetched => rw [fetched]

/-! ### Beginning an insertion -/

/-- What comes of `enterInsert txn table tuple pool`: there is no such `table`; or its counters are
counted up; or its pages cannot be counted, or are too short for `tuple`, or the call goes on to
look for room in them. -/
inductive Beginning (txn : TransactionId) (table : TableId) (tuple : Bytes) (pool : Pool) :
    Round → Pool → Prop where
  | unknown {failure : Failure PoolError} (missing : pool.storeOf table = .error failure) :
      Beginning txn table tuple pool (.done (.failure failure)) pool
  | counters {no : StoreNo} {pages : Array Bytes} {progress : Progress} {after : Pool}
      (known : pool.storeOf table = .ok no) (medium : (pool.store no).medium = .counters pages)
      (eq : runCount txn (pool.store no).table [] none tuple pool = (progress, after)) :
      Beginning txn table tuple pool (Round.last (progress, after)).1 after
  | unfit {no : StoreNo} {file : PageFile} (known : pool.storeOf table = .ok no)
      (medium : (pool.store no).medium = .heap file) (unfit : fits file.pageSize tuple = false) :
      Beginning txn table tuple pool (.done (.failure (.error (.page .insufficientSpace)))) pool
  | uncounted {no : StoreNo} {file : PageFile} {failure : Failure PoolError}
      (known : pool.storeOf table = .ok no) (medium : (pool.store no).medium = .heap file)
      (fits : fits file.pageSize tuple = true)
      (counted : (pool.store no).pageNos = .error failure) :
      Beginning txn table tuple pool (.done (.failure failure)) pool
  | entering {no : StoreNo} {file : PageFile} {pages : List PageNo} {round : Round} {after : Pool}
      (known : pool.storeOf table = .ok no) (medium : (pool.store no).medium = .heap file)
      (fits : fits file.pageSize tuple = true) (counted : (pool.store no).pageNos = .ok pages)
      (entering : Entering txn no tuple pool pages round after) :
      Beginning txn table tuple pool round after

theorem Beginning.of_enterInsert (eq : enterInsert txn table tuple pool = (round, after)) :
  Beginning txn table tuple pool round after
  := by
  simp only [enterInsert] at eq
  rcases known : pool.storeOf table with failure | no
  · rw [known] at eq
    cases eq
    exact .unknown known
  · rw [known] at eq
    dsimp only at eq
    cases medium : (pool.store no).medium with
    | counters pages =>
      rw [medium] at eq
      dsimp only at eq
      rcases counted : runCount txn (pool.store no).table [] none tuple pool with ⟨progress, last⟩
      rw [counted] at eq
      obtain rfl : (Round.last (progress, last)).1 = round := congrArg Prod.fst eq
      obtain rfl : last = after := (pool_last _).symm.trans (congrArg Prod.snd eq)
      exact .counters known medium counted
    | heap file =>
      rw [medium] at eq
      dsimp only at eq
      by_cases fit : fits file.pageSize tuple = true
      · rw [if_pos fit] at eq
        rcases counted : (pool.store no).pageNos with failure | pages
        · rw [counted] at eq
          cases eq
          exact .uncounted known medium fit counted
        · rw [counted] at eq
          exact .entering known medium fit counted (.of_enterProbe eq)
      · rw [if_neg fit] at eq
        cases eq
        exact .unfit known medium (Bool.eq_false_iff.mpr fit)

end StorageEngine.Call

import StorageEngine.Proofs.CommandLine.Counting
import StorageEngine.Proofs.Workload.Accounts

/-!
# Sequences of invocations

Invocations that follow each other keep count of the tuples in the table's file, whatever room
their pools have, however their workers come in between each other and however they end.  Every
invocation leaves as many more tuples as were inserted by the transactions that its workers have
committed (`CommandLine.Carried.counts`), so that an invocation that succeeds prints the sum over
all that went before (`CommandLine.Sequence.keeps_count`).
-/

namespace StorageEngine.CommandLine

/-! ### Files -/

/-- The store of `tableId` over `file`. -/
def tableStore (pageSize : Nat) (file : Array UInt8) : Store :=
  { table := tableId, medium := .heap ⟨pageSize, ⟨file⟩⟩ }

/-- The tuples that `file` holds in pages of `pageSize` bytes. -/
def tuplesOf (pageSize : Nat) (file : Array UInt8) : List Tuple := (tableStore pageSize file).tuples

/-- Whether the pages of `file` are well formed. -/
def Formed (pageSize : Nat) (file : Array UInt8) : Prop :=
  ∀ no bytes, (tableStore pageSize file).image ⟨tableId, no⟩ = .ok bytes →
    SlottedPage.WellFormed bytes

/-- The empty file `#[]` is `Formed`. -/
theorem formed_empty (pageSize : Nat) :
  Formed pageSize #[]
  := by
  intro no bytes read
  have numbered : (tableStore pageSize #[]).Numbered := by
    simp [Store.Numbered, tableStore, Store.length, PageFile.pages_eq]
  have within := Store.lt_length numbered read
  simp [tableStore, Store.length, PageFile.pages_eq] at within

/-- `tuplesOf` finds nothing in the empty file `#[]`. -/
theorem tuplesOf_empty (pageSize : Nat) :
  tuplesOf pageSize #[] = []
  := by
  simp [tuplesOf, Store.tuples, Workspaces.pageNos, tableStore, Store.length, PageFile.pages_eq]

/-! ### Pools over the table's file -/

section

variable {invocation : Invocation} {file : Array UInt8} {pool after : Pool} {more : Nat}

/-- A `pool` that `openPool` returns is its own creation, catalogs `tableId` at store 0, and has
`tableStore invocation.pageSize file` as its only store. -/
theorem openPool_eq_ok (opened : openPool invocation file = .ok pool) :
  Pool.create pool.config pool.catalog pool.stores = .ok pool
    ∧ pool.catalog = ⟨[(tableId, 0)]⟩
    ∧ pool.stores = #[tableStore invocation.pageSize file]
  := by
  unfold openPool Store.openHeap at opened
  split at opened
  · cases opened
  · rename_i store eq
    split at eq
    · cases eq
    · cases eq
      have made := (Pool.create_eq_ok opened).2
      subst made
      exact ⟨opened, rfl, rfl⟩

/-- Store 0 of an opened `pool` is `tableStore invocation.pageSize file`. -/
theorem store_openPool (opened : openPool invocation file = .ok pool) :
  pool.store 0 = tableStore invocation.pageSize file
  := by
  obtain ⟨-, -, stores⟩ := openPool_eq_ok opened
  simp [Pool.store, stores]

/-- The catalog of an opened `pool` has `tableId` in store 0, and no other entry. -/
theorem catalog_openPool (opened : openPool invocation file = .ok pool) {other : TableId}
    {no : StoreNo} (found : pool.catalog.get? other = some no) :
  other = tableId ∧ no = 0
  := by
  obtain ⟨-, catalog, -⟩ := openPool_eq_ok opened
  simp only [catalog, Registry.get?, Registry.lookup] at found
  split at found
  · rename_i same
    cases found
    exact ⟨same.symm, rfl⟩
  · cases found

/-- The store of `tableId` in an opened `pool` has the shape of a heap table. -/
theorem heap_openPool (opened : openPool invocation file = .ok pool) (no : StoreNo)
    (found : pool.catalog.get? tableId = some no) :
  ∃ pageSize, (pool.store no).shape = .inl pageSize
  := by
  obtain ⟨-, rfl⟩ := catalog_openPool opened found
  rw [store_openPool opened]
  exact ⟨invocation.pageSize, rfl⟩

/-- Over a file that is `Formed`, the opened `pool` is `Over` the table `tableId` in store 0. -/
theorem over_openPool (opened : openPool invocation file = .ok pool)
    (formed : Formed invocation.pageSize file)
    (numbered : (pool.store 0).Numbered) :
  pool.Over tableId 0
  := by
  obtain ⟨created, catalog, stores⟩ := openPool_eq_ok opened
  have first := store_openPool opened
  have kept : pool.catalog.get? tableId = some 0 := by
    rw [catalog]
    rfl
  rw [first] at numbered
  refine ⟨created, System.wellStored_of_one_store catalog stores numbered rfl, kept, ?_,
    heap_openPool opened 0 kept, ?_, ?_⟩
  · intro other found
    obtain ⟨no, found⟩ := Option.isSome_iff_exists.mp found
    apply (catalog_openPool opened found).1
  · intro other distinct
    have missing : pool.store other = default := by
      simp [Pool.store, stores, Array.getD, distinct]
    rw [missing]
    exact ⟨0, rfl⟩
  · intro page bytes inside stored
    obtain ⟨no, found, read⟩ := Pool.stored_eq_some_iff.mp stored
    obtain ⟨-, rfl⟩ := catalog_openPool opened found
    obtain ⟨table, pageNo⟩ := page
    cases inside
    rw [first] at read
    apply formed pageNo bytes read

/-- Where `pool.SameTables after`, store 0 of `after` is a heap table of `tableId` with the
contents `fileOf after`. -/
theorem store_of_sameTables (opened : openPool invocation file = .ok pool)
    (same : pool.SameTables after) :
  (after.store 0).table = tableId
    ∧ (after.store 0).medium = .heap ⟨invocation.pageSize, ⟨fileOf after⟩⟩
  := by
  have table := same.table 0
  have shape := same.shape 0
  rw [store_openPool opened] at table shape
  use table
  unfold fileOf
  unfold Store.shape at shape
  cases medium : (after.store 0).medium with
  | heap kept =>
    rw [medium] at shape
    have size : kept.pageSize = invocation.pageSize := Sum.inl.inj shape
    rw [← size]
    rfl
  | counters pages =>
    rw [medium] at shape
    cases shape

/-- `fileOf after` has as many pages as store 0 of `after`. -/
theorem length_of_sameTables (opened : openPool invocation file = .ok pool)
    (same : pool.SameTables after) :
  (tableStore invocation.pageSize (fileOf after)).length = (after.store 0).length
  := by
  obtain ⟨-, medium⟩ := store_of_sameTables opened same
  simp only [Store.length, medium, tableStore]

/-- If the table `Gains` the number `more` of tuples, then `fileOf after` is `Formed` and has
`more` tuples more than `file`. -/
theorem tuplesOf_fileOf (opened : openPool invocation file = .ok pool)
    (gains : pool.Gains after tableId 0 more) :
  Formed invocation.pageSize (fileOf after)
    ∧ (tuplesOf invocation.pageSize (fileOf after)).length
      = (tuplesOf invocation.pageSize file).length + more
  := by
  obtain ⟨table, medium⟩ := store_of_sameTables opened gains.same
  constructor
  · intro no bytes read
    apply gains.formed ⟨tableId, no⟩ bytes rfl
    apply Pool.stored_eq_some_iff.mpr
    refine ⟨0, ?_, ?_⟩
    · rw [gains.same.catalog, (openPool_eq_ok opened).2.1]
      rfl
    · simp only [Store.image, Store.checkTable, table, medium]
      apply read
  · have tuples := gains.tuples
    rw [store_openPool opened] at tuples
    have same : (after.store 0).tuples = tuplesOf invocation.pageSize (fileOf after) :=
      Store.tuples_congr table medium
    rw [← same]
    apply tuples

end

/-! ### Reports -/

/-- `report` leaves the file of the pool after `countTuples`; with exit code 0 it appends the count
to `output`. -/
theorem report_cases (txn : TransactionId) (output : List OutputLine) (pool : Pool) :
  (report txn output pool).file = fileOf (countTuples txn pool).2
    ∧ ((report txn output pool).exitCode = 0 → ∃ count, (countTuples txn pool).1 = .ok count
      ∧ (report txn output pool).output = output ++ [.text s!"Tuples in table: {count}"])
  := by
  unfold report
  split
  · rename_i count after eq
    rw [eq]
    exact ⟨rfl, fun _ => ⟨count, rfl, rfl⟩⟩
  · rename_i eq
    rw [eq]
    exact ⟨rfl, nofun⟩
  · rename_i eq
    rw [eq]
    exact ⟨rfl, nofun⟩

/-- What a workload prints that succeeds, with the `count` of tuples at the end. -/
def summary (committed aborted count : Nat) : List OutputLine :=
  [ .text s!"Committed transactions: {committed}",
    .text s!"Deadlock aborts (retried): {aborted}",
    .elapsed,
    .text s!"Tuples in table: {count}" ]

/-- The pool of `crew` after `countTuples`, or after a failure. -/
def poolAfter (crew : Crew) : Pool :=
  match crew.failure? with
  | some _ => crew.pool
  | none => (countTuples ⟨crew.nextId⟩ crew.pool).2

/-- `conclude` leaves the file of `poolAfter crew`; with exit code 0 no worker has failed, and it
prints the `summary` of `crew` with the count. -/
theorem conclude_cases (crew : Crew) :
  (conclude crew).file = fileOf (poolAfter crew)
    ∧ ((conclude crew).exitCode = 0 → crew.failure? = none
      ∧ ∃ count, (countTuples ⟨crew.nextId⟩ crew.pool).1 = .ok count
        ∧ (conclude crew).output = summary crew.committed crew.aborted count)
  := by
  unfold conclude poolAfter
  cases failure : crew.failure? with
  | some status =>
    cases status with
    | failed cause => exact ⟨rfl, nofun⟩
    | working | finished | faulted reason => exact ⟨rfl, nofun⟩
  | none =>
    obtain ⟨file, reports⟩ := report_cases ⟨crew.nextId⟩
      [ .text s!"Committed transactions: {crew.committed}",
        .text s!"Deadlock aborts (retried): {crew.aborted}",
        .elapsed ] crew.pool
    use file
    intro succeeded
    obtain ⟨count, counted, output⟩ := reports succeeded
    exact ⟨rfl, count, counted, output⟩

theorem grows_poolAfter (crew : Crew) :
  crew.pool.Grows (poolAfter crew)
  := by
  unfold poolAfter
  split
  · exact .of_stores rfl
  · apply grows_countTuples

theorem keeps_poolAfter (crew : Crew) :
  crew.pool.Keeps (poolAfter crew)
  := by
  unfold poolAfter
  split
  · apply Pool.Keeps.refl
  · apply keeps_countTuples

/-- In `poolAfter crew` the table `Gains` the tuples of the `crew.committed` transactions and no
others, and a count that is returned is as many tuples more than those of `start`. -/
theorem gains_poolAfter {workload : Workload} {start : Pool} {crew : Crew} {events : List Event}
    {system : System} (base : start.Over workload.table 0)
    (accounted : crew.Accounted workload start events system)
    (numbered : ((poolAfter crew).store 0).Numbered) :
  start.Gains (poolAfter crew) workload.table 0 (crew.committed * workload.tuples)
    ∧ (crew.failure? = none → ∀ count, (countTuples ⟨crew.nextId⟩ crew.pool).1 = .ok count →
      count = (start.store 0).tuples.length + crew.committed * workload.tuples)
  := by
  have before : (system.pool.store 0).Numbered := by
    rw [accounted.pool]
    exact Nat.lt_of_le_of_lt (grows_poolAfter crew 0) numbered
  obtain ⟨spaces, reached⟩ :=
    accounted.run.reached base before accounted.unedited accounted.undeleted
  have gains := reached.gains base
  rw [accounted.pool, accounted.stored] at gains
  unfold poolAfter at numbered ⊢
  cases failure : crew.failure? with
  | some status => exact ⟨gains, nofun⟩
  | none =>
    rw [failure] at numbered
    obtain ⟨doing, idle⟩ := accounted.idle ⟨crew.nextId⟩ accounted.unused
    have counted := gains_countTuples base accounted.run accounted.unedited accounted.undeleted
      doing idle (accounted.pool ▸ numbered)
    rw [accounted.pool, accounted.stored] at counted
    use counted.1
    intro _ count found
    rw [counted.2 count found, gains.tuples]

/-! ### Invocations -/

/-- `Carried invocation file execution batches` says that `invocation` can go on `file` as
`execution` says, with `batches` transactions that its workers have committed.  The workers take
turns in any order, and may be cut short.  There are numbers for all the transactions that they
begin and for the one that counts. -/
inductive Carried (invocation : Invocation) (file : Array UInt8) : Execution → Nat → Prop where
  | refused {failure : Failure PoolError} (refuses : openPool invocation file = .error failure) :
    Carried invocation file (execute invocation file) 0
  | scanned {pool : Pool} (opened : openPool invocation file = .ok pool)
      (action : invocation.action = .scan) :
    Carried invocation file (report ⟨1⟩ [] pool) 0
  | worked {pool : Pool} {workers transactions tuples : Nat} {crew : Crew}
      (opened : openPool invocation file = .ok pool)
      (action : invocation.action = .run workers transactions tuples)
      (turns : (Crew.create ⟨tableId, transactions, tuples⟩ pool workers).Turns crew)
      (numbers : crew.begun + 1 < UInt64.size) :
    Carried invocation file (conclude crew) crew.committed

/-- Whether there are numbers for the transactions that the workers of `invocation` begin one after
another, and for the one that counts. -/
def NumbersInTurn (invocation : Invocation) (file : Array UInt8) : Prop :=
  ∀ pool workers transactions tuples, openPool invocation file = .ok pool →
    invocation.action = .run workers transactions tuples →
    (Crew.create ⟨tableId, transactions, tuples⟩ pool workers).workInTurn.begun + 1 < UInt64.size

/-- The number of tuples that each transaction of an action inserts. -/
def Action.tuples : Action → Nat
  | .run _ _ tuples => tuples
  | .scan => 0

/-- What `invocation` does to a `file` that holds `total` tuples, when its workers have committed
`batches` transactions. -/
structure Counts (invocation : Invocation) (file : Array UInt8) (total : Nat)
    (execution : Execution) (batches : Nat) : Prop where
  formed : Formed invocation.pageSize execution.file
  /-- The transactions that were committed have left their tuples, and no others have. -/
  stored : (tuplesOf invocation.pageSize execution.file).length
    = total + batches * invocation.action.tuples
  /-- An invocation that is refused leaves the file as it is. -/
  refused : ∀ failure, openPool invocation file = .error failure →
    execution.exitCode ≠ 0 ∧ execution.file = file ∧ batches = 0
  /-- A scan that succeeds prints how many tuples there are. -/
  scan : invocation.action = .scan → batches = 0
    ∧ (execution.exitCode = 0 → execution.output = [.text s!"Tuples in table: {total}"])
  /-- A run that succeeds has committed all its transactions and prints how many tuples there
  are. -/
  run : ∀ workers transactions tuples, invocation.action = .run workers transactions tuples →
    batches ≤ workers * transactions
    ∧ (execution.exitCode = 0 → batches = workers * transactions
      ∧ ∃ aborted, execution.output
        = summary (workers * transactions) aborted (total + workers * transactions * tuples))

section

variable {invocation : Invocation} {file : Array UInt8} {pool : Pool} {total : Nat}

/-- Workers who take turns keep the tables that were opened. -/
theorem sameTables_poolAfter {workers transactions tuples : Nat} {crew : Crew}
    (opened : openPool invocation file = .ok pool)
    (turns : (Crew.create ⟨tableId, transactions, tuples⟩ pool workers).Turns crew) :
  pool.SameTables (poolAfter crew)
  := by
  have orderly : crew.Orderly ⟨tableId, transactions, tuples⟩ pool :=
    .turns (Pool.tidy_create (openPool_eq_ok opened).1) (heap_openPool opened) turns
  exact orderly.same.trans (keeps_poolAfter crew orderly.tidy).2

/-- `countTuples` leaves an opened `pool` with the `SameTables`. -/
theorem sameTables_countTuples (opened : openPool invocation file = .ok pool)
    (txn : TransactionId) :
  pool.SameTables (countTuples txn pool).2
  := (keeps_countTuples txn pool (Pool.tidy_create (openPool_eq_ok opened).1)).2

/-- A scan of a file with `total` tuples `Counts` them. -/
theorem counts_scan (opened : openPool invocation file = .ok pool)
    (action : invocation.action = .scan) (formed : Formed invocation.pageSize file)
    (held : (tuplesOf invocation.pageSize file).length = total)
    (numbered : (tableStore invocation.pageSize (report ⟨1⟩ [] pool).file).Numbered) :
  Counts invocation file total (report ⟨1⟩ [] pool) 0
  := by
  obtain ⟨left, reports⟩ := report_cases ⟨1⟩ [] pool
  rw [left, Store.Numbered, length_of_sameTables opened (sameTables_countTuples opened ⟨1⟩)]
    at numbered
  have base : pool.Over tableId 0 := by
    apply over_openPool opened formed
    exact Nat.lt_of_le_of_lt (grows_countTuples ⟨1⟩ pool 0) numbered
  obtain ⟨gains, counted⟩ : pool.Gains (countTuples ⟨1⟩ pool).2 tableId 0 0
      ∧ ∀ count, (countTuples ⟨1⟩ pool).1 = .ok count → count = (pool.store 0).tuples.length :=
    gains_countTuples base .start (fun _ _ _ => List.not_mem_nil) (fun _ _ => List.not_mem_nil)
      rfl rfl numbered
  obtain ⟨formed', stored⟩ := tuplesOf_fileOf opened gains
  rw [← left] at formed' stored
  refine ⟨formed', ?_, ?_, ?_, ?_⟩
  · rw [stored, held, Nat.zero_mul]
  · intro failure refused
    cases opened.symm.trans refused
  · intro _
    use rfl
    intro succeeded
    obtain ⟨count, found, output⟩ := reports succeeded
    rw [output, counted count found, store_openPool opened, ← held]
    rfl
  · intro workers transactions tuples run
    cases action.symm.trans run

/-- A workload on a file with `total` tuples `Counts` them and those that it adds, for every `crew`
that `Turns` of its workers lead to. -/
theorem counts_run {workers transactions tuples : Nat} {crew : Crew}
    (opened : openPool invocation file = .ok pool)
    (action : invocation.action = .run workers transactions tuples)
    (turns : (Crew.create ⟨tableId, transactions, tuples⟩ pool workers).Turns crew)
    (numbers : crew.begun + 1 < UInt64.size) (formed : Formed invocation.pageSize file)
    (held : (tuplesOf invocation.pageSize file).length = total)
    (numbered : (tableStore invocation.pageSize (conclude crew).file).Numbered) :
  Counts invocation file total (conclude crew) crew.committed
  := by
  obtain ⟨left, reports⟩ := conclude_cases crew
  rw [left, Store.Numbered, length_of_sameTables opened (sameTables_poolAfter opened turns)]
    at numbered
  have numbered' : (crew.pool.store 0).Numbered :=
    Nat.lt_of_le_of_lt (grows_poolAfter crew 0) numbered
  have base : pool.Over tableId 0 := by
    apply over_openPool opened formed
    exact Nat.lt_of_le_of_lt (Crew.grows_turns turns 0) numbered'
  obtain ⟨events, system, accounted⟩ := Crew.Accounted.turns base turns numbers numbered'
  have size : crew.workers.size = workers := by
    rw [Crew.size_turns turns]
    simp [Crew.create]
  obtain ⟨gains, counted⟩ := gains_poolAfter base accounted numbered
  obtain ⟨formed', stored⟩ := tuplesOf_fileOf opened gains
  rw [← left] at formed' stored
  refine ⟨formed', ?_, ?_, ?_, ?_⟩
  · rw [stored, held, action]
    rfl
  · intro failure refused
    cases opened.symm.trans refused
  · intro scan
    cases action.symm.trans scan
  · intro workers' transactions' tuples' run
    cases action.symm.trans run
    use size ▸ accounted.committed_le
    intro succeeded
    obtain ⟨done, count, found, output⟩ := reports succeeded
    have all := accounted.committed_of_finished done
    rw [size] at all
    refine ⟨all, crew.aborted, ?_⟩
    rw [output, counted done count found, all, store_openPool opened, ← held]
    rfl

end

namespace Carried

variable {invocation : Invocation} {file : Array UInt8} {execution : Execution}
  {batches total : Nat}

/-- Where `openPool` fails, `execute` has an exit code other than 0 and leaves `file` as it is. -/
theorem execute_of_refused {failure : Failure PoolError}
    (refuses : openPool invocation file = .error failure) :
  (execute invocation file).exitCode ≠ 0 ∧ (execute invocation file).file = file
  := by
  unfold execute
  rw [refuses]
  cases failure with
  | error cause => exact ⟨(by decide : (1 : UInt32) ≠ 0), rfl⟩
  | fault reason => exact ⟨(by decide : (101 : UInt32) ≠ 0), rfl⟩

/-- No invocation takes a page from `file`: that of `execution` is as long or longer. -/
theorem grows (carried : Carried invocation file execution batches) :
  (tableStore invocation.pageSize file).length
    ≤ (tableStore invocation.pageSize execution.file).length
  := by
  cases carried with
  | refused refuses => rw [(execute_of_refused refuses).2]
  | scanned opened action =>
    rw [(report_cases ..).1, length_of_sameTables opened (sameTables_countTuples opened ⟨1⟩),
      ← store_openPool opened]
    apply grows_countTuples
  | @worked pool _ _ _ crew opened action turns numbers =>
    rw [(conclude_cases crew).1, length_of_sameTables opened (sameTables_poolAfter opened turns),
      ← store_openPool opened]
    apply (Crew.grows_turns turns).trans (grows_poolAfter crew)

/-- An invocation `Carried` out on a file with `total` tuples `Counts` them, with those of its
`batches`. -/
theorem counts (carried : Carried invocation file execution batches)
    (formed : Formed invocation.pageSize file)
    (held : (tuplesOf invocation.pageSize file).length = total)
    (numbered : (tableStore invocation.pageSize execution.file).Numbered) :
  Counts invocation file total execution batches
  := by
  cases carried with
  | refused refuses =>
    obtain ⟨fails, same⟩ := execute_of_refused refuses
    refine ⟨same.symm ▸ formed, ?_, fun _ _ => ⟨fails, same, rfl⟩, ?_, ?_⟩
    · rw [same, held, Nat.zero_mul]
      rfl
    · intro _
      exact ⟨rfl, fun succeeded => absurd succeeded fails⟩
    · intro workers transactions tuples _
      exact ⟨Nat.zero_le _, fun succeeded => absurd succeeded fails⟩
  | scanned opened action => exact counts_scan opened action formed held numbered
  | worked opened action turns numbers =>
    exact counts_run opened action turns numbers formed held numbered

/-- Under `NumbersInTurn`, what `execute invocation file` returns is one of the executions that can
be `Carried` out. -/
theorem of_execute (numbers : NumbersInTurn invocation file) :
  ∃ batches, Carried invocation file (execute invocation file) batches
  := by
  cases opened : openPool invocation file with
  | error failure => exact ⟨0, .refused opened⟩
  | ok pool =>
    have performed : execute invocation file = perform invocation.action pool := by
      rw [execute, opened]
    rw [performed]
    cases action : invocation.action with
    | scan => exact ⟨0, .scanned opened action⟩
    | run workers transactions tuples =>
      exact ⟨_, .worked opened action (Crew.turns_workInTurn _)
        (numbers pool workers transactions tuples opened action)⟩

end Carried

/-! ### Sequences -/

/-- `Sequence pageSize file total` says that invocations one after another leave `file`, which was
missing at first, and that all the transactions that were committed have inserted `total`
tuples. -/
inductive Sequence (pageSize : Nat) : Array UInt8 → Nat → Prop where
  | start : Sequence pageSize #[] 0
  | next {file : Array UInt8} {total : Nat} {invocation : Invocation} {execution : Execution}
      {batches : Nat} (before : Sequence pageSize file total)
      (size : invocation.pageSize = pageSize)
      (carried : Carried invocation file execution batches) :
    Sequence pageSize execution.file (total + batches * invocation.action.tuples)

namespace Sequence

variable {pageSize : Nat} {file : Array UInt8} {total : Nat}

/-- A file holds the tuples that were inserted by transactions that were committed, while its pages
have numbers. -/
theorem holds (sequence : Sequence pageSize file total)
    (numbered : (tableStore pageSize file).Numbered) :
  Formed pageSize file ∧ (tuplesOf pageSize file).length = total
  := by
  induction sequence with
  | start => exact ⟨formed_empty pageSize, by rw [tuplesOf_empty]; rfl⟩
  | next before size carried ih =>
    subst size
    obtain ⟨formed, held⟩ := ih (Nat.lt_of_le_of_lt carried.grows numbered)
    have counts := carried.counts formed held numbered
    exact ⟨counts.formed, counts.stored⟩

/-- After a sequence of invocations, an invocation with pages of the same size counts on from the
sum `total` of all that went before, while pages have numbers: whatever an `execution` of it leads
to whose workers take turns in any order, and so also what `execute` leads to, whose workers work
one after another. -/
theorem keeps_count {invocation : Invocation} (sequence : Sequence pageSize file total)
    (size : invocation.pageSize = pageSize) :
  (∀ execution batches, Carried invocation file execution batches →
      (tableStore pageSize execution.file).Numbered →
      Counts invocation file total execution batches)
    ∧ (NumbersInTurn invocation file →
      (tableStore pageSize (execute invocation file).file).Numbered →
      ∃ batches, Carried invocation file (execute invocation file) batches
        ∧ Counts invocation file total (execute invocation file) batches)
  := by
  subst size
  have counts : ∀ execution batches, Carried invocation file execution batches →
      (tableStore invocation.pageSize execution.file).Numbered →
      Counts invocation file total execution batches := by
    intro execution batches carried numbered
    obtain ⟨formed, held⟩ := sequence.holds (Nat.lt_of_le_of_lt carried.grows numbered)
    exact carried.counts formed held numbered
  use counts
  intro numbers numbered
  obtain ⟨batches, carried⟩ := Carried.of_execute numbers
  exact ⟨batches, carried, counts _ batches carried numbered⟩

/-- The pool with room for one page that an invocation opens over `file`, with pages of 64
bytes. -/
def smallPool (file : Array UInt8) : Pool :=
  { config := { poolSize := 1, pageSize := 64 }, cache := ⟨1, []⟩, copies := #[], locks := .empty
    catalog := ⟨[(tableId, 0)]⟩, stores := #[tableStore 64 file] }

/-- Two workers after they have each inserted a tuple into the empty table of `smallPool`. -/
def twoWorkers : Crew := (Crew.create ⟨tableId, 1, 1⟩ (smallPool #[]) 2).workInTurn

/-- The tuples that two workers have left are counted by the next invocation. -/
theorem keeps_count_twoWorkers :
  Sequence 64 (conclude twoWorkers).file 2
    ∧ (execute ⟨"data", 1, 64, .scan⟩ (conclude twoWorkers).file).output
      = [.text "Tuples in table: 2"]
  := by
  have sequence : Sequence 64 (conclude twoWorkers).file 2 := by
    have opened : openPool ⟨"data", 1, 64, .run 2 1 1⟩ #[] = .ok (smallPool #[]) := rfl
    obtain ⟨committed, numbers⟩ :
        twoWorkers.committed = 2 ∧ twoWorkers.begun + 1 < UInt64.size := by decide +kernel
    have next := Sequence.start.next rfl (.worked opened rfl (Crew.turns_workInTurn _) numbers)
    change Sequence 64 (conclude twoWorkers).file (0 + twoWorkers.committed * 1) at next
    rw [committed] at next
    exact next
  use sequence
  obtain ⟨succeeds, size⟩ : (execute ⟨"data", 1, 64, .scan⟩ (conclude twoWorkers).file).exitCode = 0
      ∧ (execute ⟨"data", 1, 64, .scan⟩ (conclude twoWorkers).file).file.size / 64
        < UInt32.size := by
    decide +kernel
  have numbers : NumbersInTurn ⟨"data", 1, 64, .scan⟩ (conclude twoWorkers).file := by
    rintro pool workers transactions tuples - ⟨⟩
  obtain ⟨batches, -, counts⟩ := (sequence.keeps_count rfl).2 numbers size
  exact (counts.scan rfl).2 succeeds

/-- The pool with room for one page that an invocation opens over `file`. -/
def poolOver (file : PageFile) : Pool :=
  { Pool.ofFile 1 file with config := { poolSize := 1, pageSize := file.pageSize } }

/-- On the contents of an `Outgrown` file, `execute` of a scan prints that there are 0 tuples. -/
theorem execute_outgrown {file : PageFile} (outgrown : file.Outgrown) (size : file.pageSize = 24) :
  execute ⟨"data", 1, 24, .scan⟩ file.contents
    = ⟨0, [.text "Tuples in table: 0"], [], file.contents⟩
  := by
  obtain ⟨pageSize, bytes⟩ := file
  subst size
  have opened : openPool ⟨"data", 1, 24, .scan⟩ (PageFile.contents ⟨24, bytes⟩)
      = .ok (poolOver ⟨24, bytes⟩) := rfl
  have grown : (poolOver ⟨24, bytes⟩).Outgrown 1 0 ⟨24, bytes⟩ :=
    ⟨rfl, Nat.one_pos, rfl, rfl, outgrown, rfl, rfl⟩
  have counted : countTuples ⟨1⟩ (poolOver ⟨24, bytes⟩) = (.ok 0, poolOver ⟨24, bytes⟩) := by
    simp only [countTuples, grown.start_scan ⟨1⟩]
    rfl
  simp only [execute, opened, perform, report, counted]
  rfl

/-- In the file `tuplePages`, each page of which holds a tuple, an invocation counts none. -/
theorem miscounts_tuplePages :
  (∀ no, System.tuplePages.page no = System.filledPage)
    ∧ SlottedPage.records System.filledPage = .ok [(0, [7])]
    ∧ (execute ⟨"data", 1, 24, .scan⟩ System.tuplePages.contents).exitCode = 0
    ∧ (execute ⟨"data", 1, 24, .scan⟩ System.tuplePages.contents).output
      = [.text "Tuples in table: 0"]
  := by
  have executed := execute_outgrown System.outgrown_tuplePages.outgrown rfl
  rw [executed]
  exact ⟨System.page_tuplePages, rfl, rfl, rfl⟩

end Sequence

end StorageEngine.CommandLine

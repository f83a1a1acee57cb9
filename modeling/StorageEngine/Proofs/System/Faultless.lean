import StorageEngine.Proofs.System.StepMoves

/-!
# Transactions that end without a fault

A store is laid out if its pages are neither empty nor too long for a buffer.  Such a store answers
a read or a write, or reports an error, but it does not fault.  So a transaction that ends on a
pool of such stores always loses its locks, whatever fails (`Pool.Laid.complete`).
-/

namespace StorageEngine

/-! ### Outcomes without faults -/

/-- Whether a computation with this `outcome` has an answer or reports an error. -/
def Faultless {ε α : Type} (outcome : Except (Failure ε) α) : Prop :=
  ∀ fault, outcome ≠ .error (.fault fault)

namespace Faultless

variable {ε δ α β : Type} {outcome : Except (Failure ε) α}

theorem ok (a : α) :
  Faultless (.ok a : Except (Failure ε) α)
  := by
  rintro fault ⟨⟩

theorem error (cause : ε) :
  Faultless (.error (.error cause) : Except (Failure ε) α)
  := by
  rintro fault ⟨⟩

theorem bind (first : Faultless outcome) {rest : α → Except (Failure ε) β}
    (second : ∀ a, Faultless (rest a)) :
  Faultless (outcome >>= rest)
  := by
  rcases outcome with (cause | fault) | a
  · apply error cause
  · cases first fault rfl
  · apply second a

theorem widen (faultless : Faultless outcome) (f : ε → δ) :
  Faultless (StorageEngine.widen f outcome)
  := by
  rcases outcome with (cause | fault) | a
  · apply error (f cause)
  · cases faultless fault rfl
  · apply ok a

end Faultless

/-! ### Page files -/

namespace PageFile

variable {file : PageFile}

theorem faultless_pageCount (positive : 0 < file.pageSize) :
  Faultless (ε := DiskError) (orFault file.pageCount)
  := by
  simp only [pageCount, if_neg (Nat.ne_of_gt positive)]
  apply Faultless.ok

theorem faultless_read (positive : 0 < file.pageSize) (short : file.pageSize ≤ maxLength)
    (no : PageNo) :
  Faultless (file.read no)
  := by
  simp only [read, Nat.not_lt.mpr short, if_false]
  apply (faultless_pageCount positive).bind
  intro count
  split
  · apply Faultless.error
  · apply Faultless.ok

theorem faultless_write (positive : 0 < file.pageSize) (no : PageNo) (data : Bytes) :
  Faultless (file.write no data)
  := by
  have sized : Faultless (file.checkSize data) := by
    unfold checkSize
    split
    · apply Faultless.ok
    · apply Faultless.error
  unfold write
  apply sized.bind
  intro _
  apply (faultless_pageCount positive).bind
  intro count
  split
  · apply Faultless.error
  · apply Faultless.ok

end PageFile

/-! ### Stores -/

/-- Whether the pages of `store` are neither empty nor too long for a buffer. -/
def Store.Laid (store : Store) : Prop :=
  ∀ pageSize, store.shape = .inl pageSize → 0 < pageSize ∧ pageSize ≤ maxLength

/-- Whether the pages of `store` are not empty, if they are kept in a file. -/
def Store.Paged (store : Store) : Prop := ∀ pageSize, store.shape = .inl pageSize → 0 < pageSize

namespace Store

variable {store : Store}

theorem Paged.heap (paged : store.Paged) {file : PageFile} (medium : store.medium = .heap file) :
  0 < file.pageSize
  := paged _ (shape_heap medium)

theorem Laid.paged (laid : store.Laid) :
  store.Paged
  := fun pageSize shape => (laid pageSize shape).1

/-- The pages of a `file` whose store is `Laid` are not empty and fit a buffer. -/
theorem Laid.heap (laid : store.Laid) {file : PageFile} (medium : store.medium = .heap file) :
  0 < file.pageSize ∧ file.pageSize ≤ maxLength
  := laid _ (shape_heap medium)

theorem faultless_checkTable (store : Store) (page : PageId) :
  Faultless (store.checkTable page)
  := by
  unfold checkTable
  split
  · apply Faultless.ok
  · apply Faultless.error

/-- In a store that is `Laid`, `read` is `Faultless`. -/
theorem Laid.read (laid : store.Laid) (page : PageId) :
  Faultless (store.read page).1
  := by
  unfold Store.read
  split
  · apply Faultless.error
  · simp only [image]
    cases medium : store.medium with
    | counters pages =>
      dsimp only
      split
      · apply Faultless.ok
      · apply Faultless.error
    | heap file =>
      obtain ⟨positive, short⟩ := laid.heap medium
      apply (store.faultless_checkTable page).bind
      intro _
      apply (PageFile.faultless_read positive short _).widen

/-- In a store that is `Paged`, `write` is `Faultless`, however long the pages are. -/
theorem Paged.write (paged : store.Paged) (page : PageId) (bytes : Bytes) :
  Faultless (store.write page bytes).1
  := by
  have image : Faultless ((store.note ⟨page.no, true, false⟩).withImage page bytes) := by
    simp only [withImage, note]
    cases medium : store.medium with
    | counters pages =>
      dsimp only
      split
      · apply Faultless.ok
      · apply Faultless.error
    | heap file =>
      apply (faultless_checkTable _ page).bind
      intro _
      apply ((PageFile.faultless_write (paged.heap medium) _ bytes).widen _).bind
      intro _
      apply Faultless.ok
  unfold Store.write
  split
  · apply Faultless.error
  · dsimp only
    rcases written : (store.note ⟨page.no, true, false⟩).withImage page bytes with failure | after
    · rw [written] at image
      intro fault faults
      cases faults
      cases image fault rfl
    · apply Faultless.ok

end Store

/-! ### Pools -/

namespace Pool

variable {pool after : Pool} {no : CopyNo}

/-- Whether all stores of `pool` are `Laid`. -/
def Laid (pool : Pool) : Prop := ∀ no, (pool.store no).Laid

theorem Laid.of_shape (laid : pool.Laid)
    (same : ∀ no, (after.store no).shape = (pool.store no).shape) :
  after.Laid
  := by
  intro no pageSize shape
  apply laid no pageSize (same no ▸ shape)

theorem Laid.setStore (laid : pool.Laid) (no : StoreNo) {store : Store} (new : store.Laid) :
  (pool.setStore no store).Laid
  := by
  intro other
  rw [store_setStore]
  split
  · apply new
  · apply laid other

/-- In a pool that is `Laid`, `readStored` is `Faultless` and leaves it so. -/
theorem Laid.readStored (laid : pool.Laid) (page : PageId) :
  Faultless (pool.readStored page).1 ∧ (pool.readStored page).2.Laid
  := by
  obtain ⟨stores, eq, same, -⟩ := pool.readStored_spec page
  constructor
  · unfold Pool.readStored Pool.storeOf
    cases pool.catalog.get? page.table with
    | none => apply Faultless.error
    | some no => apply (laid no).read
  · apply laid.of_shape
    intro no
    rw [eq, Store.shape, Store.shape, same.media.medium]

/-- In a pool that is `Laid`, `writeStored` is `Faultless` and leaves it so. -/
theorem Laid.writeStored (laid : pool.Laid) (page : PageId) (bytes : Bytes) :
  Faultless (pool.writeStored page bytes).1 ∧ (pool.writeStored page bytes).2.Laid
  := by
  unfold Pool.writeStored Pool.storeOf
  cases pool.catalog.get? page.table with
  | none => exact ⟨.error _, laid⟩
  | some no =>
    constructor
    · apply (laid no).paged.write
    · apply laid.setStore no
      intro pageSize shape
      apply laid no pageSize
      rw [← shape, Store.shape_write]

theorem Laid.writeBack (laid : pool.Laid) (selects : TransactionId → Bool) (no : CopyNo) :
  Faultless (pool.writeBack selects no).1 ∧ (pool.writeBack selects no).2.Laid
  := by
  unfold Pool.writeBack
  dsimp only
  split
  · have written := laid.writeStored (pool.copy no).id (pool.copy no).bytes
    rcases eq : pool.writeStored (pool.copy no).id (pool.copy no).bytes with ⟨failure | _, after⟩
    · rw [eq] at written
      exact written
    · rw [eq] at written
      exact ⟨.ok (), written.2⟩
  · exact ⟨.ok (), laid⟩

theorem Laid.writeBackAll (laid : pool.Laid) (selects : TransactionId → Bool)
    (copies : List CopyNo) :
  Faultless (pool.writeBackAll selects copies).1
  := by
  induction copies generalizing pool with
  | nil => apply Faultless.ok
  | cons no copies ih =>
    have first := laid.writeBack selects no
    unfold Pool.writeBackAll
    rcases eq : pool.writeBack selects no with ⟨failure | _, after⟩
    · rw [eq] at first
      apply first.1
    · rw [eq] at first
      apply ih first.2

theorem Laid.restore (laid : pool.Laid) (page : PageId) (no : CopyNo) :
  (∃ outcome, (pool.restore page no).1 = .ok outcome) ∧ (pool.restore page no).2.Laid
  := by
  have read := laid.readStored page
  unfold Pool.restore
  rcases eq : pool.readStored page with ⟨(cause | fault) | bytes, after⟩
  all_goals rw [eq] at read
  · exact ⟨⟨_, rfl⟩, read.2⟩
  · cases read.1 fault rfl
  · exact ⟨⟨_, rfl⟩, read.2⟩

theorem Laid.restoreAll (laid : pool.Laid) (txn : TransactionId) (held : List PageId)
    (frames : List Frame) (outcome : Except PoolError Unit) :
  Faultless (pool.restoreAll txn held frames outcome).1
  := by
  induction frames generalizing pool outcome with
  | nil =>
    cases outcome with
    | error cause => apply Faultless.error cause
    | ok _ => apply Faultless.ok ()
  | cons frame frames ih =>
    unfold Pool.restoreAll
    split
    · obtain ⟨⟨restored, found⟩, laid⟩ := laid.restore frame.page frame.copy
      rcases eq : pool.restore frame.page frame.copy with ⟨result, after⟩
      rw [eq] at found laid
      obtain rfl : result = .ok restored := found
      apply ih laid
    · apply ih laid

/-- Where the changes of `txn` are settled without a fault, `pool.complete txn commits` releases
its locks, whatever fails. -/
theorem complete_eq {txn : TransactionId} {commits : Bool}
    (settled : Faultless (if commits then pool.flushTransaction txn else pool.rollback txn).1) :
  pool.complete txn commits
    = ((if commits then pool.flushTransaction txn else pool.rollback txn).1,
      (if commits then pool.flushTransaction txn else pool.rollback txn).2.releaseAll txn)
  := by
  obtain ⟨result, after, ended, ⟨fault, faulted, -⟩ | ⟨-, eq⟩⟩ := pool.complete_settles txn commits
  all_goals rw [ended] at settled
  · cases settled fault faulted
  · rw [eq, ended]

/-- In a pool that is `Laid`, `complete` is `Faultless`, whatever fails to be read or written. -/
theorem Laid.complete (laid : pool.Laid) (txn : TransactionId) (commits : Bool) :
  Faultless (pool.complete txn commits).1
  := by
  have settled :
      Faultless (if commits then pool.flushTransaction txn else pool.rollback txn).1 := by
    split
    · apply laid.writeBackAll
    · apply laid.restoreAll
  rw [complete_eq settled]
  apply settled

end Pool

end StorageEngine

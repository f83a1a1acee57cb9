import StorageEngine.Proofs.Lock.Records

/-!
# Tidy lock tables

A lock table is kept three times over: by page, by transaction, and as a graph of waits.  It is tidy
if the three agree and none of them has an entry that says nothing.  Whatever is requested and
released in whatever order, a lock table stays tidy, and so to release every lock of a transaction,
which looks for them by transaction alone, leaves no trace of it and leaves every other transaction
as it was (`Reachable.tidy_releaseAll`).
-/

namespace StorageEngine

namespace PageLocks

variable {locks : PageLocks} {txn : TransactionId} {mode : LockMode}

/-- `locks.grant txn mode` has a record. -/
theorem records_grant_ne_nil (locks : PageLocks) (txn : TransactionId) (mode : LockMode) :
  (locks.grant txn mode).records ≠ []
  := by
  intro none
  have holder : ((locks.grant txn mode).modeOf? txn).isSome := by
    rw [modeOf?_grant, if_pos rfl]
    rfl
  simp [modeOf?, none] at holder

/-- A second `release txn` takes nothing. -/
@[simp]
theorem release_release (locks : PageLocks) (txn : TransactionId) :
  (locks.release txn).release txn = locks.release txn
  := by
  apply release_eq_self
  rw [modeOf?_release, if_pos rfl]

/-- The records of consistent `locks` are an exclusive one alone, or shared ones of distinct
holders. -/
theorem exclusive_or_shared (consistent : locks.isConsistent = true) :
  (∃ txn, locks.records = [⟨txn, .exclusive⟩])
    ∨ (locks.holders.Nodup ∧ ∀ record ∈ locks.records, record.mode = .shared)
  := by
  obtain ⟨nodup, shared | one⟩ := isConsistent_iff.mp consistent
  · right
    use nodup
  · obtain ⟨⟨holder, mode⟩, only⟩ := List.length_eq_one_iff.mp one
    cases mode with
    | exclusive =>
      left
      use holder
    | shared =>
      right
      use nodup
      simp [only]

end PageLocks

/-- A step in the use of a lock table.  Any transaction may ask for any lock at any time. -/
inductive LockTable.Act where
  | tryAcquire (page : PageId) (txn : TransactionId) (mode : LockMode)
  | request (page : PageId) (txn : TransactionId) (mode : LockMode)
  | release (page : PageId) (txn : TransactionId)
  | releaseAll (txn : TransactionId)
  deriving DecidableEq

namespace LockTable

variable {table : LockTable} {page other : PageId} {txn holder : TransactionId} {mode : LockMode}

/-- `table` after a step. -/
def perform (table : LockTable) : Act → LockTable
  | .tryAcquire page txn mode => (table.tryAcquire page txn mode).2
  | .request page txn mode => (table.request page txn mode).2
  | .release page txn => table.release page txn
  | .releaseAll txn => table.releaseAll txn

/-- The tables that steps lead to from `empty`, in any order. -/
inductive Reachable : LockTable → Prop where
  | empty : Reachable .empty
  | perform {table : LockTable} (before : Reachable table) (act : Act) :
      Reachable (table.perform act)

/-! ### What a release changes -/

/-- A release finds nothing to release, or takes a record and the page from what its transaction
holds. -/
theorem release_cases (table : LockTable) (page : PageId) (txn : TransactionId) :
  (table.modeOf? page txn = none ∧ table.release page txn = table)
    ∨ ∃ locks, table.pages.get? page = some locks
      ∧ table.release page txn =
        { table with
          pages := if (locks.release txn).isEmpty then table.pages.erase page
            else table.pages.insert page (locks.release txn)
          held := forget table.held page txn }
  := by
  unfold release
  cases found : table.pages.get? page with
  | none =>
    left
    simp [modeOf?, locksOn, found]
  | some locks =>
    by_cases unheld : locks.modeOf? txn = none
    · left
      simp [modeOf?, locksOn, found, unheld]
    · right
      use locks, rfl
      simp [unheld]

/-- Releasing `pages` one by one takes the record of `txn` on an `other` page that is among them,
and leaves one that is not. -/
theorem locksOn_foldl_release (txn : TransactionId) (other : PageId) :
  ∀ (pages : List PageId) (table : LockTable),
    (pages.foldl (fun table page => table.release page txn) table).locksOn other
      = if other ∈ pages then (table.locksOn other).release txn else table.locksOn other
  | [], _ => by simp
  | page :: pages, table => by
    rw [List.foldl_cons, locksOn_foldl_release txn other pages, locksOn_release]
    by_cases here : other = page
    · subst here
      simp
    · simp [here]

/-- Releasing every lock takes the records of the transaction and no others. -/
theorem Sound.locksOn_releaseAll (sound : table.Sound) :
  (table.releaseAll txn).locksOn page = (table.locksOn page).release txn
  := by
  have locks := locksOn_foldl_release txn page (table.heldPages txn) table
  apply Eq.trans locks
  split
  · rfl
  · rename_i unlisted
    have unheld := mt (sound.indexed txn page).mpr unlisted
    rw [PageLocks.release_eq_self (by simpa [modeOf?] using unheld)]

/-- `table.release page txn` leaves what another `holder` is known to hold. -/
theorem get?_held_release (table : LockTable) (page : PageId) (distinct : holder ≠ txn) :
  (table.release page txn).held.get? holder = table.held.get? holder
  := by
  rcases table.release_cases page txn with ⟨-, eq⟩ | ⟨locks, -, eq⟩
  · rw [eq]
  · rw [eq]
    simp only [forget]
    split
    · rfl
    · split
      · rw [Registry.get?_erase_of_ne _ distinct]
      · rw [Registry.get?_insert_of_ne _ distinct]

theorem get?_held_releaseAll (table : LockTable) (distinct : holder ≠ txn) :
  (table.releaseAll txn).held.get? holder = table.held.get? holder
  := by
  have kept : ∀ (pages : List PageId) (table : LockTable),
      (pages.foldl (fun table page => table.release page txn) table).held.get? holder
        = table.held.get? holder := by
    intro pages
    induction pages with
    | nil => simp
    | cons page pages ih =>
      intro table
      rw [List.foldl_cons, ih, get?_held_release table page distinct]
  apply kept

/-! ### Tidy tables -/

/-- Beside being `Sound`, `table` has no entry for a page without locks or for a transaction
without pages, it lists no page twice, and no transaction waits for itself. -/
structure Tidy (table : LockTable) : Prop extends Sound table where
  locked : ∀ page locks, table.pages.get? page = some locks → locks.records ≠ []
  holding : ∀ txn pages, table.held.get? txn = some pages → pages ≠ [] ∧ pages.Nodup
  waits : ∀ txn wait, table.graph.waitOf? txn = some wait → txn ∉ wait.blockers

theorem tidy_empty :
  Tidy empty
  where
  toSound := sound_empty
  locked _ _ found := by cases found
  holding _ _ found := by cases found
  waits _ _ found := by cases found

/-- `table.clearWaits txn` is `Tidy` if `table` is: it only has fewer waits. -/
theorem Tidy.clearWaits (tidy : table.Tidy) (txn : TransactionId) :
  (table.clearWaits txn).Tidy
  where
  toSound := tidy.toSound.clearWaits
  locked := tidy.locked
  holding := tidy.holding
  waits waiter wait found := by
    have before : table.graph.waitOf? waiter = some wait := by
      rw [LockTable.clearWaits, WaitGraph.waitOf?_clearWaits] at found
      split at found
      · cases found
      · apply found
    apply tidy.waits waiter wait before

/-- `table.deny page txn mode` is `Tidy`: the wait that it records has no `txn` among its
blockers. -/
theorem Tidy.deny (tidy : table.Tidy) (page : PageId) (txn : TransactionId) (mode : LockMode) :
  (table.deny page txn mode).Tidy
  where
  toSound := tidy.toSound.deny
  locked := tidy.locked
  holding := tidy.holding
  waits waiter wait found := by
    rw [LockTable.deny, WaitGraph.waitOf?_recordWait] at found
    split at found
    · cases found
      rename_i same
      simp [same]
    · apply tidy.waits waiter wait found

/-- A grant of a `mode` that is admitted keeps the table `Tidy`: it leaves a record on `page`, and
`page` with `txn`. -/
theorem Tidy.grant (tidy : table.Tidy)
    (granted : (table.locksOn page).admits txn mode = true) :
  (table.grant page txn mode).Tidy
  where
  toSound := tidy.toSound.grant granted
  locked place locks found := by
    simp only [LockTable.grant, Registry.get?_insert] at found
    split at found
    · cases found
      apply PageLocks.records_grant_ne_nil
    · apply tidy.locked place locks found
  holding holder pages found := by
    simp only [LockTable.grant, Registry.get?_insert] at found
    split at found
    · cases found
      have nodup : (table.heldPages txn).Nodup := by
        unfold heldPages
        cases listed : table.held.get? txn with
        | none => simp
        | some pages => apply (tidy.holding txn pages listed).2
      by_cases here : page ∈ table.heldPages txn
      · simpa [here, nodup] using List.ne_nil_of_mem here
      · have apart : ∀ listed ∈ table.heldPages txn, listed ≠ page := by
          rintro listed member rfl
          apply here member
        simpa [here, List.nodup_append, nodup] using apart
    · apply tidy.holding holder pages found
  waits := (tidy.clearWaits txn).waits

/-- `table.release page txn` is `Tidy`: with the last record of `page` its entry goes, and with the
last page of `txn` the entry of `txn`. -/
theorem Tidy.release (tidy : table.Tidy) (page : PageId) (txn : TransactionId) :
  (table.release page txn).Tidy
  where
  toSound := tidy.toSound.release page txn
  locked place locks found := by
    rcases table.release_cases page txn with ⟨-, eq⟩ | ⟨rest, -, eq⟩
    · rw [eq] at found
      apply tidy.locked place locks found
    · by_cases last : (rest.release txn).isEmpty = true
      · simp only [eq, last, if_true, Registry.get?_erase] at found
        split at found
        · cases found
        · apply tidy.locked place locks found
      · simp only [eq, last, Registry.get?_insert, Bool.false_eq_true, if_false] at found
        split at found
        · cases found
          simpa [PageLocks.isEmpty] using last
        · apply tidy.locked place locks found
  holding holder pages found := by
    by_cases same : holder = txn
    · subst same
      rcases table.release_cases page holder with ⟨-, eq⟩ | ⟨rest, -, eq⟩
      · rw [eq] at found
        apply tidy.holding holder pages found
      · simp only [eq, forget] at found
        cases listed : table.held.get? holder with
        | none => simp [listed] at found
        | some before =>
          rw [listed] at found
          dsimp only at found
          split at found
          · simp at found
          · rename_i some
            rw [Registry.get?_insert_self, Option.some.injEq] at found
            rw [← found]
            constructor
            · intro none
              apply some none
            · apply (tidy.holding holder before listed).2.filter
    · rw [get?_held_release table page same] at found
      apply tidy.holding holder pages found
  waits := by
    rw [graph_release]
    apply tidy.waits

theorem Tidy.foldl_release (txn : TransactionId) :
  ∀ (pages : List PageId) {table : LockTable}, table.Tidy →
    (pages.foldl (fun table page => table.release page txn) table).Tidy
  | [], _, tidy => tidy
  | page :: pages, _, tidy => Tidy.foldl_release txn pages (tidy.release page txn)

theorem Tidy.releaseAll (tidy : table.Tidy) (txn : TransactionId) :
  (table.releaseAll txn).Tidy
  := (Tidy.foldl_release txn (table.heldPages txn) tidy).clearWaits txn

/-- `table.perform act` is `Tidy` if `table` is. -/
theorem Tidy.perform (tidy : table.Tidy) (act : Act) :
  (table.perform act).Tidy
  := by
  cases act with
  | tryAcquire page txn mode =>
    simp only [LockTable.perform, tryAcquire]
    split
    · rename_i granted
      apply tidy.grant granted
    · apply tidy.deny
  | request page txn mode =>
    rcases table.request_cases page txn mode with ⟨granted, eq⟩ | ⟨-, -, eq⟩ | ⟨-, -, eq⟩
    · simp only [LockTable.perform, eq]
      apply tidy.grant granted
    · simp only [LockTable.perform, eq]
      apply tidy.deny
    · simp only [LockTable.perform, eq]
      apply (tidy.deny page txn mode).clearWaits
  | release page txn => apply tidy.release
  | releaseAll txn => apply tidy.releaseAll

/-- Every `Reachable` table is `Tidy`. -/
theorem Reachable.tidy (reachable : Reachable table) :
  table.Tidy
  := by
  induction reachable with
  | empty => apply tidy_empty
  | perform _ act tidy => apply tidy.perform act

/-! ### What tidy tables say -/

/-- The `held` entry of `txn` has `page` exactly if `page` has a record of `txn`. -/
theorem Tidy.held_iff (tidy : table.Tidy) :
  (∃ pages, table.held.get? txn = some pages ∧ page ∈ pages)
    ↔ ∃ locks, table.pages.get? page = some locks ∧ ∃ mode, ⟨txn, mode⟩ ∈ locks.records
  := by
  have listed : (∃ pages, table.held.get? txn = some pages ∧ page ∈ pages)
      ↔ page ∈ table.heldPages txn := by
    unfold heldPages
    cases table.held.get? txn <;> simp
  rw [listed, tidy.indexed, Option.isSome_iff_exists, modeOf?]
  simp only [PageLocks.modeOf?_eq_some_iff (tidy.consistent page)]
  unfold locksOn
  cases table.pages.get? page <;> simp [PageLocks.none]

/-- A `txn` without locks has no `held` entry. -/
theorem Tidy.get?_held_of_unlocked (tidy : table.Tidy)
    (unlocked : ∀ page, table.modeOf? page txn = none) :
  table.held.get? txn = none
  := by
  cases found : table.held.get? txn with
  | none => rfl
  | some pages =>
    obtain ⟨page, member⟩ := List.exists_mem_of_ne_nil pages (tidy.holding txn pages found).1
    have held : (table.modeOf? page txn).isSome := by
      apply (tidy.indexed txn page).mp
      simpa [heldPages, found] using member
    simp [unlocked] at held

/-! ### What one transaction does -/

/-- Whether what was done to a `Tidy` table was done by `txn`: `after` is still tidy, and the
others have the same locks and the same waits. -/
def OnlyBy (txn : TransactionId) (table after : LockTable) : Prop :=
  table.Tidy → after.Tidy
    ∧ ∀ other, other ≠ txn →
      (∀ page, after.modeOf? page other = table.modeOf? page other)
        ∧ after.held.get? other = table.held.get? other
        ∧ after.graph.waitOf? other = table.graph.waitOf? other

theorem OnlyBy.refl (txn : TransactionId) (table : LockTable) :
  OnlyBy txn table table
  := fun tidy => ⟨tidy, fun _ _ => ⟨fun _ => rfl, rfl, rfl⟩⟩

theorem OnlyBy.trans {middle after : LockTable} (first : OnlyBy txn table middle)
    (second : OnlyBy txn middle after) :
  OnlyBy txn table after
  := by
  intro tidy
  obtain ⟨tidy, same⟩ := first tidy
  obtain ⟨tidy, same'⟩ := second tidy
  use tidy
  intro other distinct
  obtain ⟨mode, held, wait⟩ := same other distinct
  obtain ⟨mode', held', wait'⟩ := same' other distinct
  exact ⟨fun page => (mode' page).trans (mode page), held'.trans held, wait'.trans wait⟩

theorem onlyBy_request (table : LockTable) (page : PageId) (txn : TransactionId)
    (mode : LockMode) :
  OnlyBy txn table (table.request page txn mode).2
  := by
  intro tidy
  use tidy.perform (.request page txn mode)
  intro other distinct
  refine ⟨fun _ => table.modeOf?_request_of_ne mode fun same => distinct same.2, ?_⟩
  rcases table.request_cases page txn mode with ⟨-, eq⟩ | ⟨-, -, eq⟩ | ⟨-, -, eq⟩
  · rw [eq]
    exact ⟨Registry.get?_insert_of_ne _ distinct _,
      (WaitGraph.waitOf?_clearWaits ..).trans (if_neg distinct)⟩
  · rw [eq]
    exact ⟨rfl, (WaitGraph.waitOf?_recordWait ..).trans (if_neg distinct)⟩
  · rw [eq]
    exact ⟨rfl, (WaitGraph.waitOf?_clearWaits ..).trans ((if_neg distinct).trans
      ((WaitGraph.waitOf?_recordWait ..).trans (if_neg distinct)))⟩

theorem onlyBy_release (table : LockTable) (page : PageId) (txn : TransactionId) :
  OnlyBy txn table (table.release page txn)
  := by
  intro tidy
  use tidy.release page txn
  intro other distinct
  refine ⟨fun _ => ?_, get?_held_release table page distinct, by rw [graph_release]⟩
  rw [modeOf?_release, if_neg fun same => distinct same.2]

theorem onlyBy_releaseAll (table : LockTable) (txn : TransactionId) :
  OnlyBy txn table (table.releaseAll txn)
  := by
  intro tidy
  use tidy.releaseAll txn
  intro other distinct
  refine ⟨?_, get?_held_releaseAll table distinct, ?_⟩
  · intro page
    rw [tidy.toSound.modeOf?_releaseAll, if_neg distinct]
  · rw [graph_releaseAll, WaitGraph.waitOf?_clearWaits, if_neg distinct]

/-- Whether `txn` has no lock in `table` and waits for none. -/
def Unlocked (table : LockTable) (txn : TransactionId) : Prop :=
  (∀ page, table.modeOf? page txn = none)
    ∧ table.held.get? txn = none ∧ table.graph.waitOf? txn = none

/-- What is done `OnlyBy` another `holder` leaves `txn` `Unlocked`. -/
theorem Unlocked.of_onlyBy {after : LockTable} (unlocked : table.Unlocked txn)
    (only : OnlyBy holder table after) (tidy : table.Tidy) (distinct : txn ≠ holder) :
  after.Unlocked txn
  := by
  obtain ⟨modes, held, wait⟩ := (only tidy).2 txn distinct
  refine ⟨fun page => (modes page).trans (unlocked.1 page), held.trans unlocked.2.1,
    wait.trans unlocked.2.2⟩

/-- After `table.releaseAll txn`, `txn` is `Unlocked`. -/
theorem Tidy.unlocked_releaseAll (tidy : table.Tidy) (txn : TransactionId) :
  (table.releaseAll txn).Unlocked txn
  := by
  have gone : ∀ page, (table.releaseAll txn).modeOf? page txn = none := by
    intro page
    rw [tidy.toSound.modeOf?_releaseAll, if_pos rfl]
  refine ⟨gone, (tidy.releaseAll txn).get?_held_of_unlocked gone, ?_⟩
  rw [graph_releaseAll, WaitGraph.waitOf?_clearWaits, if_pos rfl]

/-! ### Reachable tables -/

/-- In a `Reachable` table the records of a page are one exclusive record or some shared records of
distinct holders, `held` has for each transaction exactly the pages with a record of it, no entry
is empty, and nobody waits for itself.  `releaseAll txn` takes the records of `txn` from all pages,
forgets what it holds and waits for, and changes nothing else. -/
theorem Reachable.tidy_releaseAll (reachable : Reachable table) :
  (∀ page locks, table.pages.get? page = some locks →
      (∃ txn, locks.records = [⟨txn, .exclusive⟩])
        ∨ (locks.records ≠ [] ∧ locks.holders.Nodup
          ∧ ∀ record ∈ locks.records, record.mode = .shared))
    ∧ (∀ txn page, (∃ pages, table.held.get? txn = some pages ∧ page ∈ pages)
      ↔ ∃ locks, table.pages.get? page = some locks ∧ ∃ mode, ⟨txn, mode⟩ ∈ locks.records)
    ∧ (∀ txn pages, table.held.get? txn = some pages → pages ≠ [] ∧ pages.Nodup)
    ∧ (∀ txn wait, table.graph.waitOf? txn = some wait → txn ∉ wait.blockers)
    ∧ ∀ txn,
      (∀ page locks, (table.releaseAll txn).pages.get? page = some locks →
          ∀ record ∈ locks.records, record.holder ≠ txn)
        ∧ (table.releaseAll txn).held.get? txn = none
        ∧ (table.releaseAll txn).graph.waitOf? txn = none
        ∧ (∀ page, ((table.releaseAll txn).locksOn page).records
          = (table.locksOn page).records.filter fun record => record.holder ≠ txn)
        ∧ ∀ other, other ≠ txn →
          (∀ page, (table.releaseAll txn).modeOf? page other = table.modeOf? page other)
            ∧ (table.releaseAll txn).held.get? other = table.held.get? other
            ∧ (table.releaseAll txn).graph.waitOf? other = table.graph.waitOf? other
  := by
  have tidy := reachable.tidy
  refine ⟨?modes, fun _ _ => tidy.held_iff, tidy.holding, tidy.waits, fun txn => ?released⟩
  case modes =>
    intro page locks found
    have consistent := tidy.consistent page
    rw [locksOn, found, Option.getD_some] at consistent
    rcases PageLocks.exclusive_or_shared consistent with exclusive | ⟨nodup, shared⟩
    · left
      apply exclusive
    · right
      exact ⟨tidy.locked page locks found, nodup, shared⟩
  case released =>
    have locks : ∀ page, (table.releaseAll txn).locksOn page = (table.locksOn page).release txn :=
      fun _ => tidy.toSound.locksOn_releaseAll
    have gone : ∀ page, (table.releaseAll txn).modeOf? page txn = none := by
      intro page
      rw [tidy.toSound.modeOf?_releaseAll, if_pos rfl]
    refine ⟨?_, (tidy.releaseAll txn).get?_held_of_unlocked gone, ?_, ?_, ?_⟩
    · intro page rest found record member
      have on : (table.locksOn page).release txn = rest := by
        rw [← locks, locksOn, found, Option.getD_some]
      rw [← on] at member
      simpa using (List.mem_filter.mp member).2
    · rw [graph_releaseAll, WaitGraph.waitOf?_clearWaits, if_pos rfl]
    · intro page
      rw [locks]
      rfl
    · intro other distinct
      refine ⟨?_, get?_held_releaseAll table distinct, ?_⟩
      · intro page
        rw [tidy.toSound.modeOf?_releaseAll, if_neg distinct]
      · rw [graph_releaseAll, WaitGraph.waitOf?_clearWaits, if_neg distinct]

/-- Transactions 1 and 2 share a page, and 1 waits to have it alone. -/
def upgrading : LockTable :=
  ((empty.perform (.request ⟨1, 0⟩ ⟨1⟩ .shared)).perform (.request ⟨1, 0⟩ ⟨2⟩ .shared)).perform
    (.request ⟨1, 0⟩ ⟨1⟩ .exclusive)

theorem reachable_upgrading :
  Reachable upgrading
  := ((Reachable.empty.perform _).perform _).perform _

/-- In `upgrading`, `releaseAll` of transaction 2 leaves the shared lock and the wait of
transaction 1. -/
theorem releaseAll_upgrading :
  Reachable upgrading
    ∧ (upgrading.releaseAll ⟨2⟩).held.get? ⟨2⟩ = none
    ∧ ((upgrading.releaseAll ⟨2⟩).locksOn ⟨1, 0⟩).records = [⟨⟨1⟩, .shared⟩]
    ∧ (upgrading.releaseAll ⟨2⟩).graph.waitOf? ⟨1⟩ = some ⟨⟨1, 0⟩, .exclusive, [⟨2⟩]⟩
  := by
  obtain ⟨-, -, -, -, released⟩ := Reachable.tidy_releaseAll reachable_upgrading
  obtain ⟨-, unlisted, -, records, others⟩ := released ⟨2⟩
  refine ⟨reachable_upgrading, unlisted, ?_, ?_⟩
  · rw [records]
    decide
  · rw [(others ⟨1⟩ (by decide)).2.2]
    decide

end LockTable

end StorageEngine

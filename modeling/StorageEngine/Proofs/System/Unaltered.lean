import StorageEngine.Proofs.Pool.Unaltered
import StorageEngine.Proofs.System.Turns

/-!
# Calls on other pages

A page that a transaction has locked exclusively stays as it is while others go on with their calls
(`Call.unaltered_round`), and while the transaction itself goes on with a call that neither stores a
tuple in the page nor deletes one of it.
-/

namespace StorageEngine

variable {pool after : Pool} {txn other : TransactionId} {page place : PageId} {no : CopyNo}
  {frame : Frame} {tuple : Bytes} {progress : Progress}

/-- A `page` that `txn` has locked exclusively is not granted to an `other` transaction. -/
theorem LockTable.request_ne_granted {locks : LockTable} (sound : locks.Sound)
    (exclusive : locks.modeOf? page txn = some .exclusive) (distinct : other ≠ txn)
    (mode : LockMode) :
  (locks.request page other mode).1 ≠ .granted
  := by
  intro granted
  have keeps := locks.keeps_request page other mode
  obtain ⟨held, holds, -⟩ := locks.modeOf?_request_of_granted page other mode granted
  have alone := PageLocks.modeOf?_of_exclusive ((keeps.sound sound).consistent page)
    (keeps.exclusive exclusive) distinct
  cases alone.symm.trans holds

namespace Call

open Pool

/-- What locks may be requested and released for. -/
def requesting : Pool.Freedom := ⟨fun _ _ => True, fun _ => False, False, False⟩

theorem unaltered_storing (tidy : pool.Tidy) (found : pool.cache.frame? place = some frame)
    (distinct : page ≠ place) (storing : Storing txn tuple frame.copy pool progress after) :
  Unaltered page pool after
  := by
  obtain ⟨allocated, named, -⟩ := tidy.framed place frame found
  have apart : (pool.copy frame.copy).id ≠ page := by
    rw [named]
    apply distinct.symm
  have set : ∀ bytes, Unaltered page pool
      (pool.setCopy frame.copy { pool.copy frame.copy with bytes }) :=
    fun bytes => unaltered_setCopy tidy rfl apart
  cases storing with
  | refused => exact set _
  | @unmarked _ bytes _ _ _ marked | @stored _ bytes _ _ marked =>
    have installed := unaltered_install (tidy.edit frame.copy bytes) txn
      ((set bytes).named _ allocated ▸ apart)
    rw [marked] at installed
    exact (set bytes).trans installed

theorem unaltered_runPlace (tidy : pool.Tidy)
    (denied : place = page → (pool.locks.request place txn .exclusive).1 ≠ .granted)
    (tuple : Bytes) :
  Unaltered page pool (runPlace txn place tuple pool).2
  := by
  have relocks :
      requesting.relocks pool.locks (pool.locks.request place txn .exclusive).2 := trivial
  obtain ⟨moves, -, cached⟩ := moves_fetch tidy txn place .readWrite relocks
  have fetch := unaltered_fetch tidy page txn place .readWrite
  rcases eq : runPlace txn place tuple pool with ⟨progress, after⟩
  cases Placing.of_runPlace eq with
  | waiting fetched | failed fetched =>
    rw [fetched] at fetch
    exact fetch
  | fetched fetched storing =>
    rw [fetched] at moves cached fetch
    obtain ⟨granted, frame, found, rfl⟩ := cached _ rfl
    apply fetch.trans
    apply unaltered_storing (tidy.moves moves) found _ storing
    rintro rfl
    apply denied rfl granted

theorem unaltered_runDelete (tidy : pool.Tidy) {record : RecordId}
    (denied : record.page = page →
      (pool.locks.request record.page txn .exclusive).1 ≠ .granted) (marks : Bool) :
  Unaltered page pool (runDelete txn record marks pool).2
  := by
  have relocks : requesting.relocks pool.locks
      (pool.locks.request record.page txn .exclusive).2 := trivial
  obtain ⟨moves, -, cached⟩ := moves_fetch tidy txn record.page .readWrite relocks
  have fetch := unaltered_fetch tidy page txn record.page .readWrite
  -- To overwrite the copy that was fetched leaves `page`, which is another one.
  have set : ∀ copy middle bytes,
      pool.fetch txn record.page .readWrite = (.page copy, middle) →
      copy < middle.copies.size ∧ (middle.copy copy).id ≠ page ∧
        Unaltered page middle (middle.setCopy copy { middle.copy copy with bytes }) := by
    intro copy middle bytes fetched
    rw [fetched] at moves cached
    obtain ⟨granted, frame, found, rfl⟩ := cached copy rfl
    obtain ⟨allocated, named, -⟩ := (tidy.moves moves).framed _ frame found
    have apart : (middle.copy frame.copy).id ≠ page := by
      rw [named]
      intro here
      apply denied here granted
    exact ⟨allocated, apart, unaltered_setCopy (tidy.moves moves) rfl apart⟩
  rcases eq : runDelete txn record marks pool with ⟨progress, after⟩
  cases Deleting.of_runDelete eq with
  | waiting fetched | failed fetched =>
    rw [fetched] at fetch
    exact fetch
  | refused fetched | erased _ fetched =>
    obtain ⟨-, -, set⟩ := set _ _ _ fetched
    rw [fetched] at fetch
    exact fetch.trans set
  | @unmarked copy _ _ bytes _ _ fetched _ marked | @deleted copy _ _ bytes _ fetched _ marked =>
    obtain ⟨allocated, apart, set⟩ := set _ _ bytes fetched
    rw [fetched] at fetch moves
    have installed := unaltered_install ((tidy.moves moves).edit copy bytes) txn
      (set.named _ allocated ▸ apart)
    rw [marked] at installed
    exact (fetch.trans set).trans installed

theorem unaltered_entering {no : StoreNo} {rest : List PageNo} {round : Round}
    (entering : Entering txn no tuple pool rest round after) (page : PageId) :
  Unaltered page pool after
  := by
  cases entering with
  | refused | grown => exact unaltered_around ..
  | next => exact .refl page pool

/-- A round of `call` leaves `page` `Unaltered`, unless it alters it and the exclusive lock is
granted. -/
theorem unaltered_round (tidy : pool.Tidy) {call : Call} (marks : call.marks)
    (denied : .altered txn page ∈ call.alters txn →
      (pool.locks.request page txn .exclusive).1 ≠ .granted) :
  Unaltered page pool (call.round txn pool).2
  := by
  cases call with
  | lock place mode =>
    rw [pool_round_lock]
    exact unaltered_around ..
  | fetch place access =>
    rw [pool_round_fetch]
    apply unaltered_fetch tidy
  | probe no tuple pageNo alreadyHeld rest =>
    have fetch := unaltered_fetch tidy page txn ⟨(pool.store no).table, pageNo⟩ .readOnly
    rcases eq : (probe no tuple pageNo alreadyHeld rest).round txn pool with ⟨round, after⟩
    cases Probing.of_round eq with
    | waiting fetched | failed fetched | broken fetched | roomy fetched =>
      rw [fetched] at fetch
      exact fetch
    | full fetched _ entering =>
      rw [fetched] at fetch
      apply fetch.trans
      cases alreadyHeld with
      | true => exact unaltered_entering entering page
      | false => exact (unaltered_around ..).trans (unaltered_entering entering page)
  | place place tuple =>
    simp only [round, run, pool_last]
    apply unaltered_runPlace tidy
    rintro rfl
    apply denied
    simp [alters]
  | count table touched record no rest => cases marks
  | delete record marked =>
    simp only [round, run, pool_last]
    apply unaltered_runDelete tidy
    rintro rfl
    apply denied
    simp [alters]
  | scan table found no rest =>
    rw [pool_round_scan]
    apply unaltered_fetch tidy

end Call

/-- To enter a `request` leaves every `page` `Unaltered`. -/
theorem Request.unaltered_enter {request : Request} (page : PageId) (txn : TransactionId)
    (served : pool.serves request) :
  Pool.Unaltered page pool (request.enter txn pool).2
  := by
  cases request with
  | insert table tuple =>
    rcases eq : (insert table tuple).enter txn pool with ⟨round, after⟩
    obtain ⟨-, -, rfl⟩ | ⟨no, pages, -, entering⟩ := enter_insert_cases served eq
    · exact .refl page _
    · exact Call.unaltered_entering entering page
  | scan no =>
    simp only [enter]
    cases (pool.store no).pageNos with
    | error fault => exact .refl page pool
    | ok pages => exact .refl page pool
  | _ => exact .refl page pool

end StorageEngine

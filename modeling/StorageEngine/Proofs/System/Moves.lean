import StorageEngine.Proofs.Call.Cases
import StorageEngine.Proofs.Lock.Records
import StorageEngine.Proofs.Pool.Operations
import StorageEngine.Proofs.SlottedPage.Layout
import StorageEngine.Proofs.System.Basic

/-!
# Rounds as moves

What a call of a transaction does in a round, and before its first lock request, it does in moves,
in none of which it writes to a store.  Only where a call breaks off may a copy be left with other
bytes that is not marked, and only where a word cannot tell the length of the page.
-/

namespace StorageEngine

variable {may : Pool.Freedom} {pool after : Pool} {page : PageId} {frame : Frame}
  {txn : TransactionId} {request : Request} {tuple : Bytes} {progress : Progress}

namespace Call

/-- Whether a call marks whatever it changes, at once. -/
def marks : Call → Prop
  | .delete _ marks => marks = true
  | .count .. => False
  | _ => True

/-- A tuple is stored in a cached page, or its page is left as it is. -/
theorem moves_storing (tidy : pool.Tidy) (changes : may.changes txn)
    (found : pool.cache.frame? page = some frame)
    (exclusive : pool.locks.modeOf? page txn = some .exclusive)
    (storing : Storing txn tuple frame.copy pool progress after)
    (spoils : (Round.last (progress, after)).1.leadsTo = .faulted → may.spoils) :
  pool.Moves may after
  := by
  obtain ⟨allocated, named, -⟩ := tidy.framed page frame found
  have length := SlottedPage.length_insert (pool.copy frame.copy).bytes tuple
  cases storing with
  | @refused failure bytes inserted =>
    rw [inserted] at length
    by_cases same : bytes = (pool.copy frame.copy).bytes
    · rw [same, Pool.setCopy_self]
    · cases failure with
      | error cause => cases same (SlottedPage.insert_error inserted)
      | fault fault =>
        refine .single (.spoil (spoils rfl) ?_ length)
        by_contra short
        apply same
        apply SlottedPage.insert_failure (Nat.not_le.mp short) inserted
  | unmarked inserted marked | stored inserted marked =>
    rw [inserted] at length
    have moves := Pool.moves_change tidy changes allocated length (named.symm ▸ exclusive)
    rw [marked] at moves
    exact moves

theorem moves_runPlace (tidy : pool.Tidy) (changes : may.changes txn)
    (relocks : may.relocks pool.locks (pool.locks.request page txn .exclusive).2) (tuple : Bytes)
    (spoils : (Round.last (runPlace txn page tuple pool)).1.leadsTo = .faulted → may.spoils) :
  pool.Moves may (runPlace txn page tuple pool).2
  := by
  obtain ⟨moves, locks, cached⟩ := Pool.moves_fetch tidy txn page .readWrite relocks
  rcases eq : runPlace txn page tuple pool with ⟨progress, after⟩
  rw [eq] at spoils
  cases Placing.of_runPlace eq with
  | waiting fetched | failed fetched =>
    rw [fetched] at moves
    exact moves
  | @fetched copy middle _ _ fetched storing =>
    rw [fetched] at moves locks cached
    obtain ⟨granted, frame, found, rfl⟩ := cached copy rfl
    have exclusive : middle.locks.modeOf? page txn = some .exclusive := by
      rw [locks]
      apply LockTable.modeOf?_request_exclusive granted
    exact moves.trans (moves_storing (tidy.moves moves) changes found exclusive storing spoils)

theorem moves_runDelete (tidy : pool.Tidy) (changes : may.changes txn) {record : RecordId}
    (relocks : may.relocks pool.locks (pool.locks.request record.page txn .exclusive).2) :
  pool.Moves may (runDelete txn record true pool).2
  := by
  obtain ⟨moves, locks, cached⟩ := Pool.moves_fetch tidy txn record.page .readWrite relocks
  rcases eq : runDelete txn record true pool with ⟨progress, after⟩
  cases Deleting.of_runDelete eq with
  | waiting fetched | failed fetched =>
    rw [fetched] at moves
    exact moves
  | erased silent => cases silent
  | refused fetched deleted =>
    rw [fetched] at moves
    obtain rfl := SlottedPage.delete_error deleted
    rw [Pool.setCopy_self]
    exact moves
  | @unmarked copy middle _ _ _ _ fetched deleted marked
  | @deleted copy middle _ _ _ fetched deleted marked =>
    rw [fetched] at moves locks cached
    obtain ⟨granted, frame, found, rfl⟩ := cached copy rfl
    obtain ⟨allocated, named, -⟩ := (tidy.moves moves).framed _ frame found
    have exclusive : middle.locks.modeOf? (middle.copy frame.copy).id txn = some .exclusive := by
      rw [locks, named]
      apply LockTable.modeOf?_request_exclusive granted
    have length := SlottedPage.length_delete (middle.copy frame.copy).bytes record.slot
    rw [deleted] at length
    have changed := Pool.moves_change (tidy.moves moves) changes allocated length exclusive
    rw [marked] at changed
    exact moves.trans changed

/-- What goes on to look for room appends a page at most, and so is made of moves. -/
theorem moves_entering {no : StoreNo} {rest : List PageNo} {round : Round}
    (entering : Entering txn no tuple pool rest round after) :
  pool.Moves may after
  := by
  cases entering with
  | refused allocated | grown allocated => exact .single (.append allocated)
  | next => exact .refl

theorem moves_probe (tidy : pool.Tidy) (no : StoreNo) (tuple : Bytes) (pageNo : PageNo)
    (alreadyHeld : Bool) (rest : List PageNo)
    (relocks : may.relocks pool.locks
      (pool.locks.request ⟨(pool.store no).table, pageNo⟩ txn .shared).2)
    (release : alreadyHeld = false → ∀ locks,
      locks = (pool.locks.request ⟨(pool.store no).table, pageNo⟩ txn .shared).2 →
        may.relocks locks (locks.release ⟨(pool.store no).table, pageNo⟩ txn)) :
  pool.Moves may ((probe no tuple pageNo alreadyHeld rest).round txn pool).2
  := by
  obtain ⟨moves, locks, -⟩ :=
    Pool.moves_fetch tidy txn ⟨(pool.store no).table, pageNo⟩ .readOnly relocks
  rcases eq : (probe no tuple pageNo alreadyHeld rest).round txn pool with ⟨round, after⟩
  cases Probing.of_round eq with
  | waiting fetched | failed fetched | broken fetched | roomy fetched =>
    rw [fetched] at moves
    exact moves
  | full fetched _ entering =>
    rw [fetched] at moves locks
    cases alreadyHeld with
    | true => exact moves.trans (moves_entering entering)
    | false =>
      have released := moves.tail (.relock (release rfl _ locks))
      exact released.trans (moves_entering entering)

theorem moves_scan (tidy : pool.Tidy) (table : TableId) (found : List Tuple) (no : PageNo)
    (rest : List PageNo)
    (relocks : may.relocks pool.locks (pool.locks.request ⟨table, no⟩ txn .shared).2) :
  pool.Moves may ((scan table found no rest).round txn pool).2
  := by
  obtain ⟨moves, -⟩ := Pool.moves_fetch tidy txn ⟨table, no⟩ .readOnly relocks
  rw [pool_round_scan]
  exact moves

/-- A round of a `call` that marks whatever it changes is made of moves. -/
theorem moves_round (tidy : pool.Tidy) {call : Call} (marks : call.marks)
    (changes : may.changes txn)
    (relocks : ∀ page mode, may.relocks pool.locks (pool.locks.request page txn mode).2)
    (release : ∀ {no tuple pageNo rest}, call = .probe no tuple pageNo false rest → ∀ locks,
      locks = (pool.locks.request ⟨(pool.store no).table, pageNo⟩ txn .shared).2 →
        may.relocks locks (locks.release ⟨(pool.store no).table, pageNo⟩ txn))
    (spoils : (call.round txn pool).1.leadsTo = .faulted → may.spoils) :
  pool.Moves may (call.round txn pool).2
  := by
  cases call with
  | lock page mode =>
    rw [pool_round_lock]
    exact .single (.relock (relocks page mode))
  | fetch page access =>
    obtain ⟨moves, -⟩ := Pool.moves_fetch tidy txn page access (relocks page access.lockMode)
    rw [pool_round_fetch]
    exact moves
  | probe no tuple pageNo alreadyHeld rest =>
    apply moves_probe tidy no tuple pageNo alreadyHeld rest (relocks _ _)
    rintro rfl
    apply release rfl
  | place page tuple =>
    have moves := moves_runPlace tidy changes (relocks page _) tuple spoils
    simp only [round, run, pool_last]
    apply moves
  | count table touched record no rest => cases marks
  | delete record marked =>
    obtain rfl : marked = true := marks
    have moves : pool.Moves may (runDelete txn record true pool).2 :=
      moves_runDelete tidy changes (relocks _ _)
    simp only [round, run, pool_last]
    apply moves
  | scan table found no rest => apply moves_scan tidy table found no rest (relocks _ _)

end Call

/-- To enter a `request` that is served is made of moves. -/
theorem Request.moves_enter (txn : TransactionId) (served : pool.serves request) :
  pool.Moves may (request.enter txn pool).2
  := by
  cases request with
  | insert table tuple =>
    rcases eq : (insert table tuple).enter txn pool with ⟨round, after⟩
    obtain ⟨-, -, rfl⟩ | ⟨no, pages, -, entering⟩ := enter_insert_cases served eq
    · exact .refl
    · exact Call.moves_entering entering
  | scan no =>
    simp only [enter]
    cases (pool.store no).pageNos with
    | error fault => exact .refl
    | ok pages => exact .refl
  | lock page mode => exact .refl
  | fetch page access => exact .refl
  | delete record => exact .refl
  | erase store record => exact .refl

end StorageEngine

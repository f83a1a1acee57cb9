import StorageEngine.Proofs.Pool.Current
import StorageEngine.Proofs.System.Ownership
import StorageEngine.Proofs.Workspace.Basic

/-!
# Turns on a pool

What transactions do on a pool that also write through the handles that they were handed, with what
there is to tell of it (`PoolService.Turns`).  Every turn keeps changed pages with their owners
(`PoolService.Owned.turn`) and leaves every copy one of a stored page (`PoolService.Turn.imaged`).
-/

namespace StorageEngine

/-! ### What is done to a page -/

/-- What there is to tell of what transactions do to pages. -/
inductive Notice where
  /-- Bytes of a copy were overwritten. -/
  | wrote (txn : TransactionId) (page : PageId) (no : CopyNo) (edit : Edit)
  /-- A copy was marked and cached. -/
  | marked (txn : TransactionId) (page : PageId) (no : CopyNo)
  /-- A transaction was about to store a tuple in a page, or to delete one. -/
  | altered (txn : TransactionId) (page : PageId)
  | discarded (page : PageId)
  | released (txn : TransactionId) (page : PageId)
  | ended (txn : TransactionId)
  deriving DecidableEq

/-- What `txn` wrote through the handles of the copy `no` of `page`, in order. -/
def Notice.writes (txn : TransactionId) (page : PageId) (no : CopyNo) (notices : List Notice) :
    List Edit :=
  notices.filterMap fun
    | .wrote txn' page' no' edit => if txn' = txn ∧ page' = page ∧ no' = no then some edit else none
    | _ => none

/-- The page that a call stores a tuple in or deletes one of in its next round. -/
def Call.alters (txn : TransactionId) : Call → List Notice
  | .place page _ => [.altered txn page]
  | .delete record _ => [.altered txn record.page]
  | _ => []

variable {pool after : Pool} {txn other : TransactionId} {page place : PageId} {no : CopyNo}
  {frame : Frame}

/-! ### Turns -/

namespace PoolService

open Pool

variable {service middle last : PoolService} {notices notices' : List Notice}

/-- What transactions do on the pool of `service`, with what there is to tell of it.  Nothing that
ends a transaction fails.  Bytes of a copy are overwritten by who has its page locked exclusively,
and no lock is released early on a page that its holder has changed. -/
inductive Turn (service : PoolService) : List Notice → PoolService → Prop where
  /-- A transaction begins a call. -/
  | enter {txn : TransactionId} {request : Request} (free : service.Free txn)
      (served : service.pool.serves request) :
      Turn service [] (service.moved txn (request.enter txn service.pool).2
        (request.enter txn service.pool).1.leadsTo)
  /-- A transaction goes on with its call, up to its next lock request. -/
  | round {txn : TransactionId} {call : Call} (under : service.doing txn = some (.calling call)) :
      Turn service (call.alters txn) (service.moved txn (call.round txn service.pool).2
        (call.round txn service.pool).1.leadsTo)
  /-- Bytes of a copy are overwritten. -/
  | write {txn : TransactionId} {no : CopyNo} {edit : Edit} {bytes : Bytes}
      (allocated : no < service.pool.copies.size)
      (exclusive : service.pool.locks.modeOf? (service.pool.copy no).id txn = some .exclusive)
      (fits : (service.pool.copy no).bytes.overwrite? edit.start edit.data = some bytes) :
      Turn service [.wrote txn (service.pool.copy no).id no edit]
        { service with pool := service.pool.setCopy no { service.pool.copy no with bytes } }
  /-- A copy is marked. -/
  | mark {txn : TransactionId} {no : CopyNo} {pool : Pool}
      (allocated : no < service.pool.copies.size)
      (eq : service.pool.markDirty txn no = (.ok (), pool)) :
      Turn service [.marked txn (service.pool.copy no).id no] { service with pool }
  /-- A copy cannot be marked. -/
  | unmarked {txn : TransactionId} {no : CopyNo} {failure : Failure PoolError} {pool : Pool}
      (allocated : no < service.pool.copies.size)
      (eq : service.pool.markDirty txn no = (.error failure, pool)) :
      Turn service [] { service with pool }
  | complete {txn : TransactionId} {commits : Bool} (free : service.Free txn)
      (ok : (service.pool.complete txn commits).1 = .ok ()) :
      Turn service [.ended txn] (service.completed txn commits)
  | flushPage (page : PageId) :
      Turn service [] { service with pool := (service.pool.flushPage page).2 }
  | flushTransaction (txn : TransactionId) :
      Turn service [] { service with pool := (service.pool.flushTransaction txn).2 }
  | flushAll : Turn service [] { service with pool := service.pool.flushAll.2 }
  | discard (page : PageId) :
      Turn service [.discarded page] { service with pool := service.pool.discard page }
  | release {txn : TransactionId} {page : PageId}
      (unchanged : service.pool.changer? page ≠ some txn) :
      Turn service [.released txn page] { service with pool := service.pool.releasePage txn page }

/-- Turns in a row from `start` on, with all there is to tell of them. -/
inductive Turns (start : PoolService) : List Notice → PoolService → Prop where
  | start : Turns start [] start
  | turn {notices notices' : List Notice} {service after : PoolService}
      (before : Turns start notices service) (turn : Turn service notices' after) :
      Turns start (notices ++ notices') after

/-- There is one thing to tell of a turn at most. -/
theorem Turn.length_le (turn : service.Turn notices last) :
  notices.length ≤ 1
  := by
  cases turn with
  | @round txn call => cases call <;> simp [Call.alters]
  | _ => simp

/-! ### What turns keep -/

/-- Whether `service` is `Guarded`, and nobody has left a changed page. -/
structure Owned (service : PoolService) : Prop where
  guarded : service.Guarded
  left : ∀ txn, service.left txn = []

/-- Who has changed a cached page has it locked exclusively. -/
theorem Owned.exclusive (owned : service.Owned) (changed : service.pool.changer? page = some txn) :
  service.pool.locks.modeOf? page txn = some .exclusive
  := by
  apply (owned.guarded.owned page txn changed).resolve_right
  simp [owned.left]

/-- To release the lock on a `page` that `txn` has not changed keeps a service `Guarded`. -/
theorem Guarded.release (guarded : service.Guarded)
    (unchanged : service.pool.changer? page ≠ some txn) :
  Guarded { service with pool := service.pool.releasePage txn page }
  := by
  have modes : ∀ place other, (service.pool.releasePage txn page).locks.modeOf? place other
      = if place = page ∧ other = txn then none else service.pool.locks.modeOf? place other :=
    fun place other => LockTable.modeOf?_release
  have tidy := guarded.tidy
  refine ⟨⟨tidy.capacity, tidy.bounded, tidy.distinct, tidy.framed⟩,
    guarded.sound.release page txn, ?_, ?_, ?_⟩
  · intro place other changed
    have changed : service.pool.changer? place = some other := changed
    dsimp only
    rw [modes, if_neg]
    · apply guarded.owned place other changed
    · rintro ⟨rfl, rfl⟩
      apply unchanged changed
  · intro other call under
    have proper := guarded.calls other call under
    cases call with
    | probe no tuple pageNo alreadyHeld rest =>
      intro unknown
      dsimp only
      rw [modes]
      split
      · rfl
      · apply proper unknown
    | _ => apply proper
  · intro other ended place
    dsimp only
    rw [modes]
    split
    · rfl
    · apply guarded.ended other ended place

/-- A service stays `Owned` in every `turn`. -/
theorem Owned.turn (owned : service.Owned) (turn : service.Turn notices last) :
  last.Owned
  := by
  obtain ⟨guarded, left⟩ := owned
  have settles : ∀ {pool}, Moves settling service.pool pool → Guarded { service with pool } :=
    fun moves => guarded.still moves fun _ _ => id
  have idle : ∀ other, ¬ settling.changes other := fun _ => id
  cases turn with
  | enter free served => exact ⟨guarded.step (.enter free served), left⟩
  | round under => exact ⟨guarded.step (.round under), left⟩
  | @write _ no _ bytes => exact ⟨guarded.step (.edit no bytes), left⟩
  | @mark txn no pool allocated eq =>
    have marked := guarded.step (.mark txn allocated)
    rw [eq] at marked
    exact ⟨marked, left⟩
  | @unmarked txn no failure pool allocated eq =>
    have marked := guarded.step (.mark txn allocated)
    rw [eq] at marked
    exact ⟨marked, left⟩
  | @complete txn commits free ok =>
    use guarded.step (.complete free commits)
    intro other
    rcases eq : service.pool.complete txn commits with ⟨failure | _, pool⟩
    · rw [eq] at ok
      cases ok
    · simp only [PoolService.completed, eq]
      by_cases mine : other = txn
      · rw [mine, Function.update_self]
      · rw [Function.update_of_ne mine, left]
  | flushPage page => exact ⟨settles (moves_flushPage guarded.tidy trivial page), left⟩
  | flushTransaction txn => exact ⟨settles (moves_flush guarded.tidy trivial idle _).1, left⟩
  | flushAll => exact ⟨settles (moves_flush guarded.tidy trivial idle _).1, left⟩
  | discard page => exact ⟨settles (.single (.remove page)), left⟩
  | release unchanged => exact ⟨guarded.release unchanged, left⟩

/-- An `edit` that fits keeps the length of `bytes`. -/
theorem length_of_fits {edit : Edit} {bytes after : Bytes}
    (fits : bytes.overwrite? edit.start edit.data = some after) :
  after.length = bytes.length
  := by
  unfold Bytes.overwrite? at fits
  split at fits
  · rename_i within
    cases fits
    apply Bytes.length_overwrite within
  · cases fits

/-- If `pool.complete txn commits` succeeds, then the flush or the rollback of `txn` has, and its
locks are released after that. -/
theorem complete_ok {commits : Bool} (ok : (pool.complete txn commits).1 = .ok ()) :
  (if commits then pool.flushTransaction txn else pool.rollback txn).1 = .ok ()
    ∧ (pool.complete txn commits).2
      = (if commits then pool.flushTransaction txn else pool.rollback txn).2.releaseAll txn
  := by
  obtain ⟨result, settled, ended, ⟨fault, rfl, eq⟩ | ⟨-, eq⟩⟩ := pool.complete_settles txn commits
  all_goals rw [eq] at ok
  · cases ok
  · rw [eq, ended]
    exact ⟨ok, rfl⟩

theorem pool_completed (service : PoolService) (txn : TransactionId) (commits : Bool) :
  (service.completed txn commits).pool = (service.pool.complete txn commits).2
  := by
  unfold completed
  rcases service.pool.complete txn commits with ⟨(cause | fault) | _, pool⟩
  · rfl
  · rfl
  · rfl

/-- `service.completed txn commits` is made of moves. -/
theorem moves_completed (tidy : service.pool.Tidy) (txn : TransactionId) (commits : Bool) :
  Moves ending service.pool (service.completed txn commits).pool
  := by
  rw [pool_completed]
  apply moves_end tidy

/-- A `turn` is made of moves, unless `bytes` of a copy are overwritten in it. -/
theorem Turn.moves (owned : service.Owned) (turn : service.Turn notices last) :
  (∃ may, Moves may service.pool last.pool)
    ∨ ∃ no bytes, bytes.length = (service.pool.copy no).bytes.length
      ∧ last.pool = service.pool.setCopy no { service.pool.copy no with bytes }
  := by
  have tidy := owned.guarded.tidy
  cases turn with
  | @write _ no _ bytes _ _ fits =>
    right
    use no, bytes, length_of_fits fits
  | @enter txn _ _ served => exact .inl ⟨calling txn, Request.moves_enter txn served⟩
  | @round txn _ under => exact .inl ⟨calling txn, owned.guarded.moves_round under⟩
  | @mark txn no _ allocated eq | @unmarked txn no _ _ allocated eq =>
    have moves : Moves (calling txn) service.pool (service.pool.markDirty txn no).2 :=
      moves_markDirty tidy rfl allocated
    rw [eq] at moves
    exact .inl ⟨calling txn, moves⟩
  | @complete txn commits => exact .inl ⟨ending, moves_completed tidy txn commits⟩
  | flushPage page => exact .inl ⟨ending, moves_flushPage tidy trivial page⟩
  | flushTransaction txn => exact .inl ⟨ending, (moves_flush tidy trivial (fun _ => id) _).1⟩
  | flushAll => exact .inl ⟨ending, (moves_flush tidy trivial (fun _ => id) _).1⟩
  | discard page => exact .inl ⟨ending, .single (.remove page)⟩
  | release unchanged => exact .inl ⟨ending, .single (.relock trivial)⟩

/-- No `turn` takes a page away from a store. -/
theorem Turn.grows (owned : service.Owned) (turn : service.Turn notices last) :
  service.pool.Grows last.pool
  := by
  obtain ⟨may, moves⟩ | ⟨no, bytes, -, eq⟩ := turn.moves owned
  · apply Moves.grows moves
  · apply Grows.of_stores
    rw [eq]
    rfl

/-- A pool stays `Imaged` in every `turn` that leaves the stores `Numbered`. -/
theorem Turn.imaged (turn : service.Turn notices last) (owned : service.Owned)
    (imaged : service.pool.Imaged) (numbered : ∀ no, (last.pool.store no).Numbered) :
  last.pool.Imaged
  := by
  obtain ⟨may, moves⟩ | ⟨no, bytes, length, eq⟩ := turn.moves owned
  · apply imaged.moves moves numbered
  · rw [eq]
    apply imaged.edit length

end PoolService

end StorageEngine

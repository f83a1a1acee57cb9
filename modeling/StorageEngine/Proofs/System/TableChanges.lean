import StorageEngine.Proofs.Call.Deeds
import StorageEngine.Proofs.Pool.PageSizes
import StorageEngine.Proofs.System.NoSteal
import StorageEngine.Session.Step

/-!
# Tables that come and go

Tables with pages of any size may be added to the catalog of a pool, replaced and taken out at any
time, and their stores may change.  A page of another size than the pool's is not handed out and not
cached (`Pool.fetch_sizeMismatch`), so all cached pages are of that size, as long as an abort reads
again only pages of that size (`Pool.Reshaped.pageSize`).

An abort itself does not look at the size of what it reads.  So a page that was cached when its
table was replaced has the size of the new table after the abort, and is handed out like that
(`Pool.resized_after_abort`).
-/

namespace StorageEngine

variable {pool : Pool} {txn : TransactionId} {page : PageId} {no : CopyNo}

/-- The deeds of a call leave the `Sizes` of copies, if the copies in `hand` are allocated. -/
theorem Pool.Does.sizes {hand : List CopyNo} {after : Pool} (does : pool.Does txn hand after)
    (sized : pool.Sized) (allocated : ∀ no ∈ hand, no < pool.copies.size) :
  pool.Sizes after
  := by
  induction does with
  | nothing => apply Sizes.refl
  | @relock hand pool after locks _ ih =>
    have same := pool.sizes_around locks pool.catalog pool.stores
    exact same.trans (ih (same.sized sized) allocated)
  | @fetch hand pool after page access _ ih =>
    obtain ⟨same, fetched⟩ := pool.sizes_fetch txn page access
    apply same.trans (ih (same.sized sized) _)
    intro no member
    rcases List.mem_append.mp member with new | old
    · rcases result : (pool.fetch txn page access).1 with copy | _ | failure
      · rw [result] at new
        obtain rfl := List.mem_singleton.mp new
        exact fetched no result sized
      · simp [result, Fetched.copies] at new
      · simp [result, Fetched.copies] at new
    · apply Nat.lt_of_lt_of_le (allocated no old) same.grows
  | @edit hand pool after no bytes length _ ih =>
    have same : pool.Sizes (pool.setCopy no { pool.copy no with bytes }) := sizes_edit length
    apply same.trans (ih (same.sized sized) _)
    intro other member
    apply Nat.lt_of_lt_of_le (allocated other member) same.grows
  | @install hand pool after no held _ ih =>
    have same := sizes_install txn (allocated no held)
    apply same.trans (ih (same.sized sized) _)
    intro other member
    apply Nat.lt_of_lt_of_le (allocated other member) same.grows
  | @append hand pool after no _ ih =>
    have same := pool.sizes_around pool.locks pool.catalog
      (pool.setStore no (pool.store no).allocate.2).stores
    exact same.trans (ih (same.sized sized) allocated)

/-! ### The use of a pool with changing tables -/

/-- `pool` with the table of `store` registered, in place of one with the same number. -/
def Pool.addTable (pool : Pool) (store : Store) : Pool :=
  let (no, pool) := pool.newStore store
  { pool with catalog := pool.catalog.insert store.table no }

/-- `pool` without `table`. -/
def Pool.removeTable (pool : Pool) (table : TableId) : Pool :=
  { pool with catalog := pool.catalog.erase table }

/-- `session.addTable spec` registers the `store` that it opens by `Pool.addTable`. -/
theorem Session.pool_addTable (session : Session) {spec : TableSpec} {store : Store}
    (opened : openTable spec = .ok store) :
  (session.addTable spec).2.pool = session.pool.addTable store
  := by
  unfold addTable
  rw [opened]
  rfl

/-- `session.removeTable table` takes `table` out of the catalog by `Pool.removeTable`. -/
theorem Session.pool_removeTable (session : Session) (table : TableId) :
  (session.removeTable table).2.pool = session.pool.removeTable table
  := rfl

/-- A step in the use of a pool whose tables come and go. -/
inductive TableAct where
  | use (act : PoolAct)
  /-- A copy is overwritten and not marked. -/
  | edit (no : CopyNo) (bytes : Bytes)
  /-- A table is registered, in place of one with the same number. -/
  | addTable (store : Store)
  | removeTable (table : TableId)
  /-- Something happens to a store. -/
  | alter (no : StoreNo) (store : Store)

namespace Pool

variable {start : Pool} {config : PoolConfig} {catalog : Registry TableId StoreNo}
  {stores : Array Store} {aborts : Pool → TransactionId → Prop}

/-- Whether a step on `pool` is one that clients take who never change the length of a page.  A
call under way has `touched` no other copies than there are. -/
def permits (pool : Pool) : TableAct → Prop
  | .use (.round _ call) => ∀ no ∈ call.touched, no < pool.copies.size
  | .use (.update _ no bytes) => no < pool.copies.size
    ∧ bytes.length = (pool.copy no).bytes.length
  | .use (.mark _ no) => no < pool.copies.size
  | .edit no bytes => bytes.length = (pool.copy no).bytes.length
  | _ => True

/-- `pool` after a step. -/
def performTable (pool : Pool) : TableAct → Pool
  | .use act => pool.perform act
  | .edit no bytes => pool.setCopy no { pool.copy no with bytes }
  | .addTable store => pool.addTable store
  | .removeTable table => pool.removeTable table
  | .alter no store => pool.setStore no store

/-- The pools that steps in any order lead to from `start`, where transactions abort in certain
pools only. -/
inductive Reshaped (aborts : Pool → TransactionId → Prop) (start : Pool) : Pool → Prop where
  | start : Reshaped aborts start start
  | act {pool : Pool} (before : Reshaped aborts start pool) (act : TableAct)
      (permitted : pool.permits act)
      (aborted : ∀ txn, act = .use (.complete txn false) → aborts pool txn) :
      Reshaped aborts start (pool.performTable act)

/-- A step leaves the copies of the right size, if it is no abort or reads pages again that are. -/
theorem sizes_performTable (sized : pool.Sized) {act : TableAct} (permitted : pool.permits act)
    (refits : ∀ txn, act = .use (.complete txn false) → pool.Refits txn) :
  pool.Sizes (pool.performTable act)
  := by
  cases act with
  | use act =>
    cases act with
    | enter txn request => exact (request.does_enter txn pool).sizes sized nofun
    | round txn call => exact (call.does_round txn pool).sizes sized permitted
    | update txn no bytes =>
      obtain ⟨allocated, length⟩ := permitted
      have edited : pool.Sizes (pool.setCopy no { pool.copy no with bytes }) := sizes_edit length
      apply edited.trans
      apply sizes_markDirty txn (Nat.lt_of_lt_of_le allocated edited.grows)
    | mark txn no => apply sizes_markDirty txn permitted
    | complete txn commits =>
      apply sizes_complete
      rintro rfl
      apply refits txn rfl
    | flushPage page => apply sizes_flushPage
    | flushTransaction txn => apply sizes_writeBackAll
    | flushAll => apply sizes_writeBackAll
    | discard page => apply sizes_discard
    | release txn page => exact pool.sizes_around ..
    | disrupt => exact pool.sizes_around ..
  | edit no bytes => exact sizes_edit permitted
  | addTable store => exact pool.sizes_around ..
  | removeTable table => exact pool.sizes_around ..
  | alter no store => exact pool.sizes_around ..

/-- A `Reshaped` pool is `Sized` and has the `config` that it was created with. -/
theorem Reshaped.sized (created : create config catalog stores = .ok start)
    (reshaped : Reshaped Refits start pool) :
  pool.Sized ∧ pool.config = config
  := by
  induction reshaped with
  | start =>
    rw [(create_eq_ok created).2]
    exact ⟨⟨nofun, nofun⟩, rfl⟩
  | act before act permitted aborted ih =>
    have sizes := sizes_performTable ih.1 permitted aborted
    exact ⟨sizes.sized ih.1, sizes.config.trans ih.2⟩

/-! ### Fetching -/

theorem readStored_around (pool : Pool) (cache : Cache) (locks : LockTable) (page : PageId) :
  (readStored { pool with cache, locks } page).1 = (pool.readStored page).1
  := by
  simp only [readStored, storeOf]
  cases pool.catalog.get? page.table with
  | none => rfl
  | some no => rfl

/-- A `page` that is not cached and is of another size in its store is not handed out and not
cached.  If its lock is granted and there is room, `.sizeMismatch` is reported. -/
theorem fetch_sizeMismatch {access : Access} {bytes : Bytes}
    (absent : pool.isResident page = false) (read : (pool.readStored page).1 = .ok bytes)
    (other : bytes.length ≠ pool.config.pageSize) :
  (pool.fetch txn page access).2.isResident page = false
    ∧ ((pool.locks.request page txn access.lockMode).1 = .granted →
        pool.cache.makeRoom?.isSome →
        (pool.fetch txn page access).1
          = .failed (.error (.disk (.sizeMismatch pool.config.pageSize bytes.length))))
  := by
  have missing : pool.cache.frame? page = none := by
    simpa [isResident, Cache.contains] using absent
  unfold fetch
  rcases asked : pool.locks.request page txn access.lockMode with ⟨_ | _ | _, locks⟩
  · unfold load
    simp only [Cache.access?, missing, Option.map_none]
    cases made : pool.cache.makeRoom? with
    | none => exact ⟨absent, fun _ room => by cases room⟩
    | some room =>
      have gone : room.frame? page = none := by
        unfold Cache.makeRoom? at made
        split at made
        · obtain ⟨victim, -, rfl⟩ := Option.map_eq_some_iff.mp made
          rw [Cache.frame?_remove, missing]
          split
          · rfl
          · rfl
        · cases made
          apply missing
      have same := pool.readStored_around room locks page
      obtain ⟨stores, eq, -⟩ := readStored_spec { pool with cache := room, locks } page
      rw [read] at same
      dsimp only
      generalize Pool.readStored { pool with cache := room, locks } page = outcome at same eq
      obtain ⟨result, after⟩ := outcome
      obtain rfl : result = .ok bytes := same
      obtain rfl : after = { pool with cache := room, locks, stores } := eq
      dsimp only
      rw [if_neg other]
      constructor
      · simp [isResident, Cache.contains, gone]
      · intro _ _
        rfl
  · exact ⟨absent, fun granted => by cases granted⟩
  · exact ⟨absent, fun granted => by cases granted⟩

/-- Whatever tables are added, replaced and taken out, and whatever becomes of their stores, every
cached page is as long as `config.pageSize`, and so is every page that is handed out; a page of
another size is an error and is not cached.  This takes that an abort finds the pages that it reads
again, which are the cached ones that its transaction has locked or changed, to be of that size: it
`Refits`. -/
theorem Reshaped.pageSize (created : create config catalog stores = .ok start)
    (reshaped : Reshaped Refits start pool) :
  (∀ frame ∈ pool.cache.frames, (pool.copy frame.copy).bytes.length = config.pageSize)
    ∧ (∀ txn page access no, (pool.fetch txn page access).1 = .page no →
        ((pool.fetch txn page access).2.copy no).bytes.length = config.pageSize)
    ∧ ∀ txn page access bytes, pool.isResident page = false →
        (pool.readStored page).1 = .ok bytes → bytes.length ≠ config.pageSize →
        (pool.fetch txn page access).2.isResident page = false
          ∧ ((pool.locks.request page txn access.lockMode).1 = .granted →
              pool.cache.makeRoom?.isSome →
              (pool.fetch txn page access).1
                = .failed (.error (.disk (.sizeMismatch config.pageSize bytes.length))))
  := by
  obtain ⟨sized, rfl⟩ := reshaped.sized created
  refine ⟨?_, ?_, ?_⟩
  · intro frame member
    apply sized.copies _ (sized.framed frame member)
  · intro txn page access no handed
    obtain ⟨sizes, allocated⟩ := pool.sizes_fetch txn page access
    rw [(sizes.sized sized).copies no (allocated no handed sized), sizes.config]
  · intro txn page access bytes absent read other
    exact fetch_sizeMismatch absent read other

/-! ### An abort of a page that was replaced -/

/-- A table of one page that is longer than those of the pool. -/
def longPages : Store := { table := 1, medium := .counters #[[1, 2, 3, 4, 5, 6, 7, 8]] }

/-- `roomForOne` after a transaction has fetched a page and its table was replaced by
`longPages`. -/
def tableReplaced : Pool :=
  (roomForOne.performTable (.use (.round ⟨0⟩ (.fetch ⟨1, 0⟩ .readWrite)))).performTable
    (.addTable longPages)

theorem reshaped_tableReplaced (aborts : Pool → TransactionId → Prop) :
  Reshaped aborts roomForOne tableReplaced
  := by
  apply Reshaped.act (Reshaped.act Reshaped.start _ _ _)
  · trivial
  · nofun
  · nofun
  · nofun

/-- `tableReplaced` after the page was given up and the transaction has aborted. -/
def pageGivenUp : Pool :=
  (tableReplaced.performTable (.use (.discard ⟨1, 0⟩))).performTable (.use (.complete ⟨0⟩ false))

/-- In `pageGivenUp` the page was given up before the transaction aborts, and the page of the new
table is refused with `.sizeMismatch`. -/
theorem pageSize_pageGivenUp :
  Pool.create roomForOne.config roomForOne.catalog roomForOne.stores = .ok roomForOne
    ∧ Reshaped Refits roomForOne pageGivenUp
    ∧ (pageGivenUp.fetch ⟨1⟩ ⟨1, 0⟩ .readOnly).1 = .failed (.error (.disk (.sizeMismatch 4 8)))
  := by
  have created : Pool.create roomForOne.config roomForOne.catalog roomForOne.stores
      = .ok roomForOne := rfl
  have reshaped : Reshaped Refits roomForOne pageGivenUp := by
    apply Reshaped.act (Reshaped.act (reshaped_tableReplaced Refits) (.use (.discard ⟨1, 0⟩)) _ _)
    · trivial
    · intro txn _ frame member
      cases member
    · trivial
    · nofun
  obtain ⟨-, -, refused⟩ := Reshaped.pageSize created reshaped
  refine ⟨created, reshaped, ?_⟩
  exact (refused ⟨1⟩ ⟨1, 0⟩ .readOnly [1, 2, 3, 4, 5, 6, 7, 8] rfl rfl (by decide)).2 rfl rfl

/-- On `roomForOne`, a transaction aborts after the table of a page that it has fetched was
replaced: the page is cached as the longer page of the new table, and handed out. -/
theorem resized_after_abort :
  ∃ pool, Reshaped (fun _ _ => True) roomForOne pool
    ∧ (∃ frame ∈ pool.cache.frames,
        (pool.copy frame.copy).bytes.length ≠ roomForOne.config.pageSize)
    ∧ ∃ no, (pool.fetch ⟨1⟩ ⟨1, 0⟩ .readOnly).1 = .page no
      ∧ ((pool.fetch ⟨1⟩ ⟨1, 0⟩ .readOnly).2.copy no).bytes.length ≠ roomForOne.config.pageSize
  := by
  refine ⟨_, (reshaped_tableReplaced _).act (.use (.complete ⟨0⟩ false)) trivial fun _ _ => trivial,
    ⟨⟨⟨1, 0⟩, 0, false⟩, ?_, ?_⟩, 0, ?_, ?_⟩
  · decide
  · decide
  · rfl
  · decide

end Pool

end StorageEngine

import Mathlib.Logic.Relation
import StorageEngine.Proofs.Pool.Cases
import StorageEngine.Proofs.Pool.Frames
import StorageEngine.Proofs.Pool.Growth

/-!
# Moves of pools

Whatever a pool is asked to do, it does in moves, each of which changes its locks, or what its
stores hold, or what concerns one page in memory (`Pool.Move`).  A move of the last kind leaves the
other pages alone (`Pool.Elsewhere`), and there are few things that become of the page itself
(`Pool.Fate`).  What every move keeps is kept by every operation.

A pool is tidy if its cache keeps no more pages than it may, each once, and notes of each whether
its copy is dirty.  Every move keeps a pool tidy (`Pool.Tidy.move`), and none takes a page away from
a store (`Pool.Move.grows`).
-/

namespace StorageEngine.Pool

/-- What the moves of an operation may do beside changing pages in memory. -/
structure Freedom where
  /-- They may change the locks in this way. -/
  relocks : LockTable → LockTable → Prop
  /-- They may change pages on behalf of this transaction. -/
  changes : TransactionId → Prop
  /-- They may write to stores. -/
  writes : Prop
  /-- They may leave other bytes in a copy and not mark it. -/
  spoils : Prop

variable {may : Freedom} {pool middle after : Pool} {page other : PageId} {frame : Frame}
  {no : CopyNo} {txn : TransactionId} {bytes : Bytes} {stores : Array Store} {room : Cache}

/-! ### Moves -/

/-- What becomes of the copy `no` in a move that concerns `page`. -/
inductive CopyFate (page : PageId) (pool after : Pool) (no : CopyNo) : Prop where
  | kept (old : no < pool.copies.size) (copy : after.copy no = pool.copy no)
  /-- The copy is one of that page, and of the same length. -/
  | edited (old : no < pool.copies.size) (before : (pool.copy no).id = page)
      (id : (after.copy no).id = page)
      (length : (after.copy no).bytes.length = (pool.copy no).bytes.length)
  /-- The page was read into the copy, which is a new one of the right length or one of that
  page. -/
  | read {bytes : Bytes} (own : no < pool.copies.size → (pool.copy no).id = page)
      (copy : after.copy no = .clean page bytes) (stored : pool.stored page = some bytes)
      (size : no < pool.copies.size ∨ bytes.length = pool.config.pageSize)

/-- What a move from `pool` to `after` that concerns `page` leaves alone. -/
structure Elsewhere (page : PageId) (pool after : Pool) : Prop where
  config : after.config = pool.config
  catalog : after.catalog = pool.catalog
  locks : after.locks = pool.locks
  capacity : after.cache.capacity = pool.cache.capacity
  bounded : pool.cache.size ≤ pool.cache.capacity → after.cache.size ≤ after.cache.capacity
  distinct : pool.cache.Distinct → after.cache.Distinct
  frame : ∀ other, other ≠ page → after.cache.frame? other = pool.cache.frame? other
  copies : pool.copies.size ≤ after.copies.size
  copy : ∀ no, no < after.copies.size → CopyFate page pool after no

/-- What becomes of `page` in a move that concerns it. -/
inductive Fate (may : Freedom) (page : PageId) (pool after : Pool) : Prop where
  /-- It is not cached any more. -/
  | absent (stores : after.stores = pool.stores) (found : after.cache.frame? page = none)
  /-- It is cached as before. -/
  | kept (stores : after.stores = pool.stores) (copies : after.copies = pool.copies)
      (found : after.cache.frame? page = pool.cache.frame? page)
  /-- It is read from its store. -/
  | read (no : CopyNo) {bytes : Bytes} (stores : after.stores = pool.stores)
      (allocated : no < after.copies.size) (copy : after.copy no = .clean page bytes)
      (found : after.cache.frame? page = some ⟨page, no, false⟩)
      (stored : pool.stored page = some bytes)
  /-- Its copy is written to its store. -/
  | written (no : CopyNo) (writes : may.writes) (old : no < pool.copies.size)
      (id : (pool.copy no).id = page) (allocated : no < after.copies.size)
      (copy : after.copy no = .clean page (pool.copy no).bytes)
      (found : after.cache.frame? page = some ⟨page, no, false⟩)
      (eq : pool.writeStored page (pool.copy no).bytes
        = (.ok (), { pool with stores := after.stores }))
  /-- A copy of it is changed by a transaction that has locked it exclusively. -/
  | changed (no : CopyNo) {txn : TransactionId} (changes : may.changes txn)
      (stores : after.stores = pool.stores)
      (allocated : no < after.copies.size) (id : (after.copy no).id = page)
      (dirtied : (after.copy no).dirtiedBy = some txn)
      (found : after.cache.frame? page = some ⟨page, no, true⟩)
      (exclusive : pool.locks.modeOf? page txn = some .exclusive)

/-- The moves that operations are made of, within the freedom `may`. -/
inductive Move (may : Freedom) (pool : Pool) : Pool → Prop where
  /-- Locks are granted, denied or released. -/
  | relock {locks : LockTable} (allowed : may.relocks pool.locks locks) :
      Move may pool { pool with locks }
  /-- Stores note what was read and written, and are told what fails. -/
  | note {stores : Array Store} (same : pool.SameMedia { pool with stores })
      (quiet : may.writes ∨ pool.SameWrites { pool with stores }) :
      Move may pool { pool with stores }
  /-- An empty page is appended to a table, whatever comes of it. -/
  | append {no : StoreNo} {result : Except (Failure PoolError) PageId} {store : Store}
      (eq : (pool.store no).allocate = (result, store)) : Move may pool (pool.setStore no store)
  /-- Other bytes are left in a copy of a page that is longer than words can tell. -/
  | spoil {no : CopyNo} {bytes : Bytes} (spoils : may.spoils)
      (long : UInt32.size ≤ (pool.copy no).bytes.length)
      (length : bytes.length = (pool.copy no).bytes.length) :
      Move may pool (pool.setCopy no { pool.copy no with bytes })
  /-- One page is changed in memory. -/
  | page {after : Pool} (page : PageId) (elsewhere : Elsewhere page pool after)
      (fate : Fate may page pool after) : Move may pool after

/-- Moves in a row, within the freedom `may`. -/
abbrev Moves (may : Freedom) : Pool → Pool → Prop := Relation.ReflTransGen (Move may)

/-! ### Moves that concern one page -/

/-- What a pool leaves alone whose cache changes in one frame, and whose copies are kept or concern
the page of that frame. -/
theorem elsewhere_of_cache {copies : Array Page} {cache : Cache}
    (same : pool.cache.SameBut page cache) (more : pool.copies.size ≤ copies.size)
    (fates : ∀ no, no < copies.size → CopyFate page pool { pool with copies, cache, stores } no) :
  Elsewhere page pool { pool with copies, cache, stores }
  where
  config := rfl
  catalog := rfl
  locks := rfl
  capacity := same.capacity
  bounded := same.bounded
  distinct := same.distinct
  frame := same.frame
  copies := more
  copy := fates

theorem elsewhere_recache {cache : Cache} (same : pool.cache.SameBut page cache) :
  Elsewhere page pool { pool with cache }
  := elsewhere_of_cache same (Nat.le_refl _) fun _ old => .kept old rfl

/-- To replace a copy of `page` by another copy of `page`, as long as the old one or with what is
stored, and the cache by one that is the same but for `page`, leaves everything `Elsewhere`. -/
theorem elsewhere_setCopy {copy : Page} {cache : Cache} (same : pool.cache.SameBut page cache)
    (id : (pool.copy no).id = page)
    (fate : (copy.id = page ∧ copy.bytes.length = (pool.copy no).bytes.length)
      ∨ ∃ bytes, copy = .clean page bytes ∧ pool.stored page = some bytes) :
  Elsewhere page pool
    { pool with copies := pool.copies.setIfInBounds no copy, cache, stores }
  := by
  have copies : (pool.copies.setIfInBounds no copy).size = pool.copies.size := by simp
  have set : ∀ other,
      Pool.copy { pool with copies := pool.copies.setIfInBounds no copy, cache, stores } other
        = if other = no ∧ no < pool.copies.size then copy else pool.copy other :=
    fun other => pool.copy_setCopy no other copy
  apply elsewhere_of_cache same (Nat.le_of_eq copies.symm)
  intro other allocated
  have old : other < pool.copies.size := copies ▸ allocated
  by_cases here : other = no
  · subst here
    have new := (set other).trans (if_pos ⟨rfl, old⟩)
    rcases fate with ⟨named, length⟩ | ⟨bytes, rfl, stored⟩
    · apply CopyFate.edited old id
      · rw [new, named]
      · rw [new, length]
    · apply CopyFate.read (fun _ => id) new stored (.inl old)
  · apply CopyFate.kept old
    rw [set, if_neg (by tauto)]

/-- A cached page counts as just accessed: `cache.put` of its own `frame` is a move. -/
theorem Move.touch (found : pool.cache.frame? frame.page = some frame) :
  Move may pool { pool with cache := pool.cache.put frame }
  := by
  apply Move.page frame.page
  · exact elsewhere_recache (pool.cache.sameBut_put frame (.inl (Option.isSome_of_mem found)))
  · refine Fate.kept rfl rfl ?_
    rw [Cache.frame?_put, if_pos rfl, found]

/-- To remove `page` from the cache is a move. -/
theorem Move.remove (page : PageId) :
  Move may pool { pool with cache := pool.cache.remove page }
  := by
  apply Move.page page
  · exact elsewhere_recache (pool.cache.sameBut_remove page)
  · refine Fate.absent rfl ?_
    rw [Cache.frame?_remove, if_pos rfl]

/-- To read a stored `page` into a new copy, where there is room, is a move. -/
theorem Move.enter (roomy : pool.cache.size < pool.cache.capacity)
    (stored : pool.stored page = some bytes) (size : bytes.length = pool.config.pageSize) :
  Move may pool (pool.entered page bytes)
  := by
  have new : (pool.entered page bytes).copy pool.copies.size = .clean page bytes := by
    rw [copy_entered, if_pos rfl]
  have copies : (pool.entered page bytes).copies.size = pool.copies.size + 1 := Array.size_push ..
  apply Move.page page
  · have cached := pool.cache.sameBut_put ⟨page, pool.copies.size, false⟩ (.inr roomy)
    refine elsewhere_of_cache cached (Nat.le_trans (Nat.le_succ _) (Nat.le_of_eq copies.symm)) ?_
    intro no allocated
    by_cases here : no = pool.copies.size
    · subst here
      apply CopyFate.read _ new stored (.inr size)
      intro old
      cases Nat.lt_irrefl _ old
    · have old : no < pool.copies.size := by
        rw [Array.size_push] at allocated
        omega
      apply CopyFate.kept old
      apply (copy_entered ..).trans (if_neg here)
  · refine Fate.read _ rfl (copies ▸ Nat.lt_succ_self _) new ?_ stored
    rw [entered, Cache.frame?_put, if_pos rfl]

/-- To overwrite the copy `no` with as many `bytes` and put it into the cache is a move, for a
`txn` that may change pages and has its page locked exclusively. -/
theorem Move.change (changes : may.changes txn) (allocated : no < pool.copies.size)
    (length : bytes.length = (pool.copy no).bytes.length)
    (exclusive : pool.locks.modeOf? (pool.copy no).id txn = some .exclusive)
    (roomy : (pool.cache.frame? (pool.copy no).id).isSome
      ∨ pool.cache.size < pool.cache.capacity) :
  Move may pool
    { pool.changed txn no bytes with cache := pool.cache.put ⟨(pool.copy no).id, no, true⟩ }
  := by
  have copies : (pool.changed txn no bytes).copies.size = pool.copies.size := by
    simp [Pool.changed, setCopy]
  have new : Pool.copy { pool.changed txn no bytes with
      cache := pool.cache.put ⟨(pool.copy no).id, no, true⟩ } no
        = ⟨(pool.copy no).id, bytes, some txn⟩ :=
    (copy_changed allocated bytes no).trans (if_pos rfl)
  apply Move.page (pool.copy no).id
  · have cached := pool.cache.sameBut_put ⟨(pool.copy no).id, no, true⟩ roomy
    exact elsewhere_setCopy cached rfl (.inl ⟨rfl, length⟩)
  · refine Fate.changed no changes rfl (copies.symm ▸ allocated) ?_ ?_ ?_ exclusive
    · rw [new]
    · rw [new]
    · rw [Cache.frame?_put, if_pos rfl]

/-- To overwrite the copy `no` of a page that is not cached is a move. -/
theorem Move.changeApart (length : bytes.length = (pool.copy no).bytes.length)
    (absent : pool.cache.frame? (pool.copy no).id = none) :
  Move may pool (pool.changed txn no bytes)
  := by
  apply Move.page (pool.copy no).id
  · have cached : pool.cache.SameBut (pool.copy no).id pool.cache := ⟨rfl, id, id, fun _ _ => rfl⟩
    exact elsewhere_setCopy cached rfl (.inl ⟨rfl, length⟩)
  · exact Fate.absent rfl absent

theorem copy_cleaned (pool : Pool) (page : PageId) (no other : CopyNo) (bytes : Bytes)
    (stores : Array Store) :
  (pool.cleaned page no bytes stores).copy other
    = if other = no ∧ no < pool.copies.size then .clean page bytes else pool.copy other
  := pool.copy_setCopy no other (.clean page bytes)

/-- To put a clean copy with `bytes` in place of the copy `no` of `page` leaves everything
`Elsewhere`. -/
theorem elsewhere_cleaned (id : (pool.copy no).id = page)
    (kept : bytes.length = (pool.copy no).bytes.length ∨ pool.stored page = some bytes) :
  Elsewhere page pool (pool.cleaned page no bytes stores)
  := by
  refine elsewhere_setCopy (pool.cache.sameBut_setDirty page false) id (kept.imp ?_ ?_)
  · intro length
    exact ⟨rfl, length⟩
  · intro stored
    exact ⟨bytes, rfl, stored⟩

/-- To put what is stored of a cached `page` into its copy is a move. -/
theorem Move.restore (found : pool.cache.frame? page = some frame)
    (allocated : frame.copy < pool.copies.size) (id : (pool.copy frame.copy).id = page)
    (stored : pool.stored page = some bytes) :
  Move may pool (pool.cleaned page frame.copy bytes pool.stores)
  := by
  apply Move.page page (elsewhere_cleaned id (.inr stored))
  refine Fate.read frame.copy rfl ?_ ?_ ?_ stored
  · simpa [cleaned, setCopy] using allocated
  · rw [copy_cleaned, if_pos ⟨rfl, allocated⟩]
  · simp [cleaned, Cache.frame?_setDirty, found, Cache.page_of_frame? found]

/-- To write a cached `page` to its store is a move, where moves may write. -/
theorem Move.store (writes : may.writes) (found : pool.cache.frame? page = some frame)
    (allocated : frame.copy < pool.copies.size) (id : (pool.copy frame.copy).id = page)
    (eq : pool.writeStored page (pool.copy frame.copy).bytes = (.ok (), { pool with stores })) :
  Move may pool (pool.cleaned page frame.copy (pool.copy frame.copy).bytes stores)
  := by
  apply Move.page page (elsewhere_cleaned id (.inl rfl))
  refine Fate.written frame.copy writes allocated id ?_ ?_ ?_ eq
  · simpa [cleaned, setCopy] using allocated
  · rw [copy_cleaned, if_pos ⟨rfl, allocated⟩]
  · simp [cleaned, Cache.frame?_setDirty, found, Cache.page_of_frame? found]

/-- To give up `page`, whose copy is `no`, is a move. -/
theorem Move.drop (id : (pool.copy no).id = page) :
  Move may pool (pool.dropped page no pool.stores)
  := by
  apply Move.page page
  · exact elsewhere_setCopy (pool.cache.sameBut_remove page) id (.inl ⟨id, rfl⟩)
  · refine Fate.absent rfl ?_
    rw [dropped, Cache.frame?_remove, if_pos rfl]

/-- To tell the store `no` what to fail is a move. -/
theorem Move.disrupt (no : StoreNo) (failingReads failingWrites : List PageNo)
    (failingCount : Bool) (appendLimit : Option Nat) :
  Move may pool (pool.setStore no
    { pool.store no with failingReads, failingWrites, failingCount, appendLimit })
  := by
  let told : Store :=
    { pool.store no with failingReads, failingWrites, failingCount, appendLimit }
  have media : pool.SameMedia (pool.setStore no told) := sameMedia_setStore rfl rfl
  have quiet : pool.SameWrites (pool.setStore no told) := sameWrites_setStore rfl
  exact .note media (.inr quiet)

/-! ### Tidy pools -/

/-- Whether the cache of `pool` keeps no more pages than it may, each once, in a copy of it, and
notes of each whether that copy is dirty. -/
structure Tidy (pool : Pool) : Prop where
  capacity : pool.cache.capacity = pool.config.poolSize
  bounded : pool.cache.size ≤ pool.cache.capacity
  distinct : pool.cache.Distinct
  framed : ∀ page frame, pool.cache.frame? page = some frame →
    frame.copy < pool.copies.size ∧ (pool.copy frame.copy).id = page
      ∧ frame.dirty = (pool.copy frame.copy).isDirty

/-- The copy of another cached page is kept in a move that concerns one page. -/
theorem Tidy.copy_elsewhere (tidy : pool.Tidy) (elsewhere : Elsewhere page pool after)
    (distinct : other ≠ page) (found : pool.cache.frame? other = some frame) :
  after.copy frame.copy = pool.copy frame.copy
  := by
  obtain ⟨allocated, id, -⟩ := tidy.framed other frame found
  have apart : (pool.copy frame.copy).id ≠ page := by
    rw [id]
    apply distinct
  cases elsewhere.copy frame.copy (Nat.lt_of_lt_of_le allocated elsewhere.copies) with
  | kept old copy => apply copy
  | edited old before => cases apart before
  | read own => cases apart (own allocated)

/-- Other `bytes` in the copy `no` keep a pool `Tidy`. -/
theorem Tidy.edit (tidy : pool.Tidy) (no : CopyNo) (bytes : Bytes) :
  (pool.setCopy no { pool.copy no with bytes }).Tidy
  := by
  refine ⟨tidy.capacity, tidy.bounded, tidy.distinct, ?_⟩
  intro page frame found
  have copies : (pool.setCopy no { pool.copy no with bytes }).copies.size = pool.copies.size := by
    simp [setCopy]
  rw [copy_setCopy, copies]
  split
  · rename_i here
    rw [← here.1]
    apply tidy.framed page frame found
  · apply tidy.framed page frame found

/-- A pool that is the same `Elsewhere` is `Tidy`, if the frame of `page` is that of an allocated
copy of it and as dirty as the copy is. -/
theorem Tidy.elsewhere (tidy : pool.Tidy) (elsewhere : Elsewhere page pool after)
    (framed : ∀ frame, after.cache.frame? page = some frame →
      frame.copy < after.copies.size ∧ (after.copy frame.copy).id = page
        ∧ frame.dirty = (after.copy frame.copy).isDirty) :
  after.Tidy
  := by
  refine ⟨?_, elsewhere.bounded tidy.bounded, elsewhere.distinct tidy.distinct, ?_⟩
  · rw [elsewhere.capacity, tidy.capacity, elsewhere.config]
  · intro other frame found
    by_cases here : other = page
    · subst here
      apply framed frame found
    · rw [elsewhere.frame other here] at found
      obtain ⟨allocated, framed⟩ := tidy.framed other frame found
      rw [tidy.copy_elsewhere elsewhere here found]
      exact ⟨Nat.lt_of_lt_of_le allocated elsewhere.copies, framed⟩

/-- A `move` keeps a pool `Tidy`. -/
theorem Tidy.move (tidy : pool.Tidy) (move : Move may pool after) :
  after.Tidy
  := by
  cases move with
  | relock => exact ⟨tidy.capacity, tidy.bounded, tidy.distinct, tidy.framed⟩
  | note => exact ⟨tidy.capacity, tidy.bounded, tidy.distinct, tidy.framed⟩
  | append => exact ⟨tidy.capacity, tidy.bounded, tidy.distinct, tidy.framed⟩
  | spoil => apply tidy.edit
  | page page elsewhere fate =>
    apply tidy.elsewhere elsewhere
    intro frame found
    cases fate with
    | absent _ absent =>
      rw [absent] at found
      cases found
    | kept _ copies kept =>
      rw [kept] at found
      rw [copy, copies]
      apply tidy.framed page frame found
    | read _ _ allocated copy read =>
      rw [read] at found
      cases found
      rw [copy]
      exact ⟨allocated, rfl, rfl⟩
    | written _ _ _ _ allocated copy written =>
      rw [written] at found
      cases found
      rw [copy]
      exact ⟨allocated, rfl, rfl⟩
    | changed _ _ _ allocated id dirtied changed =>
      rw [changed] at found
      cases found
      rw [Page.isDirty, dirtied]
      exact ⟨allocated, id, rfl⟩

theorem Tidy.moves (tidy : pool.Tidy) (moves : Moves may pool after) :
  after.Tidy
  := by
  induction moves with
  | refl => apply tidy
  | tail _ move ih => apply ih.move move

/-! ### What moves leave -/

/-- A `move` leaves the locks, or changes them as `may.relocks` allows. -/
theorem Move.locks_cases (move : Move may pool after) :
  after.locks = pool.locks ∨ may.relocks pool.locks after.locks
  := by
  cases move with
  | relock allowed =>
    right
    apply allowed
  | note | append | spoil =>
    left
    rfl
  | page page elsewhere =>
    left
    apply elsewhere.locks

/-- No `move` takes a copy away. -/
theorem Move.copies_le (move : Move may pool after) :
  pool.copies.size ≤ after.copies.size
  := by
  cases move with
  | relock | note | append => exact Nat.le_refl _
  | spoil => exact Nat.le_of_eq (Array.size_setIfInBounds ..).symm
  | page page elsewhere => apply elsewhere.copies

theorem Moves.copies_le (moves : Moves may pool after) :
  pool.copies.size ≤ after.copies.size
  := by
  induction moves with
  | refl => apply Nat.le_refl
  | tail _ move ih => apply Nat.le_trans ih move.copies_le

/-- No `move` takes a page away from a store: `pool.Grows after`. -/
theorem Move.grows (move : Move may pool after) :
  pool.Grows after
  := by
  cases move with
  | relock => apply Grows.of_stores rfl
  | note same => apply same.grows
  | append eq => apply Grows.setStore (Store.length_le_allocate eq)
  | spoil => apply Grows.of_stores rfl
  | page page elsewhere fate =>
    cases fate with
    | absent stores | kept stores | read _ stores | changed _ _ stores =>
      apply Grows.of_stores stores
    | written no _ _ _ _ _ _ eq =>
      have grows := pool.grows_writeStored page (pool.copy no).bytes
      rw [eq] at grows
      apply grows

theorem Moves.grows (moves : Moves may pool after) :
  pool.Grows after
  := by
  induction moves with
  | refl => apply Grows.of_stores rfl
  | tail _ move ih => apply ih.trans move.grows

/-- A `move` that may not write notes no write: `pool.SameWrites after`. -/
theorem Move.sameWrites (move : Move may pool after) (quiet : ¬ may.writes) :
  pool.SameWrites after
  := by
  cases move with
  | relock => apply SameWrites.of_stores rfl
  | note _ noted => apply noted.resolve_left quiet
  | append eq => apply sameWrites_setStore (Store.allocate_keeps eq).2.1
  | spoil => apply SameWrites.of_stores rfl
  | page page elsewhere fate =>
    cases fate with
    | absent stores | kept stores | read _ stores | changed _ _ stores =>
      apply SameWrites.of_stores stores
    | written _ writes => cases quiet writes

theorem Moves.sameWrites (moves : Moves may pool after) (quiet : ¬ may.writes) :
  pool.SameWrites after
  := by
  induction moves with
  | refl => apply SameWrites.of_stores rfl
  | tail _ move ih => apply ih.trans (move.sameWrites quiet)

/-- A `move` leaves `config`, `catalog` and the tables of the stores. -/
theorem Move.fixed (move : Move may pool after) :
  after.config = pool.config ∧ after.catalog = pool.catalog
    ∧ ∀ no, (after.store no).table = (pool.store no).table
  := by
  cases move with
  | relock => exact ⟨rfl, rfl, fun _ => rfl⟩
  | note same => exact ⟨rfl, rfl, same.table⟩
  | append eq =>
    refine ⟨rfl, rfl, ?_⟩
    intro other
    rw [store_setStore]
    split
    · rename_i here
      rw [here.1, (Store.allocate_keeps eq).1]
    · rfl
  | spoil => exact ⟨rfl, rfl, fun _ => rfl⟩
  | page page elsewhere fate =>
    refine ⟨elsewhere.config, elsewhere.catalog, ?_⟩
    cases fate with
    | absent stores | kept stores | read _ stores | changed _ _ stores =>
      intro no
      rw [Pool.store, Pool.store, stores]
    | written no _ _ _ _ _ _ eq =>
      obtain ⟨stores, eq', tables⟩ := pool.writeStored_eq page (pool.copy no).bytes
      rw [eq] at eq'
      intro no
      have same : after.stores = stores := congrArg Pool.stores eq'
      rw [← tables no, Pool.store, same]
      rfl

theorem Moves.fixed (moves : Moves may pool after) :
  after.config = pool.config ∧ after.catalog = pool.catalog
    ∧ ∀ no, (after.store no).table = (pool.store no).table
  := by
  induction moves with
  | refl => exact ⟨rfl, rfl, fun _ => rfl⟩
  | tail _ move ih =>
    obtain ⟨config, catalog, table⟩ := move.fixed
    exact ⟨config.trans ih.1, catalog.trans ih.2.1, fun no => (table no).trans (ih.2.2 no)⟩

end StorageEngine.Pool

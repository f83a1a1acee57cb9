import StorageEngine.Proofs.Pool.Cases
import StorageEngine.Proofs.Pool.Frames

/-!
# Sizes of cached pages

A pool refuses to load a page of another size than its own (`Pool.sizes_load`), and what marks,
stores or gives up copies leaves their sizes.  An abort reads pages again and asks no such thing:
its pages have the right size afterwards if they had it in the stores
(`Pool.sizes_complete`).
-/

namespace StorageEngine

/-! ### Frames -/

namespace Cache

variable {cache room : Cache} {bound other : Nat}

/-- Whether every frame in `cache` holds one of the first `bound` copies. -/
def Within (cache : Cache) (bound : Nat) : Prop := ∀ frame ∈ cache.frames, frame.copy < bound

theorem Within.mono (within : cache.Within bound) (le : bound ≤ other) :
  cache.Within other
  := fun frame member => Nat.lt_of_lt_of_le (within frame member) le

theorem Within.remove (within : cache.Within bound) (page : PageId) :
  (cache.remove page).Within bound
  := fun frame member => within frame (List.mem_filter.mp member).1

theorem Within.put (within : cache.Within bound) {frame : Frame} (new : frame.copy < bound) :
  (cache.put frame).Within bound
  := by
  intro other member
  obtain old | new' := List.mem_append.mp member
  · apply within.remove frame.page other old
  · obtain rfl := List.mem_singleton.mp new'
    apply new

theorem Within.setDirty (within : cache.Within bound) (page : PageId) (dirty : Bool) :
  (cache.setDirty page dirty).Within bound
  := by
  intro frame member
  obtain ⟨old, among, rfl⟩ := List.mem_map.mp member
  split
  · apply within old among
  · apply within old among

theorem Within.makeRoom (within : cache.Within bound) (made : cache.makeRoom? = some room) :
  room.Within bound
  := by
  unfold makeRoom? at made
  split at made
  · obtain ⟨victim, -, rfl⟩ := Option.map_eq_some_iff.mp made
    apply within.remove
  · cases made
    apply within

end Cache

/-! ### Copies -/

namespace Pool

variable {pool middle after : Pool} {txn : TransactionId} {page : PageId} {no : CopyNo}

/-- Whether every copy in `pool` is as long as `config.pageSize`, and the cached ones are among
them. -/
structure Sized (pool : Pool) : Prop where
  copies : ∀ no < pool.copies.size, (pool.copy no).bytes.length = pool.config.pageSize
  framed : pool.cache.Within pool.copies.size

/-- Whether what was done to `pool` up to `after` leaves the sizes of its copies what they should
be. -/
structure Sizes (pool after : Pool) : Prop where
  config : after.config = pool.config
  grows : pool.copies.size ≤ after.copies.size
  sized : pool.Sized → after.Sized

theorem Sizes.refl (pool : Pool) :
  pool.Sizes pool
  := ⟨rfl, Nat.le_refl _, id⟩

theorem Sizes.trans (first : pool.Sizes middle) (second : middle.Sizes after) :
  pool.Sizes after
  where
  config := second.config.trans first.config
  grows := Nat.le_trans first.grows second.grows
  sized := second.sized ∘ first.sized

/-- Other `locks`, `catalog` and `stores` leave the `Sizes` of copies. -/
theorem sizes_around (pool : Pool) (locks : LockTable) (catalog : Registry TableId StoreNo)
    (stores : Array Store) :
  pool.Sizes { pool with locks, catalog, stores }
  := ⟨rfl, Nat.le_refl _, fun sized => ⟨sized.copies, sized.framed⟩⟩

theorem sizes_cache {cache : Cache}
    (within : pool.cache.Within pool.copies.size → cache.Within pool.copies.size) :
  pool.Sizes { pool with cache }
  := ⟨rfl, Nat.le_refl _, fun sized => ⟨sized.copies, within sized.framed⟩⟩

theorem sizes_setCopy {page : Page}
    (length : pool.Sized → no < pool.copies.size → page.bytes.length = pool.config.pageSize) :
  pool.Sizes (pool.setCopy no page)
  where
  config := rfl
  grows := Nat.le_of_eq (Array.size_setIfInBounds ..).symm
  sized sized := by
    have size : (pool.setCopy no page).copies.size = pool.copies.size :=
      Array.size_setIfInBounds ..
    refine ⟨?_, size ▸ sized.framed⟩
    intro other allocated
    rw [size] at allocated
    rw [copy_setCopy]
    split
    · rename_i here
      apply length sized here.2
    · apply sized.copies other allocated

/-- To replace the copy `no` by a `page` of as many bytes leaves the `Sizes`. -/
theorem sizes_edit {page : Page} (length : page.bytes.length = (pool.copy no).bytes.length) :
  pool.Sizes (pool.setCopy no page)
  := by
  apply sizes_setCopy
  intro sized allocated
  rw [length, sized.copies no allocated]

theorem sizes_discard (pool : Pool) (page : PageId) :
  pool.Sizes (pool.discard page)
  := sizes_cache fun within => within.remove page

/-! ### Fetching and marking -/

/-- `pool.load page` leaves the `Sizes`, and a copy that it answers is allocated if the pool is
`Sized`. -/
theorem sizes_load (pool : Pool) (page : PageId) :
  pool.Sizes (pool.load page).2
    ∧ ∀ no, (pool.load page).1 = .ok no → pool.Sized → no < (pool.load page).2.copies.size
  := by
  obtain ⟨frame, found, eq⟩ | ⟨-, -, eq⟩
    | ⟨room, stores, -, made, -, -, ⟨failure, -, eq⟩ | ⟨bytes, -, length, eq⟩⟩ :=
    pool.load_cases page
  · rw [eq]
    have member := Cache.mem_of_frame? found
    constructor
    · apply sizes_cache fun within => within.put (within frame member)
    · rintro no ⟨⟩ sized
      apply sized.framed frame member
  · rw [eq]
    exact ⟨.refl pool, nofun⟩
  · rw [eq]
    refine ⟨?_, nofun⟩
    apply (sizes_cache fun within => within.makeRoom made).trans (sizes_around _ _ _ stores)
  · rw [eq]
    have pushed : (Array.push pool.copies (.clean page bytes)).size = pool.copies.size + 1 :=
      Array.size_push _
    refine ⟨⟨rfl, by simp [entered], ?_⟩, ?_⟩
    · intro sized
      constructor
      · intro no allocated
        rw [copy_entered]
        split
        · apply length
        · rename_i old
          have bound : no < pool.copies.size + 1 := pushed ▸ allocated
          apply sized.copies no (Nat.lt_of_le_of_ne (Nat.le_of_lt_succ bound) old)
      · have within := (sized.framed.makeRoom made).mono (Nat.le_succ pool.copies.size)
        exact pushed ▸ within.put (Nat.lt_succ_self _)
    · rintro no ⟨⟩ -
      simp [entered]

/-- `pool.fetch txn page access` leaves the `Sizes`, and a copy that it answers is allocated if the
pool is `Sized`. -/
theorem sizes_fetch (pool : Pool) (txn : TransactionId) (page : PageId) (access : Access) :
  pool.Sizes (pool.fetch txn page access).2
    ∧ ∀ no, (pool.fetch txn page access).1 = .page no → pool.Sized →
        no < (pool.fetch txn page access).2.copies.size
  := by
  have relock : ∀ locks, pool.Sizes { pool with locks } :=
    fun locks => sizes_around pool locks _ _
  obtain ⟨locks, -, eq⟩ | ⟨locks, -, eq⟩
    | ⟨locks, -, ⟨copy, after, loaded, eq⟩ | ⟨failure, after, loaded, eq⟩⟩ :=
    pool.fetch_cases txn page access
  · rw [eq]
    exact ⟨relock locks, nofun⟩
  · rw [eq]
    exact ⟨relock locks, nofun⟩
  · obtain ⟨sizes, allocated⟩ := sizes_load { pool with locks } page
    rw [loaded] at sizes allocated
    rw [eq]
    use (relock locks).trans sizes
    rintro no ⟨⟩ sized
    apply allocated copy rfl ((relock locks).sized sized)
  · obtain ⟨sizes, -⟩ := sizes_load { pool with locks } page
    rw [loaded] at sizes
    rw [eq]
    exact ⟨(relock locks).trans sizes, nofun⟩

theorem sizes_marked (txn : TransactionId) (allocated : no < pool.copies.size) :
  pool.Sizes (pool.marked txn no)
  := by
  have set : pool.Sizes (pool.setCopy no ((pool.copy no).mark (some txn))) := sizes_edit rfl
  apply set.trans
  apply sizes_cache
  intro within
  apply within.put (Nat.lt_of_lt_of_le allocated set.grows)

theorem sizes_install (txn : TransactionId) (allocated : no < pool.copies.size) :
  pool.Sizes (pool.install txn no).2
  := by
  obtain ⟨-, eq⟩ | ⟨-, ⟨room, made, eq⟩ | eq⟩ := pool.install_cases txn no
  · rw [eq]
    exact sizes_marked txn allocated
  · rw [eq]
    have roomy : pool.Sizes { pool with cache := room } :=
      sizes_cache fun within => within.makeRoom made
    exact roomy.trans (sizes_marked txn allocated)
  · rw [eq]
    exact sizes_edit rfl

theorem sizes_markDirty (txn : TransactionId) (allocated : no < pool.copies.size) :
  pool.Sizes (pool.markDirty txn no).2
  := by
  obtain ⟨-, eq⟩ | ⟨cause, eq⟩ := pool.markDirty_cases txn no
  · rw [eq]
    apply sizes_install txn allocated
  · rw [eq]
    apply Sizes.refl

/-! ### Storing changes -/

/-- To put a clean copy with `bytes` in place of the copy `no` leaves the `Sizes`, if `bytes` are
as long as `config.pageSize`. -/
theorem sizes_cleaned {bytes : Bytes} (stores : Array Store)
    (length : pool.Sized → no < pool.copies.size → bytes.length = pool.config.pageSize) :
  pool.Sizes (pool.cleaned page no bytes stores)
  := by
  have set : pool.Sizes (pool.setCopy no (.clean page bytes)) := sizes_setCopy length
  apply (set.trans (sizes_cache fun within => within.setDirty page false)).trans
  apply sizes_around

theorem sizes_writeBack (pool : Pool) (selects : TransactionId → Bool) (no : CopyNo) :
  pool.Sizes (pool.writeBack selects no).2
  := by
  have named : (pool.copy no).id = (pool.copy no).id := rfl
  obtain ⟨-, eq⟩ | ⟨failure, stores, -, eq⟩ | ⟨stores, -, eq⟩ :=
    pool.writeBack_cases selects named
  · rw [eq]
    apply Sizes.refl
  · rw [eq]
    apply sizes_around
  · rw [eq]
    apply sizes_cleaned
    intro sized allocated
    apply sized.copies no allocated

theorem sizes_writeBackAll (pool : Pool) (selects : TransactionId → Bool)
    (copies : List CopyNo) :
  pool.Sizes (pool.writeBackAll selects copies).2
  := writeBackAll_induction Sizes.refl .trans (fun pool => pool.sizes_writeBack selects) pool copies

theorem sizes_flushPage (pool : Pool) (page : PageId) :
  pool.Sizes (pool.flushPage page).2
  := by
  unfold flushPage
  split
  · apply Sizes.refl
  · apply sizes_writeBack

/-! ### Undoing changes -/

/-- `pool.restore page no` leaves the `Sizes`, if what is stored of `page` is as long as
`config.pageSize`; it leaves the `SameStores`, and no copy is changed by `txn` that was not
before. -/
theorem sizes_restore (txn : TransactionId) (no : CopyNo)
    (length : ∀ bytes, pool.stored page = some bytes → bytes.length = pool.config.pageSize) :
  pool.Sizes (pool.restore page no).2
    ∧ pool.SameStores (pool.restore page no).2
    ∧ ∀ other, ((pool.restore page no).2.copy other).dirtiedBy = some txn →
        (pool.copy other).dirtiedBy = some txn
  := by
  have marks : ∀ (copy : Page) (other : CopyNo), copy.dirtiedBy = none →
      ((pool.setCopy no copy).copy other).dirtiedBy = some txn →
      (pool.copy other).dirtiedBy = some txn := by
    intro copy other clean marked
    rw [copy_setCopy] at marked
    split at marked
    · cases clean.symm.trans marked
    · apply marked
  obtain ⟨stores, same, -, ⟨fault, -, eq⟩ | ⟨cause, eq⟩ | ⟨bytes, found, eq⟩⟩ :=
    pool.restore_cases page no
  · rw [eq]
    exact ⟨pool.sizes_around _ _ _, same, fun _ => id⟩
  · rw [eq]
    refine ⟨?_, ⟨same.catalog, same.size, same.alike⟩, fun other => marks _ other rfl⟩
    have set : pool.Sizes (pool.setCopy no ((pool.copy no).mark none)) := sizes_edit rfl
    apply (set.trans (sizes_cache fun within => within.remove page)).trans
    apply sizes_around
  · rw [eq]
    refine ⟨?_, ⟨same.catalog, same.size, same.alike⟩, fun other => marks _ other rfl⟩
    apply sizes_cleaned
    intro _ _
    apply length bytes found

/-- Whether the page of `frame` is one that the abort of `txn` reads again. -/
def rereads (pool : Pool) (txn : TransactionId) (held : List PageId) (frame : Frame) : Prop :=
  frame.page ∈ held ∨ (pool.copy frame.copy).dirtiedBy = some txn

theorem sizes_restoreAll {held : List PageId} {frames : List Frame}
    (length : ∀ frame ∈ frames, pool.rereads txn held frame →
      ∀ bytes, pool.stored frame.page = some bytes → bytes.length = pool.config.pageSize)
    (outcome : Except PoolError Unit) :
  pool.Sizes (pool.restoreAll txn held frames outcome).2
  := by
  induction frames generalizing pool outcome with
  | nil => apply Sizes.refl
  | cons frame frames ih =>
    unfold restoreAll
    split
    · rename_i chosen
      have again : pool.rereads txn held frame := by simpa [rereads] using chosen
      obtain ⟨first, same, marks⟩ :=
        sizes_restore txn frame.copy (length frame List.mem_cons_self again)
      rcases restored : pool.restore frame.page frame.copy with ⟨fault | result, after⟩
      · rw [restored] at first
        exact first
      · rw [restored] at first same marks
        apply first.trans
        apply ih
        intro other member chosen bytes found
        rw [first.config]
        apply length other (List.mem_cons_of_mem _ member)
        · apply chosen.imp_right
          apply marks
        · rw [← same.stored, found]
    · apply ih
      intro other member
      apply length other (List.mem_cons_of_mem _ member)

/-! ### Ending transactions -/

/-- Whether every cached page that `txn` holds or has changed is as long in its table's store, if
it is there, as `config.pageSize`. -/
def Refits (pool : Pool) (txn : TransactionId) : Prop :=
  ∀ frame ∈ pool.cache.frames, pool.rereads txn (pool.locks.heldPages txn) frame →
    ∀ bytes, pool.stored frame.page = some bytes → bytes.length = pool.config.pageSize

/-- `pool.complete txn commits` leaves the `Sizes`, if what an abort reads again `Refits`. -/
theorem sizes_complete (commits : Bool) (refits : commits = false → pool.Refits txn) :
  pool.Sizes (pool.complete txn commits).2
  := by
  have settled : pool.Sizes
      (if commits then pool.flushTransaction txn else pool.rollback txn).2 := by
    cases commits with
    | true => apply sizes_writeBackAll
    | false => apply sizes_restoreAll (refits rfl)
  obtain ⟨result, after, ended, ⟨fault, -, eq⟩ | ⟨-, eq⟩⟩ := pool.complete_settles txn commits
  all_goals rw [ended] at settled
  · rw [eq]
    exact settled
  · rw [eq]
    exact settled.trans (sizes_around ..)

end Pool

end StorageEngine

import StorageEngine.Proofs.Pool.Cases

/-!
# Growth

Pages are added to stores and written over, but none is ever taken away, whatever a pool is asked to
do and whatever fails (`Pool.Grows`).  So page numbers that are wide enough for a store at some time
have been wide enough at all times before (`Pool.Grows.numbered`).
-/

namespace StorageEngine

namespace Pool

variable {pool middle after : Pool}

/-- Whether no store of `pool` has lost a page in `after`. -/
def Grows (pool after : Pool) : Prop := ∀ no, (pool.store no).length ≤ (after.store no).length

/-- Page numbers that are wide enough later are wide enough before. -/
theorem Grows.numbered (grows : pool.Grows after) (numbered : ∀ no, (after.store no).Numbered)
    (no : StoreNo) :
  (pool.store no).Numbered
  := Nat.lt_of_le_of_lt (grows no) (numbered no)

theorem Grows.of_stores (same : after.stores = pool.stores) :
  pool.Grows after
  := by
  intro no
  apply Nat.le_of_eq
  rw [store, store, same]

theorem Grows.trans (first : pool.Grows middle) (second : middle.Grows after) :
  pool.Grows after
  := fun no => Nat.le_trans (first no) (second no)

theorem Grows.setStore {no : StoreNo} {store : Store}
    (longer : (pool.store no).length ≤ store.length) :
  pool.Grows (pool.setStore no store)
  := by
  intro other
  rw [store_setStore]
  split
  · rename_i here
    rw [here.1]
    apply longer
  · apply Nat.le_refl

/-- Stores of the `SameMedia` are as long: `pool.Grows after`. -/
theorem SameMedia.grows (same : pool.SameMedia after) :
  pool.Grows after
  := by
  intro no
  apply Nat.le_of_eq
  simp only [Store.length, same.medium]

theorem grows_writeStored (pool : Pool) (page : PageId) (bytes : Bytes) :
  pool.Grows (pool.writeStored page bytes).2
  := by
  unfold writeStored
  cases pool.storeOf page.table with
  | error failure => apply Grows.of_stores rfl
  | ok no =>
    apply Grows.setStore
    apply Store.length_le_write

/-! ### Fetching and changing pages -/

theorem grows_load (pool : Pool) (page : PageId) :
  pool.Grows (pool.load page).2
  := by
  obtain ⟨frame, -, eq⟩ | ⟨-, -, eq⟩
    | ⟨room, stores, -, -, same, -, ⟨failure, -, eq⟩ | ⟨bytes, -, -, eq⟩⟩ := pool.load_cases page
  · rw [eq]
    apply Grows.of_stores rfl
  · rw [eq]
    apply Grows.of_stores rfl
  · rw [eq]
    apply same.media.grows
  · rw [eq]
    apply same.media.grows

theorem grows_fetch (pool : Pool) (txn : TransactionId) (page : PageId) (access : Access) :
  pool.Grows (pool.fetch txn page access).2
  := by
  obtain ⟨locks, -, eq⟩ | ⟨locks, -, eq⟩
    | ⟨locks, -, ⟨copy, after, loaded, eq⟩ | ⟨failure, after, loaded, eq⟩⟩ :=
    pool.fetch_cases txn page access
  · rw [eq]
    apply Grows.of_stores rfl
  · rw [eq]
    apply Grows.of_stores rfl
  all_goals
    have grows := Pool.grows_load { pool with locks } page
    rw [loaded] at grows
    rw [eq]
    apply grows

theorem stores_install (pool : Pool) (txn : TransactionId) (copy : CopyNo) :
  (pool.install txn copy).2.stores = pool.stores
  := by
  rcases pool.install_cases txn copy with ⟨-, eq⟩ | ⟨-, ⟨room, -, eq⟩ | eq⟩
  · rw [eq]
    rfl
  · rw [eq]
    rfl
  · rw [eq]
    rfl

theorem stores_markDirty (pool : Pool) (txn : TransactionId) (copy : CopyNo) :
  (pool.markDirty txn copy).2.stores = pool.stores
  := by
  obtain ⟨-, eq⟩ | ⟨cause, eq⟩ := pool.markDirty_cases txn copy
  · rw [eq]
    apply stores_install
  · rw [eq]

/-! ### Ending transactions -/

theorem grows_writeBack (pool : Pool) (selects : TransactionId → Bool) (copy : CopyNo) :
  pool.Grows (pool.writeBack selects copy).2
  := by
  obtain ⟨-, eq⟩ | ⟨failure, stores, same, eq⟩ | ⟨stores, written, eq⟩ :=
    pool.writeBack_cases selects (Eq.refl (pool.copy copy).id)
  · rw [eq]
    apply Grows.of_stores rfl
  · rw [eq]
    apply same.grows
  · have grows := pool.grows_writeStored (pool.copy copy).id (pool.copy copy).bytes
    rw [written] at grows
    rw [eq]
    apply grows

theorem grows_writeBackAll (pool : Pool) (selects : TransactionId → Bool)
    (copies : List CopyNo) :
  pool.Grows (pool.writeBackAll selects copies).2
  := by
  exact writeBackAll_induction (fun _ => .of_stores rfl) .trans
    (fun pool => pool.grows_writeBack selects) pool copies

theorem grows_restore (pool : Pool) (page : PageId) (copy : CopyNo) :
  pool.Grows (pool.restore page copy).2
  := by
  obtain ⟨stores, same, -, ⟨fault, -, eq⟩ | ⟨cause, eq⟩ | ⟨bytes, -, eq⟩⟩ :=
    pool.restore_cases page copy
  · rw [eq]
    apply same.media.grows
  · rw [eq]
    apply same.media.grows
  · rw [eq]
    apply same.media.grows

theorem grows_restoreAll (pool : Pool) (txn : TransactionId) (held : List PageId)
    (frames : List Frame) (outcome : Except PoolError Unit) :
  pool.Grows (pool.restoreAll txn held frames outcome).2
  := by
  exact restoreAll_induction (fun _ => .of_stores rfl) .trans grows_restore txn held frames outcome
    pool

theorem grows_complete (pool : Pool) (txn : TransactionId) (commits : Bool) :
  pool.Grows (pool.complete txn commits).2
  := by
  have changed : pool.Grows (if commits then pool.flushTransaction txn else pool.rollback txn).2
    := by
    split
    · apply grows_writeBackAll
    · apply grows_restoreAll
  obtain ⟨result, settled, ended, ⟨fault, -, eq⟩ | ⟨-, eq⟩⟩ := pool.complete_settles txn commits
  all_goals
    rw [ended] at changed
    rw [eq]
    apply changed

end Pool

end StorageEngine

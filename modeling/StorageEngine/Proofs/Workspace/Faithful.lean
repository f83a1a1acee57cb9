import StorageEngine.Pool.Fetch
import StorageEngine.Proofs.Lock.Records
import StorageEngine.Proofs.Pool.Frames
import StorageEngine.Proofs.Pool.Images
import StorageEngine.Proofs.Workspace.Basic

/-!
# Faithful pools

A pool is faithful to workspaces if its stores hold the committed images and its cache the images
that transactions see: a dirty copy is the private image of the transaction that has changed it,
which holds the page exclusively, and a clean copy is the committed image.  Pages whose copies are
being changed, and differ from the images for that time, are called loose.

An operation on one page keeps a pool faithful if the pool is faithful on that page afterwards
(`Faithful.update`).  What an operation for one transaction leaves alone (`Leaves`) is all that
other transactions rely on.
-/

namespace StorageEngine

/-- The image that a copy of `page` should be, if a transaction has changed it or none has. -/
def Workspaces.image (spaces : Workspaces) (page : PageId) : Option TransactionId → Option Bytes
  | some txn => spaces.overlay txn page
  | none => spaces.committed page

namespace Pool

variable {pool after : Pool} {spaces spaces' : Workspaces} {loose : PageId → Prop}
  {txn other : TransactionId} {page : PageId} {frame : Frame} {no : CopyNo} {bytes : Bytes}

/-! ### Faithfulness -/

/-- What holds of the `frame` of a cached `page` also while its copy is being changed. -/
structure Resident (pool : Pool) (spaces : Workspaces) (page : PageId) (frame : Frame) : Prop where
  allocated : frame.copy < pool.copies.size
  named : (pool.copy frame.copy).id = page
  dirty : frame.dirty = (pool.copy frame.copy).isDirty
  owned : ∀ txn, (pool.copy frame.copy).dirtiedBy = some txn →
    pool.locks.modeOf? page txn = some .exclusive ∧ (spaces.overlay txn page).isSome
  size : (pool.copy frame.copy).bytes.length = pool.config.pageSize
  stored : ∃ image, spaces.committed page = some image ∧ image.length = pool.config.pageSize

/-- Whether `pool` holds the images of `spaces`, those of `loose` pages apart. -/
structure Faithful (pool : Pool) (spaces : Workspaces) (loose : PageId → Prop) : Prop where
  well : pool.WellStored
  sound : pool.locks.Sound
  distinct : pool.cache.Distinct
  committed : spaces.committed = pool.stored
  resident : ∀ page frame, pool.cache.frame? page = some frame → pool.Resident spaces page frame
  content : ∀ page frame, pool.cache.frame? page = some frame → ¬ loose page →
    spaces.image page (pool.copy frame.copy).dirtiedBy = some (pool.copy frame.copy).bytes
  overlay : ∀ txn page, (spaces.overlay txn page).isSome →
    ∃ frame, pool.cache.frame? page = some frame ∧ (pool.copy frame.copy).dirtiedBy = some txn

namespace Faithful

/-- More pages may be called loose. -/
theorem mono (faithful : pool.Faithful spaces loose) {loose' : PageId → Prop}
    (more : ∀ page frame, pool.cache.frame? page = some frame → loose page → loose' page) :
  pool.Faithful spaces loose'
  := by
  refine { faithful with content := ?_ }
  intro page frame found tight
  apply faithful.content page frame found
  intro old
  apply tight (more page frame found old)

/-- A `txn` with a private image of `page` holds it exclusively. -/
theorem exclusive_of_overlay (faithful : pool.Faithful spaces loose)
    (changed : (spaces.overlay txn page).isSome) :
  pool.locks.modeOf? page txn = some .exclusive
  := by
  obtain ⟨frame, found, dirtied⟩ := faithful.overlay txn page changed
  apply ((faithful.resident page frame found).owned txn dirtied).1

/-- While `txn` holds `page` exclusively, no `other` transaction holds it. -/
theorem eq_of_exclusive (faithful : pool.Faithful spaces loose)
    (exclusive : pool.locks.modeOf? page txn = some .exclusive)
    (holds : (pool.locks.modeOf? page other).isSome) :
  other = txn
  := by
  by_contra distinct
  have free := PageLocks.modeOf?_of_exclusive (faithful.sound.consistent page) exclusive distinct
  have nobody : pool.locks.modeOf? page other = none := free
  simp [nobody] at holds

/-- A `page` that `txn` holds is changed by no `other` transaction. -/
theorem overlay_eq_none (faithful : pool.Faithful spaces loose)
    (holds : (pool.locks.modeOf? page txn).isSome) (distinct : other ≠ txn) :
  spaces.overlay other page = none
  := by
  by_contra changed
  have exclusive := faithful.exclusive_of_overlay (Option.isSome_iff_ne_none.mpr changed)
  apply distinct (faithful.eq_of_exclusive exclusive holds).symm

/-- What `txn` sees of a `page` that it holds, and that is not loose, is the cached copy. -/
theorem view_eq (faithful : pool.Faithful spaces loose)
    (holds : (pool.locks.modeOf? page txn).isSome) (tight : ¬ loose page)
    (found : pool.cache.frame? page = some frame) :
  spaces.view txn page = some (pool.copy frame.copy).bytes
  := by
  have content := faithful.content page frame found tight
  cases dirtied : (pool.copy frame.copy).dirtiedBy with
  | some owner =>
    obtain ⟨exclusive, -⟩ := (faithful.resident page frame found).owned owner dirtied
    obtain rfl := faithful.eq_of_exclusive exclusive holds
    rw [dirtied] at content
    simp only [Workspaces.image] at content
    simp [Workspaces.view, content]
  | none =>
    have unchanged : spaces.overlay txn page = none := by
      by_contra changed
      obtain ⟨frame', found', dirtied'⟩ :=
        faithful.overlay txn page (Option.isSome_iff_ne_none.mpr changed)
      obtain rfl : frame' = frame := by simpa [found] using found'.symm
      simp [dirtied] at dirtied'
    rw [dirtied] at content
    simp only [Workspaces.image] at content
    simp [Workspaces.view, unchanged, content]

end Faithful

/-! ### What is left alone -/

/-- Whether an operation leaves the copies of `page` alone: its frame stays or goes. -/
structure Spares (pool after : Pool) (page : PageId) : Prop where
  frame : ∀ frame, after.cache.frame? page = some frame → pool.cache.frame? page = some frame
  copy : ∀ no, no < pool.copies.size → (pool.copy no).id = page → after.copy no = pool.copy no

theorem Spares.refl (pool : Pool) (page : PageId) :
  pool.Spares pool page
  := ⟨fun _ found => found, fun _ _ _ => rfl⟩

/-- What an operation for `txn` leaves alone: the tables, the locks and private images of other
transactions, and what these have locked. -/
structure Leaves (txn : TransactionId) (pool : Pool) (spaces : Workspaces) (after : Pool)
    (spaces' : Workspaces) : Prop where
  catalog : after.catalog = pool.catalog
  config : after.config = pool.config
  tables : ∀ no, (after.store no).table = (pool.store no).table
  copies : pool.copies.size ≤ after.copies.size
  modes : ∀ other, other ≠ txn → ∀ page,
    after.locks.modeOf? page other = pool.locks.modeOf? page other
  overlay : ∀ other, other ≠ txn → spaces'.overlay other = spaces.overlay other
  scans : ∀ other, other ≠ txn → spaces'.scans other = spaces.scans other
  committed : ∀ other page, other ≠ txn → (pool.locks.modeOf? page other).isSome →
    (spaces.committed page).isSome → spaces'.committed page = spaces.committed page
  spares : ∀ other page, other ≠ txn → pool.locks.modeOf? page other = some .exclusive →
    pool.Spares after page

theorem Leaves.refl (txn : TransactionId) (pool : Pool) (spaces : Workspaces) :
  pool.Leaves txn spaces pool spaces
  where
  catalog := rfl
  config := rfl
  tables _ := rfl
  copies := Nat.le_refl _
  modes _ _ _ := rfl
  overlay _ _ := rfl
  scans _ _ := rfl
  committed _ _ _ _ _ := rfl
  spares _ page _ _ := Spares.refl pool page

theorem Leaves.trans {pool after last : Pool} {spaces spaces' spaces'' : Workspaces}
    (first : pool.Leaves txn spaces after spaces')
    (second : after.Leaves txn spaces' last spaces'') :
  pool.Leaves txn spaces last spaces''
  where
  catalog := second.catalog.trans first.catalog
  config := second.config.trans first.config
  tables no := (second.tables no).trans (first.tables no)
  copies := Nat.le_trans first.copies second.copies
  modes other distinct page := (second.modes other distinct page).trans
    (first.modes other distinct page)
  overlay other distinct := (second.overlay other distinct).trans (first.overlay other distinct)
  scans other distinct := (second.scans other distinct).trans (first.scans other distinct)
  committed other page distinct holds stored := by
    have kept := first.committed other page distinct holds stored
    rw [← kept]
    apply second.committed other page distinct
    · rw [first.modes other distinct]
      apply holds
    · rw [kept]
      apply stored
  spares other page distinct exclusive := by
    have spared := first.spares other page distinct exclusive
    have spared' := second.spares other page distinct
      ((first.modes other distinct page).trans exclusive)
    constructor
    · intro frame found
      apply spared.frame frame (spared'.frame frame found)
    · intro no allocated named
      have kept := spared.copy no allocated named
      rw [← kept]
      apply spared'.copy no (Nat.lt_of_lt_of_le allocated first.copies)
      rw [kept, named]

/-- What an operation on `page` leaves alone: everything but the copies and images of that page. -/
structure OnlyAt (page : PageId) (pool : Pool) (spaces : Workspaces) (after : Pool)
    (spaces' : Workspaces) : Prop where
  catalog : after.catalog = pool.catalog
  config : after.config = pool.config
  tables : ∀ no, (after.store no).table = (pool.store no).table
  locks : after.locks = pool.locks
  scans : spaces'.scans = spaces.scans
  allocated : pool.copies.size ≤ after.copies.size
  frame : ∀ other, other ≠ page → after.cache.frame? other = pool.cache.frame? other
  copy : ∀ no, no < pool.copies.size → (pool.copy no).id ≠ page → after.copy no = pool.copy no
  committed : ∀ other, other ≠ page → spaces'.committed other = spaces.committed other
  overlay : ∀ txn other, other ≠ page → spaces'.overlay txn other = spaces.overlay txn other

/-- An operation on a page that no other transaction has locked exclusively leaves alone what
concerns others, if it does so on that page. -/
theorem OnlyAt.leaves (only : OnlyAt page pool spaces after spaces')
    (alone : ∀ other, pool.locks.modeOf? page other = some .exclusive → other = txn)
    (overlay : ∀ other, other ≠ txn → spaces'.overlay other page = spaces.overlay other page)
    (committed : ∀ other, other ≠ txn → (pool.locks.modeOf? page other).isSome →
      spaces'.committed page = spaces.committed page) :
  pool.Leaves txn spaces after spaces'
  where
  catalog := only.catalog
  config := only.config
  tables := only.tables
  copies := only.allocated
  modes _ _ _ := by rw [only.locks]
  overlay other distinct := by
    funext place
    by_cases here : place = page
    · rw [here]
      apply overlay other distinct
    · apply only.overlay other place here
  scans _ _ := by rw [only.scans]
  committed other place distinct holds _ := by
    by_cases here : place = page
    · subst here
      apply committed other distinct holds
    · apply only.committed place here
  spares other place distinct exclusive := by
    have elsewhere : place ≠ page := by
      rintro rfl
      apply distinct (alone other exclusive)
    constructor
    · intro frame found
      rw [← only.frame place elsewhere, found]
    · intro no allocated named
      apply only.copy no allocated
      rw [named]
      apply elsewhere

/-! ### Changes to one page -/

namespace Faithful

/-- A pool stays `Faithful` under an operation that concerns `page` alone, `OnlyAt`, if it is
faithful at `page`. -/
theorem update (faithful : pool.Faithful spaces loose) {loose' : PageId → Prop}
    (only : OnlyAt page pool spaces after spaces') (well : after.WellStored)
    (distinct : after.cache.Distinct) (committed : spaces'.committed = after.stored)
    (looser : ∀ other, other ≠ page → loose other → loose' other)
    (resident : ∀ frame, after.cache.frame? page = some frame → after.Resident spaces' page frame)
    (content : ∀ frame, after.cache.frame? page = some frame → ¬ loose' page →
      spaces'.image page (after.copy frame.copy).dirtiedBy = some (after.copy frame.copy).bytes)
    (overlay : ∀ txn, (spaces'.overlay txn page).isSome →
      ∃ frame, after.cache.frame? page = some frame
        ∧ (after.copy frame.copy).dirtiedBy = some txn) :
  after.Faithful spaces' loose'
  := by
  have elsewhere : ∀ {other frame}, other ≠ page → pool.cache.frame? other = some frame →
      after.copy frame.copy = pool.copy frame.copy := by
    intro other frame distinct found
    obtain ⟨allocated, named, -⟩ := faithful.resident other frame found
    apply only.copy _ allocated
    rw [named]
    apply distinct
  refine ⟨well, only.locks ▸ faithful.sound, distinct, committed, ?_, ?_, ?_⟩
  · intro other frame found
    by_cases here : other = page
    · subst here
      apply resident frame found
    · rw [only.frame other here] at found
      obtain ⟨allocated, named, dirty, owned, size, stored⟩ := faithful.resident other frame found
      have same := elsewhere here found
      constructor
      · apply Nat.lt_of_lt_of_le allocated only.allocated
      · rw [same, named]
      · rw [same, dirty]
      · rw [same, only.locks]
        simp only [only.overlay _ other here]
        apply owned
      · rw [same, only.config, size]
      · rw [only.committed other here, only.config]
        apply stored
  · intro other frame found tight
    by_cases here : other = page
    · subst here
      apply content frame found tight
    · rw [only.frame other here] at found
      rw [elsewhere here found, ← faithful.content other frame found (mt (looser other here) tight)]
      cases (pool.copy frame.copy).dirtiedBy with
      | none => apply only.committed other here
      | some owner => apply only.overlay owner other here
  · intro txn other changed
    by_cases here : other = page
    · subst here
      apply overlay txn changed
    · rw [only.overlay txn other here] at changed
      obtain ⟨frame, found, dirtied⟩ := faithful.overlay txn other changed
      use frame
      rw [only.frame other here, elsewhere here found]
      use found, dirtied

/-- Where only clean frames go from `cache` and stores are the same, a pool stays `Faithful`. -/
theorem reframe (faithful : pool.Faithful spaces loose) {cache : Cache} {stores : Array Store}
    (same : pool.SameStores { pool with cache, stores }) (distinct : cache.Distinct)
    (fewer : ∀ page frame, cache.frame? page = some frame → pool.cache.frame? page = some frame)
    (kept : ∀ page frame, pool.cache.frame? page = some frame → frame.dirty = true →
      cache.frame? page = some frame) :
  Faithful { pool with cache, stores } spaces loose
  where
  well := same.wellStored faithful.well
  sound := faithful.sound
  distinct := distinct
  committed := faithful.committed.trans same.stored.symm
  resident page frame found := by
    obtain ⟨allocated, named, dirty, owned, size, stored⟩ :=
      faithful.resident page frame (fewer page frame found)
    exact ⟨allocated, named, dirty, owned, size, stored⟩
  content page frame found tight := faithful.content page frame (fewer page frame found) tight
  overlay txn page changed := by
    obtain ⟨frame, found, dirtied⟩ := faithful.overlay txn page changed
    have dirty : frame.dirty = true := by
      rw [(faithful.resident page frame found).dirty, Page.isDirty, dirtied]
      rfl
    use frame, kept page frame found dirty, dirtied

end Faithful

/-- Where frames only go from `cache` and stores are the same, what concerns others is left alone:
`Leaves`. -/
theorem leaves_of_fewer {cache : Cache} {stores : Array Store}
    (same : pool.SameStores { pool with cache, stores })
    (fewer : ∀ page frame, cache.frame? page = some frame → pool.cache.frame? page = some frame) :
  pool.Leaves txn spaces { pool with cache, stores } spaces
  where
  catalog := rfl
  config := rfl
  tables no := (same.alike no).table
  copies := Nat.le_refl _
  modes _ _ _ := rfl
  overlay _ _ := rfl
  scans _ _ := rfl
  committed _ _ _ _ _ := rfl
  spares _ page _ _ := ⟨fewer page, fun _ _ _ => rfl⟩

end Pool

end StorageEngine

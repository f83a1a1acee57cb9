import StorageEngine.Proofs.Pool.Moves

/-!
# Current pools

A pool is current if the clean pages in its cache are what its stores hold.  Copies are handed out
and go on being changed after their pages have left the cache, so of every copy that was ever made
it has to be known that there is a page of its size in a store (`Imaged`): then the copy can be
stored, whenever it comes back.  Every move keeps a pool current (`Current.move`), and its copies
those of stored pages also while they are being changed (`Imaged.move`).
-/

namespace StorageEngine.Pool

variable {may : Freedom} {pool after : Pool} {page other : PageId} {frame : Frame} {no : CopyNo}
  {bytes : Bytes}

/-- Whether every copy in `pool` is one of a stored page. -/
structure Imaged (pool : Pool) : Prop where
  catalogued : pool.Catalogued
  imaged : ∀ no, no < pool.copies.size →
    (pool.copy no).bytes.length = pool.config.pageSize
      ∧ ∃ bytes, pool.stored (pool.copy no).id = some bytes ∧ bytes.length = pool.config.pageSize

/-- Whether the clean pages in the cache of `pool` are what is stored of them, and it is
`Imaged`. -/
structure Current (pool : Pool) : Prop extends pool.Imaged where
  clean : ∀ page frame, pool.cache.frame? page = some frame → frame.dirty = false →
    pool.stored page = some (pool.copy frame.copy).bytes

/-- What is stored depends on the catalog and the stores. -/
theorem stored_congr (catalog : after.catalog = pool.catalog)
    (stores : after.stores = pool.stores) :
  after.stored = pool.stored
  := by
  funext page
  simp only [stored, store, catalog, stores]

/-- Whether a pool is `Catalogued` depends on the catalog, the number of stores and their
tables. -/
theorem Catalogued.congr (catalogued : pool.Catalogued) (catalog : after.catalog = pool.catalog)
    (size : after.stores.size = pool.stores.size)
    (tables : ∀ no, (after.store no).table = (pool.store no).table) :
  after.Catalogued
  := by
  intro table no found
  rw [catalog] at found
  rw [size, tables]
  apply catalogued table no found

/-! ### Copies -/

/-- Where `copies` stay and every stored page keeps its size, each copy `no` is still one of a
stored page. -/
theorem Imaged.of_copies (imaged : pool.Imaged) (config : after.config = pool.config)
    (copies : after.copies = pool.copies)
    (stored : ∀ page bytes, pool.stored page = some bytes →
      ∃ bytes', after.stored page = some bytes' ∧ bytes'.length = bytes.length) (no : CopyNo)
    (old : no < after.copies.size) :
  (after.copy no).bytes.length = after.config.pageSize
    ∧ ∃ bytes, after.stored (after.copy no).id = some bytes
      ∧ bytes.length = after.config.pageSize
  := by
  rw [copies] at old
  obtain ⟨length, bytes, image, size⟩ := imaged.imaged no old
  obtain ⟨bytes', image', size'⟩ := stored _ bytes image
  rw [config, copy, copies]
  exact ⟨length, bytes', image', size'.trans size⟩

/-- Where memory changes at one `page` alone, `Elsewhere`, and every stored page keeps its size,
each copy `no` is still one of a stored page. -/
theorem Imaged.of_elsewhere (imaged : pool.Imaged) (elsewhere : Elsewhere page pool after)
    (stored : ∀ page bytes, pool.stored page = some bytes →
      ∃ bytes', after.stored page = some bytes' ∧ bytes'.length = bytes.length) (no : CopyNo)
    (allocated : no < after.copies.size) :
  (after.copy no).bytes.length = after.config.pageSize
    ∧ ∃ bytes, after.stored (after.copy no).id = some bytes
      ∧ bytes.length = after.config.pageSize
  := by
  rw [elsewhere.config]
  cases elsewhere.copy no allocated with
  | kept old copy =>
    obtain ⟨length, bytes, image, size⟩ := imaged.imaged no old
    obtain ⟨bytes', image', size'⟩ := stored _ bytes image
    rw [copy]
    exact ⟨length, bytes', image', size'.trans size⟩
  | edited old before id length =>
    obtain ⟨length', bytes, image, size⟩ := imaged.imaged no old
    rw [before] at image
    obtain ⟨bytes', image', size'⟩ := stored _ bytes image
    rw [id]
    exact ⟨length.trans length', bytes', image', size'.trans size⟩
  | @read bytes own copy image size =>
    have length : bytes.length = pool.config.pageSize := by
      rcases size with old | size
      · obtain ⟨-, bytes', image', size⟩ := imaged.imaged no old
        rw [own old, image] at image'
        cases image'
        apply size
      · apply size
    obtain ⟨bytes', image', size'⟩ := stored _ bytes image
    rw [copy]
    exact ⟨length, bytes', image', size'.trans length⟩

/-! ### Stores -/

/-- Where memory changes at one `page` alone, `page` is the only one whose stored bytes may
differ. -/
theorem Imaged.stored_of_fate (imaged : pool.Imaged) (numbered : ∀ no, (pool.store no).Numbered)
    (elsewhere : Elsewhere page pool after) (fate : Fate may page pool after) :
  after.Catalogued
    ∧ (∀ other, other ≠ page → after.stored other = pool.stored other)
    ∧ ∀ other bytes, pool.stored other = some bytes →
        ∃ bytes', after.stored other = some bytes' ∧ bytes'.length = bytes.length
  := by
  cases fate with
  | absent stores | kept stores | read _ stores | changed _ _ stores =>
    have same := stored_congr elsewhere.catalog stores
    refine ⟨?_, fun other _ => congrFun same other, ?_⟩
    · apply imaged.catalogued.congr elsewhere.catalog (by rw [stores])
      intro no
      rw [Pool.store, Pool.store, stores]
    · intro other bytes image
      use bytes, same ▸ image
  | written no writes old id _ _ _ eq =>
    obtain ⟨length, bytes, image, size⟩ := imaged.imaged no old
    rw [id] at image
    obtain ⟨stores, same, count, tables, stored⟩ :=
      stored_writeStored imaged.catalogued numbered image (length.trans size.symm) eq
    obtain rfl : after.stores = stores := congrArg Pool.stores same
    have same' : after.stored = Pool.stored { pool with stores := after.stores } :=
      stored_congr elsewhere.catalog rfl
    refine ⟨imaged.catalogued.congr elsewhere.catalog count tables, ?_, ?_⟩
    · intro other distinct
      rw [same', stored, if_neg distinct]
    · intro other bytes' image'
      rw [same', stored]
      split
      · rename_i here
        rw [here, image] at image'
        cases image'
        exact ⟨_, rfl, length.trans size.symm⟩
      · use bytes'

/-- Where memory changes at one `page` alone, a clean `frame` of it holds what is stored. -/
theorem Current.clean_of_fate (current : pool.Current) (numbered : ∀ no, (pool.store no).Numbered)
    (elsewhere : Elsewhere page pool after) (fate : Fate may page pool after)
    (found : after.cache.frame? page = some frame) (clean : frame.dirty = false) :
  after.stored page = some (after.copy frame.copy).bytes
  := by
  cases fate with
  | absent _ absent => cases absent.symm.trans found
  | kept stores copies kept =>
    rw [stored_congr elsewhere.catalog stores, copy, copies]
    apply current.clean page frame (kept ▸ found) clean
  | read _ stores _ copy read stored =>
    obtain rfl := Option.some.inj (read.symm.trans found)
    rw [stored_congr elsewhere.catalog stores, stored, copy]
    rfl
  | written no _ old id _ copy written eq =>
    obtain rfl := Option.some.inj (written.symm.trans found)
    obtain ⟨length, bytes, image, size⟩ := current.imaged no old
    rw [id] at image
    obtain ⟨stores, same, -, -, stored⟩ :=
      stored_writeStored current.catalogued numbered image (length.trans size.symm) eq
    obtain rfl : after.stores = stores := congrArg Pool.stores same
    have same' : after.stored = Pool.stored { pool with stores := after.stores } :=
      stored_congr elsewhere.catalog rfl
    rw [same', stored, if_pos rfl, copy]
    rfl
  | changed _ _ _ _ _ _ changed =>
    obtain rfl := Option.some.inj (changed.symm.trans found)
    cases clean

/-! ### Moves -/

/-- Where `copies` stay and stored pages stay, `after` is `Imaged`. -/
theorem Imaged.of_stored (imaged : pool.Imaged) (catalogued : after.Catalogued)
    (config : after.config = pool.config) (copies : after.copies = pool.copies)
    (stored : ∀ page bytes, pool.stored page = some bytes → after.stored page = some bytes) :
  after.Imaged
  := by
  use catalogued
  apply imaged.of_copies config copies
  intro page bytes image
  use bytes, stored page bytes image

/-- Other `bytes` of the same length in a copy keep a pool `Imaged`. -/
theorem Imaged.edit (imaged : pool.Imaged) (length : bytes.length = (pool.copy no).bytes.length) :
  (pool.setCopy no { pool.copy no with bytes }).Imaged
  := by
  use imaged.catalogued
  intro other allocated
  have copies : (pool.setCopy no { pool.copy no with bytes }).copies.size = pool.copies.size := by
    simp [setCopy]
  obtain ⟨size, image⟩ := imaged.imaged other (copies ▸ allocated)
  rw [copy_setCopy]
  split
  · rename_i here
    rw [here.1] at size image
    exact ⟨length.trans size, image⟩
  · exact ⟨size, image⟩

/-- What is stored of the page `other` stays where a page is appended to the store `no`, which may
be none of the pool, whatever comes of it. -/
theorem Imaged.stored_append (imaged : pool.Imaged) {store : Store} {no : StoreNo}
    {result : Except (Failure PoolError) PageId}
    (eq : (pool.store no).allocate = (result, store)) (numbered : ∀ no, (pool.store no).Numbered)
    (numbered' : ∀ other, ((pool.setStore no store).store other).Numbered)
    (image : pool.stored other = some bytes) :
  (pool.setStore no store).stored other = some bytes
  := by
  by_cases inside : no < pool.stores.size
  · have same : (pool.setStore no store).store no = store := by
      rw [store_setStore, if_pos ⟨rfl, inside⟩]
    apply stored_allocate imaged.catalogued eq (numbered no) (same ▸ numbered' no) image
  · have same : pool.setStore no store = pool := by
      simp [setStore, Array.setIfInBounds_eq_of_size_le (Nat.not_lt.mp inside)]
    rw [same, image]

/-- A pool stays `Catalogued` when a store is replaced by what `allocate` makes of it. -/
theorem Catalogued.append (catalogued : pool.Catalogued) {store : Store} {no : StoreNo}
    {result : Except (Failure PoolError) PageId} (eq : (pool.store no).allocate = (result, store)) :
  (pool.setStore no store).Catalogued
  := by
  refine catalogued.congr rfl (by simp [setStore]) ?_
  intro other
  rw [store_setStore]
  split
  · rename_i here
    rw [here.1, (Store.allocate_keeps eq).1]
  · rfl

/-- A `move` keeps a pool `Imaged`, as long as every store is `Numbered` after it. -/
theorem Imaged.move (imaged : pool.Imaged) (move : Move may pool after)
    (numbered : ∀ no, (after.store no).Numbered) :
  after.Imaged
  := by
  have numbered' := move.grows.numbered numbered
  cases move with
  | relock =>
    refine imaged.of_stored imaged.catalogued rfl rfl ?_
    intro page bytes image
    apply image
  | note same =>
    refine imaged.of_stored ?_ rfl rfl ?_
    · apply imaged.catalogued.congr same.catalog same.size same.table
    · intro page bytes image
      rw [same.stored, image]
  | append eq =>
    refine imaged.of_stored (imaged.catalogued.append eq) rfl rfl ?_
    intro other bytes image
    apply imaged.stored_append eq numbered' numbered image
  | spoil _ _ length => apply imaged.edit length
  | page page elsewhere fate =>
    obtain ⟨catalogued, -, sizes⟩ := imaged.stored_of_fate numbered' elsewhere fate
    exact ⟨catalogued, imaged.of_elsewhere elsewhere sizes⟩

theorem Imaged.moves (imaged : pool.Imaged) (moves : Moves may pool after)
    (numbered : ∀ no, (after.store no).Numbered) :
  after.Imaged
  := by
  induction moves with
  | refl => apply imaged
  | tail _ move ih => apply (ih (move.grows.numbered numbered)).move move numbered

/-- `moves` that may not write leave the `bytes` that are stored of a `page`. -/
theorem Imaged.stored_moves (imaged : pool.Imaged) (moves : Moves may pool after)
    (numbered : ∀ no, (after.store no).Numbered) (quiet : ¬ may.writes)
    (image : pool.stored page = some bytes) :
  after.stored page = some bytes
  := by
  induction moves with
  | refl => apply image
  | tail before move ih =>
    have numbered' := move.grows.numbered numbered
    have image' := ih numbered'
    cases move with
    | relock => apply image'
    | note same => rw [same.stored, image']
    | append eq => apply (imaged.moves before numbered').stored_append eq numbered' numbered image'
    | spoil => apply image'
    | page touched elsewhere fate =>
      cases fate with
      | absent stores | kept stores | read _ stores | changed _ _ stores =>
        rw [stored_congr elsewhere.catalog stores, image']
      | written _ writes => cases quiet writes

/-- A `move` keeps a `Tidy` pool `Current`, as long as every store is `Numbered` after it, and
pages are shorter than `UInt32.size` if it may spoil a copy. -/
theorem Current.move (current : pool.Current) (tidy : pool.Tidy) (move : Move may pool after)
    (numbered : ∀ no, (after.store no).Numbered)
    (short : may.spoils → pool.config.pageSize < UInt32.size) :
  after.Current
  := by
  have numbered' := move.grows.numbered numbered
  use current.toImaged.move move numbered
  cases move with
  | relock => apply current.clean
  | note same =>
    rw [same.stored]
    apply current.clean
  | append eq =>
    intro page frame found clean
    apply current.stored_append eq numbered' numbered (current.clean page frame found clean)
  | @spoil no bytes spoils long =>
    exfalso
    by_cases allocated : no < pool.copies.size
    · rw [(current.imaged no allocated).1] at long
      apply Nat.not_lt.mpr long (short spoils)
    · have missing : pool.copy no = default := by
        simp [copy, Array.getD, allocated]
      rw [missing] at long
      cases long
  | page page elsewhere fate =>
    obtain ⟨-, others, -⟩ := current.stored_of_fate numbered' elsewhere fate
    intro other frame found clean
    by_cases here : other = page
    · subst here
      apply current.clean_of_fate numbered' elsewhere fate found clean
    · rw [elsewhere.frame other here] at found
      rw [others other here, tidy.copy_elsewhere elsewhere here found]
      apply current.clean other frame found clean

theorem Current.moves (current : pool.Current) (tidy : pool.Tidy) (moves : Moves may pool after)
    (numbered : ∀ no, (after.store no).Numbered)
    (short : may.spoils → pool.config.pageSize < UInt32.size) :
  after.Current
  := by
  induction moves with
  | refl => apply current
  | tail before move ih =>
    apply (ih (move.grows.numbered numbered)).move (tidy.moves before) move numbered
    rw [(Moves.fixed before).1]
    apply short

end StorageEngine.Pool

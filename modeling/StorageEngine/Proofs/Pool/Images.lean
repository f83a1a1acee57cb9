import Mathlib.Tactic.Common
import StorageEngine.Pool.Basic
import StorageEngine.Proofs.Store.Changes

/-!
# Stored pages

What a store holds is given by its images.  A write of a page over one of its size changes the
image of that page alone (`Store.write_cases`), an appended page is new and changes no other image
(`Store.allocate_ok`), and what a pool has stored of a page is the image in its table's store
(`Pool.stored`).  All of this presupposes that page numbers are wide enough for the pages of the
store (`Store.Numbered`).
-/

namespace StorageEngine

/-! ### Stores -/

namespace Store

variable {store grown : Store} {page other : PageId} {bytes old : Bytes}
  {result : Except (Failure PoolError) PageId}

/-- Whether `store` and `other` hold the same, and are told to fail the same writes. -/
structure Alike (store other : Store) : Prop where
  table : other.table = store.table
  medium : other.medium = store.medium
  failingWrites : other.failingWrites = store.failingWrites

theorem Alike.image (alike : store.Alike grown) (page : PageId) :
  grown.image page = store.image page
  := by
  obtain ⟨table, medium, -⟩ := alike
  simp only [Store.image, Store.checkTable, table, medium]

theorem Alike.length (alike : store.Alike grown) :
  grown.length = store.length
  := by
  simp only [Store.length, alike.medium]

/-- The image of `page` in a heap table is `bytes` exactly if `page` is one of the whole pages of
the `file` and these are its bytes. -/
theorem image_heap_iff {file : PageFile} (medium : store.medium = .heap file)
    (numbered : file.pages < UInt32.size) :
  store.image page = .ok bytes
    ↔ page.table = store.table ∧ file.pageSize ≤ maxLength ∧ page.no.toNat < file.pages
      ∧ file.page page.no = bytes
  := by
  rw [← PageFile.read_eq_ok_iff numbered]
  simp only [image, medium, checkTable, widen, bind, Except.bind]
  by_cases foreign : page.table = store.table
  · cases file.read page.no <;> simp [foreign]
  · simp [foreign]

/-- What `file.read` answers of a heap table's `page` is its image. -/
theorem image_of_read {file : PageFile} (medium : store.medium = .heap file)
    (own : page.table = store.table) (read : file.read page.no = .ok bytes) :
  store.image page = .ok bytes
  := by
  simp only [image, medium, checkTable, own, if_true, read]
  rfl

/-- The image of `page` in a counter table is `bytes` exactly if `pages` has them at its number. -/
theorem image_counters_iff {pages : Array Bytes} (medium : store.medium = .counters pages) :
  store.image page = .ok bytes ↔ pages[page.no.toNat]? = some bytes
  := by
  simp only [image, medium]
  cases pages[page.no.toNat]? <;> simp

/-- A page with an image has a number below `store.length`. -/
theorem lt_length (numbered : store.Numbered) (stored : store.image page = .ok bytes) :
  page.no.toNat < store.length
  := by
  unfold Numbered length at numbered
  unfold length
  cases medium : store.medium with
  | heap file =>
    rw [medium] at numbered
    apply ((image_heap_iff medium numbered).mp stored).2.2.1
  | counters pages =>
    apply (Array.getElem?_eq_some_iff.mp ((image_counters_iff medium).mp stored)).1

/-- The numbers that a `Numbered` store lists are those below `store.length`. -/
theorem pageNos_ok (numbered : store.Numbered) {pages : List PageNo}
    (eq : store.pageNos = .ok pages) :
  pages = (List.range store.length).map UInt32.ofNat
  := by
  have counted : ∀ count, store.pageCount = .ok count → count.toNat = store.length := by
    intro count found
    unfold Numbered at numbered
    rw [← UInt32.toNat_ofNat_of_lt' numbered]
    unfold pageCount at found
    unfold length
    split at found
    · cases found
    · cases medium : store.medium with
      | heap file =>
        simp only [medium, PageFile.pageCount] at found
        split at found
        · cases found
        · cases found
          rfl
      | counters pages =>
        rw [medium] at found
        cases found
        rfl
  cases found : store.pageCount with
  | error failure => simp [pageNos, found, bind, Except.bind] at eq
  | ok count =>
    obtain rfl : _ = pages := by
      simpa [pageNos, found, bind, Except.bind, pure, Except.pure] using eq
    rw [counted count found]

/-- `cause.OfStore` holds of every `cause` with which `store.pageNos` fails. -/
theorem ofStore_pageNos {cause : PoolError} (eq : store.pageNos = .error (.error cause)) :
  cause.OfStore
  := by
  have failed : store.pageCount = .error (.error cause) := by
    cases found : store.pageCount with
    | error failure => simpa [pageNos, found, bind, Except.bind] using eq
    | ok count => simp [pageNos, found, bind, Except.bind, pure, Except.pure] at eq
  unfold pageCount at failed
  split at failed
  · cases failed
    trivial
  · split at failed
    · rename_i file _
      simp only [orFault] at failed
      split at failed
      · cases failed
      · cases failed
    · cases failed

/-- `store.read page` answers the image of `page`, or `injectedFailure`, and leaves a store that is
`Alike`. -/
theorem read_cases (store : Store) (page : PageId) :
  store.Alike (store.read page).2
    ∧ ((store.read page).1 = store.image page
      ∨ (store.read page).1 = .error (.error injectedFailure))
  := by
  unfold read
  split
  · exact ⟨⟨rfl, rfl, rfl⟩, .inr rfl⟩
  · exact ⟨⟨rfl, rfl, rfl⟩, .inl rfl⟩

/-- `store.read page` notes no write. -/
theorem writes_read (store : Store) (page : PageId) :
  (store.read page).2.writes = store.writes
  := by
  unfold read
  split <;> rfl

/-- `cause.OfStore` holds of every `cause` with which `store.read page` fails. -/
theorem ofStore_read {cause : PoolError} (eq : (store.read page).1 = .error (.error cause)) :
  cause.OfStore
  := by
  unfold read at eq
  split at eq
  · cases eq
    trivial
  · dsimp only at eq
    cases medium : store.medium with
    | heap file =>
      by_cases own : page.table = store.table
      · rcases found : file.read page.no with (cause' | fault) | bytes
        all_goals
          simp only [image, medium, checkTable, own, found, widen, Failure.map, bind, Except.bind,
            if_true] at eq
          cases eq
        trivial
      · simp only [image, medium, checkTable, own, bind, Except.bind, if_false] at eq
        cases eq
        trivial
    | counters pages =>
      simp only [image, medium] at eq
      split at eq
      · cases eq
      · cases eq
        trivial

/-- What `store` is like as `grown`, after `page` was stored over another. -/
structure Overwritten (store grown : Store) (page : PageId) (bytes : Bytes) : Prop where
  table : grown.table = store.table
  failingWrites : grown.failingWrites = store.failingWrites
  length : grown.length = store.length
  image : grown.image page = .ok bytes
  others : ∀ other : PageId, other.table = page.table → other ≠ page → ∀ found,
    grown.image other = .ok found ↔ store.image other = .ok found

/-- A page is stored over one of its size. -/
theorem withImage_ok (numbered : store.Numbered) (stored : store.image page = .ok old)
    (size : bytes.length = old.length) :
  ∃ grown, store.withImage page bytes = .ok grown ∧ store.Overwritten grown page bytes
  := by
  have within := lt_length numbered stored
  unfold Numbered length at numbered
  unfold length at within
  cases medium : store.medium with
  | heap file =>
    rw [medium] at numbered within
    obtain ⟨own, short, -, found⟩ := (image_heap_iff medium numbered).mp stored
    have fits : bytes.length = file.pageSize := by
      rw [size, ← found, PageFile.length_page within]
    have pages := PageFile.pages_store (Nat.le_of_eq fits) within
    have numbered' : (file.store page.no bytes).pages < UInt32.size := pages ▸ numbered
    refine ⟨{ store with medium := .heap (file.store page.no bytes) }, ?_, rfl, rfl, ?_, ?_, ?_⟩
    · simp [withImage, medium, checkTable, own, widen, bind, Except.bind, pure, Except.pure,
        PageFile.write_eq_ok numbered fits within]
    · simp only [length, medium, pages]
    · apply (image_heap_iff rfl numbered').mpr
      use own, short, pages ▸ within
      apply PageFile.page_store fits (PageFile.offset_le (Nat.le_of_lt within))
    · intro other same distinct found
      have no : other.no ≠ page.no := by
        intro equal
        apply distinct
        cases other
        cases page
        simp_all
      rw [image_heap_iff rfl numbered', image_heap_iff medium numbered, pages,
        PageFile.page_store_of_ne (Nat.le_of_eq fits) (Nat.le_of_lt within) no]
      rfl
  | counters pages =>
    rw [medium] at within
    refine ⟨{ store with medium := .counters (pages.setIfInBounds page.no.toNat bytes) },
      ?_, rfl, rfl, ?_, ?_, ?_⟩
    · simp [withImage, medium, within]
    · simp [length, medium]
    · apply (image_counters_iff rfl).mpr
      simp [within]
    · intro other same distinct found
      have no : page.no.toNat ≠ other.no.toNat := by
        intro equal
        apply distinct
        cases other
        cases page
        simp_all [UInt32.toNat_inj]
      rw [image_counters_iff rfl, image_counters_iff medium, Array.getElem?_setIfInBounds_ne no]

/-- `store.write page bytes` over a page of the same size leaves it `Overwritten`, or fails because
the store has `failingWrites`. -/
theorem write_cases (numbered : store.Numbered) (stored : store.image page = .ok old)
    (size : bytes.length = old.length) :
  ((store.write page bytes).1 = .ok ()
      ∧ store.Overwritten (store.write page bytes).2 page bytes)
    ∨ (store.failingWrites ≠ [] ∧ (store.write page bytes).1 ≠ .ok ())
  := by
  by_cases failing : store.failingWrites.contains page.no = true
  · right
    simp only [write, failing, if_true]
    refine ⟨?_, nofun⟩
    intro none
    simp [none] at failing
  · left
    have noted : store.Alike (store.note ⟨page.no, true, false⟩) := ⟨rfl, rfl, rfl⟩
    have numbered : (store.note ⟨page.no, true, false⟩).Numbered := by
      apply numbered
    have stored : (store.note ⟨page.no, true, false⟩).image page = .ok old := by
      rw [noted.image, stored]
    obtain ⟨grown, eq, table, failing', length, image, others⟩ := withImage_ok numbered stored size
    have written : store.write page bytes = (.ok (), grown) := by
      simp only [write, failing, Bool.false_eq_true, if_false, eq]
    rw [written]
    refine ⟨rfl, table, failing', length.trans noted.length, image, ?_⟩
    intro other same distinct found
    rw [others other same distinct, noted.image]

/-! ### Growth -/

/-- What `store` is like as `grown`, after an empty `page` with `bytes` was appended to it. -/
structure Extended (store grown : Store) (page : PageId) (bytes : Bytes) : Prop where
  table : grown.table = store.table
  failingWrites : grown.failingWrites = store.failingWrites
  own : page.table = store.table
  new : ∀ found, store.image page ≠ .ok found
  image : grown.image page = .ok bytes
  others : ∀ other : PageId, other ≠ page → ∀ found,
    grown.image other = .ok found ↔ store.image other = .ok found

/-- A page that is appended is the last one, and has the number of pages before for its number. -/
theorem length_allocated (eq : store.allocate = (.ok page, grown)) (numbered : store.Numbered) :
  page.no.toNat = store.length ∧ grown.length = store.length + 1
  := by
  cases Allocation.of_allocate eq with
  | @whole file bytes medium empty =>
    obtain ⟨fits, positive, -⟩ := length_emptyHeapPage empty
    have length : store.length = file.pages := by
      rw [Store.length, medium]
    have count : (UInt32.ofNat file.pages).toNat = file.pages :=
      UInt32.toNat_ofNat_of_lt' (length ▸ numbered)
    have pages := PageFile.pages_store_last fits positive count
    rw [length]
    use count, pages

/-- What is stored of the page `other` stays where a page is appended, whatever comes of it. -/
theorem image_allocate (eq : store.allocate = (result, grown)) (numbered : store.Numbered)
    (numbered' : grown.Numbered) (stored : store.image other = .ok old) :
  grown.image other = .ok old
  := by
  have kept : ∀ {file : PageFile} {data : Bytes}, store.medium = .heap file →
      data.length ≤ file.pageSize →
      (file.store (UInt32.ofNat file.pages) data).pages < UInt32.size →
      Store.image { store with medium := .heap (file.store (UInt32.ofNat file.pages) data) } other
        = .ok old := by
    intro file data medium size numbered'
    have numbered : file.pages < UInt32.size := by
      simpa [Numbered, length, medium] using numbered
    have count : (UInt32.ofNat file.pages).toNat = file.pages :=
      UInt32.toNat_ofNat_of_lt' numbered
    obtain ⟨own, short, within, page⟩ := (image_heap_iff medium numbered).mp stored
    have distinct : other.no ≠ UInt32.ofNat file.pages := by
      intro equal
      rw [equal, count] at within
      cases Nat.lt_irrefl _ within
    apply (image_heap_iff rfl numbered').mpr
    refine ⟨own, short, Nat.lt_of_lt_of_le within (PageFile.pages_le_store ..), ?_⟩
    rw [PageFile.page_store_of_ne size (Nat.le_of_eq count) distinct, page]
  cases Allocation.of_allocate eq with
  | refused => exact stored
  | torn medium empty =>
    obtain ⟨fits, -⟩ := length_emptyHeapPage empty
    exact kept medium (fits ▸ List.length_take_le' ..) numbered'
  | whole medium empty =>
    obtain ⟨fits, -⟩ := length_emptyHeapPage empty
    exact kept medium (Nat.le_of_eq fits) numbered'

/-- An `allocate` that is refused keeps the length and the images of a `Numbered` store, also if a
part of the page is left after its pages. -/
theorem image_refused {failure : Failure PoolError} (eq : store.allocate = (.error failure, grown))
    (numbered : store.Numbered) :
  grown.length = store.length
    ∧ ∀ other found, grown.image other = .ok found ↔ store.image other = .ok found
  := by
  cases Allocation.of_allocate eq with
  | refused => exact ⟨rfl, fun _ _ => Iff.rfl⟩
  | @torn file bytes limit medium empty _ short =>
    obtain ⟨fits, -⟩ := length_emptyHeapPage empty
    have numbered : file.pages < UInt32.size := by
      simpa [Numbered, length, medium] using numbered
    have count : (UInt32.ofNat file.pages).toNat = file.pages :=
      UInt32.toNat_ofNat_of_lt' numbered
    have cut : (bytes.take limit).length < file.pageSize := by
      rw [List.length_take, ← fits]
      omega
    have pages := PageFile.pages_store_part cut (Nat.le_of_eq count)
    have numbered' := lt_of_eq_of_lt pages numbered
    refine ⟨by simp only [length, medium, pages], ?_⟩
    intro other found
    rw [image_heap_iff rfl numbered', image_heap_iff medium numbered, pages]
    apply and_congr_right
    intro _
    apply and_congr_right
    intro _
    apply and_congr_right
    intro within
    have distinct : other.no ≠ UInt32.ofNat file.pages := by
      intro equal
      rw [equal, count] at within
      cases Nat.lt_irrefl _ within
    rw [PageFile.page_store_of_ne (Nat.le_of_lt cut) (Nat.le_of_eq count) distinct]

/-- An `allocate` that succeeds between `Numbered` stores leaves `store` `Extended` by a new
`page`, an empty heap page. -/
theorem allocate_ok (eq : store.allocate = (.ok page, grown)) (numbered : store.Numbered)
    (numbered' : grown.Numbered) :
  ∃ file bytes, store.medium = .heap file ∧ emptyHeapPage file.pageSize = .ok bytes
    ∧ store.Extended grown page bytes
  := by
  cases Allocation.of_allocate eq with
  | @whole file bytes medium empty =>
    obtain ⟨fits, positive, short⟩ := length_emptyHeapPage empty
    have numbered : file.pages < UInt32.size := by
      simpa [Numbered, length, medium] using numbered
    have count : (UInt32.ofNat file.pages).toNat = file.pages :=
      UInt32.toNat_ofNat_of_lt' numbered
    have last := Nat.le_of_eq count
    have pages := PageFile.pages_store_last fits positive count
    have numbered' : (file.store (UInt32.ofNat file.pages) bytes).pages < UInt32.size := numbered'
    use file, bytes, medium, empty
    refine ⟨rfl, rfl, rfl, ?_, ?_, ?_⟩
    · intro found stored
      have within := ((image_heap_iff medium numbered).mp stored).2.2.1
      simp [count] at within
    · apply (image_heap_iff rfl numbered').mpr
      use rfl, short, by rw [pages, count]; apply Nat.lt_succ_self
      apply PageFile.page_store fits (PageFile.offset_le last)
    · intro other distinct found
      rw [image_heap_iff rfl numbered', image_heap_iff medium numbered, pages]
      apply and_congr_right
      intro own
      have no : other.no ≠ UInt32.ofNat file.pages := by
        rintro equal
        apply distinct
        cases other
        simp_all
      have below : other.no.toNat < file.pages + 1 ↔ other.no.toNat < file.pages := by
        have apart := mt UInt32.toNat_inj.mp no
        rw [count] at apart
        omega
      rw [PageFile.page_store_of_ne (Nat.le_of_eq fits) last no, below]
      rfl

end Store

/-! ### Pools -/

namespace Pool

variable {pool after : Pool} {page other : PageId} {bytes : Bytes} {no : StoreNo}

/-- What `pool` has stored of `page`. -/
def stored (pool : Pool) (page : PageId) : Option Bytes :=
  match pool.catalog.get? page.table with
  | none => none
  | some no => ((pool.store no).image page).toOption

theorem stored_eq_some_iff :
  pool.stored page = some bytes
    ↔ ∃ no, pool.catalog.get? page.table = some no ∧ (pool.store no).image page = .ok bytes
  := by
  unfold stored
  cases pool.catalog.get? page.table with
  | none => simp
  | some no => cases image : (pool.store no).image page <;> simp [image, Except.toOption]

/-- Whether every table in the catalog of `pool` is kept in a store of its own that exists. -/
def Catalogued (pool : Pool) : Prop :=
  ∀ table no, pool.catalog.get? table = some no →
    no < pool.stores.size ∧ (pool.store no).table = table

/-- Whether every table in the catalog of `pool` is kept in a store of its own that exists, is
`Numbered`, and never fails to write. -/
structure WellStored (pool : Pool) : Prop where
  catalogued : ∀ table no, pool.catalog.get? table = some no →
    no < pool.stores.size ∧ (pool.store no).table = table
  numbered : ∀ no, (pool.store no).Numbered
  willing : ∀ no, (pool.store no).failingWrites = []

/-- Whether `pool` and `after` differ only in what their stores have noted of reads and writes, and
in which reads they are told to fail. -/
structure SameStores (pool after : Pool) : Prop where
  catalog : after.catalog = pool.catalog
  size : after.stores.size = pool.stores.size
  alike : ∀ no, (pool.store no).Alike (after.store no)

/-- Whether the stores of `pool` and `after` hold the same pages. -/
structure SameMedia (pool after : Pool) : Prop where
  catalog : after.catalog = pool.catalog
  size : after.stores.size = pool.stores.size
  table : ∀ no, (after.store no).table = (pool.store no).table
  medium : ∀ no, (after.store no).medium = (pool.store no).medium

theorem SameMedia.stored (same : pool.SameMedia after) :
  after.stored = pool.stored
  := by
  funext page
  simp only [Pool.stored, same.catalog]
  cases pool.catalog.get? page.table with
  | none => rfl
  | some no => simp only [Store.image, Store.checkTable, same.table, same.medium]

theorem SameStores.media (same : pool.SameStores after) :
  pool.SameMedia after
  where
  catalog := same.catalog
  size := same.size
  table no := (same.alike no).table
  medium no := (same.alike no).medium

theorem SameStores.stored (same : pool.SameStores after) :
  after.stored = pool.stored
  := same.media.stored

/-- To replace the store `no` by one of the same table and medium leaves the `SameMedia`. -/
theorem sameMedia_setStore {store : Store} (table : store.table = (pool.store no).table)
    (medium : store.medium = (pool.store no).medium) :
  pool.SameMedia (pool.setStore no store)
  := by
  refine ⟨rfl, by simp [setStore], ?_, ?_⟩
  all_goals
    intro other
    rw [store_setStore]
    split
    · rename_i here
      simp only [here.1, table, medium]
    · rfl

theorem SameStores.wellStored (same : pool.SameStores after) (well : pool.WellStored) :
  after.WellStored
  := by
  constructor
  · intro table no found
    rw [same.catalog] at found
    rw [same.size, (same.alike no).table]
    apply well.catalogued table no found
  · intro no
    rw [Store.Numbered, (same.alike no).length]
    apply well.numbered no
  · intro no
    rw [(same.alike no).failingWrites]
    apply well.willing no

/-- To replace the store `no` by one that is `Alike` leaves the `SameStores`. -/
theorem sameStores_setStore {store : Store} (alike : (pool.store no).Alike store) :
  pool.SameStores (pool.setStore no store)
  := by
  refine ⟨rfl, by simp [setStore], ?_⟩
  intro other
  rw [store_setStore]
  split
  · rename_i here
    rw [here.1]
    apply alike
  · exact ⟨rfl, rfl, rfl⟩

/-- A store `no` that `storeOf` finds for `table` is its entry in the catalog. -/
theorem storeOf_eq_ok {table : TableId} (eq : pool.storeOf table = .ok no) :
  pool.catalog.get? table = some no
  := by
  unfold storeOf at eq
  split at eq
  · rename_i found
    cases eq
    apply found
  · cases eq

/-- `pool.readStored page` changes nothing but what the store has noted.  It answers what is stored
if it answers anything, and faults only where nothing is stored. -/
theorem readStored_spec (pool : Pool) (page : PageId) :
  ∃ stores, (pool.readStored page).2 = { pool with stores }
    ∧ pool.SameStores { pool with stores }
    ∧ (∀ bytes, (pool.readStored page).1 = .ok bytes → pool.stored page = some bytes)
    ∧ ∀ fault, (pool.readStored page).1 = .error (.fault fault) → pool.stored page = none
  := by
  unfold readStored storeOf
  cases found : pool.catalog.get? page.table with
  | none =>
    use pool.stores, rfl
    refine ⟨⟨rfl, rfl, fun _ => ⟨rfl, rfl, rfl⟩⟩, ?_, ?_⟩
    · simp
    · simp
  | some no =>
    rcases (pool.store no).read_cases page with ⟨alike, image | failed⟩
    · use (pool.setStore no ((pool.store no).read page).2).stores, rfl, sameStores_setStore alike
      dsimp only
      constructor
      · intro bytes read
        apply stored_eq_some_iff.mpr ⟨no, found, image ▸ read⟩
      · intro fault read
        rw [image] at read
        simp [stored, found, read, Except.toOption]
    · use (pool.setStore no ((pool.store no).read page).2).stores, rfl, sameStores_setStore alike
      simp [failed]

/-- Whether the stores of `pool` and `after` have noted the same writes. -/
def SameWrites (pool after : Pool) : Prop := ∀ no, (after.store no).writes = (pool.store no).writes

theorem SameWrites.of_stores (same : after.stores = pool.stores) :
  pool.SameWrites after
  := by
  intro no
  rw [store, store, same]

theorem SameWrites.trans {middle : Pool} (first : pool.SameWrites middle)
    (second : middle.SameWrites after) :
  pool.SameWrites after
  := fun no => (second no).trans (first no)

theorem sameWrites_setStore {store : Store} (same : store.writes = (pool.store no).writes) :
  pool.SameWrites (pool.setStore no store)
  := by
  intro other
  rw [store_setStore]
  split
  · rename_i here
    rw [here.1, same]
  · rfl

theorem sameWrites_readStored (pool : Pool) (page : PageId) :
  pool.SameWrites (pool.readStored page).2
  := by
  unfold readStored
  cases pool.storeOf page.table with
  | error failure => apply SameWrites.of_stores rfl
  | ok no => apply sameWrites_setStore (Store.writes_read ..)

/-- `cause.OfStore` holds of every `cause` with which `pool.readStored page` fails. -/
theorem ofStore_readStored {cause : PoolError}
    (eq : (pool.readStored page).1 = .error (.error cause)) :
  cause.OfStore
  := by
  unfold readStored storeOf at eq
  cases found : pool.catalog.get? page.table with
  | none =>
    rw [found] at eq
    cases eq
    trivial
  | some no =>
    rw [found] at eq
    apply Store.ofStore_read eq

/-- To replace the store `no` by one that has `bytes` as the image of `page`, and all others as
before, changes what is `stored` of `page` alone. -/
theorem stored_setStore (catalogued : pool.Catalogued) {store : Store} {bytes : Bytes}
    (found : pool.catalog.get? page.table = some no) (image : store.image page = .ok bytes)
    (others : ∀ other : PageId, other.table = page.table → other ≠ page → ∀ found,
      store.image other = .ok found ↔ (pool.store no).image other = .ok found) (other : PageId) :
  (pool.setStore no store).stored other
    = if other = page then some bytes else pool.stored other
  := by
  obtain ⟨inside, own⟩ := catalogued _ _ found
  have replaced : (pool.setStore no store).store no = store := by
    rw [store_setStore, if_pos ⟨rfl, inside⟩]
  by_cases same : other = page
  · rw [same, if_pos rfl, stored_eq_some_iff]
    use no, found
    rw [replaced, image]
  · rw [if_neg same]
    apply Option.ext
    intro bytes
    simp only [stored_eq_some_iff]
    constructor
    · rintro ⟨no', found', image⟩
      use no', found'
      by_cases here : no' = no
      · subst here
        have table := (catalogued _ _ found').2.symm.trans own
        rw [replaced] at image
        apply (others other table same bytes).mp image
      · rw [store_setStore, if_neg (by tauto)] at image
        apply image
    · rintro ⟨no', found', image⟩
      use no', found'
      by_cases here : no' = no
      · subst here
        have table := (catalogued _ _ found').2.symm.trans own
        rw [replaced]
        apply (others other table same bytes).mpr image
      · rw [store_setStore, if_neg (by tauto)]
        apply image

/-- A `WellStored` pool stays so when a store is replaced by a `Numbered` one of the same table
without `failingWrites`, and the tables of the stores stay. -/
theorem WellStored.setStore (well : pool.WellStored) {store : Store}
    (table : store.table = (pool.store no).table) (numbered : store.Numbered)
    (willing : store.failingWrites = []) :
  (pool.setStore no store).WellStored
    ∧ ∀ other, ((pool.setStore no store).store other).table = (pool.store other).table
  := by
  have tables : ∀ other, ((pool.setStore no store).store other).table
      = (pool.store other).table := by
    intro other
    rw [store_setStore]
    split
    · rename_i here
      rw [here.1, table]
    · rfl
  refine ⟨⟨?_, ?_, ?_⟩, tables⟩
  · intro name other found
    rw [tables]
    simpa [Pool.setStore] using well.catalogued name other found
  · intro other
    rw [store_setStore]
    split
    · apply numbered
    · apply well.numbered
  · intro other
    rw [store_setStore]
    split
    · apply willing
    · apply well.willing

/-- In a `WellStored` pool, `writeStored page bytes` over a page of the same size succeeds, and
what is `stored` of other pages stays. -/
theorem writeStored_spec (well : pool.WellStored) {old : Bytes}
    (stored : pool.stored page = some old) (size : bytes.length = old.length) :
  ∃ stores, pool.writeStored page bytes = (.ok (), { pool with stores })
    ∧ WellStored { pool with stores }
    ∧ (∀ no, (Pool.store { pool with stores } no).table = (pool.store no).table)
    ∧ ∀ other, Pool.stored { pool with stores } other
        = if other = page then some bytes else pool.stored other
  := by
  obtain ⟨no, found, image⟩ := stored_eq_some_iff.mp stored
  obtain ⟨ok, table, failing, length, written, others⟩ | ⟨unwilling, -⟩ :=
    Store.write_cases (well.numbered no) image size
  swap
  · cases unwilling (well.willing no)
  have numbered : ((pool.store no).write page bytes).2.Numbered := by
    rw [Store.Numbered, length]
    apply well.numbered no
  obtain ⟨well', tables⟩ := well.setStore table numbered (failing.trans (well.willing no))
  use (pool.setStore no ((pool.store no).write page bytes).2).stores
  refine ⟨?_, well', tables, ?_⟩
  · simp only [writeStored, storeOf, found, ok]
    rfl
  · apply stored_setStore well.catalogued found written others

/-- `pool.writeStored page bytes` changes nothing but `stores`, whose tables stay. -/
theorem writeStored_eq (pool : Pool) (page : PageId) (bytes : Bytes) :
  ∃ stores, (pool.writeStored page bytes).2 = { pool with stores }
    ∧ ∀ no, (Pool.store { pool with stores } no).table = (pool.store no).table
  := by
  unfold writeStored
  cases pool.storeOf page.table with
  | error failure => exact ⟨pool.stores, rfl, fun _ => rfl⟩
  | ok no =>
    refine ⟨(pool.setStore no ((pool.store no).write page bytes).2).stores, rfl, ?_⟩
    intro other
    show ((pool.setStore no ((pool.store no).write page bytes).2).store other).table = _
    rw [store_setStore]
    split
    · rename_i here
      rw [here.1, Store.table_write]
    · rfl

/-- A `writeStored` that fails leaves the `SameMedia`. -/
theorem writeStored_error {failure : Failure PoolError}
    (eq : pool.writeStored page bytes = (.error failure, after)) :
  pool.SameMedia after
  := by
  unfold writeStored at eq
  cases found : pool.storeOf page.table with
  | error failure =>
    rw [found] at eq
    cases eq
    exact ⟨rfl, rfl, fun _ => rfl, fun _ => rfl⟩
  | ok no =>
    simp only [found, Prod.mk.injEq] at eq
    obtain ⟨failed, rfl⟩ := eq
    obtain ⟨table, medium⟩ := Store.write_error (Prod.ext failed rfl)
    apply sameMedia_setStore table medium

/-- A `writeStored page bytes` that succeeds, over a page of the same size, changes what is
`stored` of `page` alone. -/
theorem stored_writeStored (catalogued : pool.Catalogued)
    (numbered : ∀ no, (pool.store no).Numbered)
    {old : Bytes} (stored : pool.stored page = some old) (size : bytes.length = old.length)
    (eq : pool.writeStored page bytes = (.ok (), after)) :
  ∃ stores, after = { pool with stores } ∧ stores.size = pool.stores.size
    ∧ (∀ no, (Pool.store { pool with stores } no).table = (pool.store no).table)
    ∧ ∀ other, Pool.stored { pool with stores } other
        = if other = page then some bytes else pool.stored other
  := by
  obtain ⟨no, found, image⟩ := stored_eq_some_iff.mp stored
  simp only [writeStored, storeOf, found, Prod.mk.injEq] at eq
  obtain ⟨-, table, -, -, written, others⟩ | ⟨-, failed⟩ :=
    Store.write_cases (numbered no) image size
  · use (pool.setStore no ((pool.store no).write page bytes).2).stores
    refine ⟨eq.2.symm, by simp [setStore], ?_, stored_setStore catalogued found written others⟩
    intro other
    show ((pool.setStore no ((pool.store no).write page bytes).2).store other).table = _
    rw [store_setStore]
    split
    · rename_i here
      rw [here.1, table]
    · rfl
  · cases failed eq.1

/-- What is stored of the page `other` stays where a page is appended to a table, whatever comes of
it. -/
theorem stored_allocate (catalogued : pool.Catalogued) {store : Store}
    {result : Except (Failure PoolError) PageId} (eq : (pool.store no).allocate = (result, store))
    (numbered : (pool.store no).Numbered) (numbered' : store.Numbered)
    (stored : pool.stored other = some bytes) :
  (pool.setStore no store).stored other = some bytes
  := by
  obtain ⟨no', found, image⟩ := stored_eq_some_iff.mp stored
  apply stored_eq_some_iff.mpr
  use no', found
  by_cases here : no' = no
  · subst here
    rw [store_setStore, if_pos ⟨rfl, (catalogued _ _ found).1⟩]
    apply Store.image_allocate eq numbered numbered' image
  · rw [store_setStore, if_neg (by tauto)]
    apply image

/-- Where an `allocate` is refused, a `WellStored` pool stays so, and the same pages are
`stored`. -/
theorem refused_spec (well : pool.WellStored) {store : Store} {failure : Failure PoolError}
    (eq : (pool.store no).allocate = (.error failure, store)) :
  (pool.setStore no store).WellStored
    ∧ (∀ other, ((pool.setStore no store).store other).table = (pool.store other).table)
    ∧ (pool.setStore no store).stored = pool.stored
  := by
  obtain ⟨table, -, failing⟩ := Store.allocate_keeps eq
  obtain ⟨length, images⟩ := Store.image_refused eq (well.numbered no)
  have numbered : store.Numbered := by
    rw [Store.Numbered, length]
    apply well.numbered
  obtain ⟨well', tables⟩ := well.setStore table numbered (failing.trans (well.willing no))
  use well', tables
  funext other
  apply Option.ext
  intro bytes
  rw [stored_eq_some_iff, stored_eq_some_iff]
  apply exists_congr
  intro no'
  apply and_congr_right
  intro found
  rw [store_setStore]
  split
  · rename_i here
    rw [images, here.1]
  · rfl

/-- A `page` that `allocate` appends had nothing `stored` before and is an empty heap page after
it, and what is `stored` of other pages stays. -/
theorem stored_appended (catalogued : pool.Catalogued) {store : Store}
    (found : pool.catalog.get? (pool.store no).table = some no)
    (eq : (pool.store no).allocate = (.ok page, store)) (numbered : (pool.store no).Numbered)
    (numbered' : store.Numbered) :
  pool.stored page = none
    ∧ ∃ file bytes, (pool.store no).medium = .heap file
      ∧ Store.emptyHeapPage file.pageSize = .ok bytes
      ∧ ∀ other, (pool.setStore no store).stored other
          = if other = page then some bytes else pool.stored other
  := by
  obtain ⟨file, bytes, medium, empty, -, -, own, new, image, others⟩ :=
    Store.allocate_ok eq numbered numbered'
  have found : pool.catalog.get? page.table = some no := by
    rw [own, found]
  refine ⟨?_, file, bytes, medium, empty, ?_⟩
  · apply Option.eq_none_iff_forall_ne_some.mpr
    intro bytes stored
    obtain ⟨no', found', image⟩ := stored_eq_some_iff.mp stored
    obtain rfl : no = no' := by
      simpa [found] using found'
    apply new bytes image
  · apply stored_setStore catalogued found image
    intro other _ distinct bytes
    apply others other distinct bytes

/-- Where `allocate` appends a `page`, a `WellStored` pool stays so, and `page` is `stored` as an
empty heap page that was not stored before. -/
theorem allocate_spec (well : pool.WellStored) {store : Store}
    (found : pool.catalog.get? (pool.store no).table = some no)
    (eq : (pool.store no).allocate = (.ok page, store)) (numbered : store.Numbered) :
  (pool.setStore no store).WellStored
    ∧ (∀ other, ((pool.setStore no store).store other).table = (pool.store other).table)
    ∧ pool.stored page = none
    ∧ ∃ file bytes, (pool.store no).medium = .heap file
      ∧ Store.emptyHeapPage file.pageSize = .ok bytes
      ∧ ∀ other, (pool.setStore no store).stored other
          = if other = page then some bytes else pool.stored other
  := by
  obtain ⟨-, -, -, -, table, failing, -⟩ := Store.allocate_ok eq (well.numbered no) numbered
  obtain ⟨well', tables⟩ := well.setStore table numbered (failing.trans (well.willing no))
  use well', tables
  apply stored_appended well.catalogued found eq (well.numbered no) numbered

end Pool

end StorageEngine

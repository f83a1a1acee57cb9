import StorageEngine.Proofs.Call.Rounds
import StorageEngine.Proofs.PageFile.Allocation
import StorageEngine.Proofs.Pool.Kept
import StorageEngine.Proofs.Pool.Reading

/-!
# Tables that have outgrown their page numbers

A file may have more pages than there are page numbers.  Where the number of its pages is cut to
zero (`PageFile.Outgrown`), they are all kept, but none is counted or read.  A scan of such a table
finds no tuples (`Pool.Outgrown.start_scan`).  An insertion looks for room in none of its pages,
and the empty page that it appends is stored over the first one, before anything is known of how
the insertion ends (`Pool.Outgrown.enter_insert`, `Pool.Outgrown.kept?_overwritten`).
-/

namespace StorageEngine

/-! ### Files -/

namespace PageFile

variable {file : PageFile} {page data : Bytes} {no : PageNo} {count : Nat}

/-- Whether `file` has as many whole pages as there are page numbers or more, and the number of
them is cut to zero. -/
structure Outgrown (file : PageFile) : Prop where
  many : UInt32.size ≤ file.pages
  cut : UInt32.ofNat file.pages = 0

namespace Outgrown

theorem pageSize_pos (outgrown : file.Outgrown) :
  0 < file.pageSize
  := by
  apply Nat.pos_of_ne_zero
  intro zero
  have many := outgrown.many
  simp [pages, zero] at many

/-- In an `Outgrown` file every page number is that of a whole page. -/
theorem lt_pages (outgrown : file.Outgrown) (no : PageNo) :
  no.toNat < file.pages
  := Nat.lt_of_lt_of_le (UInt32.toNat_lt_size no) outgrown.many

theorem pageCount (outgrown : file.Outgrown) :
  file.pageCount = .ok 0
  := by
  rw [PageFile.pageCount, if_neg (Nat.ne_of_gt outgrown.pageSize_pos)]
  exact congrArg Except.ok outgrown.cut

/-- A page that is stored in an `Outgrown` file leaves it so, with as many pages. -/
theorem store (outgrown : file.Outgrown) (size : data.length = file.pageSize) (no : PageNo) :
  (file.store no data).Outgrown
  := by
  have same := pages_store (Nat.le_of_eq size) (outgrown.lt_pages no)
  use same ▸ outgrown.many
  rw [same, outgrown.cut]

end Outgrown

/-- The file that consists of `count` times the bytes `page`. -/
def repeated (count : Nat) (page : Bytes) : PageFile :=
  ⟨page.length, ⟨(List.replicate count page).flatten.toArray⟩⟩

theorem pages_repeated (positive : 0 < page.length) (count : Nat) :
  (repeated count page).pages = count
  := by
  simp [pages_eq, repeated, Nat.mul_div_cancel _ positive]

/-- All pages of `repeated count page` are the same. -/
theorem page_repeated (within : no.toNat < count) :
  (repeated count page).page no = page
  := by
  rw [page_eq]
  show ((List.replicate count page).flatten.drop (no.toNat * page.length)).take page.length = page
  generalize no.toNat = before at within
  obtain ⟨after, rfl⟩ := Nat.exists_eq_add_of_lt within
  have split : (List.replicate (before + after + 1) page).flatten
      = (List.replicate before page).flatten ++ (page ++ (List.replicate after page).flatten) := by
    rw [Nat.add_assoc, ← List.replicate_append_replicate, List.flatten_append, List.replicate_succ,
      List.flatten_cons]
  have length : (List.replicate before page).flatten.length = before * page.length := by simp
  rw [split, ← length, List.drop_left, List.take_left]

/-- `UInt32.size` times the same `page` make an `Outgrown` file. -/
theorem outgrown_repeated (positive : 0 < page.length) :
  (repeated UInt32.size page).Outgrown
  := by
  have pages := pages_repeated positive UInt32.size
  exact ⟨Nat.le_of_eq pages.symm, pages.symm ▸ rfl⟩

end PageFile

/-! ### Stores -/

namespace Store

variable {store : Store} {file : PageFile}

theorem pageNos_outgrown (medium : store.medium = .heap file) (outgrown : file.Outgrown)
    (willing : store.failingCount = false) :
  store.pageNos = .ok []
  := by
  simp [pageNos, pageCount, willing, medium, outgrown.pageCount, orFault, bind, Except.bind, pure,
    Except.pure]

end Store

/-! ### Pools -/

namespace Pool

variable {pool : Pool} {table : TableId} {no : StoreNo} {file : PageFile} {bytes tuple : Bytes}

/-- Whether the store `no` keeps the heap table `table` in a file that has outgrown its page
numbers, and neither counting pages nor appending one fails. -/
structure Outgrown (pool : Pool) (table : TableId) (no : StoreNo) (file : PageFile) : Prop where
  found : pool.catalog.get? table = some no
  inside : no < pool.stores.size
  own : (pool.store no).table = table
  medium : (pool.store no).medium = .heap file
  outgrown : file.Outgrown
  willing : (pool.store no).failingCount = false
  whole : (pool.store no).appendLimit = none

/-- The pool with `bytes` stored over the first page of the file of the store `no`. -/
def overwritten (pool : Pool) (no : StoreNo) (file : PageFile) (bytes : Bytes) : Pool :=
  pool.setStore no { pool.store no with medium := .heap (file.store 0 bytes) }

namespace Outgrown

/-- In a table that has `Outgrown` its page numbers, nothing is `stored` of any page: none is
read. -/
theorem stored (outgrown : pool.Outgrown table no file) (short : file.pageSize ≤ maxLength)
    (pageNo : PageNo) :
  pool.stored ⟨table, pageNo⟩ = none
  := by
  have unread := PageFile.read_of_uncounted short outgrown.outgrown.pageSize_pos
    outgrown.outgrown.cut pageNo
  simp only [Pool.stored, outgrown.found, Store.image, outgrown.medium, Store.checkTable,
    outgrown.own, if_true, unread]
  rfl

/-- In a table that has `Outgrown` its page numbers, `kept?` still finds every page. -/
theorem kept? (outgrown : pool.Outgrown table no file) (pageNo : PageNo) :
  pool.kept? ⟨table, pageNo⟩ = some (file.page pageNo)
  := by
  simp [Pool.kept?, outgrown.found, Store.kept?, outgrown.medium, outgrown.own,
    outgrown.outgrown.lt_pages]

/-- A scan of a table that has `Outgrown` its page numbers finds no tuples. -/
theorem start_scan (outgrown : pool.Outgrown table no file) (txn : TransactionId) :
  (Request.scan no).start txn pool = (.done (.answer (.tuples [])), pool)
  := by
  simp only [Request.start, Call.startScan, Call.runScan,
    Store.pageNos_outgrown outgrown.medium outgrown.outgrown outgrown.willing]

/-- An insertion stores an empty page over the first page of the `file`, and goes on to put its
`tuple` there. -/
theorem enter_insert (outgrown : pool.Outgrown table no file)
    (fits : Call.fits file.pageSize tuple = true)
    (empty : Store.emptyHeapPage file.pageSize = .ok bytes) (txn : TransactionId) :
  (Request.insert table tuple).enter txn pool
    = (.grown ⟨table, 0⟩ (.place ⟨table, 0⟩ tuple), pool.overwritten no file bytes)
  := by
  have known : pool.storeOf table = .ok no := by simp only [storeOf, outgrown.found]
  have counted := Store.pageNos_outgrown outgrown.medium outgrown.outgrown outgrown.willing
  have appended :=
    Store.allocate_eq_whole outgrown.medium empty outgrown.willing outgrown.whole
  rw [outgrown.outgrown.cut] at appended
  simp only [Request.enter, Call.enterInsert, known, outgrown.medium, fits, if_true, counted,
    Call.enterProbe, appended, outgrown.own, overwritten]

theorem start_insert (outgrown : pool.Outgrown table no file)
    (fits : Call.fits file.pageSize tuple = true)
    (empty : Store.emptyHeapPage file.pageSize = .ok bytes) (txn : TransactionId) :
  (Request.insert table tuple).start txn pool
    = Call.runPlace txn ⟨table, 0⟩ tuple (pool.overwritten no file bytes)
  := by
  rw [Request.start_eq_proceed, outgrown.enter_insert fits empty]
  rfl

/-- A table that has `Outgrown` its page numbers stays so when its first page is `overwritten` with
`bytes`. -/
theorem overwritten (outgrown : pool.Outgrown table no file) (size : bytes.length = file.pageSize) :
  (pool.overwritten no file bytes).Outgrown table no (file.store 0 bytes)
  := by
  have store : (pool.overwritten no file bytes).store no
      = { pool.store no with medium := .heap (file.store 0 bytes) } := by
    rw [Pool.overwritten, store_setStore, if_pos ⟨rfl, outgrown.inside⟩]
  refine ⟨outgrown.found, ?_, ?_, ?_, outgrown.outgrown.store size 0, ?_, ?_⟩
  · rw [Pool.overwritten, setStore, Array.size_setIfInBounds]
    exact outgrown.inside
  · rw [store, outgrown.own]
  · rw [store]
  · rw [store, outgrown.willing]
  · rw [store, outgrown.whole]

/-- When the first page is `overwritten`, `kept?` finds the new `bytes` for it and the old ones for
all others. -/
theorem kept?_overwritten (outgrown : pool.Outgrown table no file)
    (size : bytes.length = file.pageSize) (pageNo : PageNo) :
  (pool.overwritten no file bytes).kept? ⟨table, pageNo⟩
    = some (if pageNo = 0 then bytes else file.page pageNo)
  := by
  have first : (0 : PageNo).toNat < file.pages := outgrown.outgrown.lt_pages 0
  rw [(outgrown.overwritten size).kept?]
  by_cases here : pageNo = 0
  · rw [if_pos here, here, PageFile.page_store size (PageFile.offset_le (Nat.le_of_lt first))]
  · rw [if_neg here, PageFile.page_store_of_ne (Nat.le_of_eq size) (Nat.le_of_lt first) here]

/-- A page that is not cached is not fetched, though its lock is granted and there is room: the
answer is `.invalidPageNo`. -/
theorem fetch_fails (outgrown : pool.Outgrown table no file) (short : file.pageSize ≤ maxLength)
    (readable : (pool.store no).failingReads = []) {txn : TransactionId} {pageNo : PageNo}
    (access : Access)
    (granted : (pool.locks.request ⟨table, pageNo⟩ txn access.lockMode).1 = .granted)
    (absent : pool.cache.frame? ⟨table, pageNo⟩ = none) (roomy : pool.cache.makeRoom?.isSome) :
  (pool.fetch txn ⟨table, pageNo⟩ access).1 = .failed (.error (.disk (.invalidPageNo pageNo)))
  := by
  have unread := PageFile.read_of_uncounted short outgrown.outgrown.pageSize_pos
    outgrown.outgrown.cut pageNo
  obtain ⟨room, made⟩ := Option.isSome_iff_exists.mp roomy
  rcases asked : pool.locks.request ⟨table, pageNo⟩ txn access.lockMode with ⟨verdict, locks⟩
  rw [asked] at granted
  cases granted
  obtain ⟨result, read⟩ : ∃ after, readStored { pool with cache := room, locks } ⟨table, pageNo⟩
      = (.error (.error (.disk (.invalidPageNo pageNo))), after) := by
    have known : storeOf { pool with cache := room, locks } table = .ok no := by
      simp only [storeOf, outgrown.found]
    have same : store { pool with cache := room, locks } no = pool.store no := rfl
    simp only [readStored, known, same, Store.read, readable, Store.image, outgrown.medium,
      Store.checkTable, outgrown.own, unread, widen]
    exact ⟨_, rfl⟩
  have missed : pool.cache.access? ⟨table, pageNo⟩ = none := by rw [Cache.access?, absent]; rfl
  simp only [fetch, asked, load, missed, made, read]

/-- An insertion that would have to read the first page fails with `.invalidPageNo 0` when it has
`overwritten` that page. -/
theorem insert_fails (outgrown : pool.Outgrown table no file) (tidy : pool.Tidy)
    (fits : Call.fits file.pageSize tuple = true)
    (empty : Store.emptyHeapPage file.pageSize = .ok bytes)
    (readable : (pool.store no).failingReads = []) (txn : TransactionId)
    (granted : (pool.locks.request ⟨table, 0⟩ txn .exclusive).1 = .granted)
    (absent : pool.cache.frame? ⟨table, 0⟩ = none) (roomy : pool.cache.makeRoom?.isSome) :
  ((Request.insert table tuple).start txn pool).1
      = .done (.failure (.error (.disk (.invalidPageNo 0))))
    ∧ ∀ pageNo, ((Request.insert table tuple).start txn pool).2.kept? ⟨table, pageNo⟩
      = some (if pageNo = 0 then bytes else file.page pageNo)
  := by
  obtain ⟨size, -, short⟩ := Store.length_emptyHeapPage empty
  have outgrown' := outgrown.overwritten size
  have readable' : ((pool.overwritten no file bytes).store no).failingReads = [] := by
    rw [Pool.overwritten, store_setStore, if_pos ⟨rfl, outgrown.inside⟩]
    exact readable
  have tidy' : (pool.overwritten no file bytes).Tidy :=
    ⟨tidy.capacity, tidy.bounded, tidy.distinct, tidy.framed⟩
  have fails := outgrown'.fetch_fails short readable' .readWrite granted absent roomy
  have reads := reads_fetch tidy' txn ⟨table, 0⟩ .readWrite
  rw [outgrown.start_insert fits empty]
  unfold Call.runPlace
  rcases fetched : (pool.overwritten no file bytes).fetch txn ⟨table, 0⟩ .readWrite with
    ⟨result, after⟩
  rw [fetched] at fails reads
  cases fails
  refine ⟨rfl, ?_⟩
  intro pageNo
  rw [← outgrown.kept?_overwritten size]
  apply reads.media.kept?

end Outgrown

/-! ### Pools over one file -/

/-- A pool with room for `room` pages, over a heap table that is kept in `file`. -/
def ofFile (room : Nat) (file : PageFile) : Pool :=
  { config := ⟨room, file.pageSize, .ofMillis 1⟩, cache := ⟨room, []⟩, copies := #[]
    locks := .empty
    catalog := ⟨[(1, 0)]⟩, stores := #[{ table := 1, medium := .heap file }] }

theorem create_ofFile {room : Nat} (positive : 0 < room) (possible : room ≤ Cache.maxCapacity)
    (file : PageFile) :
  create (ofFile room file).config (ofFile room file).catalog (ofFile room file).stores
    = .ok (ofFile room file)
  := by
  simp [create, ofFile, Nat.ne_of_gt positive, Cache.empty, possible]

theorem outgrown_ofFile (room : Nat) (outgrown : file.Outgrown) :
  (ofFile room file).Outgrown 1 0 file
  := ⟨rfl, Nat.one_pos, rfl, rfl, outgrown, rfl, rfl⟩

end Pool

end StorageEngine

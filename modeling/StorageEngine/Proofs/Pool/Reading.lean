import StorageEngine.Proofs.Pool.Operations

/-!
# Reading pages

To fetch a page is to change no data, also where it fails or has to wait (`Pool.reads_fetch`): every
copy stays as it is, what the cache holds beside what it held are new copies of what is stored, and
what it gives up for them is clean.  A page that is appended to a file is empty and comes after the
whole pages that are there, in place of a torn one (`Pool.appends_allocate`).
-/

namespace StorageEngine

/-- To put a `frame` that was found leaves `frame?` of every `other` page. -/
theorem Cache.frame?_put_found {cache : Cache} {page : PageId} {frame : Frame}
    (found : cache.frame? page = some frame) (other : PageId) :
  (cache.put frame).frame? other = cache.frame? other
  := by
  obtain rfl := page_of_frame? found
  rw [frame?_put]
  split
  · rename_i here
    rw [here, found]
  · rfl

namespace Pool

variable {pool middle after : Pool} {page other : PageId} {frame : Frame} {no : CopyNo}
  {txn : TransactionId} {bytes : Bytes} {room : Cache}

/-! ### Reading -/

/-- Whether `frame` holds a new copy of `page` as it is stored. -/
structure Fresh (pool after : Pool) (page : PageId) (frame : Frame) : Prop where
  new : pool.copies.size ≤ frame.copy
  allocated : frame.copy < after.copies.size
  clean : frame.dirty = false
  copy : ∃ bytes, pool.stored page = some bytes ∧ after.copy frame.copy = .clean page bytes

/-- Whether what was done to `pool` up to `after` has changed no data: all copies stay, with their
bytes and the transactions that have changed them, and so does what is stored; the cache holds
pages that it held, all changed ones among them, and fresh ones. -/
structure Reads (pool after : Pool) : Prop where
  config : after.config = pool.config
  media : pool.SameMedia after
  copies : pool.copies.size ≤ after.copies.size
  copy : ∀ no < pool.copies.size, after.copy no = pool.copy no
  cached : ∀ page frame, after.cache.frame? page = some frame →
    pool.cache.frame? page = some frame ∨ Fresh pool after page frame
  dirty : ∀ page frame, pool.cache.frame? page = some frame → frame.dirty = true →
    after.cache.frame? page = some frame

theorem Reads.refl (pool : Pool) :
  pool.Reads pool
  where
  config := rfl
  media := ⟨rfl, rfl, fun _ => rfl, fun _ => rfl⟩
  copies := Nat.le_refl _
  copy _ _ := rfl
  cached _ _ found := .inl found
  dirty _ _ found _ := found

theorem Reads.trans (first : pool.Reads middle) (second : middle.Reads after) :
  pool.Reads after
  where
  config := second.config.trans first.config
  media := ⟨second.media.catalog.trans first.media.catalog,
    second.media.size.trans first.media.size,
    fun no => (second.media.table no).trans (first.media.table no),
    fun no => (second.media.medium no).trans (first.media.medium no)⟩
  copies := Nat.le_trans first.copies second.copies
  copy no old :=
    (second.copy no (Nat.lt_of_lt_of_le old first.copies)).trans (first.copy no old)
  cached page frame found := by
    obtain held | ⟨new, allocated, clean, copy⟩ := second.cached page frame found
    · refine (first.cached page frame held).imp_right fun fresh => ?_
      obtain ⟨new, allocated, clean, copy⟩ := fresh
      refine ⟨new, Nat.lt_of_lt_of_le allocated second.copies, clean, ?_⟩
      rw [second.copy _ allocated]
      apply copy
    · right
      refine ⟨Nat.le_trans first.copies new, allocated, clean, ?_⟩
      rw [← first.media.stored]
      apply copy
  dirty page frame found dirty := second.dirty page frame (first.dirty page frame found dirty) dirty

/-- Other `locks`, and `stores` of the `SameMedia`, change no data: `pool.Reads`. -/
theorem reads_around {stores : Array Store} (same : pool.SameMedia { pool with stores })
    (locks : LockTable) :
  pool.Reads { pool with locks, stores }
  where
  config := rfl
  media := ⟨same.catalog, same.size, same.table, same.medium⟩
  copies := Nat.le_refl _
  copy _ _ := rfl
  cached _ _ found := .inl found
  dirty _ _ found _ := found

theorem reads_relock (pool : Pool) (locks : LockTable) :
  pool.Reads { pool with locks }
  := reads_around ⟨rfl, rfl, fun _ => rfl, fun _ => rfl⟩ locks

/-- A `cache` with fewer frames, and all of the dirty ones, changes no data: `pool.Reads`. -/
theorem reads_fewer {cache : Cache}
    (fewer : ∀ page frame, cache.frame? page = some frame → pool.cache.frame? page = some frame)
    (kept : ∀ page frame, pool.cache.frame? page = some frame → frame.dirty = true →
      cache.frame? page = some frame) :
  pool.Reads { pool with cache }
  where
  config := rfl
  media := ⟨rfl, rfl, fun _ => rfl, fun _ => rfl⟩
  copies := Nat.le_refl _
  copy _ _ := rfl
  cached page frame found := .inl (fewer page frame found)
  dirty := kept

/-- To read a stored `page` that is not cached into a new copy changes no data: `pool.Reads`. -/
theorem reads_entered (absent : pool.cache.frame? page = none)
    (stored : pool.stored page = some bytes) :
  pool.Reads (pool.entered page bytes)
  where
  config := rfl
  media := ⟨rfl, rfl, fun _ => rfl, fun _ => rfl⟩
  copies := by simp [entered]
  copy no old := by
    rw [copy_entered, if_neg (Nat.ne_of_lt old)]
  cached other frame found := by
    rw [entered, Cache.frame?_put] at found
    split at found
    · rename_i here
      cases found
      obtain rfl : other = page := here
      right
      refine ⟨Nat.le_refl _, by simp [entered], rfl, bytes, stored, ?_⟩
      rw [copy_entered, if_pos rfl]
    · left
      apply found
  dirty other frame found _ := by
    rw [entered, Cache.frame?_put, if_neg, found]
    rintro rfl
    cases absent.symm.trans found

theorem reads_load (tidy : pool.Tidy) (page : PageId) :
  pool.Reads (pool.load page).2
  := by
  obtain ⟨frame, found, eq⟩ | ⟨-, -, eq⟩
    | ⟨room, stores, absent, made, same, -, loaded⟩ := pool.load_cases page
  · rw [eq]
    have put := Cache.frame?_put_found found
    apply reads_fewer
    · intro other frame' found'
      rw [← put, found']
    · intro other frame' found' _
      rw [put, found']
  · rw [eq]
    apply Reads.refl
  · obtain ⟨-, fewer, kept⟩ := Cache.makeRoom?_spec tidy.distinct made
    have media : SameMedia { pool with cache := room } { pool with cache := room, stores } :=
      ⟨same.catalog, same.size, same.media.table, same.media.medium⟩
    have noted : pool.Reads { pool with cache := room, stores } :=
      (reads_fewer fewer kept).trans (reads_around media pool.locks)
    obtain ⟨failure, -, eq⟩ | ⟨bytes, stored, -, eq⟩ := loaded
    · rw [eq]
      exact noted
    · rw [eq]
      apply noted.trans
      apply reads_entered
      · apply Option.eq_none_iff_forall_ne_some.mpr
        intro frame found
        cases absent.symm.trans (fewer page frame found)
      · rw [same.stored, stored]

/-- `pool.fetch txn page access` changes no data, whatever comes of it: `pool.Reads`. -/
theorem reads_fetch (tidy : pool.Tidy) (txn : TransactionId) (page : PageId) (access : Access) :
  pool.Reads (pool.fetch txn page access).2
  := by
  have tidy' : ∀ locks, Tidy { pool with locks } :=
    fun _ => ⟨tidy.capacity, tidy.bounded, tidy.distinct, tidy.framed⟩
  obtain ⟨locks, -, eq⟩ | ⟨locks, -, eq⟩
    | ⟨locks, -, ⟨copy, after, loaded, eq⟩ | ⟨failure, after, loaded, eq⟩⟩ :=
    pool.fetch_cases txn page access
  · rw [eq]
    exact reads_relock pool locks
  · rw [eq]
    exact reads_relock pool locks
  all_goals
    have load := reads_load (tidy' locks) page
    rw [loaded] at load
    rw [eq]
    exact (reads_relock pool locks).trans load

/-! ### Appending -/

/-- Whether an empty page was appended to the file of the store `no`, right after the whole pages
that were there, and nothing else was done.  If the store could not take the whole page, `part` is
what it took, in place of as many bytes of what followed the whole pages. -/
def Appends (no : StoreNo) (pool after : Pool) : Prop :=
  ∃ file grown empty part, (pool.store no).medium = .heap file
    ∧ Store.emptyHeapPage file.pageSize = .ok empty
    ∧ part <+: empty
    ∧ ((∀ limit ∈ (pool.store no).appendLimit, empty.length ≤ limit) → part = empty)
    ∧ grown.pageSize = file.pageSize
    ∧ grown.contents.toList = file.contents.toList.take (file.pages * file.pageSize) ++ part
        ++ file.contents.toList.drop (file.pages * file.pageSize + part.length)
    ∧ after = pool.setStore no { pool.store no with medium := .heap grown }

theorem setStore_self (pool : Pool) (no : StoreNo) :
  pool.setStore no (pool.store no) = pool
  := by
  have same : pool.stores.setIfInBounds no (pool.store no) = pool.stores := by
    apply Array.ext
    · simp
    · intro other _ inside
      by_cases here : no = other
      · subst here
        simp [store, inside]
      · rw [Array.getElem_setIfInBounds, if_neg here]
  rw [setStore, same]

/-- Where a page is appended to the store `no`, whose pages have numbers, an empty page is put after
the whole pages of its file, or a part of it; or the store refuses, and no data is changed. -/
theorem appends_allocate {result : Except (Failure PoolError) PageId} {store : Store}
    (eq : (pool.store no).allocate = (result, store)) (numbered : (pool.store no).Numbered) :
  pool.Reads (pool.setStore no store) ∨ pool.Appends no (pool.setStore no store)
  := by
  have stored : ∀ {file : PageFile}, (pool.store no).medium = .heap file → ∀ part : Bytes,
      (file.store (UInt32.ofNat file.pages) part).contents.toList
        = file.contents.toList.take (file.pages * file.pageSize) ++ part
          ++ file.contents.toList.drop (file.pages * file.pageSize + part.length) := by
    intro file medium part
    have numbered : file.pages < UInt32.size := by
      simpa [Store.Numbered, Store.length, medium] using numbered
    rw [PageFile.toList_store, PageFile.offset, UInt32.toNat_ofNat_of_lt' numbered]
    rfl
  cases Store.Allocation.of_allocate eq with
  | refused =>
    left
    rw [setStore_self]
    exact .refl pool
  | @torn file bytes limit medium empty limited short =>
    right
    refine ⟨file, file.store _ (bytes.take limit), bytes, bytes.take limit, medium, empty,
      List.take_prefix .., ?_, rfl, stored medium _, rfl⟩
    intro roomy
    exact List.take_of_length_le (roomy limit limited)
  | @whole file bytes medium empty =>
    right
    exact ⟨file, file.store _ bytes, bytes, bytes, medium, empty, List.prefix_refl _, fun _ => rfl,
      rfl, stored medium bytes, rfl⟩

end Pool

end StorageEngine

import StorageEngine.Pool.Basic
import StorageEngine.Proofs.PageFile.Pages

/-!
# Changes of stores

A store changes in three ways.  A page that is written is stored in the medium of the store
(`Store.Rewritten`), also where the write is noted (`Store.Writing`).  A page that is appended is
stored after the whole pages of a file; where not all of it can be appended, a part of it is left
there (`Store.Allocation`).  What every such change keeps follows case by case.
-/

namespace StorageEngine

/-- Whether an error is one of a store. -/
def PoolError.OfStore : PoolError → Prop
  | .pageNotFound _ | .tableNotFound _ | .disk _ | .misuse _ => True
  | .transactionAborted _ | .poolFull | .page _ => False

namespace Store

variable {store grown : Store} {page : PageId} {bytes : Bytes}
  {result : Except (Failure PoolError) PageId}

/-- The number of pages that `store` holds. -/
def length (store : Store) : Nat :=
  match store.medium with
  | .heap file => file.pages
  | .counters pages => pages.size

/-- Whether every page of `store` has a number. -/
def Numbered (store : Store) : Prop := store.length < UInt32.size

/-- The writes that `store` has noted. -/
def writes (store : Store) : List StoreAccess := store.accesses.filter StoreAccess.isWrite

/-! ### Written pages -/

/-- What a store becomes where `bytes` are stored for a page, in its file or in memory. -/
inductive Rewritten (store : Store) (page : PageId) (bytes : Bytes) : Store → Prop where
  | heap {file : PageFile} (medium : store.medium = .heap file) (own : page.table = store.table)
      (positive : 0 < file.pageSize) (size : bytes.length = file.pageSize)
      (last : page.no.toNat ≤ file.pages) :
      Rewritten store page bytes { store with medium := .heap (file.store page.no bytes) }
  | counters {pages : Array Bytes} (medium : store.medium = .counters pages)
      (within : page.no.toNat < pages.size) :
      Rewritten store page bytes
        { store with medium := .counters (pages.setIfInBounds page.no.toNat bytes) }

theorem Rewritten.of_withImage (eq : store.withImage page bytes = .ok grown) :
  store.Rewritten page bytes grown
  := by
  unfold withImage at eq
  cases medium : store.medium with
  | heap file =>
    simp only [medium, checkTable, bind, Except.bind, pure, Except.pure] at eq
    by_cases own : page.table = store.table
    · rcases written : file.write page.no bytes with failure | after
      · simp [own, written, widen] at eq
      · obtain ⟨positive, size, counted, rfl⟩ := PageFile.write_eq_ok_iff.mp written
        simp only [own, written, widen, if_true, Except.ok.injEq] at eq
        subst eq
        exact .heap medium own positive size (PageFile.toNat_le_pages counted)
    · simp [own] at eq
  | counters pages =>
    simp only [medium] at eq
    split at eq
    · rename_i within
      cases eq
      exact .counters medium within
    · cases eq

/-- What comes of a write of `bytes` to a page: it is noted and fails, or `bytes` are stored. -/
inductive Writing (store : Store) (page : PageId) (bytes : Bytes) :
    Except (Failure PoolError) Unit → Store → Prop where
  | refused (failure : Failure PoolError) (failed : Bool) :
      Writing store page bytes (.error failure) (store.note ⟨page.no, true, failed⟩)
  | stored {grown : Store}
      (rewritten : (store.note ⟨page.no, true, false⟩).Rewritten page bytes grown) :
      Writing store page bytes (.ok ()) grown

theorem Writing.of_write {result : Except (Failure PoolError) Unit}
    (eq : store.write page bytes = (result, grown)) :
  store.Writing page bytes result grown
  := by
  unfold write at eq
  split at eq
  · cases eq
    exact .refused (.error injectedFailure) true
  · dsimp only at eq
    split at eq
    · rename_i stored
      cases eq
      exact .stored (.of_withImage stored)
    · cases eq
      exact .refused _ false

/-- `emptyHeapPage size` is what `init` makes of `size` zeros. -/
theorem init_of_emptyHeapPage {size : Nat} (eq : emptyHeapPage size = .ok bytes) :
  SlottedPage.init (List.replicate size 0) = .ok bytes
  := by
  unfold emptyHeapPage zeros at eq
  split at eq
  · exact eq
  · cases eq

/-- `emptyHeapPage size` is `size` bytes long, of which there are some, and no more than a buffer
holds. -/
theorem length_emptyHeapPage {size : Nat} (eq : emptyHeapPage size = .ok bytes) :
  bytes.length = size ∧ 0 < size ∧ size ≤ maxLength
  := by
  simp only [emptyHeapPage, zeros, SlottedPage.init, SlottedPage.Header.empty, subLengths, bind,
    Except.bind, pure, Except.pure] at eq
  by_cases short : size ≤ maxLength
  · by_cases room : SlottedPage.headerSize ≤ size
    · simp only [short, room, if_true, List.length_replicate, Except.ok.injEq] at eq
      have positive : 0 < size := by
        simp only [SlottedPage.headerSize] at room
        omega
      rw [← eq, Bytes.length_overwrite (by simpa using room)]
      exact ⟨List.length_replicate, positive, short⟩
    · simp [short, room] at eq
  · simp [short] at eq

/-- What comes of appending an empty page to `store`: it refuses, or as much of the page as it can
take is left after the whole pages of its file, or the page is. -/
inductive Allocation (store : Store) : Except (Failure PoolError) PageId → Store → Prop where
  | refused (failure : Failure PoolError)
      (ofStore : ∀ cause, failure = .error cause → cause.OfStore) :
      Allocation store (.error failure) store
  | torn {file : PageFile} {bytes : Bytes} {limit : Nat} (medium : store.medium = .heap file)
      (empty : emptyHeapPage file.pageSize = .ok bytes) (limited : store.appendLimit = some limit)
      (short : limit < bytes.length) :
      Allocation store (.error (.error injectedFailure))
        { store with medium := .heap (file.store (UInt32.ofNat file.pages) (bytes.take limit)) }
  | whole {file : PageFile} {bytes : Bytes} (medium : store.medium = .heap file)
      (empty : emptyHeapPage file.pageSize = .ok bytes) :
      Allocation store (.ok ⟨store.table, UInt32.ofNat file.pages⟩)
        { store with medium := .heap (file.store (UInt32.ofNat file.pages) bytes) }

theorem Allocation.of_allocate (eq : store.allocate = (result, grown)) :
  store.Allocation result grown
  := by
  unfold allocate at eq
  cases medium : store.medium with
  | counters pages =>
    rw [medium] at eq
    cases eq
    apply Allocation.refused
    rintro cause ⟨⟩
    trivial
  | heap file =>
    simp only [medium] at eq
    cases empty : emptyHeapPage file.pageSize with
    | error fault =>
      rw [empty] at eq
      cases eq
      apply Allocation.refused
      rintro cause ⟨⟩
    | ok bytes =>
      obtain ⟨fits, positive, -⟩ := length_emptyHeapPage empty
      have whole : file.allocate bytes = .ok (UInt32.ofNat file.pages, file.store _ bytes) :=
        PageFile.allocate_eq_ok_iff.mpr ⟨positive, fits, rfl, rfl⟩
      simp only [empty, orFault, extend, whole, widen] at eq
      split at eq
      · cases eq
        apply Allocation.refused
        rintro cause ⟨⟩
        trivial
      · split at eq
        · rename_i short
          rw [List.length_take] at short
          obtain ⟨limit, limited⟩ : ∃ limit, store.appendLimit = some limit := by
            apply Option.ne_none_iff_exists'.mp
            intro none
            simp [none] at short
          have taken : store.appendLimit.getD bytes.length = limit := by
            rw [limited, Option.getD_some]
          rw [taken] at short eq
          cases eq
          exact .torn medium empty limited (by omega)
        · cases eq
          exact .whole medium empty

/-- A store without `failingCount` and `appendLimit` appends an empty page, at the number of pages,
cut to a `UInt32`. -/
theorem allocate_eq_whole {file : PageFile} (medium : store.medium = .heap file)
    (empty : emptyHeapPage file.pageSize = .ok bytes) (willing : store.failingCount = false)
    (whole : store.appendLimit = none) :
  store.allocate
    = (.ok ⟨store.table, UInt32.ofNat file.pages⟩,
      { store with medium := .heap (file.store (UInt32.ofNat file.pages) bytes) })
  := by
  obtain ⟨fits, positive, -⟩ := length_emptyHeapPage empty
  have allocated : file.allocate bytes = .ok (UInt32.ofNat file.pages, file.store _ bytes) :=
    PageFile.allocate_eq_ok_iff.mpr ⟨positive, fits, rfl, rfl⟩
  simp [allocate, medium, empty, orFault, extend, willing, allocated, widen, whole]

/-- `cause.OfStore` holds of every `cause` with which `store.allocate` fails. -/
theorem ofStore_allocate {cause : PoolError}
    (eq : store.allocate = (.error (.error cause), grown)) :
  cause.OfStore
  := by
  cases Allocation.of_allocate eq with
  | refused _ ofStore => exact ofStore cause rfl
  | torn => trivial

/-! ### What changes keep -/

theorem Rewritten.table (rewritten : store.Rewritten page bytes grown) :
  grown.table = store.table
  := by
  cases rewritten with
  | heap | counters => rfl

/-- `store.write page bytes` leaves the table of `store`. -/
theorem table_write (store : Store) (page : PageId) (bytes : Bytes) :
  (store.write page bytes).2.table = store.table
  := by
  rcases eq : store.write page bytes with ⟨result, grown⟩
  cases Writing.of_write eq with
  | refused => rfl
  | stored rewritten => apply rewritten.table

/-- A `write` that fails leaves the table and the medium of `store`. -/
theorem write_error {failure : Failure PoolError}
    (eq : store.write page bytes = (.error failure, grown)) :
  grown.table = store.table ∧ grown.medium = store.medium
  := by
  cases Writing.of_write eq with
  | refused => exact ⟨rfl, rfl⟩

/-- `store.write page bytes` notes a write of `page`, whether it fails or not. -/
theorem writes_write (store : Store) (page : PageId) (bytes : Bytes) :
  ∃ failed, (store.write page bytes).2.writes = ⟨page.no, true, failed⟩ :: store.writes
  := by
  rcases eq : store.write page bytes with ⟨result, grown⟩
  cases Writing.of_write eq with
  | refused failure failed => exact ⟨failed, rfl⟩
  | stored rewritten =>
    use false
    cases rewritten with
    | heap | counters => rfl

/-- `store.allocate` notes no write, and leaves the table and `failingWrites`, whatever comes of
it. -/
theorem allocate_keeps (eq : store.allocate = (result, grown)) :
  grown.table = store.table ∧ grown.writes = store.writes
    ∧ grown.failingWrites = store.failingWrites
  := by
  cases Allocation.of_allocate eq with
  | refused | torn | whole => exact ⟨rfl, rfl, rfl⟩

theorem Rewritten.length_le (rewritten : store.Rewritten page bytes grown) :
  store.length ≤ grown.length
  := by
  cases rewritten with
  | heap medium =>
    simp only [length, medium]
    apply PageFile.pages_le_store
  | counters medium => simp [length, medium]

/-- `store.write page bytes` takes no page away. -/
theorem length_le_write (store : Store) (page : PageId) (bytes : Bytes) :
  store.length ≤ (store.write page bytes).2.length
  := by
  rcases eq : store.write page bytes with ⟨result, grown⟩
  cases Writing.of_write eq with
  | refused => apply Nat.le_refl
  | stored rewritten => apply rewritten.length_le

/-- `store.allocate` takes no page away, whatever comes of it. -/
theorem length_le_allocate (eq : store.allocate = (result, grown)) :
  store.length ≤ grown.length
  := by
  cases Allocation.of_allocate eq with
  | refused => apply Nat.le_refl
  | torn medium | whole medium =>
    simp only [length, medium]
    apply PageFile.pages_le_store

/-! ### Shapes of stores -/

/-- What stays of the medium of `store`: how long the pages in a file are, or how many pages are in
memory. -/
def shape (store : Store) : Nat ⊕ Nat :=
  match store.medium with
  | .heap file => .inl file.pageSize
  | .counters pages => .inr pages.size

/-- The `shape` of a store in a `file` is the length of its pages. -/
theorem shape_heap {file : PageFile} (medium : store.medium = .heap file) :
  store.shape = .inl file.pageSize
  := by
  rw [shape, medium]

theorem Rewritten.shape (rewritten : store.Rewritten page bytes grown) :
  grown.shape = store.shape
  := by
  cases rewritten with
  | heap medium =>
    simp only [Store.shape, medium]
    rfl
  | counters medium => simp [Store.shape, medium]

/-- `store.write page bytes` keeps the `shape` of `store`. -/
theorem shape_write (store : Store) (page : PageId) (bytes : Bytes) :
  (store.write page bytes).2.shape = store.shape
  := by
  rcases eq : store.write page bytes with ⟨result, grown⟩
  cases Writing.of_write eq with
  | refused => rfl
  | stored rewritten => apply rewritten.shape

/-- `store.allocate` keeps the `shape` of `store`, whatever comes of it. -/
theorem shape_allocate (eq : store.allocate = (result, grown)) :
  grown.shape = store.shape
  := by
  cases Allocation.of_allocate eq with
  | refused => rfl
  | torn medium | whole medium =>
    simp only [shape, medium]
    rfl

end Store

end StorageEngine

import Mathlib.Tactic.Common
import StorageEngine.PageFile

/-!
# Pages of page files

A page file has a number of whole pages (`PageFile.pages`), which is cut where it is wider than a
page number.  As long as it is not, the pages that are read are those with smaller numbers
(`PageFile.read_eq_ok_iff`), a page that is stored over another changes no other
(`PageFile.page_store_of_ne`), and one that is stored after the last makes one page more
(`PageFile.pages_store_last`).  A part of a page that is stored there makes none
(`PageFile.pages_store_part`).
-/

namespace StorageEngine

/-- `bytes.overwrite start data` is as long as `bytes` or longer, wherever `start` is. -/
theorem Bytes.length_le_overwrite (bytes : Bytes) (start : Nat) (data : Bytes) :
  bytes.length ≤ (bytes.overwrite start data).length
  := by
  simp only [overwrite, List.length_append, List.length_take, List.length_drop]
  omega

namespace PageFile

variable {file after : PageFile} {no other : PageNo} {data bytes : Bytes}

/-- The number of whole pages of `file`. -/
def pages (file : PageFile) : Nat := file.bytes.size / file.pageSize

theorem pages_eq (file : PageFile) :
  file.pages = file.contents.size / file.pageSize
  := rfl

/-- `file.read no` answers a page exactly if a page fits a buffer and `no` is the number of a whole
page, and then it is `file.page no`. -/
theorem read_eq_ok_iff (numbered : file.pages < UInt32.size) :
  file.read no = .ok bytes
    ↔ file.pageSize ≤ maxLength ∧ no.toNat < file.pages ∧ file.page no = bytes
  := by
  have count : (UInt32.ofNat file.pages).toNat = file.pages := UInt32.toNat_ofNat_of_lt' numbered
  simp only [read, pageCount, orFault, bind, Except.bind, pure, Except.pure, throw, throwThe,
    MonadExceptOf.throw]
  by_cases long : maxLength < file.pageSize
  · have short : ¬ file.pageSize ≤ maxLength := Nat.not_le.mpr long
    simp [long, short]
  · by_cases zero : file.pageSize = 0
    · simp [zero, pages]
    · by_cases out : UInt32.ofNat file.pages ≤ no
      · have : ¬ no.toNat < file.pages := by
          rw [← count]
          apply Nat.not_lt.mpr out
        simp only [pages] at out this
        simp [long, zero, out, pages, this]
      · have : no.toNat < file.pages := by
          rw [← count]
          apply Nat.not_le.mp out
        simp only [pages] at out this
        simp [long, zero, out, pages, this, Nat.not_lt.mp long]

/-- The page `no` lies within the contents if it is a whole page. -/
theorem offset_add_le (within : no.toNat < file.pages) :
  file.offset no + file.pageSize ≤ file.contents.size
  := by
  calc file.offset no + file.pageSize = (no.toNat + 1) * file.pageSize := by
        rw [offset, Nat.add_mul, Nat.one_mul]
    _ ≤ file.pages * file.pageSize := Nat.mul_le_mul_right _ within
    _ ≤ file.contents.size := Nat.div_mul_le_self ..

/-- A page starts within the contents if `no` is a whole page or the one after the last. -/
theorem offset_le (last : no.toNat ≤ file.pages) :
  file.offset no ≤ file.contents.size
  := Nat.le_trans (Nat.mul_le_mul_right _ last) (Nat.div_mul_le_self ..)

theorem length_page (within : no.toNat < file.pages) :
  (file.page no).length = file.pageSize
  := by
  have fits := offset_add_le within
  rw [page_eq, List.length_take, List.length_drop, Array.length_toList]
  omega

/-- `file.store no data` has as many pages as `file`, or more. -/
theorem pages_le_store (file : PageFile) (no : PageNo) (data : Bytes) :
  file.pages ≤ (file.store no data).pages
  := by
  apply Nat.div_le_div_right
  change file.contents.size ≤ (file.store no data).contents.size
  rw [← Array.length_toList, ← Array.length_toList, toList_store]
  apply Bytes.length_le_overwrite

/-- The page `other` stays where the page `no`, or a part of it, is stored. -/
theorem page_store_of_ne (size : data.length ≤ file.pageSize) (last : no.toNat ≤ file.pages)
    (distinct : other ≠ no) :
  (file.store no data).page other = file.page other
  := by
  have start : file.offset no ≤ file.contents.toList.length := by
    simpa using offset_le last
  rw [page_eq, page_eq, toList_store]
  apply Bytes.take_drop_overwrite_of_disjoint data start
  rcases Nat.lt_or_gt_of_ne (mt UInt32.toNat_inj.mp distinct) with before | after
  · left
    show other.toNat * file.pageSize + file.pageSize ≤ no.toNat * file.pageSize
    rw [← Nat.succ_mul]
    apply Nat.mul_le_mul_right _ before
  · right
    calc no.toNat * file.pageSize + data.length
      _ ≤ no.toNat * file.pageSize + file.pageSize := Nat.add_le_add_left size _
      _ = (no.toNat + 1) * file.pageSize := (Nat.succ_mul ..).symm
      _ ≤ other.toNat * file.pageSize := Nat.mul_le_mul_right _ after

/-- To store `data` no longer than a page over the page `no` keeps the number of pages. -/
theorem pages_store (size : data.length ≤ file.pageSize) (within : no.toNat < file.pages) :
  (file.store no data).pages = file.pages
  := by
  have fits : file.offset no + data.length ≤ file.contents.toList.length := by
    rw [Array.length_toList]
    apply Nat.le_trans (Nat.add_le_add_left size _) (offset_add_le within)
  have length := Bytes.length_overwrite fits
  rw [← toList_store, Array.length_toList, Array.length_toList] at length
  simp only [pages_eq, length]
  rfl

/-- What follows the last whole page is shorter than a page. -/
theorem size_lt_offset_add (positive : 0 < file.pageSize) (last : no.toNat = file.pages) :
  file.contents.size < file.offset no + file.pageSize
  := by
  have split := Nat.div_add_mod' file.contents.size file.pageSize
  have rest := Nat.mod_lt file.contents.size positive
  simp only [offset, last, pages_eq]
  omega

/-- To store a page after the last one makes `file.pages + 1` pages. -/
theorem pages_store_last (size : data.length = file.pageSize) (positive : 0 < file.pageSize)
    (last : no.toNat = file.pages) :
  (file.store no data).pages = file.pages + 1
  := by
  have tail := size_lt_offset_add positive last
  have length : (file.store no data).contents.size = file.offset no + file.pageSize := by
    rw [← Array.length_toList, toList_store, Bytes.overwrite]
    simp only [List.length_append, List.length_take, List.length_drop, Array.length_toList]
    have start := offset_le (Nat.le_of_eq last)
    omega
  show (file.store no data).contents.size / file.pageSize = file.pages + 1
  rw [length, offset, ← Nat.succ_mul, Nat.mul_div_cancel _ positive, last]

/-- The number of a page that is counted up to `file.pages` is not above it, also where it is
cut. -/
theorem toNat_le_pages (counted : no ≤ UInt32.ofNat file.pages) :
  no.toNat ≤ file.pages
  := by
  calc no.toNat ≤ (UInt32.ofNat file.pages).toNat := counted
    _ = file.pages % UInt32.size := UInt32.toNat_ofNat'
    _ ≤ file.pages := Nat.mod_le ..

/-- To store `data` shorter than a page, over a page or after the last, keeps the number of
pages. -/
theorem pages_store_part (part : data.length < file.pageSize) (last : no.toNat ≤ file.pages) :
  (file.store no data).pages = file.pages
  := by
  rcases Nat.lt_or_eq_of_le last with within | equal
  · apply pages_store (Nat.le_of_lt part) within
  · have tail := size_lt_offset_add (Nat.zero_lt_of_lt part) equal
    have start := offset_le last
    apply Nat.le_antisymm _ (pages_le_store file no data)
    apply Nat.le_of_lt_succ
    apply (Nat.div_lt_iff_lt_mul (Nat.zero_lt_of_lt part)).mpr
    show (file.store no data).contents.size < (file.pages + 1) * file.pageSize
    rw [← Array.length_toList, toList_store, Bytes.overwrite, Nat.succ_mul, ← equal]
    simp only [List.length_append, List.length_take, List.length_drop, Array.length_toList]
    simp only [offset] at start tail ⊢
    omega

/-- A page `data` that is stored after the last whole page takes the place of what follows it. -/
theorem toList_store_last (size : data.length = file.pageSize) (positive : 0 < file.pageSize)
    (last : no.toNat = file.pages) :
  (file.store no data).contents.toList
    = file.contents.toList.take (file.pages * file.pageSize) ++ data
  := by
  have tail := size_lt_offset_add positive last
  have none : file.contents.toList.drop (file.offset no + data.length) = [] := by
    apply List.drop_eq_nil_of_le
    rw [Array.length_toList, size]
    apply Nat.le_of_lt tail
  rw [toList_store, Bytes.overwrite, none, List.append_nil, offset, last]

/-- `file.write no data` succeeds exactly if `data` is as long as a page and `no` is at most the
number of pages, cut to a `UInt32`; it leaves `file.store no data`. -/
theorem write_eq_ok_iff :
  file.write no data = .ok after
    ↔ 0 < file.pageSize ∧ data.length = file.pageSize ∧ no ≤ UInt32.ofNat file.pages
      ∧ after = file.store no data
  := by
  simp only [write, checkSize, pageCount, orFault, bind, Except.bind, pure, Except.pure, throw,
    throwThe, MonadExceptOf.throw]
  by_cases size : data.length = file.pageSize
  · by_cases zero : file.pageSize = 0
    · simp [size, zero]
    · by_cases beyond : UInt32.ofNat file.pages < no
      · have far := UInt32.not_le.mpr beyond
        simp only [pages] at beyond far
        simp [size, zero, pages, beyond, far]
      · have near := UInt32.not_lt.mp beyond
        simp only [pages] at beyond near
        simp [size, zero, pages, beyond, near, Nat.pos_of_ne_zero zero, eq_comm]
  · simp [size]

/-- `file.allocate data` succeeds exactly if pages are not empty and `data` is as long as one; it
leaves `file.store no data` for the number of pages, cut to a `UInt32`, as `no`. -/
theorem allocate_eq_ok_iff :
  file.allocate data = .ok (no, after)
    ↔ 0 < file.pageSize ∧ data.length = file.pageSize ∧ no = UInt32.ofNat file.pages
      ∧ after = file.store no data
  := by
  simp only [allocate, checkSize, pageCount, orFault, bind, Except.bind, pure, Except.pure]
  by_cases size : data.length = file.pageSize
  · by_cases zero : file.pageSize = 0
    · simp [size, zero]
    · simp only [size, if_true, if_neg zero, Nat.pos_of_ne_zero zero, true_and, Except.ok.injEq,
        Prod.mk.injEq]
      show UInt32.ofNat file.pages = no ∧ _ = after ↔ _
      constructor
      · rintro ⟨rfl, rfl⟩
        exact ⟨rfl, rfl⟩
      · rintro ⟨rfl, rfl⟩
        exact ⟨rfl, rfl⟩
  · simp [size]

/-- `file.write no data` succeeds where `no` is a whole page and `data` is as long. -/
theorem write_eq_ok (numbered : file.pages < UInt32.size) (size : data.length = file.pageSize)
    (within : no.toNat < file.pages) :
  file.write no data = .ok (file.store no data)
  := by
  have count : (UInt32.ofNat file.pages).toNat = file.pages := UInt32.toNat_ofNat_of_lt' numbered
  have positive : 0 < file.pageSize := by
    apply Nat.pos_of_ne_zero
    intro zero
    simp [pages, zero] at within
  apply write_eq_ok_iff.mpr
  refine ⟨positive, size, ?_, rfl⟩
  rw [UInt32.le_iff_toNat_le, count]
  apply Nat.le_of_lt within

end PageFile

end StorageEngine

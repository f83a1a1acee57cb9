import StorageEngine.Proofs.PageFile.Pages

/-!
# Pages appended to page files

The number of a page that is appended to a file is the number of whole pages before it, cut to the
width of a page number, and so is the place where it is stored.  As long as nothing is cut off, all
whole pages stay and the new one follows them (`PageFile.store_appends`).  From then on a new page
takes the place of an old one (`PageFile.store_overwrites`), and already the page with the last
number is not read back (`PageFile.store_last_number`).  So nothing is lost as long as the number of
pages after an allocation fits a page number (`PageFile.appended_iff_numbered`).
-/

namespace StorageEngine

namespace PageFile

variable {file after : PageFile} {data : Bytes} {no : PageNo}

/-- What an allocation of `data` as the page `no` is meant to do to `file`: every byte of the whole
pages stays, there is one page more, and this page is read back. -/
structure Appended (file : PageFile) (data : Bytes) (no : PageNo) (after : PageFile) : Prop where
  kept : after.contents.toList.take (file.pages * file.pageSize)
    = file.contents.toList.take (file.pages * file.pageSize)
  longer : after.pages = file.pages + 1
  readable : after.read no = .ok data

/-- A page that has a number is stored after the whole pages, and all of these stay. -/
theorem store_appends (positive : 0 < file.pageSize) (size : data.length = file.pageSize)
    (numbered : file.pages < UInt32.size) :
  (file.store (UInt32.ofNat file.pages) data).contents.toList
      = file.contents.toList.take (file.pages * file.pageSize) ++ data
    ∧ (file.store (UInt32.ofNat file.pages) data).pages = file.pages + 1
    ∧ (file.store (UInt32.ofNat file.pages) data).page (UInt32.ofNat file.pages) = data
  := by
  have last := UInt32.toNat_ofNat_of_lt' numbered
  exact ⟨toList_store_last size positive last, pages_store_last size positive last,
    page_store size (offset_le (Nat.le_of_eq last))⟩

/-- With `UInt32.size` pages or more, the next page has no number: `data` is stored over another
page, and there are as many pages as before. -/
theorem store_overwrites (size : data.length = file.pageSize) (many : UInt32.size ≤ file.pages) :
  (file.store (UInt32.ofNat file.pages) data).pages = file.pages
    ∧ (file.store (UInt32.ofNat file.pages) data).page (UInt32.ofNat file.pages) = data
  := by
  have within : (UInt32.ofNat file.pages).toNat < file.pages :=
    Nat.lt_of_lt_of_le (UInt32.toNat_lt_size _) many
  exact ⟨pages_store (Nat.le_of_eq size) within, page_store size (offset_le (Nat.le_of_lt within))⟩

/-- Where the number of pages is cut to 0, `file.read no` finds no page for any `no`. -/
theorem read_of_uncounted (short : file.pageSize ≤ maxLength) (positive : 0 < file.pageSize)
    (cut : UInt32.ofNat file.pages = 0) (no : PageNo) :
  file.read no = .error (.error (.invalidPageNo no))
  := by
  have none : UInt32.ofNat (file.bytes.size / file.pageSize) ≤ no := by
    show UInt32.ofNat file.pages ≤ no
    rw [cut]
    apply UInt32.zero_le
  simp [read, pageCount, orFault, Nat.not_lt.mpr short, Nat.ne_of_gt positive, none, bind,
    Except.bind, throw, throwThe, MonadExceptOf.throw]

/-- The page with the last number is stored after the others, and `read` does not find it, since
the number of pages is then cut to 0. -/
theorem store_last_number (buffer : data.length ≤ maxLength) (positive : 0 < file.pageSize)
    (size : data.length = file.pageSize) (last : file.pages + 1 = UInt32.size) :
  (file.store (UInt32.ofNat file.pages) data).pages = UInt32.size
    ∧ (file.store (UInt32.ofNat file.pages) data).read (UInt32.ofNat file.pages)
      = .error (.error (.invalidPageNo (UInt32.ofNat file.pages)))
  := by
  obtain ⟨-, longer, -⟩ := store_appends positive size (Nat.lt_of_succ_le (Nat.le_of_eq last))
  rw [last] at longer
  refine ⟨longer, ?_⟩
  apply read_of_uncounted
  · show file.pageSize ≤ maxLength
    rw [← size]
    exact buffer
  · exact positive
  · rw [longer]
    rfl

/-- An `allocate` that succeeds keeps all bytes of the whole pages, makes one page more and has its
page read back, `Appended`, exactly if the number of pages after it is below `UInt32.size`. -/
theorem appended_iff_numbered (buffer : data.length ≤ maxLength)
    (eq : file.allocate data = .ok (no, after)) :
  Appended file data no after ↔ file.pages + 1 < UInt32.size
  := by
  obtain ⟨positive, size, rfl, rfl⟩ := allocate_eq_ok_iff.mp eq
  constructor
  · intro appended
    rcases Nat.lt_trichotomy (file.pages + 1) UInt32.size with counted | last | many
    · exact counted
    · obtain ⟨-, unread⟩ := store_last_number buffer positive size last
      cases unread.symm.trans appended.readable
    · obtain ⟨same, -⟩ := store_overwrites size (Nat.le_of_lt_succ many)
      cases Nat.ne_of_lt (Nat.lt_succ_self _) (same.symm.trans appended.longer)
  · intro counted
    have numbered : file.pages < UInt32.size := Nat.lt_of_succ_lt counted
    obtain ⟨contents, longer, stored⟩ := store_appends positive size numbered
    refine ⟨?_, longer, ?_⟩
    · have whole : (file.contents.toList.take (file.pages * file.pageSize)).length
          = file.pages * file.pageSize := by
        rw [List.length_take, Array.length_toList]
        apply Nat.min_eq_left (Nat.div_mul_le_self ..)
      rw [contents, List.take_append_of_le_length (Nat.le_of_eq whole.symm), List.take_take,
        Nat.min_self]
    · apply (read_eq_ok_iff (longer ▸ counted)).mpr
      refine ⟨size ▸ buffer, ?_, stored⟩
      rw [longer, UInt32.toNat_ofNat_of_lt' numbered]
      apply Nat.lt_succ_self

/-- A file of two-byte pages, the second of which is torn. -/
def torn : PageFile := ⟨2, ⟨#[1, 2, 3]⟩⟩

theorem appended_torn :
  torn.pages + 1 < UInt32.size
    ∧ ∃ after, torn.allocate [7, 8] = .ok (1, after) ∧ Appended torn [7, 8] 1 after
  := by
  have numbered : torn.pages + 1 < UInt32.size := by decide
  have eq : torn.allocate [7, 8] = .ok (1, torn.store 1 [7, 8]) := by rfl
  exact ⟨numbered, _, eq, (appended_iff_numbered (by decide) eq).mpr numbered⟩

/-- A file of `count` pages of one byte, which is zero. -/
def blank (count : Nat) : PageFile := ⟨1, ⟨Array.replicate count 0⟩⟩

theorem pages_blank (count : Nat) :
  (blank count).pages = count
  := by
  simp [blank, pages_eq]

theorem allocate_blank (count : Nat) :
  (blank count).allocate [2]
    = .ok (UInt32.ofNat count, (blank count).store (UInt32.ofNat count) [2])
  := by
  rw [allocate_eq_ok_iff, pages_blank]
  exact ⟨Nat.one_pos, rfl, rfl, rfl⟩

/-- In a `blank` file with one page less than `UInt32.size`, the page with the last number is
appended and never read. -/
theorem unread_blank {count : Nat} (last : count + 1 = UInt32.size) :
  ∃ after, (blank count).allocate [2] = .ok (UInt32.ofNat count, after)
    ∧ after.pages = UInt32.size
    ∧ after.read (UInt32.ofNat count) = .error (.error (.invalidPageNo (UInt32.ofNat count)))
  := by
  have fits : ([2] : Bytes).length = (blank count).pageSize := rfl
  have unread := store_last_number (by decide) Nat.one_pos fits (by rw [pages_blank, last])
  rw [pages_blank] at unread
  exact ⟨_, allocate_blank count, unread⟩

/-- In a `blank` file whose `count` is cut to 0, a page is stored over the first. -/
theorem overwritten_blank {count : Nat} (many : UInt32.size ≤ count)
    (first : UInt32.ofNat count = 0) :
  ∃ after, (blank count).allocate [2] = .ok (0, after)
    ∧ (blank count).page 0 = [0] ∧ after.page 0 = [2] ∧ after.pages = count
  := by
  have positive : 0 < count := Nat.lt_of_lt_of_le (by decide) many
  have fits : ([2] : Bytes).length = (blank count).pageSize := rfl
  obtain ⟨same, stored⟩ := store_overwrites fits (by rw [pages_blank]; exact many)
  rw [pages_blank, first] at same stored
  refine ⟨(blank count).store 0 [2], ?_, ?_, stored, same⟩
  · rw [allocate_blank, first]
  · simp [page_eq, blank, offset, List.take_replicate, Nat.min_eq_left positive]

/-- In `blank 4294967295` the page that is appended is never read; in `blank 4294967296` it is
stored over the first. -/
theorem allocate_blank_unread_overwritten :
  (∃ after, (blank 4294967295).allocate [2] = .ok (4294967295, after)
      ∧ after.pages = 4294967296
      ∧ after.read 4294967295 = .error (.error (.invalidPageNo 4294967295)))
    ∧ ∃ after, (blank 4294967296).allocate [2] = .ok (0, after)
      ∧ (blank 4294967296).page 0 = [0] ∧ after.page 0 = [2] ∧ after.pages = 4294967296
  := ⟨unread_blank rfl, overwritten_blank (Nat.le_refl _) rfl⟩

end PageFile

end StorageEngine

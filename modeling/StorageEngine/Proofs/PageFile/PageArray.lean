import Mathlib
import StorageEngine.Proofs.Pool.Images

/-!
# Page files as arrays of pages

A page file holds pages of its size one after another, and a tail that is too short for a page.
Whatever is done with it, also from outside, it answers as this array does, as long as a page
number is wide enough for the number of pages (`answers_eq_iff_readable`).  The one exception are
the reads from a file whose pages are too long for a buffer: they fault, also where the array has
no such page.
-/

namespace StorageEngine

/-- An operation on a page file, or a change of the file from outside. -/
inductive PageFile.Op where
  | read (no : PageNo)
  | write (no : PageNo) (data : Bytes)
  | allocate (data : Bytes)
  | count
  | reopen (pageSize : { size : Nat // 0 < size })
  | append (data : Bytes)
  | truncate (length : Nat)

/-- What an operation answers. -/
inductive PageFile.Reply where
  | page (bytes : Bytes)
  | number (pages : Nat)
  | done
  deriving DecidableEq

namespace PageFile.Op

/-- Whether an operation counts the pages of the file. -/
def counts : Op → Bool
  | .read _ | .write _ _ | .allocate _ | .count => true
  | .reopen _ | .append _ | .truncate _ => false

/-- Whether an operation asks for a buffer that is too long, in a file with pages of `size`
bytes. -/
def tooLong (size : Nat) : Op → Bool
  | .read _ => decide (maxLength < size)
  | _ => false

end PageFile.Op

/-! ### Arrays of pages -/

/-- Pages of one `size`, and a `tail` of bytes that are too few for a page. -/
structure PageArray where
  size : Nat
  pages : List Bytes
  tail : Bytes
  whole : ∀ page ∈ pages, page.length = size
  short : tail.length < size

namespace PageArray

open PageFile

/-- The bytes of `array`, page after page, and then those of its tail. -/
def bytes (array : PageArray) : Bytes := array.pages.flatten ++ array.tail

/-- The array without bytes. -/
def empty (size : Nat) (positive : 0 < size) : PageArray := ⟨size, [], [], by simp, positive⟩

/-- `array` with `page` in place of its tail. -/
def extend (array : PageArray) (page : Bytes) (fits : page.length = array.size) : PageArray where
  size := array.size
  pages := array.pages ++ [page]
  tail := []
  whole := by simpa [or_imp, forall_and, fits] using array.whole
  short := Nat.zero_lt_of_lt array.short

/-- `array` with `page` in place of the page `no`. -/
def replace (array : PageArray) (no : Nat) (page : Bytes) (fits : page.length = array.size) :
    PageArray where
  size := array.size
  pages := array.pages.set no page
  tail := array.tail
  whole := by
    intro other member
    rcases List.mem_or_eq_of_mem_set member with old | rfl
    · apply array.whole other old
    · apply fits
  short := array.short

/-- `array` with `byte` at its end.  When the tail has become a page, a new tail begins. -/
def push (array : PageArray) (byte : UInt8) : PageArray :=
  if full : (array.tail ++ [byte]).length = array.size then array.extend (array.tail ++ [byte]) full
  else
    { array with
      tail := array.tail ++ [byte]
      short := by
        have short := array.short
        rw [List.length_append, List.length_singleton] at full ⊢
        omega }

/-- `bytes` as an array of pages of `size` bytes. -/
def cut (size : Nat) (positive : 0 < size) (bytes : Bytes) : PageArray :=
  bytes.foldl push (empty size positive)

/-- The array of pages of the same size with other `bytes`. -/
def recut (array : PageArray) (bytes : Bytes) : PageArray :=
  cut array.size (Nat.zero_lt_of_lt array.short) bytes

/-- `array` with `data` as the page `no`, which may be the one after the last. -/
def write (array : PageArray) (no : PageNo) (data : Bytes) : Except DiskError Unit × PageArray :=
  if fits : data.length = array.size then
    if no.toNat < array.pages.length then (.ok (), array.replace no.toNat data fits)
    else if no.toNat = array.pages.length then (.ok (), array.extend data fits)
    else (.error (.invalidPageNo no), array)
  else (.error (.sizeMismatch array.size data.length), array)

/-- `array` with `data` as a page at its end, and the number of this page. -/
def allocate (array : PageArray) (data : Bytes) : Except DiskError Nat × PageArray :=
  if fits : data.length = array.size then (.ok array.pages.length, array.extend data fits)
  else (.error (.sizeMismatch array.size data.length), array)

/-- The page `no` of `array`. -/
def read (array : PageArray) (no : PageNo) : Except DiskError Bytes :=
  match array.pages[no.toNat]? with
  | some page => .ok page
  | none => .error (.invalidPageNo no)

/-- The answer of `array` to an operation, and the array after it. -/
def perform (array : PageArray) : Op → Except DiskError Reply × PageArray
  | .read no => ((array.read no).map .page, array)
  | .write no data => ((array.write no data).1.map fun _ => .done, (array.write no data).2)
  | .allocate data => ((array.allocate data).1.map .number, (array.allocate data).2)
  | .count => (.ok (.number array.pages.length), array)
  | .reopen ⟨size, positive⟩ => (.ok .done, cut size positive array.bytes)
  | .append data => (.ok .done, array.recut (array.bytes ++ data))
  | .truncate length => (.ok .done, array.recut (array.bytes.take length))

/-- What operations in a row are answered by an array. -/
def answers : PageArray → List Op → List (Except DiskError Reply)
  | _, [] => []
  | array, op :: ops => (array.perform op).1 :: answers (array.perform op).2 ops

/-- `array` after the operations `ops` in a row. -/
def after (array : PageArray) (ops : List Op) : PageArray :=
  ops.foldl (fun array op => (array.perform op).2) array

/-- A page number is wide enough for the number of pages whenever the operations count them. -/
def Numbered : PageArray → List Op → Prop
  | _, [] => True
  | array, op :: ops =>
    (op.counts = true → array.pages.length < UInt32.size) ∧ Numbered (array.perform op).2 ops

/-- Whenever a page is asked for, a buffer can be as long as a page. -/
def Readable : PageArray → List Op → Prop
  | _, [] => True
  | array, op :: ops => op.tooLong array.size = false ∧ Readable (array.perform op).2 ops

instance decidableNumbered : (array : PageArray) → (ops : List Op) → Decidable (array.Numbered ops)
  | _, [] => inferInstanceAs (Decidable True)
  | array, op :: ops =>
    have := decidableNumbered (array.perform op).2 ops
    inferInstanceAs (Decidable (_ ∧ _))

instance decidableReadable : (array : PageArray) → (ops : List Op) → Decidable (array.Readable ops)
  | _, [] => inferInstanceAs (Decidable True)
  | array, op :: ops =>
    have := decidableReadable (array.perform op).2 ops
    inferInstanceAs (Decidable (_ ∧ _))

/-- The `answers` with a fault in place of each that asks for a buffer that is too long. -/
def answersOrFaults : PageArray → List Op → List (Except (Failure DiskError) Reply)
  | _, [] => []
  | array, op :: ops =>
    (if op.tooLong array.size then .error (.fault .tooLong)
      else (array.perform op).1.mapError .error)
      :: answersOrFaults (array.perform op).2 ops

/-! ### The bytes of an array -/

@[simp]
theorem bytes_extend (array : PageArray) {page : Bytes} (fits : page.length = array.size) :
  (array.extend page fits).bytes = array.pages.flatten ++ page
  := by
  simp [bytes, extend]

@[simp]
theorem bytes_push (array : PageArray) (byte : UInt8) :
  (array.push byte).bytes = array.bytes ++ [byte]
  := by
  unfold push
  split <;> simp [bytes, extend]

@[simp]
theorem size_push (array : PageArray) (byte : UInt8) :
  (array.push byte).size = array.size
  := by
  unfold push
  split <;> rfl

/-- To `cut` bytes into pages leaves the same bytes. -/
@[simp]
theorem bytes_cut (size : Nat) (positive : 0 < size) (bytes : Bytes) :
  (cut size positive bytes).bytes = bytes
  := by
  have pushed : ∀ (bytes : Bytes) (array : PageArray),
      (bytes.foldl push array).bytes = array.bytes ++ bytes := by
    intro bytes
    induction bytes with
    | nil => simp
    | cons byte bytes ih => simp [ih]
  rw [cut, pushed]
  rfl

@[simp]
theorem size_cut (size : Nat) (positive : 0 < size) (bytes : Bytes) :
  (cut size positive bytes).size = size
  := by
  have pushed : ∀ (bytes : Bytes) (array : PageArray),
      (bytes.foldl push array).size = array.size := by
    intro bytes
    induction bytes with
    | nil => simp
    | cons byte bytes ih => simp [ih]
  apply pushed

/-- `pages` of one `size` are as long together as their number times `size`. -/
theorem length_flatten {size : Nat} {pages : List Bytes}
    (whole : ∀ page ∈ pages, page.length = size) :
  pages.flatten.length = pages.length * size
  := by
  rw [List.length_flatten, List.map_congr_left whole]
  simp

/-- The pages of `array` are those before the page `no`, that page, and those after it. -/
theorem exists_split (array : PageArray) {no : Nat} (within : no < array.pages.length) :
  ∃ front page back, array.pages = front ++ page :: back ∧ front.length = no
    ∧ front.flatten.length = no * array.size ∧ page.length = array.size
  := by
  have split : array.pages
      = array.pages.take no ++ array.pages[no] :: array.pages.drop (no + 1) := by
    simp
  have length : (array.pages.take no).length = no := by simp; omega
  refine ⟨_, _, _, split, length, ?_, array.whole _ (List.getElem_mem within)⟩
  rw [length_flatten fun page member => array.whole page (List.mem_of_mem_take member), length]

end PageArray

/-! ### Files -/

namespace PageFile

/-- The answer of `file` to an operation, and the file after it. -/
def perform (file : PageFile) : Op → Except (Failure DiskError) Reply × PageFile
  | .read no => ((file.read no).map .page, file)
  | .write no data =>
    match file.write no data with
    | .ok after => (.ok .done, after)
    | .error failure => (.error failure, file)
  | .allocate data =>
    match file.allocate data with
    | .ok (no, after) => (.ok (.number no.toNat), after)
    | .error failure => (.error failure, file)
  | .count => ((orFault file.pageCount).map fun pages => .number pages.toNat, file)
  | .reopen pageSize => (.ok .done, file.withPageSize pageSize)
  | .append data => (.ok .done, file.append data)
  | .truncate length => (.ok .done, file.truncate length)

/-- An operation that is refused leaves the file as it is. -/
theorem perform_of_error {file : PageFile} {op : Op} {failure : Failure DiskError}
    (refused : (file.perform op).1 = .error failure) :
  (file.perform op).2 = file
  := by
  cases op with
  | read | count => rfl
  | reopen | append | truncate => cases refused
  | write no data =>
    simp only [perform] at refused ⊢
    split at refused
    · cases refused
    · simp [*]
  | allocate data =>
    simp only [perform] at refused ⊢
    split at refused
    · cases refused
    · simp [*]

/-- What operations in a row are answered by a file. -/
def answers : PageFile → List Op → List (Except (Failure DiskError) Reply)
  | _, [] => []
  | file, op :: ops => (file.perform op).1 :: answers (file.perform op).2 ops

/-- `file` after the operations `ops` in a row. -/
def after (file : PageFile) (ops : List Op) : PageFile :=
  ops.foldl (fun file op => (file.perform op).2) file

/-- `file` as an array of pages. -/
def toArray (file : PageFile) (positive : 0 < file.pageSize) : PageArray :=
  .cut file.pageSize positive file.contents.toList

/-- Whether `file` holds the pages of `array`, and its tail. -/
structure Mirrors (file : PageFile) (array : PageArray) : Prop where
  size : file.pageSize = array.size
  bytes : file.contents.toList = array.bytes

theorem mirrors_toArray (file : PageFile) (positive : 0 < file.pageSize) :
  file.Mirrors (file.toArray positive)
  := ⟨by simp [toArray], by simp [toArray]⟩

namespace Mirrors

variable {file : PageFile} {array : PageArray} {no : PageNo} {data : Bytes}

/-- A file that `Mirrors` an `array` has as many whole pages. -/
theorem pages (mirrors : file.Mirrors array) :
  file.pages = array.pages.length
  := by
  have length : file.contents.size = array.tail.length + array.pages.length * array.size := by
    rw [← Array.length_toList, mirrors.bytes, PageArray.bytes, List.length_append,
      PageArray.length_flatten array.whole, Nat.add_comm]
  have positive : 0 < array.size := Nat.zero_lt_of_lt array.short
  rw [pages_eq, length, mirrors.size, Nat.add_mul_div_right _ _ positive,
    Nat.div_eq_of_lt array.short, Nat.zero_add]

/-- A file that `Mirrors` an `array` counts its pages, cut to a `UInt32`. -/
theorem pageCount (mirrors : file.Mirrors array) :
  file.pageCount = .ok (UInt32.ofNat array.pages.length)
  := by
  have positive : file.pageSize ≠ 0 := by
    rw [mirrors.size]
    apply Nat.ne_of_gt (Nat.zero_lt_of_lt array.short)
  simp only [PageFile.pageCount, if_neg positive, ← mirrors.pages]
  rfl

/-- `file.read no` answers as `array.read no`, if every page has a number and a page fits a
buffer. -/
theorem read (mirrors : file.Mirrors array) (numbered : array.pages.length < UInt32.size)
    (fits : array.size ≤ maxLength) :
  file.read no = (array.read no).mapError .error
  := by
  have count : (UInt32.ofNat array.pages.length).toNat = array.pages.length :=
    UInt32.toNat_ofNat_of_lt' numbered
  have short : ¬ maxLength < file.pageSize := by
    rw [mirrors.size]
    apply Nat.not_lt.mpr fits
  simp only [PageFile.read, if_neg short, mirrors.pageCount, orFault, PageArray.read,
    UInt32.le_iff_toNat_le, count, bind, Except.bind, pure, Except.pure]
  by_cases within : no.toNat < array.pages.length
  · obtain ⟨front, page, back, split, length, start, size⟩ := array.exists_split within
    have found : array.pages[no.toNat]? = some page := by
      rw [split, ← length]
      simp
    have stored : file.page no = page := by
      rw [page_eq, mirrors.bytes, offset, mirrors.size, ← start, ← size, PageArray.bytes, split]
      simp
    rw [if_neg (Nat.not_le.mpr within), found, stored]
    rfl
  · rw [if_pos (Nat.not_lt.mp within), List.getElem?_eq_none (Nat.not_lt.mp within)]
    rfl

/-- `file.store no data` over a page `Mirrors` the `array` in which `data` replaces that page. -/
theorem store (mirrors : file.Mirrors array) (fits : data.length = array.size)
    (within : no.toNat < array.pages.length) :
  (file.store no data).Mirrors (array.replace no.toNat data fits)
  := by
  obtain ⟨front, page, back, split, length, start, size⟩ := array.exists_split within
  refine ⟨mirrors.size, ?_⟩
  have replaced : array.pages.set no.toNat data = front ++ data :: back := by
    rw [split, ← length]
    simp
  have before : array.bytes = front.flatten ++ (page ++ (back.flatten ++ array.tail)) := by
    simp [PageArray.bytes, split]
  rw [toList_store, mirrors.bytes, offset, mirrors.size, ← start, Bytes.overwrite, before, fits,
    ← size, ← List.length_append, List.take_left, ← List.append_assoc front.flatten page,
    List.drop_left]
  simp [PageArray.replace, PageArray.bytes, replaced]

/-- `file.store no data` after the last page `Mirrors` the `array` that `data` extends, without its
tail. -/
theorem store_last (mirrors : file.Mirrors array) (fits : data.length = array.size)
    (last : no.toNat = array.pages.length) :
  (file.store no data).Mirrors (array.extend data fits)
  := by
  refine ⟨mirrors.size, ?_⟩
  have start : file.offset no = array.pages.flatten.length := by
    rw [offset, last, mirrors.size, PageArray.length_flatten array.whole]
  have beyond : array.bytes.length ≤ array.pages.flatten.length + data.length := by
    have short := array.short
    rw [PageArray.bytes, List.length_append, fits]
    omega
  rw [toList_store, mirrors.bytes, start, Bytes.overwrite, List.drop_eq_nil_of_le beyond,
    PageArray.bytes, List.take_left, PageArray.bytes_extend, List.append_nil]

/-- `.write no data` is answered by the file as by the `array`, and leaves a file that `Mirrors`
what it leaves of the `array`. -/
theorem write (mirrors : file.Mirrors array) (numbered : array.pages.length < UInt32.size)
    (no : PageNo) (data : Bytes) :
  (file.perform (.write no data)).1 = (array.perform (.write no data)).1.mapError .error
    ∧ (file.perform (.write no data)).2.Mirrors (array.perform (.write no data)).2
  := by
  have count : (UInt32.ofNat array.pages.length).toNat = array.pages.length :=
    UInt32.toNat_ofNat_of_lt' numbered
  simp only [PageFile.perform, PageFile.write, checkSize, mirrors.pageCount, mirrors.size, orFault,
    UInt32.lt_iff_toNat_lt, count, PageArray.perform, PageArray.write, bind, Except.bind, pure,
    Except.pure]
  by_cases fits : data.length = array.size
  · rcases Nat.lt_trichotomy no.toNat array.pages.length with within | last | beyond
    · have inside : ¬ array.pages.length < no.toNat := Nat.not_lt.mpr (Nat.le_of_lt within)
      simp only [fits, if_pos, inside, if_false, dite_true, within]
      exact ⟨rfl, mirrors.store fits within⟩
    · simp only [fits, last, if_pos, Nat.lt_irrefl, if_false, dite_true]
      exact ⟨rfl, mirrors.store_last fits last⟩
    · have outside : ¬ no.toNat < array.pages.length := Nat.not_lt.mpr (Nat.le_of_lt beyond)
      simp only [fits, if_pos, beyond, outside, if_false, dite_true, Nat.ne_of_gt beyond]
      exact ⟨rfl, mirrors⟩
  · simp only [fits, if_false, dite_false]
    exact ⟨rfl, mirrors⟩

/-- `.allocate data` is answered by the file as by the `array`, and leaves a file that `Mirrors`
what it leaves of the `array`. -/
theorem allocate (mirrors : file.Mirrors array) (numbered : array.pages.length < UInt32.size)
    (data : Bytes) :
  (file.perform (.allocate data)).1 = (array.perform (.allocate data)).1.mapError .error
    ∧ (file.perform (.allocate data)).2.Mirrors (array.perform (.allocate data)).2
  := by
  have count : (UInt32.ofNat array.pages.length).toNat = array.pages.length :=
    UInt32.toNat_ofNat_of_lt' numbered
  simp only [PageFile.perform, PageFile.allocate, checkSize, mirrors.pageCount, mirrors.size,
    orFault, PageArray.perform, PageArray.allocate, bind, Except.bind, pure, Except.pure]
  by_cases fits : data.length = array.size
  · simp only [fits, if_pos, dite_true, count]
    exact ⟨rfl, mirrors.store_last fits count⟩
  · simp only [fits, if_false, dite_false]
    exact ⟨rfl, mirrors⟩

/-- `file.perform op` answers as `array.perform op`, unless `op` asks for a buffer that is too
long, and `Mirrors` persists. -/
theorem perform (mirrors : file.Mirrors array) (op : Op)
    (numbered : op.counts = true → array.pages.length < UInt32.size) :
  (file.perform op).1 = (if op.tooLong array.size then .error (.fault .tooLong)
      else (array.perform op).1.mapError .error)
    ∧ (file.perform op).2.Mirrors (array.perform op).2
  := by
  cases op with
  | write no data => apply mirrors.write (numbered rfl)
  | allocate data => apply mirrors.allocate (numbered rfl)
  | read no =>
    refine ⟨?_, mirrors⟩
    by_cases long : maxLength < array.size
    · have refused : file.read no = .error (.fault .tooLong) := by
        rw [← mirrors.size] at long
        simp [PageFile.read, long, bind, Except.bind, throw, throwThe, MonadExceptOf.throw]
      simp [PageFile.perform, refused, Op.tooLong, long, Except.map]
    · have found : file.read no = (array.read no).mapError .error :=
        mirrors.read (numbered rfl) (Nat.not_lt.mp long)
      simp only [PageFile.perform, found, Op.tooLong, long, decide_false, PageArray.perform]
      cases array.read no <;> rfl
  | count =>
    refine ⟨?_, mirrors⟩
    simp [PageFile.perform, mirrors.pageCount, orFault, PageArray.perform, Op.tooLong, Except.map,
      Except.mapError, UInt32.toNat_ofNat_of_lt' (numbered rfl)]
  | reopen pageSize =>
    refine ⟨rfl, ?_, ?_⟩
    · simp [PageFile.perform, PageArray.perform, withPageSize]
    · simp only [PageFile.perform, PageArray.perform, PageArray.bytes_cut]
      exact mirrors.bytes
  | append data =>
    refine ⟨rfl, ?_, ?_⟩
    · simp [PageFile.perform, PageArray.perform, PageFile.append, PageArray.recut, mirrors.size]
    · simp [PageFile.perform, PageArray.perform, toList_append, PageArray.recut, mirrors.bytes]
  | truncate length =>
    refine ⟨rfl, ?_, ?_⟩
    · simp [PageFile.perform, PageArray.perform, truncate, PageArray.recut, mirrors.size]
    · simp [PageFile.perform, PageArray.perform, toList_truncate, PageArray.recut, ← mirrors.bytes]

/-! ### Runs -/

/-- The operations `ops` in a row are answered as by the `array`, apart from those that ask for a
buffer that is too long, and leave a file that `Mirrors` the `array` after `ops`. -/
theorem answers (mirrors : file.Mirrors array) {ops : List Op} (numbered : array.Numbered ops) :
  file.answers ops = array.answersOrFaults ops ∧ (file.after ops).Mirrors (array.after ops)
  := by
  induction ops generalizing file array with
  | nil => exact ⟨rfl, mirrors⟩
  | cons op ops ih =>
    obtain ⟨first, step⟩ := mirrors.perform op numbered.1
    obtain ⟨rest, after⟩ := ih step numbered.2
    refine ⟨?_, after⟩
    rw [PageFile.answers, PageArray.answersOrFaults, first, rest]

end Mirrors

end PageFile

/-- `answersOrFaults ops` has no faults exactly if `ops` are `Readable`, that is, none asks for a
buffer that is too long. -/
theorem PageArray.answersOrFaults_eq_iff (array : PageArray) (ops : List PageFile.Op) :
  array.answersOrFaults ops = (array.answers ops).map (Except.mapError .error)
    ↔ array.Readable ops
  := by
  induction ops generalizing array with
  | nil => simp [answersOrFaults, answers, Readable]
  | cons op ops ih =>
    simp only [answersOrFaults, answers, List.map_cons, List.cons.injEq, ih, Readable]
    apply and_congr_left
    intro _
    cases long : op.tooLong array.size with
    | false => simp
    | true => cases (array.perform op).1 <;> simp [Except.mapError]

namespace PageFile

/-- A page file answers `ops` in a row, among them changes from outside, as the array of its pages
does, and holds the bytes of the array afterwards, provided that the pages are `Numbered` whenever
they are counted; only the reads that ask for a buffer that is too long fault.  So every operation
is answered as by the array exactly if `ops` are `Readable`.  An operation that is refused leaves
the file as it is. -/
theorem answers_eq_iff_readable (file : PageFile) (positive : 0 < file.pageSize) (ops : List Op)
    (numbered : (file.toArray positive).Numbered ops) :
  (file.toArray positive).bytes = file.contents.toList
    ∧ file.answers ops = (file.toArray positive).answersOrFaults ops
    ∧ (file.answers ops = ((file.toArray positive).answers ops).map (Except.mapError .error)
      ↔ (file.toArray positive).Readable ops)
    ∧ (file.after ops).pageSize = ((file.toArray positive).after ops).size
    ∧ (file.after ops).contents.toList = ((file.toArray positive).after ops).bytes
    ∧ ∀ op failure, ((file.after ops).perform op).1 = .error failure →
        ((file.after ops).perform op).2 = file.after ops
  := by
  obtain ⟨answered, after⟩ := (file.mirrors_toArray positive).answers numbered
  refine ⟨PageArray.bytes_cut .., answered, ?_, after.size, after.bytes, ?_⟩
  · rw [answered]
    apply PageArray.answersOrFaults_eq_iff
  · intro op failure
    apply perform_of_error

/-- A file with a page of two bytes and a tail. -/
def tailed : PageFile := ⟨2, ⟨#[1, 2, 3]⟩⟩

/-- On `tailed`, pages are read and written, the next page takes the place of the tail, and the
bytes read as pages of another size. -/
def tailedOps : List Op :=
  [ .read 0, .read 1, .write 0 [7, 8], .write 2 [0, 0], .write 1 [9], .allocate [5, 6],
    .append [4], .count, .reopen ⟨3, by decide⟩, .read 1, .truncate 4, .count ]

/-- The answers of `tailed` to `tailedOps`, where a page takes the place of the tail. -/
theorem answers_tailed :
  0 < tailed.pageSize ∧ (tailed.toArray (by decide)).Numbered tailedOps
    ∧ tailed.answers tailedOps
      = [ .ok (.page [1, 2]), .error (.error (.invalidPageNo 1)), .ok .done,
          .error (.error (.invalidPageNo 2)), .error (.error (.sizeMismatch 2 1)),
          .ok (.number 1), .ok .done, .ok (.number 2), .ok .done,
          .error (.error (.invalidPageNo 1)), .ok .done, .ok (.number 1) ]
  := by
  have numbered : (tailed.toArray (by decide)).Numbered tailedOps := by decide
  have readable : (tailed.toArray (by decide)).Readable tailedOps := by decide
  obtain ⟨-, -, answered, -⟩ := answers_eq_iff_readable tailed (by decide) tailedOps numbered
  refine ⟨by decide, numbered, ?_⟩
  rw [answered.mpr readable]
  decide

/-- A file without bytes has no page, of whichever size; asked for one of 9223372036854775808
bytes, it answers `.fault .tooLong` where the array answers `.invalidPageNo 0`. -/
theorem answers_longest_page :
  (empty 9223372036854775808).answers [.read 0] = [.error (.fault .tooLong)]
    ∧ ((empty 9223372036854775808).toArray (by decide)).answers [.read 0]
      = [.error (.invalidPageNo 0)]
  := ⟨rfl, rfl⟩

end PageFile

end StorageEngine

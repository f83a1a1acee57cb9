import StorageEngine.Bytes
import StorageEngine.Fault
import StorageEngine.Identifier

/-!
# Page files

A page file is a string of bytes that is read and written in pages of one size.  Pages are
numbered from zero and stored back to back; bytes after the last whole page form a tail that
no page number reaches and that the next page appended to the file overwrites.  The main
statement says that a stored page reads back (`page_store`).
-/

namespace StorageEngine

/-- Why a page file refuses an operation. -/
inductive DiskError where
  /-- The file itself cannot be used, for the reason given. -/
  | io (reason : String)
  | invalidPageNo (no : PageNo)
  | sizeMismatch (expected actual : Nat)
  deriving DecidableEq

/-- The wording of a page-file error. -/
def DiskError.message : DiskError → String
  | .io reason => s!"IO error: {reason}"
  | .invalidPageNo no => s!"Invalid page number: {no.toNat}"
  | .sizeMismatch expected actual => s!"Page buffer is {actual} bytes, expected {expected}"

/-- A file of pages of `pageSize` bytes. -/
structure PageFile where
  pageSize : Nat
  bytes : ByteArray

namespace PageFile

/-- The bytes of a file. -/
def contents (file : PageFile) : Array UInt8 := file.bytes.data

@[simp]
theorem contents_mk (pageSize : Nat) (contents : Array UInt8) :
  PageFile.contents ⟨pageSize, ⟨contents⟩⟩ = contents
  := rfl

/-- The empty file. -/
def empty (pageSize : Nat) : PageFile := ⟨pageSize, .empty⟩

/-- The same bytes as a file of pages of another size. -/
def withPageSize (file : PageFile) (pageSize : Nat) : PageFile :=
  { file with pageSize }

/-- The number of whole pages, cut to the width of a page number. -/
def pageCount (file : PageFile) : Except Fault PageNo :=
  if file.pageSize = 0 then .error .divisionByZero
  else .ok (UInt32.ofNat (file.bytes.size / file.pageSize))

/-- Where a page starts. -/
def offset (file : PageFile) (no : PageNo) : Nat := no.toNat * file.pageSize

/-- The bytes of the page with a given number. -/
def page (file : PageFile) (no : PageNo) : Bytes :=
  (file.bytes.extract (file.offset no) (file.offset no + file.pageSize)).data.toList

/-- The file with `data` stored as the page with a given number. -/
def store (file : PageFile) (no : PageNo) (data : Bytes) : PageFile :=
  { file with
    bytes := ByteArray.copySlice ⟨data.toArray⟩ 0 file.bytes (file.offset no) data.length }

/-- A page is a range of the contents. -/
theorem page_eq (file : PageFile) (no : PageNo) :
  file.page no = (file.contents.toList.drop (file.offset no)).take file.pageSize
  := by
  simp [page, contents]

/-- Storing a page overwrites a range of the contents. -/
theorem toList_store (file : PageFile) (no : PageNo) (data : Bytes) :
  (file.store no data).contents.toList
    = Bytes.overwrite file.contents.toList (file.offset no) data
  := by
  simp only [store, contents, ByteArray.copySlice, Bytes.overwrite, Array.toList_append,
    Array.toList_extract, List.extract_eq_take_drop, List.drop_zero, Nat.sub_zero, Nat.zero_add,
    List.size_toArray, Nat.min_self, List.take_length]
  congr 1
  apply List.take_of_length_le
  simp

/-- The page that was stored reads back, also as the page after the last. -/
theorem page_store {file : PageFile} {no : PageNo} {data : Bytes}
    (size : data.length = file.pageSize) (within : file.offset no ≤ file.contents.size) :
  (file.store no data).page no = data
  := by
  rw [page_eq, toList_store]
  show ((Bytes.overwrite _ (file.offset no) data).drop (file.offset no)).take file.pageSize = data
  rw [← size]
  exact Bytes.take_drop_overwrite within

/-- Refuses data that is not one page long. -/
def checkSize (file : PageFile) (data : Bytes) : Except (Failure DiskError) Unit :=
  if data.length = file.pageSize then .ok ()
  else .error (.error (.sizeMismatch file.pageSize data.length))

/-- Reads a page. -/
def read (file : PageFile) (no : PageNo) : Except (Failure DiskError) Bytes := do
  if maxLength < file.pageSize then
    throw (.fault .tooLong)
  let count ← orFault file.pageCount
  if count ≤ no then
    throw (.error (.invalidPageNo no))
  return file.page no

/-- Writes a page, which may be the one after the last. -/
def write (file : PageFile) (no : PageNo) (data : Bytes) :
    Except (Failure DiskError) PageFile := do
  file.checkSize data
  let count ← orFault file.pageCount
  if count < no then
    throw (.error (.invalidPageNo no))
  return file.store no data

/-- Appends a page and answers its number. -/
def allocate (file : PageFile) (data : Bytes) :
    Except (Failure DiskError) (PageNo × PageFile) := do
  file.checkSize data
  let count ← orFault file.pageCount
  return (count, file.store count data)

/-! ## Changes from outside -/

/-- The file with bytes added at its end. -/
def append (file : PageFile) (data : Bytes) : PageFile :=
  { file with bytes := file.bytes ++ ⟨data.toArray⟩ }

/-- The file cut to its first `length` bytes. -/
def truncate (file : PageFile) (length : Nat) : PageFile :=
  { file with bytes := file.bytes.extract 0 length }

/-- The contents end in the bytes that were added. -/
theorem toList_append (file : PageFile) (data : Bytes) :
  (file.append data).contents.toList = file.contents.toList ++ data
  := by
  simp [append, contents]

/-- The contents are cut to their first bytes. -/
theorem toList_truncate (file : PageFile) (length : Nat) :
  (file.truncate length).contents.toList = file.contents.toList.take length
  := by
  simp [truncate, contents]

end PageFile

end StorageEngine

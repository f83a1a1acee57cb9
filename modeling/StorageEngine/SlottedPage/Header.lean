import StorageEngine.Bytes
import StorageEngine.Fault

/-!
# Page headers and slot entries

The fixed-width parts of a slotted page.  The header takes the first `headerSize` bytes and
says where the free space starts, how much of it is left, and how many slots there are.
Each slot entry takes `slotSize` bytes and says where a record lies.
-/

namespace StorageEngine.SlottedPage

/-- The number of bytes of a header: three words. -/
def headerSize : Nat := 12

/-- The number of bytes of a slot entry: two words. -/
def slotSize : Nat := 8

/-! ## Headers -/

/-- The header of a slotted page. -/
structure Header where
  /-- Where the next record goes. -/
  freeOffset : UInt32
  /-- How many bytes are left for records and their slot entries. -/
  freeSize : UInt32
  /-- How many slots there are, deleted ones included. -/
  recordCount : UInt32
  deriving DecidableEq

namespace Header

/-- The header of an empty page of `size` bytes, its fields cut to a word. -/
def empty (size : Nat) : Except Fault Header := do
  let free ← subLengths size headerSize
  return ⟨UInt32.ofNat headerSize, UInt32.ofNat free, 0⟩

/-- The bytes of a header. -/
def encode (header : Header) : Bytes :=
  Word.encode header.freeOffset ++ Word.encode header.freeSize ++ Word.encode header.recordCount

/-- The header that starts a page. -/
def decode (page : Bytes) : Except Fault Header :=
  match Word.decode? page, Word.decode? (page.drop 4), Word.decode? (page.drop 8) with
  | some freeOffset, some freeSize, some recordCount => .ok ⟨freeOffset, freeSize, recordCount⟩
  | _, _, _ => .error .outOfRange

@[simp]
theorem length_encode (header : Header) :
  header.encode.length = headerSize
  := rfl

/-- A stored header reads back, whatever follows it. -/
@[simp]
theorem decode_encode (header : Header) (rest : Bytes) :
  decode (header.encode ++ rest) = .ok header
  := by
  have second : (header.encode ++ rest).drop 4
      = Word.encode header.freeSize ++ (Word.encode header.recordCount ++ rest) := by
    simp [encode, Word.encode]
  have third : (header.encode ++ rest).drop 8 = Word.encode header.recordCount ++ rest := by
    simp [encode, Word.encode]
  have first : header.encode ++ rest = Word.encode header.freeOffset
      ++ (Word.encode header.freeSize ++ (Word.encode header.recordCount ++ rest)) := by
    simp [encode]
  rw [decode, second, third, first]
  simp

end Header

/-! ## Slot entries -/

/-- Where a record lies in its page.  A record of length zero is a deleted one. -/
structure SlotEntry where
  offset : UInt32
  length : UInt32
  deriving DecidableEq

namespace SlotEntry

/-- Whether the slot's record was deleted. -/
def isDeleted (entry : SlotEntry) : Bool := entry.length == 0

/-- The bytes of a slot entry. -/
def encode (entry : SlotEntry) : Bytes :=
  Word.encode entry.offset ++ Word.encode entry.length

/-- The slot entry that starts a string of bytes. -/
def decode (bytes : Bytes) : Except Fault SlotEntry :=
  match Word.decode? bytes, Word.decode? (bytes.drop 4) with
  | some offset, some length => .ok ⟨offset, length⟩
  | _, _ => .error .outOfRange

@[simp]
theorem length_encode (entry : SlotEntry) :
  entry.encode.length = slotSize
  := rfl

/-- A stored slot entry reads back, whatever follows it. -/
@[simp]
theorem decode_encode (entry : SlotEntry) (rest : Bytes) :
  decode (entry.encode ++ rest) = .ok entry
  := by
  have second : (entry.encode ++ rest).drop 4 = Word.encode entry.length ++ rest := by
    simp [encode, Word.encode]
  have first : entry.encode ++ rest
      = Word.encode entry.offset ++ (Word.encode entry.length ++ rest) := by
    simp [encode]
  rw [decode, second, first]
  simp

end SlotEntry

end StorageEngine.SlottedPage

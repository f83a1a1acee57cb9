import StorageEngine.Identifier
import StorageEngine.SlottedPage.Header

/-!
# The layout of a slotted page

A slotted page is a string of bytes that holds records.  Record bytes grow forward from the
header, slot entries grow backward from the end of the page, and the size of the page is the
length of the string.  Deleting a record marks its slot entry and leaves its space unused.

The operations take any string of bytes.  A header that does not fit the page makes them
fault, and a fault or an error says nothing about the page that its operation returns beside
it: an insertion that overflows its header has already stored its record.
-/

namespace StorageEngine

/-- Why a slotted page refuses an operation. -/
inductive PageError where
  | insufficientSpace
  | recordNotFound (slot : SlotId)
  | invalidSlot (slot : SlotId)
  deriving DecidableEq

/-- The wording of a page error. -/
def PageError.message : PageError → String
  | .insufficientSpace => "Not enough space in page"
  | .recordNotFound slot => s!"Record in slot {slot.toNat} not found"
  | .invalidSlot slot => s!"Invalid slot: {slot.toNat}"

namespace SlottedPage

/-! ## Headers and free space -/

/-- The page with the header of an empty page; the bytes after the header stay. -/
def init (page : Bytes) : Except Fault Bytes := do
  let header ← Header.empty page.length
  return page.overwrite 0 header.encode

/-- The header of the page. -/
def header (page : Bytes) : Except Fault Header := Header.decode page

/-- How many bytes are left for records and their slot entries. -/
def freeSpace (page : Bytes) : Except Fault UInt32 := do
  return (← header page).freeSize

/-- Whether a header leaves room for a record of `length` bytes and its slot entry. -/
def Header.hasRoom (header : Header) (length : Nat) : Except Fault Bool := do
  let needed ← addLengths length slotSize
  return decide (needed ≤ header.freeSize.toNat)

/-- Whether a record of `length` bytes and its slot entry still fit. -/
def hasRoom (page : Bytes) (length : Nat) : Except Fault Bool := do
  (← header page).hasRoom length

/-- Where the entry of a slot starts in a page of `size` bytes. -/
def slotStart (size : Nat) (slot : SlotId) : Except Fault Nat :=
  subLengths size (slotSize * (slot.toNat + 1))

/-! ## Insertion -/

/-- The header after a record of `length` bytes was stored. -/
def Header.grow (header : Header) (length : Nat) : Except Fault Header :=
  if header.freeOffset.toNat + length < UInt32.size then
    if length + slotSize ≤ header.freeSize.toNat then
      if header.recordCount.toNat + 1 < UInt32.size then
        .ok ⟨header.freeOffset + UInt32.ofNat length,
          header.freeSize - UInt32.ofNat (length + slotSize), header.recordCount + 1⟩
      else .error .overflow
    else .error .underflow
  else .error .overflow

/-- Where an insertion stores its record. -/
structure Placement where
  /-- The header before the insertion. -/
  header : Header
  /-- Where the record's slot entry starts. -/
  slotStart : Nat

/-- The place of a record: the start of the free space, if the record is not empty, fits the
free space, and its bytes and its slot entry lie in the page. -/
def place (page record : Bytes) : Except (Failure PageError) Placement := do
  let header ← orFault (header page)
  if record.isEmpty then
    throw (.error .insufficientSpace)
  if !(← orFault (header.hasRoom record.length)) then
    throw (.error .insufficientSpace)
  let slotStart ← orFault (slotStart page.length header.recordCount)
  if header.freeOffset.toNat + record.length ≤ page.length then
    return ⟨header, slotStart⟩
  else
    throw (.fault .outOfRange)

/-- The page with a record and its slot entry stored, under the old header. -/
def store (page record : Bytes) (place : Placement) : Bytes :=
  (page.overwrite place.header.freeOffset.toNat record).overwrite place.slotStart
    (SlotEntry.encode ⟨place.header.freeOffset, UInt32.ofNat record.length⟩)

/-- Stores a record in the next slot and answers that slot. -/
def insert (page record : Bytes) : Except (Failure PageError) SlotId × Bytes :=
  match place page record with
  | .error failure => (.error failure, page)
  | .ok place =>
    let stored := store page record place
    match place.header.grow record.length with
    | .error fault => (.error (.fault fault), stored)
    | .ok header => (.ok place.header.recordCount, stored.overwrite 0 header.encode)

/-! ## Look-up and deletion -/

/-- The entry of a slot, with the position at which it starts. -/
def entry (page : Bytes) (slot : SlotId) : Except (Failure PageError) (Nat × SlotEntry) := do
  let header ← orFault (header page)
  if header.recordCount ≤ slot then
    throw (.error (.invalidSlot slot))
  let start ← orFault (slotStart page.length slot)
  let entry ← orFault (SlotEntry.decode (page.drop start))
  if entry.isDeleted then
    throw (.error (.recordNotFound slot))
  return (start, entry)

/-- The record in a slot. -/
def record (page : Bytes) (slot : SlotId) : Except (Failure PageError) Bytes := do
  let (_, entry) ← entry page slot
  match page.slice? entry.offset.toNat entry.length.toNat with
  | some record => return record
  | none => throw (.fault .outOfRange)

/-- Deletes the record in a slot: its entry gets length zero and keeps its offset. -/
def delete (page : Bytes) (slot : SlotId) : Except (Failure PageError) Unit × Bytes :=
  match entry page slot with
  | .error failure => (.error failure, page)
  | .ok (start, entry) => (.ok (), page.overwrite start (SlotEntry.encode ⟨entry.offset, 0⟩))

/-- The live records of the `n` slots from `slot` on, in slot order. -/
def recordsFrom (page : Bytes) (slot : Nat) : Nat → Except Fault (List (SlotId × Bytes))
  | 0 => .ok []
  | n + 1 =>
    match record page (UInt32.ofNat slot) with
    | .ok found => return (UInt32.ofNat slot, found) :: (← recordsFrom page (slot + 1) n)
    | .error (.error _) => recordsFrom page (slot + 1) n
    | .error (.fault fault) => .error fault

/-- Every live record with its slot, in slot order. -/
def records (page : Bytes) : Except Fault (List (SlotId × Bytes)) := do
  recordsFrom page 0 (← header page).recordCount.toNat

end SlottedPage

end StorageEngine

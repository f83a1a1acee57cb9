import StorageEngine.Proofs.SlottedPage.Records

/-!
# Pages changed wholly or not at all

An insertion and a deletion take any string of bytes for a page, also one whose header and slot
entries make no sense.  All that can go wrong with them goes wrong before they write, as long as a
word can tell the length of the page: they succeed, or leave every byte as it is.  If they succeed,
they have written to few places, which may overlap where the header is corrupt, and the header is
written last (`all_or_nothing`).
-/

namespace StorageEngine

/-! ### Changes of some bytes -/

/-- Whether `bytes` and `after` are equally long and differ in positions that are `changed` at
most. -/
structure Bytes.AgreeBut (changed : Nat → Prop) (bytes after : Bytes) : Prop where
  length : after.length = bytes.length
  same : ∀ i, ¬ changed i → after[i]? = bytes[i]?

namespace Bytes.AgreeBut

variable {bytes middle after data : Bytes} {first second : Nat → Prop} {start : Nat}

theorem trans (before : AgreeBut first bytes middle) (later : AgreeBut second middle after) :
  AgreeBut (fun i => first i ∨ second i) bytes after
  where
  length := later.length.trans before.length
  same i apart := by
    rw [not_or] at apart
    rw [later.same i apart.2, before.same i apart.1]

theorem mono (agree : AgreeBut first bytes after) (wider : ∀ i, first i → second i) :
  AgreeBut second bytes after
  := ⟨agree.length, fun i apart => agree.same i (mt (wider i) apart)⟩

/-- `bytes.overwrite start data` agrees with `bytes` but from `start` on, for the length of
`data`. -/
theorem overwrite (within : start + data.length ≤ bytes.length) :
  AgreeBut (fun i => start ≤ i ∧ i < start + data.length) bytes (bytes.overwrite start data)
  where
  length := length_overwrite within
  same i apart := by
    rw [getElem?_overwrite data (by omega), if_neg apart]

end Bytes.AgreeBut

/-- A `word` is spelled by the four bytes that it is read from. -/
theorem Word.take_of_decode? {bytes : Bytes} {word : UInt32} (eq : decode? bytes = some word) :
  bytes.take 4 = encode word
  := by
  match bytes, eq with
  | a :: b :: c :: d :: rest, eq =>
    obtain rfl := Option.some.inj eq
    have first := a.toNat_lt
    have second := b.toNat_lt
    have third := c.toNat_lt
    have fourth := d.toNat_lt
    simp only [List.take_succ_cons, List.take_zero, encode, List.cons.injEq, and_true,
      ← UInt8.toNat_inj, UInt8.toNat_ofNat', UInt32.toNat_ofNat']
    omega

namespace SlottedPage

variable {page after record : Bytes} {slot : SlotId}

/-! ### Insertion -/

/-- What an insertion of `record` into `slot` has made of `page`: the header grows, and what else
has changed is the range of the record and the entry of its slot. -/
structure Grown (page record : Bytes) (slot : SlotId) (after : Bytes) (header header' : Header)
    (start : Nat) : Prop where
  headed : SlottedPage.header page = .ok header
  headed' : SlottedPage.header after = .ok header'
  next : slot = header.recordCount
  offset : header'.freeOffset.toNat = header.freeOffset.toNat + record.length
  free : header'.freeSize.toNat + (record.length + slotSize) = header.freeSize.toNat
  count : header'.recordCount.toNat = header.recordCount.toNat + 1
  within : start + slotSize * (slot.toNat + 1) = page.length
  agree : Bytes.AgreeBut (fun i => i < headerSize
      ∨ (header.freeOffset.toNat ≤ i ∧ i < header.freeOffset.toNat + record.length)
      ∨ (start ≤ i ∧ i < start + slotSize)) page after

/-- Storing a record and its slot entry changes their bytes. -/
theorem agreeBut_store {placement : Placement} (placed : place page record = .ok placement) :
  Bytes.AgreeBut (fun i => (placement.header.freeOffset.toNat ≤ i
        ∧ i < placement.header.freeOffset.toNat + record.length)
      ∨ (placement.slotStart ≤ i ∧ i < placement.slotStart + slotSize))
    page (store page record placement)
  := by
  obtain ⟨-, -, -, -, within⟩ := place_eq_ok placed
  have entry := slotStart_le placed
  have fits : placement.slotStart
        + (SlotEntry.encode ⟨placement.header.freeOffset, UInt32.ofNat record.length⟩).length
      ≤ (page.overwrite placement.header.freeOffset.toNat record).length := by
    rw [Bytes.length_overwrite within, SlotEntry.length_encode]
    apply entry
  exact (Bytes.AgreeBut.overwrite within).trans (Bytes.AgreeBut.overwrite fits)

/-- An `insert` that succeeds has `Grown` the page: it takes the `slot` after the last, and writes
`record`, its slot entry and the header. -/
theorem grown_insert (eq : insert page record = (.ok slot, after)) :
  ∃ header header' start, Grown page record slot after header header' start
  := by
  obtain ⟨failure, eq'⟩ | ⟨fault, placement, -, eq'⟩ | ⟨placement, header', placed, grown, eq'⟩ :=
    insert_cases page record
  · cases eq.symm.trans eq'
  · cases eq.symm.trans eq'
  cases eq.symm.trans eq'
  obtain ⟨headed, -, -, start, -⟩ := place_eq_ok placed
  obtain ⟨offset, free, count⟩ := grow_eq_ok grown
  refine ⟨placement.header, header', placement.slotStart, headed, header_overwrite _ header', rfl,
    offset, free, count, start, ?_⟩
  have long : 0 + header'.encode.length ≤ (store page record placement).length := by
    rw [length_store placed, Header.length_encode, Nat.zero_add]
    apply headerSize_le headed
  apply ((agreeBut_store placed).trans (Bytes.AgreeBut.overwrite long)).mono
  rintro i ((data | entry) | ⟨-, header⟩)
  · exact .inr (.inl data)
  · exact .inr (.inr entry)
  · left
    simpa using header

/-! ### Deletion -/

/-- What a deletion from `slot` has made of `page`: the length in the entry of the slot, which is
the second word of the entry, is zero and was not, and nothing else has changed. -/
structure Struck (page : Bytes) (slot : SlotId) (after : Bytes) (entry : SlotEntry) (start : Nat) :
    Prop where
  within : start + slotSize * (slot.toNat + 1) = page.length
  found : SlotEntry.decode (page.drop start) = .ok entry
  alive : entry.length ≠ 0
  left : SlotEntry.decode (after.drop start) = .ok { entry with length := 0 }
  agree : Bytes.AgreeBut (fun i => start + 4 ≤ i ∧ i < start + slotSize) page after

/-- An entry is spelled by the bytes it is read from. -/
theorem SlotEntry.take_of_decode {bytes : Bytes} {entry : SlotEntry}
    (eq : SlotEntry.decode bytes = .ok entry) :
  bytes.take 4 = Word.encode entry.offset
  := by
  unfold decode at eq
  split at eq
  · rename_i offset length found _
    cases eq
    apply Word.take_of_decode? found
  · cases eq

/-- A `delete` that succeeds has `Struck` the page: it writes the length in the entry of `slot`. -/
theorem struck_delete (eq : delete page slot = (.ok (), after)) :
  ∃ entry start, Struck page slot after entry start
  := by
  obtain ⟨failure, eq'⟩ | ⟨start, entry, found, eq'⟩ := delete_cases page slot
  · cases eq.symm.trans eq'
  cases eq.symm.trans eq'
  obtain ⟨header, -, -, within, decoded, alive⟩ := entry_eq_ok found
  have fits : start + (SlotEntry.encode ⟨entry.offset, 0⟩).length ≤ page.length := by
    rw [SlotEntry.length_encode]
    simp only [slotSize] at within ⊢
    omega
  have inside : start ≤ page.length := Nat.le_trans (Nat.le_add_right ..) fits
  have offset := SlotEntry.take_of_decode decoded
  refine ⟨entry, start, within, decoded, alive, ?_, Bytes.length_overwrite fits, ?_⟩
  · rw [← SlotEntry.decode_take]
    have stored : ((page.overwrite start (SlotEntry.encode ⟨entry.offset, 0⟩)).drop start).take
        (SlotEntry.encode ⟨entry.offset, 0⟩).length = SlotEntry.encode ⟨entry.offset, 0⟩ :=
      Bytes.take_drop_overwrite inside
    rw [SlotEntry.length_encode] at stored
    rw [stored, ← List.append_nil (SlotEntry.encode _), SlotEntry.decode_encode]
  · intro i apart
    rw [Bytes.getElem?_overwrite _ inside]
    split
    · rename_i written
      -- The first word is written anew, as it was.
      have first : i - start < 4 := by
        rw [SlotEntry.length_encode] at written
        omega
      calc (SlotEntry.encode ⟨entry.offset, 0⟩)[i - start]?
        _ = (Word.encode entry.offset)[i - start]? :=
          List.getElem?_append_left (by simpa using first)
        _ = (page.drop start)[i - start]? := by
          rw [← offset, List.getElem?_take_of_lt first]
        _ = page[i]? := by
          rw [List.getElem?_drop]
          congr 1
          omega
    · rfl

/-! ### All or nothing -/

/-- Whatever the bytes of `page` are, an `insert` and a `delete` that end in an error or a fault
leave them as they are, as long as `page` is shorter than `UInt32.size`.  An `insert` that succeeds
has `Grown` it: the header counts one record more, and the bytes of the header, of `record` and of
its slot entry have changed at most; a `delete` that succeeds has `Struck` it: the length in the
entry of `slot` has changed and nothing else. -/
theorem all_or_nothing (page : Bytes) (short : page.length < UInt32.size) (record : Bytes)
    (slot : SlotId) :
  (match insert page record with
    | (.error _, after) => after = page
    | (.ok slot, after) =>
      ∃ header header' start, Grown page record slot after header header' start)
  ∧ (match delete page slot with
    | (.error _, after) => after = page
    | (.ok (), after) => ∃ entry start, Struck page slot after entry start)
  := by
  constructor
  · rcases eq : insert page record with ⟨failure | slot, after⟩
    · apply insert_failure short eq
    · apply grown_insert eq
  · rcases eq : delete page slot with ⟨failure | _, after⟩
    · apply delete_error eq
    · apply struck_delete eq

/-- A page whose free space begins within its header. -/
def freeInHeader : Bytes :=
  [8, 0, 0, 0, 20, 0, 0, 0, 1, 0, 0, 0, 7, 7, 7, 7, 7, 7, 7, 7, 7, 7, 7, 7, 0, 0, 0, 0, 5, 0, 0, 0]

/-- In `freeInHeader` the record is written over the header, which is right again after that; the
slot that the header does not count is not touched. -/
theorem all_or_nothing_freeInHeader :
  freeInHeader.length < UInt32.size
    ∧ (insert freeInHeader [1, 2, 3]).1 = .ok 1
    ∧ (∃ header, SlottedPage.header (insert freeInHeader [1, 2, 3]).2 = .ok header
      ∧ header.freeOffset.toNat = 11 ∧ header.freeSize.toNat + 11 = 20
      ∧ header.recordCount.toNat = 2)
    ∧ (delete freeInHeader 1).1 = .error (.error (.invalidSlot 1))
    ∧ (delete freeInHeader 1).2 = freeInHeader
  := by
  obtain ⟨inserted, deleted⟩ := all_or_nothing freeInHeader (by decide) [1, 2, 3] 1
  have headed : SlottedPage.header freeInHeader = .ok ⟨8, 20, 1⟩ := by decide
  have stored : (insert freeInHeader [1, 2, 3]).1 = .ok 1 := by decide
  have refused : (delete freeInHeader 1).1 = .error (.error (.invalidSlot 1)) := by decide
  refine ⟨by decide, stored, ?_, refused, ?_⟩
  · rcases eq : insert freeInHeader [1, 2, 3] with ⟨failure | slot, after⟩
    · cases (congrArg Prod.fst eq).symm.trans stored
    · rw [eq] at inserted
      obtain ⟨header, header', start, grown⟩ := inserted
      cases headed.symm.trans grown.headed
      exact ⟨header', grown.headed', grown.offset, grown.free, grown.count⟩
  · rcases eq : delete freeInHeader 1 with ⟨failure | _, after⟩
    · rw [eq] at deleted
      apply deleted
    · cases (congrArg Prod.fst eq).symm.trans refused

end SlottedPage

end StorageEngine

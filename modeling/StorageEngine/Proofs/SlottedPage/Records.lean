import StorageEngine.Proofs.SlottedPage.Layout

/-!
# Records of slotted pages

A page is well formed if its header leaves the free space between the records and the slot entries,
and its live records lie before the free space (`LaidOut`).  An insertion into such a page adds one
record in a slot of its own (`LaidOut.insert`), a deletion takes one record away
(`LaidOut.delete`), and both leave every other record, and the page well formed.
-/

namespace StorageEngine.SlottedPage

variable {page after data bytes : Bytes} {slot other : SlotId} {header header' : Header}
  {entry : SlotEntry}

/-! ### Well-formed pages -/

/-- Where the entry of `slot` starts in `page`. -/
def entryStart (page : Bytes) (slot : SlotId) : Nat :=
  page.length - slotSize * (slot.toNat + 1)

theorem entryStart_congr (length : after.length = page.length) :
  entryStart after slot = entryStart page slot
  := by
  rw [entryStart, entryStart, length]

/-- Whether `page` is laid out as its `header` says: records between the header and the free space,
slot entries behind the free space. -/
structure LaidOut (page : Bytes) (header : Header) : Prop where
  headed : SlottedPage.header page = .ok header
  start : headerSize ≤ header.freeOffset.toNat
  free : header.freeOffset.toNat + header.freeSize.toNat + slotSize * header.recordCount.toNat
    ≤ page.length
  live : ∀ (slot : SlotId) entry, slot.toNat < header.recordCount.toNat →
    SlotEntry.decode (page.drop (entryStart page slot)) = .ok entry → entry.length ≠ 0 →
      headerSize ≤ entry.offset.toNat
        ∧ entry.offset.toNat + entry.length.toNat ≤ header.freeOffset.toNat

/-- Whether `page` has a header and is `LaidOut` as it says. -/
def WellFormed (page : Bytes) : Prop := ∃ header, LaidOut page header

/-! ### What is read from where -/

/-- A header is read from its own bytes alone. -/
theorem Header.decode_take (page : Bytes) :
  Header.decode (page.take headerSize) = Header.decode page
  := by
  have first : Word.decode? (page.take headerSize) = Word.decode? page :=
    Word.decode?_take page 8
  have second : Word.decode? ((page.take headerSize).drop 4) = Word.decode? (page.drop 4) := by
    rw [List.drop_take]
    apply Word.decode?_take (page.drop 4) 4
  have third : Word.decode? ((page.take headerSize).drop 8) = Word.decode? (page.drop 8) := by
    rw [List.drop_take]
    apply Word.decode?_take (page.drop 8) 0
  rw [decode, decode, first, second, third]

/-- `SlotEntry.decode` reads the first `slotSize` bytes alone. -/
theorem SlotEntry.decode_take (bytes : Bytes) :
  SlotEntry.decode (bytes.take slotSize) = SlotEntry.decode bytes
  := by
  have first : Word.decode? (bytes.take slotSize) = Word.decode? bytes :=
    Word.decode?_take bytes 4
  have second : Word.decode? ((bytes.take slotSize).drop 4) = Word.decode? (bytes.drop 4) := by
    rw [List.drop_take]
    apply Word.decode?_take (bytes.drop 4) 0
  rw [decode, decode, first, second]

/-- `bytes` that are as long as a slot entry spell one. -/
theorem SlotEntry.exists_decode (long : slotSize ≤ bytes.length) :
  ∃ entry, SlotEntry.decode bytes = .ok entry
  := by
  match bytes, long with
  | _ :: _ :: _ :: _ :: _ :: _ :: _ :: _ :: _, _ => exact ⟨_, rfl⟩

/-- A `slot` that the `header` does not count holds no record: it is `.invalidSlot`. -/
theorem record_of_count_le (headed : SlottedPage.header page = .ok header)
    (beyond : header.recordCount.toNat ≤ slot.toNat) :
  record page slot = .error (.error (.invalidSlot slot))
  := by
  have beyond : header.recordCount ≤ slot := beyond
  simp [record, SlottedPage.entry, headed, orFault, beyond, bind, Except.bind, throw, throwThe,
    MonadExceptOf.throw]

/-- The `record` of a `slot` that the `header` counts, whose entry is `entry`: none if its length
is 0, else the slice of `page` that it names, if that lies within `page`. -/
theorem record_of_lt_count (headed : SlottedPage.header page = .ok header)
    (counted : slot.toNat < header.recordCount.toNat)
    (fits : slotSize * (slot.toNat + 1) ≤ page.length)
    (decoded : SlotEntry.decode (page.drop (entryStart page slot)) = .ok entry) :
  record page slot
    = if entry.length = 0 then .error (.error (.recordNotFound slot))
      else
        match page.slice? entry.offset.toNat entry.length.toNat with
        | some record => .ok record
        | none => .error (.fault .outOfRange)
  := by
  have within : ¬ header.recordCount ≤ slot := Nat.not_le.mpr counted
  simp only [entryStart] at decoded
  by_cases deleted : entry.length = 0
  · simp [record, SlottedPage.entry, headed, orFault, within, slotStart, subLengths, fits, decoded,
      SlotEntry.isDeleted, deleted, bind, Except.bind, throw, throwThe, MonadExceptOf.throw]
  · simp only [record, SlottedPage.entry, headed, orFault, within, slotStart, subLengths, fits,
      decoded, SlotEntry.isDeleted, deleted, bind, Except.bind, pure, Except.pure, if_false,
      if_true, beq_iff_eq]
    rfl

/-! ### What stays -/

namespace LaidOut

/-- The entry of a counted `slot` starts behind the free space, and lies within `page`. -/
theorem entryStart_bounds (laid : LaidOut page header)
    (counted : slot.toNat < header.recordCount.toNat) :
  header.freeOffset.toNat + header.freeSize.toNat ≤ entryStart page slot
    ∧ entryStart page slot + slotSize * (slot.toNat + 1) = page.length
  := by
  have free := laid.free
  simp only [entryStart, slotSize] at free ⊢
  omega

/-- Every `slot` that the `header` counts has an `entry`. -/
theorem exists_entry (laid : LaidOut page header)
    (counted : slot.toNat < header.recordCount.toNat) :
  ∃ entry, SlotEntry.decode (page.drop (entryStart page slot)) = .ok entry
  := by
  obtain ⟨-, within⟩ := laid.entryStart_bounds counted
  apply SlotEntry.exists_decode
  simp only [List.length_drop, slotSize] at within ⊢
  omega

/-- In a page that is `LaidOut`, the `record` of a counted `slot` is what its `entry` names, unless
its length is 0. -/
theorem record_eq (laid : LaidOut page header) (counted : slot.toNat < header.recordCount.toNat)
    (decoded : SlotEntry.decode (page.drop (entryStart page slot)) = .ok entry) :
  record page slot
    = if entry.length = 0 then .error (.error (.recordNotFound slot))
      else .ok ((page.drop entry.offset.toNat).take entry.length.toNat)
  := by
  obtain ⟨behind, within⟩ := laid.entryStart_bounds counted
  rw [record_of_lt_count laid.headed counted (by omega) decoded]
  by_cases deleted : entry.length = 0
  · rw [if_pos deleted, if_pos deleted]
  · obtain ⟨-, before⟩ := laid.live slot entry counted decoded deleted
    rw [if_neg deleted, if_neg deleted, Bytes.slice?, if_pos (by omega)]

end LaidOut

/-- What stays of `page` where the entry of `slot` is changed: its records, and the entries of the
other slots. -/
structure Kept (page : Bytes) (header : Header) (slot : SlotId) (after : Bytes) : Prop where
  length : after.length = page.length
  records : ∀ first n, headerSize ≤ first → first + n ≤ header.freeOffset.toNat →
    (after.drop first).take n = (page.drop first).take n
  entries : ∀ other : SlotId, other ≠ slot → other.toNat < header.recordCount.toNat →
    (after.drop (entryStart page other)).take slotSize
      = (page.drop (entryStart page other)).take slotSize

/-- The entry of another slot is read as before. -/
theorem Kept.decode_entry (kept : Kept page header slot after) (distinct : other ≠ slot)
    (counted : other.toNat < header.recordCount.toNat) :
  SlotEntry.decode (after.drop (entryStart after other))
    = SlotEntry.decode (page.drop (entryStart page other))
  := by
  rw [← SlotEntry.decode_take, entryStart_congr kept.length, kept.entries other distinct counted,
    SlotEntry.decode_take]

namespace LaidOut

/-- A page is `LaidOut` if the records and other entries are `Kept`, and the entry of `slot` is
that of a record before the free space. -/
theorem of_kept (laid : LaidOut page header) (kept : Kept page header slot after)
    (headed : SlottedPage.header after = .ok header')
    (grows : header.freeOffset.toNat ≤ header'.freeOffset.toNat)
    (free : header'.freeOffset.toNat + header'.freeSize.toNat
      + slotSize * header'.recordCount.toNat ≤ page.length)
    (counts : ∀ other : SlotId, other ≠ slot →
      (other.toNat < header'.recordCount.toNat ↔ other.toNat < header.recordCount.toNat))
    (changed : SlotEntry.decode (after.drop (entryStart page slot)) = .ok entry)
    (live : entry.length ≠ 0 → headerSize ≤ entry.offset.toNat
      ∧ entry.offset.toNat + entry.length.toNat ≤ header'.freeOffset.toNat) :
  LaidOut after header'
  := by
  refine ⟨headed, Nat.le_trans laid.start grows, kept.length ▸ free, ?_⟩
  intro other found counted decoded alive
  by_cases same : other = slot
  · subst same
    rw [entryStart_congr kept.length] at decoded
    cases changed.symm.trans decoded
    apply live alive
  · have counted := (counts other same).mp counted
    rw [kept.decode_entry same counted] at decoded
    obtain ⟨behind, before⟩ := laid.live other found counted decoded alive
    use behind, Nat.le_trans before grows

/-- The `record` of an `other` slot stays where it is `Kept`. -/
theorem record_of_kept (laid : LaidOut page header) (laid' : LaidOut after header')
    (kept : Kept page header slot after)
    (counts : ∀ other : SlotId, other ≠ slot →
      (other.toNat < header'.recordCount.toNat ↔ other.toNat < header.recordCount.toNat))
    (distinct : other ≠ slot) :
  record after other = record page other
  := by
  by_cases counted : other.toNat < header.recordCount.toNat
  · obtain ⟨entry, decoded⟩ := laid.exists_entry counted
    have decoded' := (kept.decode_entry distinct counted).trans decoded
    rw [laid.record_eq counted decoded,
      laid'.record_eq ((counts other distinct).mpr counted) decoded']
    by_cases deleted : entry.length = 0
    · rw [if_pos deleted, if_pos deleted]
    · obtain ⟨behind, before⟩ := laid.live other entry counted decoded deleted
      rw [if_neg deleted, if_neg deleted, kept.records _ _ behind before]
  · have beyond := mt (counts other distinct).mp counted
    rw [record_of_count_le laid.headed (Nat.not_lt.mp counted),
      record_of_count_le laid'.headed (Nat.not_lt.mp beyond)]

end LaidOut

/-! ### Insertion -/

/-- A header that has grown by `length` has as many free bytes less, with the length of a slot
entry, and counts one record more. -/
theorem grow_eq_ok {length : Nat} (eq : header.grow length = .ok header') :
  header'.freeOffset.toNat = header.freeOffset.toNat + length
    ∧ header'.freeSize.toNat + (length + slotSize) = header.freeSize.toNat
    ∧ header'.recordCount.toNat = header.recordCount.toNat + 1
  := by
  unfold Header.grow at eq
  split at eq
  · rename_i offset
    split at eq
    · rename_i room
      split at eq
      · rename_i count
        cases eq
        have size := header.freeSize.toNat_lt
        simp only [slotSize, UInt32.size] at offset room count size ⊢
        refine ⟨?_, ?_, ?_⟩
        · simp only [UInt32.toNat_add, UInt32.toNat_ofNat']
          omega
        · rw [UInt32.toNat_sub_of_le]
          · simp only [UInt32.toNat_ofNat']
            omega
          · rw [UInt32.le_iff_toNat_le, UInt32.toNat_ofNat']
            omega
        · simp only [UInt32.toNat_add, UInt32.reduceToNat]
          omega
      · cases eq
    · cases eq
  · cases eq

/-- `header` is read from a page over whose beginning it was written. -/
theorem header_overwrite (page : Bytes) (header : Header) :
  SlottedPage.header (page.overwrite 0 header.encode) = .ok header
  := by
  simp [SlottedPage.header, Bytes.overwrite]

/-- The header of `page` stays where `data` is written behind it. -/
theorem header_overwrite_of_le {start : Nat} (data : Bytes) (behind : headerSize ≤ start)
    (within : start ≤ page.length) :
  SlottedPage.header (page.overwrite start data) = SlottedPage.header page
  := by
  have before : 0 + headerSize ≤ start := by
    rw [Nat.zero_add]
    apply behind
  have kept := Bytes.take_drop_overwrite_of_disjoint data within (.inl before)
  rw [List.drop_zero, List.drop_zero] at kept
  rw [SlottedPage.header, ← Header.decode_take, kept, Header.decode_take]
  rfl

/-- What an insertion of `data` makes of `page`: the header grows by the record and its slot entry,
which are stored in the free space, and the rest stays. -/
structure Inserted (page data : Bytes) (header : Header) (after : Bytes) (header' : Header) :
    Prop extends Kept page header header.recordCount after where
  headed : SlottedPage.header after = .ok header'
  alive : UInt32.ofNat data.length ≠ 0
  long : (UInt32.ofNat data.length).toNat = data.length
  offset : header'.freeOffset.toNat = header.freeOffset.toNat + data.length
  size : header'.freeSize.toNat + (data.length + slotSize) = header.freeSize.toNat
  count : header'.recordCount.toNat = header.recordCount.toNat + 1
  stored : (after.drop header.freeOffset.toNat).take data.length = data
  entered : SlotEntry.decode (after.drop (entryStart page header.recordCount))
    = .ok ⟨header.freeOffset, UInt32.ofNat data.length⟩

/-- An insertion takes the slot after the last. -/
theorem LaidOut.inserted (laid : LaidOut page header)
    (eq : SlottedPage.insert page data = (.ok slot, after)) :
  slot = header.recordCount ∧ ∃ header', Inserted page data header after header'
  := by
  have length := length_insert page data
  rw [eq] at length
  rcases insert_cases page data with
    ⟨failure, eq'⟩ | ⟨fault, placement, -, eq'⟩ | ⟨placement, header', placed, grown, eq'⟩
  · cases eq.symm.trans eq'
  · cases eq.symm.trans eq'
  obtain ⟨rfl, rfl⟩ : placement.header.recordCount = slot
      ∧ (store page data placement).overwrite 0 header'.encode = after := by
    simpa using eq'.symm.trans eq
  obtain ⟨headed, nonempty, room, slots, within⟩ := place_eq_ok placed
  cases laid.headed.symm.trans headed
  obtain ⟨offset, size, count⟩ := grow_eq_ok grown
  have start := laid.start
  have free := laid.free
  have bound : placement.header.freeSize.toNat < UInt32.size := UInt32.toNat_lt _
  have long : (UInt32.ofNat data.length).toNat = data.length :=
    UInt32.toNat_ofNat_of_lt' (by omega)
  have apart : placement.header.freeOffset.toNat + data.length ≤ placement.slotStart := by
    simp only [slotSize] at room slots free
    omega
  have inside : placement.slotStart
      ≤ (page.overwrite placement.header.freeOffset.toNat data).length := by
    rw [Bytes.length_overwrite within]
    omega
  have new : entryStart page placement.header.recordCount = placement.slotStart := by
    simp only [entryStart]
    omega
  -- Behind the header, what is read was stored or was there before.
  have behind : ∀ first n, headerSize ≤ first →
      (((store page data placement).overwrite 0 header'.encode).drop first).take n
        = ((store page data placement).drop first).take n := by
    intro first n beyond
    apply Bytes.take_drop_overwrite_of_disjoint _ (Nat.zero_le _)
    right
    simpa using beyond
  have kept : ∀ first n, headerSize ≤ first →
      first + n ≤ placement.header.freeOffset.toNat ∨ placement.slotStart + slotSize ≤ first →
        (((store page data placement).overwrite 0 header'.encode).drop first).take n
          = (page.drop first).take n := by
    intro first n beyond disjoint
    rw [behind first n beyond, store, Bytes.take_drop_overwrite_of_disjoint _ inside,
      Bytes.take_drop_overwrite_of_disjoint _ (by omega)]
    · omega
    · rw [SlotEntry.length_encode]
      omega
  use rfl, header'
  refine
    { length, long, offset, size, count, headed := header_overwrite .., records := ?records,
      entries := ?entries, alive := ?alive, stored := ?stored, entered := ?entered }
  case alive =>
    intro empty
    apply nonempty
    rw [empty] at long
    apply List.eq_nil_of_length_eq_zero long.symm
  case records =>
    intro first n beyond before
    apply kept first n beyond (.inl before)
  case entries =>
    intro slot _ counted
    obtain ⟨beyond, fits⟩ := laid.entryStart_bounds counted
    apply kept _ _ (by omega)
    right
    simp only [slotSize] at slots fits ⊢
    omega
  case stored =>
    rw [behind _ _ start, store, Bytes.take_drop_overwrite_of_disjoint _ inside (.inl apart)]
    apply Bytes.take_drop_overwrite
    omega
  case entered =>
    rw [new, ← SlotEntry.decode_take, behind _ _ (by omega), store]
    have entered := @Bytes.take_drop_overwrite _
      (SlotEntry.encode ⟨placement.header.freeOffset, UInt32.ofNat data.length⟩) _ inside
    rw [SlotEntry.length_encode] at entered
    rw [entered]
    apply SlotEntry.decode_encode _ []

/-- An insertion counts the slot `header.recordCount`, and no `other` that was not counted. -/
theorem Inserted.counts (inserted : Inserted page data header after header') (other : SlotId)
    (distinct : other ≠ header.recordCount) :
  other.toNat < header'.recordCount.toNat ↔ other.toNat < header.recordCount.toNat
  := by
  have apart := mt UInt32.toNat_inj.mp distinct
  have count := inserted.count
  omega

/-- A page that was `Inserted` into is `LaidOut`. -/
theorem Inserted.laidOut (inserted : Inserted page data header after header')
    (laid : LaidOut page header) :
  LaidOut after header'
  := by
  have ⟨kept, headed, _, long, offset, size, count, _, entered⟩ := inserted
  have free := laid.free
  apply laid.of_kept kept headed _ _ inserted.counts entered
  · intro _
    use laid.start
    apply Nat.le_of_eq
    rw [long, offset]
  · omega
  · simp only [slotSize] at free size ⊢
    omega

/-- `insert` puts `data` into a `slot` that held none, and leaves the `record` of every `other`
slot. -/
theorem LaidOut.insert (laid : LaidOut page header)
    (eq : SlottedPage.insert page data = (.ok slot, after)) :
  ∃ header', LaidOut after header'
    ∧ record page slot = .error (.error (.invalidSlot slot))
    ∧ ∀ other, record after other = if other = slot then .ok data else record page other
  := by
  obtain ⟨rfl, header', inserted⟩ := laid.inserted eq
  have laid' := inserted.laidOut laid
  use header', laid', record_of_count_le laid.headed (Nat.le_refl _)
  intro other
  by_cases new : other = header.recordCount
  · subst new
    have counted : header.recordCount.toNat < header'.recordCount.toNat := by
      rw [inserted.count]
      apply Nat.lt_succ_self
    have entered := inserted.entered
    rw [← entryStart_congr inserted.length] at entered
    rw [if_pos rfl, laid'.record_eq counted entered, if_neg inserted.alive, inserted.long,
      inserted.stored]
  · rw [if_neg new]
    apply laid.record_of_kept laid' inserted.toKept inserted.counts new

/-! ### Deletion -/

/-- What a deletion from `slot` makes of `page`: the entry of a live record gets length zero, and
the rest stays. -/
structure Deleted (page : Bytes) (slot : SlotId) (header : Header) (after : Bytes) : Prop
    extends Kept page header slot after where
  headed : SlottedPage.header after = .ok header
  counted : slot.toNat < header.recordCount.toNat
  found : ∃ data, SlottedPage.record page slot = .ok data
  entry : ∃ offset, SlotEntry.decode (after.drop (entryStart page slot)) = .ok ⟨offset, 0⟩

/-- A deletion takes a slot that holds a record. -/
theorem LaidOut.deleted (laid : LaidOut page header)
    (eq : SlottedPage.delete page slot = (.ok (), after)) :
  Deleted page slot header after
  := by
  have length := length_delete page slot
  rw [eq] at length
  rcases delete_cases page slot with ⟨failure, eq'⟩ | ⟨start, entry, found, eq'⟩
  · cases eq.symm.trans eq'
  obtain rfl : page.overwrite start (SlotEntry.encode ⟨entry.offset, 0⟩) = after := by
    simpa using eq'.symm.trans eq
  obtain ⟨header', headed, counted, place, decoded, alive⟩ := entry_eq_ok found
  cases laid.headed.symm.trans headed
  obtain ⟨behind, fits⟩ := laid.entryStart_bounds counted
  obtain rfl : start = entryStart page slot := by
    omega
  have begin := laid.start
  have inside : entryStart page slot ≤ page.length := by
    omega
  have kept := @Bytes.take_drop_overwrite_of_disjoint page (entryStart page slot)
  refine
    { length, counted, headed := (header_overwrite_of_le _ (by omega) inside).trans headed,
      found := ⟨_, (laid.record_eq counted decoded).trans (if_neg alive)⟩, records := ?records,
      entries := ?entries, entry := ?entry }
  case records =>
    intro first n _ before
    apply kept _ inside (.inl (by omega))
  case entries =>
    intro other distinct counted'
    obtain ⟨-, fits'⟩ := laid.entryStart_bounds counted'
    have apart := mt UInt32.toNat_inj.mp distinct
    apply kept _ inside
    rw [SlotEntry.length_encode]
    simp only [slotSize] at fits fits' ⊢
    omega
  case entry =>
    have stored := @Bytes.take_drop_overwrite _ (SlotEntry.encode ⟨entry.offset, 0⟩) _ inside
    rw [SlotEntry.length_encode] at stored
    use entry.offset
    rw [← SlotEntry.decode_take, stored]
    apply SlotEntry.decode_encode _ []

/-- A page that was `Deleted` from is `LaidOut`, with the same `header`. -/
theorem Deleted.laidOut (deleted : Deleted page slot header after) (laid : LaidOut page header) :
  LaidOut after header
  := by
  obtain ⟨offset, entered⟩ := deleted.entry
  apply laid.of_kept deleted.toKept deleted.headed (Nat.le_refl _) laid.free _ entered
  · intro alive
    cases alive rfl
  · intro other _
    rfl

/-- `delete` takes a `record` of `slot` that is there, and leaves that of every `other` slot. -/
theorem LaidOut.delete (laid : LaidOut page header)
    (eq : SlottedPage.delete page slot = (.ok (), after)) :
  LaidOut after header
    ∧ (∃ data, record page slot = .ok data)
    ∧ ∀ other, record after other
        = if other = slot then .error (.error (.recordNotFound slot)) else record page other
  := by
  have deleted := laid.deleted eq
  have laid' := deleted.laidOut laid
  use laid', deleted.found
  intro other
  by_cases same : other = slot
  · subst same
    obtain ⟨offset, entered⟩ := deleted.entry
    rw [← entryStart_congr deleted.length] at entered
    rw [if_pos rfl, laid'.record_eq deleted.counted entered, if_pos rfl]
  · rw [if_neg same]
    apply laid.record_of_kept laid' deleted.toKept (fun _ _ => Iff.rfl) same

/-! ### Empty pages -/

/-- The header of a page that `init` made empty: all bytes behind it are free, and it counts no
record. -/
theorem header_init (eq : init page = .ok after) :
  headerSize ≤ page.length ∧ after.length = page.length
    ∧ SlottedPage.header after
      = .ok ⟨UInt32.ofNat headerSize, UInt32.ofNat (page.length - headerSize), 0⟩
  := by
  simp only [init, Header.empty, subLengths, bind, Except.bind, pure, Except.pure] at eq
  by_cases room : headerSize ≤ page.length
  · simp only [room, if_true, Except.ok.injEq] at eq
    subst eq
    use room, Bytes.length_overwrite (by simpa using room)
    apply header_overwrite
  · simp [room] at eq

/-- A page that `init` made empty is `WellFormed` and holds no records. -/
theorem wellFormed_init (eq : init page = .ok after) :
  WellFormed after ∧ ∀ slot, record after slot = .error (.error (.invalidSlot slot))
  := by
  obtain ⟨room, length, headed⟩ := header_init eq
  constructor
  · refine ⟨_, headed, Nat.le_refl _, ?_, ?_⟩
    · have cut : (UInt32.ofNat (page.length - headerSize)).toNat ≤ page.length - headerSize := by
        rw [UInt32.toNat_ofNat']
        apply Nat.mod_le
      rw [length]
      simp only [headerSize, slotSize, UInt32.reduceOfNat, UInt32.reduceToNat] at room cut ⊢
      omega
    · intro slot entry counted
      cases counted
  · intro slot
    apply record_of_count_le headed (Nat.zero_le _)

theorem records_init (eq : init page = .ok after) :
  records after = .ok []
  := by
  simp only [records, (header_init eq).2.2, bind, Except.bind]
  rfl

theorem freeSpace_eq_ok {header : Header} (headed : SlottedPage.header page = .ok header) :
  freeSpace page = .ok header.freeSize
  := by
  simp [freeSpace, headed, bind, Except.bind, pure, Except.pure]

/-- `hasRoom page length` is `true` exactly if the free space in the header takes `length` and a
slot entry. -/
theorem hasRoom_eq_ok {length : Nat} {room : Bool} (eq : hasRoom page length = .ok room) :
  ∃ header, SlottedPage.header page = .ok header
    ∧ (room = true ↔ length + slotSize ≤ header.freeSize.toNat)
  := by
  simp only [hasRoom, bind, Except.bind] at eq
  cases headed : SlottedPage.header page with
  | error fault => simp [headed] at eq
  | ok header =>
    simp only [headed, Header.hasRoom, addLengths, bind, Except.bind, pure, Except.pure] at eq
    split at eq
    · cases eq
    · rename_i added
      split at added
      · cases added
        cases eq
        exact ⟨header, rfl, decide_eq_true_iff⟩
      · cases added

/-- A page that `init` made empty `hasRoom` for any `length` that fits behind its header, if a word
can tell how much that is. -/
theorem hasRoom_init {length : Nat} (eq : init page = .ok after)
    (short : page.length - headerSize < UInt32.size)
    (fits : length + slotSize ≤ page.length - headerSize) :
  hasRoom after length = .ok true
  := by
  have bound : length + slotSize < wordLimit :=
    Nat.lt_of_le_of_lt fits (Nat.lt_trans short (by decide))
  have free : (UInt32.ofNat (page.length - headerSize)).toNat = page.length - headerSize :=
    UInt32.toNat_ofNat_of_lt' short
  simp [hasRoom, (header_init eq).2.2, Header.hasRoom, addLengths, bound, free, fits, bind,
    Except.bind, pure, Except.pure]

/-- In a page that `init` made empty, `delete` of any `slot` fails with `.invalidSlot`. -/
theorem delete_init (eq : init page = .ok after) (slot : SlotId) :
  delete after slot = (.error (.error (.invalidSlot slot)), after)
  := by
  apply delete_of_record_error
  apply (wellFormed_init eq).2

/-! ### All records -/

/-- A counted `slot` holds a record, or fails with `.recordNotFound`. -/
theorem LaidOut.record_cases (laid : LaidOut page header) (slot : SlotId)
    (counted : slot.toNat < header.recordCount.toNat) :
  (∃ data, record page slot = .ok data)
    ∨ record page slot = .error (.error (.recordNotFound slot))
  := by
  obtain ⟨entry, decoded⟩ := laid.exists_entry counted
  rw [laid.record_eq counted decoded]
  by_cases deleted : entry.length = 0
  · right
    rw [if_pos deleted]
  · left
    rw [if_neg deleted]
    exact ⟨_, rfl⟩

/-- `recordsFrom page first n` finds the records in the `n` slots from `first` on, in the order of
slots. -/
theorem recordsFrom_spec {n first : Nat} {found : List (SlotId × Bytes)}
    (bound : first + n ≤ UInt32.size) (eq : recordsFrom page first n = .ok found) :
  (found.map Prod.fst).Pairwise (· < ·)
    ∧ ∀ slot data, (slot, data) ∈ found
      ↔ first ≤ slot.toNat ∧ slot.toNat < first + n ∧ record page slot = .ok data
  := by
  induction n generalizing first found with
  | zero =>
    cases eq
    use List.Pairwise.nil
    intro slot data
    constructor
    · intro member
      cases member
    · rintro ⟨after, before, -⟩
      omega
  | succ n ih =>
    have number : (UInt32.ofNat first).toNat = first := UInt32.toNat_ofNat_of_lt' (by omega)
    have split : ∀ slot : SlotId, first ≤ slot.toNat ∧ slot.toNat < first + (n + 1)
        ↔ slot = UInt32.ofNat first ∨ first + 1 ≤ slot.toNat ∧ slot.toNat < first + 1 + n := by
      intro slot
      rw [← UInt32.toNat_inj, number]
      omega
    simp only [recordsFrom] at eq
    rcases here : record page (UInt32.ofNat first) with (cause | fault) | data
    · rw [here] at eq
      obtain ⟨sorted, members⟩ := ih (by omega) eq
      use sorted
      intro slot data
      rw [← and_assoc, split, members, ← and_assoc, or_and_right]
      constructor
      · apply Or.inr
      · rintro (⟨rfl, there⟩ | later)
        · cases here.symm.trans there
        · apply later
    · rw [here] at eq
      cases eq
    · rw [here] at eq
      simp only [bind, Except.bind, pure, Except.pure] at eq
      cases listed : recordsFrom page (first + 1) n with
      | error fault => simp [listed] at eq
      | ok rest =>
        rw [listed] at eq
        cases eq
        obtain ⟨sorted, members⟩ := ih (by omega) listed
        constructor
        · rw [List.map_cons, List.pairwise_cons]
          refine ⟨?_, sorted⟩
          intro slot member
          obtain ⟨⟨slot, data'⟩, listed, rfl⟩ := List.mem_map.mp member
          obtain ⟨later, -⟩ := (members slot data').mp listed
          show (UInt32.ofNat first).toNat < slot.toNat
          omega
        · intro slot data'
          rw [← and_assoc, split, List.mem_cons, members, Prod.mk.injEq, ← and_assoc, or_and_right]
          apply or_congr_left
          apply and_congr_right
          rintro rfl
          rw [here, Except.ok.injEq, eq_comm]

/-- `records page` finds the records of `page` in the order of slots, each in one slot. -/
theorem records_spec {found : List (SlotId × Bytes)} (eq : records page = .ok found) :
  (found.map Prod.fst).Pairwise (· < ·)
    ∧ ∀ slot data, (slot, data) ∈ found ↔ record page slot = .ok data
  := by
  simp only [records, bind, Except.bind] at eq
  cases headed : SlottedPage.header page with
  | error fault => simp [headed] at eq
  | ok header =>
    rw [headed] at eq
    have bound := header.recordCount.toNat_lt
    obtain ⟨sorted, members⟩ := recordsFrom_spec (by simp only [UInt32.size]; omega) eq
    use sorted
    intro slot data
    rw [members]
    constructor
    · rintro ⟨-, -, here⟩
      apply here
    · intro here
      refine ⟨Nat.zero_le _, ?_, here⟩
      by_contra beyond
      rw [record_of_count_le headed (by omega)] at here
      cases here

/-- In a page that is `LaidOut`, `recordsFrom page first n` succeeds for slots that the `header`
counts. -/
theorem LaidOut.recordsFrom (laid : LaidOut page header) (n first : Nat)
    (counted : first + n ≤ header.recordCount.toNat) :
  ∃ found, SlottedPage.recordsFrom page first n = .ok found
  := by
  induction n generalizing first with
  | zero => exact ⟨[], rfl⟩
  | succ n ih =>
    obtain ⟨found, eq⟩ := ih (first + 1) (by omega)
    have bound := header.recordCount.toNat_lt
    have number : (UInt32.ofNat first).toNat = first :=
      UInt32.toNat_ofNat_of_lt' (by simp only [UInt32.size]; omega)
    rcases laid.record_cases (UInt32.ofNat first) (by omega) with ⟨data, here⟩ | missing
    · use (UInt32.ofNat first, data) :: found
      simp [SlottedPage.recordsFrom, here, eq, bind, Except.bind, pure, Except.pure]
    · use found
      simp [SlottedPage.recordsFrom, missing, eq]

/-- In a `WellFormed` page `records` succeeds, and finds every record in its slot, once. -/
theorem WellFormed.records (formed : WellFormed page) :
  ∃ found, SlottedPage.records page = .ok found
    ∧ (found.map Prod.fst).Nodup
    ∧ ∀ slot data, (slot, data) ∈ found ↔ record page slot = .ok data
  := by
  obtain ⟨header, laid⟩ := formed
  obtain ⟨found, listed⟩ :=
    laid.recordsFrom header.recordCount.toNat 0 (Nat.le_of_eq (Nat.zero_add _))
  have eq : SlottedPage.records page = .ok found := by
    simp only [SlottedPage.records, laid.headed, bind, Except.bind, listed]
  obtain ⟨sorted, members⟩ := records_spec eq
  use found, eq
  refine ⟨?_, members⟩
  apply sorted.imp
  intro slot other before same
  rw [same] at before
  apply UInt32.lt_irrefl _ before

/-- In the records of a `WellFormed` page, `lookup slot` finds the `record` of `slot`. -/
theorem WellFormed.lookup_records (formed : WellFormed page) {found : List (SlotId × Bytes)}
    (eq : SlottedPage.records page = .ok found) (slot : SlotId) :
  found.lookup slot = (record page slot).toOption
  := by
  obtain ⟨found', eq', -, members⟩ := formed.records
  cases eq.symm.trans eq'
  have sound : ∀ data, found.lookup slot = some data → record page slot = .ok data := by
    intro data here
    obtain ⟨before, later, rfl, -⟩ := List.lookup_eq_some_iff.mp here
    apply (members slot data).mp
    simp
  cases looked : found.lookup slot with
  | some data =>
    rw [sound data looked]
    rfl
  | none =>
    cases here : record page slot with
    | error failure => rfl
    | ok data =>
      have member := (members slot data).mpr here
      have apart := List.lookup_eq_none_iff.mp looked _ member
      simp at apart

end StorageEngine.SlottedPage

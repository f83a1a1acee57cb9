import Mathlib.Tactic.Common
import StorageEngine.SlottedPage.Layout

/-!
# Operations on slotted pages

What an insertion and a deletion do to the bytes of a page, case by case (`insert_cases`,
`delete_cases`): where they store, that they keep the length of the page, and that they leave the
page alone when they report an error.
-/

namespace StorageEngine.SlottedPage

variable {page record bytes : Bytes} {slot : SlotId} {header : Header} {placement : Placement}

/-! ### Headers -/

/-- `Word.decode?` reads a `word` from four `bytes` at least. -/
theorem length_of_decode? {word : UInt32} (eq : Word.decode? bytes = some word) :
  4 ≤ bytes.length
  := by
  match bytes, eq with
  | _ :: _ :: _ :: _ :: _, _ => simp

/-- A `page` that has a `header` is as long as one. -/
theorem headerSize_le (eq : SlottedPage.header page = .ok header) :
  headerSize ≤ page.length
  := by
  simp only [SlottedPage.header, Header.decode] at eq
  split at eq
  · rename_i third
    have length := length_of_decode? third
    simp only [List.length_drop, headerSize] at length ⊢
    omega
  · cases eq

/-! ### Insertion -/

/-- Where `place page record` finds a place, the header is that of `page` and says that `record`,
which is not empty, fits, and `record` and its slot entry lie within `page`. -/
theorem place_eq_ok (eq : place page record = .ok placement) :
  SlottedPage.header page = .ok placement.header
    ∧ record ≠ []
    ∧ record.length + slotSize ≤ placement.header.freeSize.toNat
    ∧ placement.slotStart + slotSize * (placement.header.recordCount.toNat + 1) = page.length
    ∧ placement.header.freeOffset.toNat + record.length ≤ page.length
  := by
  simp only [place, orFault, bind, Except.bind, pure, Except.pure, throw, throwThe,
    MonadExceptOf.throw] at eq
  cases headed : SlottedPage.header page with
  | error fault => simp [headed] at eq
  | ok header =>
    simp only [headed] at eq
    by_cases empty : record.isEmpty = true
    · simp [empty] at eq
    · simp only [empty] at eq
      simp only [Header.hasRoom, addLengths, slotStart, subLengths, bind, Except.bind, pure,
        Except.pure] at eq
      by_cases short : record.length + slotSize < wordLimit
      · by_cases room : record.length + slotSize ≤ header.freeSize.toNat
        · by_cases fits : slotSize * (header.recordCount.toNat + 1) ≤ page.length
          · by_cases within : header.freeOffset.toNat + record.length ≤ page.length
            · simp [short, room, fits, within] at eq
              subst eq
              refine ⟨rfl, by simpa using empty, room, ?_, within⟩
              dsimp only
              omega
            · simp [short, room, fits, within] at eq
          · simp [short, room, fits] at eq
        · simp [short, room] at eq
      · simp [short] at eq

/-- The slot entry of a `placement` lies within `page`. -/
theorem slotStart_le (eq : place page record = .ok placement) :
  placement.slotStart + slotSize ≤ page.length
  := by
  obtain ⟨-, -, -, start, -⟩ := place_eq_ok eq
  simp only [slotSize] at start ⊢
  omega

theorem length_store (eq : place page record = .ok placement) :
  (store page record placement).length = page.length
  := by
  obtain ⟨-, -, -, -, within⟩ := place_eq_ok eq
  have entry := slotStart_le eq
  rw [store, Bytes.length_overwrite, Bytes.length_overwrite within]
  rw [Bytes.length_overwrite within, SlotEntry.length_encode]
  apply entry

/-- What becomes of `insert page record`: it is refused and leaves `page`; or it overflows the
header after it has stored `record`; or it stores `record` in the slot after the last. -/
theorem insert_cases (page record : Bytes) :
  (∃ failure, insert page record = (.error failure, page))
    ∨ (∃ fault placement, place page record = .ok placement
      ∧ insert page record = (.error (.fault fault), store page record placement))
    ∨ ∃ placement header, place page record = .ok placement
      ∧ placement.header.grow record.length = .ok header
      ∧ insert page record
        = (.ok placement.header.recordCount,
          (store page record placement).overwrite 0 header.encode)
  := by
  unfold insert
  cases placed : place page record with
  | error failure =>
    left
    use failure
  | ok placement =>
    right
    cases grown : placement.header.grow record.length with
    | error fault =>
      left
      use fault, placement, rfl
      simp [grown]
    | ok header =>
      right
      use placement, header, rfl, grown
      simp [grown]

theorem length_insert (page record : Bytes) :
  (insert page record).2.length = page.length
  := by
  obtain ⟨failure, eq⟩ | ⟨fault, placement, placed, eq⟩ | ⟨placement, header, placed, -, eq⟩ :=
    insert_cases page record
  · rw [eq]
  · rw [eq]
    apply length_store placed
  · rw [eq]
    have headed := headerSize_le (place_eq_ok placed).1
    rw [Bytes.length_overwrite, length_store placed]
    rw [length_store placed, Header.length_encode]
    omega

/-- An `insert` that fails with a `cause` leaves `page` as it is. -/
theorem insert_error {cause : PageError}
    (eq : insert page record = (.error (.error cause), bytes)) :
  bytes = page
  := by
  obtain ⟨failure, eq'⟩ | ⟨fault, placement, -, eq'⟩ | ⟨placement, header, -, -, eq'⟩ :=
    insert_cases page record
  · rw [eq'] at eq
    cases eq
    rfl
  · rw [eq'] at eq
    cases eq
  · rw [eq'] at eq
    cases eq

/-- The header of a `placement` has room to `grow` by `record`, if `page` is shorter than
`UInt32.size`. -/
theorem grow_of_place (placed : place page record = .ok placement)
    (short : page.length < UInt32.size) :
  ∃ header, placement.header.grow record.length = .ok header
  := by
  obtain ⟨-, -, fits, start, within⟩ := place_eq_ok placed
  have offset : placement.header.freeOffset.toNat + record.length < UInt32.size := by
    omega
  have count : placement.header.recordCount.toNat + 1 < UInt32.size := by
    simp only [slotSize] at start
    omega
  simp [Header.grow, offset, fits, count]

/-- An `insert` that fails leaves `page` as it is, if `page` is shorter than `UInt32.size`. -/
theorem insert_failure {failure : Failure PageError} (short : page.length < UInt32.size)
    (eq : insert page record = (.error failure, bytes)) :
  bytes = page
  := by
  unfold insert at eq
  cases placed : place page record with
  | error failure =>
    rw [placed] at eq
    cases eq
    rfl
  | ok placement =>
    obtain ⟨header, grown⟩ := grow_of_place placed short
    simp [placed, grown] at eq

/-- Where `hasRoom` is `true` of the length of `record`, which is not empty, `insert` does not fail
with `.insufficientSpace`. -/
theorem insert_ne_insufficientSpace (room : hasRoom page record.length = .ok true)
    (some : record ≠ []) :
  (insert page record).1 ≠ .error (.error .insufficientSpace)
  := by
  unfold insert
  cases placed : place page record with
  | ok placement =>
    dsimp only
    cases placement.header.grow record.length <;> nofun
  | error failure =>
    simp only [hasRoom, bind, Except.bind] at room
    cases headed : SlottedPage.header page with
    | error fault => simp [headed] at room
    | ok header =>
      rw [headed] at room
      have nonempty : record.isEmpty = false := List.isEmpty_eq_false_iff.mpr some
      simp only [place, headed, orFault, nonempty, room, bind, Except.bind, pure, Except.pure]
        at placed
      cases started : slotStart page.length header.recordCount with
      | error fault =>
        simp [started] at placed
        simp [← placed]
      | ok start =>
        by_cases within : header.freeOffset.toNat + record.length ≤ page.length
        · simp [started, within] at placed
        · simp [started, within, throw, throwThe, MonadExceptOf.throw] at placed
          simp [← placed]

/-! ### Deletion -/

/-- An `entry` that is found at `start` lies within `page`, is not empty, and its `slot` is counted
by the header. -/
theorem entry_eq_ok {start : Nat} {entry : SlotEntry}
    (eq : SlottedPage.entry page slot = .ok (start, entry)) :
  ∃ header, SlottedPage.header page = .ok header
    ∧ slot.toNat < header.recordCount.toNat
    ∧ start + slotSize * (slot.toNat + 1) = page.length
    ∧ SlotEntry.decode (page.drop start) = .ok entry
    ∧ entry.length ≠ 0
  := by
  simp only [SlottedPage.entry, orFault, bind, Except.bind, pure, Except.pure, throw, throwThe,
    MonadExceptOf.throw] at eq
  cases headed : SlottedPage.header page with
  | error fault => simp [headed] at eq
  | ok header =>
    simp only [headed] at eq
    by_cases out : header.recordCount ≤ slot
    · simp [out] at eq
    · simp only [out, if_false, slotStart, subLengths] at eq
      by_cases fits : slotSize * (slot.toNat + 1) ≤ page.length
      · simp only [fits, if_true] at eq
        cases decoded :
            SlotEntry.decode (page.drop (page.length - slotSize * (slot.toNat + 1))) with
        | error fault => simp [decoded] at eq
        | ok found =>
          simp only [decoded] at eq
          by_cases deleted : found.isDeleted = true
          · simp [deleted] at eq
          · simp [deleted] at eq
            obtain ⟨rfl, rfl⟩ := eq
            refine ⟨header, rfl, ?_, by omega, decoded,
              by simpa [SlotEntry.isDeleted] using deleted⟩
            rw [UInt32.not_le] at out
            apply out
      · simp [fits] at eq

/-- What becomes of `delete page slot`: it is refused and leaves `page`; or it overwrites the
length in the entry of `slot` by 0. -/
theorem delete_cases (page : Bytes) (slot : SlotId) :
  (∃ failure, delete page slot = (.error failure, page))
    ∨ ∃ start entry, SlottedPage.entry page slot = .ok (start, entry)
      ∧ delete page slot = (.ok (), page.overwrite start (SlotEntry.encode ⟨entry.offset, 0⟩))
  := by
  unfold delete
  cases found : SlottedPage.entry page slot with
  | error failure =>
    left
    use failure
  | ok pair =>
    obtain ⟨start, entry⟩ := pair
    right
    use start, entry

theorem length_delete (page : Bytes) (slot : SlotId) :
  (delete page slot).2.length = page.length
  := by
  rcases delete_cases page slot with ⟨failure, eq⟩ | ⟨start, entry, found, eq⟩
  · rw [eq]
  · obtain ⟨header, -, -, within, -⟩ := entry_eq_ok found
    rw [eq, Bytes.length_overwrite]
    rw [SlotEntry.length_encode]
    simp only [slotSize] at within ⊢
    omega

/-- A `delete` that fails leaves `page` as it is. -/
theorem delete_error {failure : Failure PageError}
    (eq : delete page slot = (.error failure, bytes)) :
  bytes = page
  := by
  rcases delete_cases page slot with ⟨failure', eq'⟩ | ⟨start, entry, -, eq'⟩
  · rw [eq'] at eq
    cases eq
    rfl
  · rw [eq'] at eq
    cases eq

/-- A `slot` whose record can be read can be deleted. -/
theorem delete_of_record (read : SlottedPage.record page slot = .ok bytes) :
  ∃ after, delete page slot = (.ok (), after)
  := by
  cases found : entry page slot with
  | error failure => simp [SlottedPage.record, found, bind, Except.bind] at read
  | ok pair =>
    simp only [delete, found]
    exact ⟨_, rfl⟩

/-- Where the `record` of `slot` is not to be read for a `cause`, `delete` fails with it and leaves
`page`. -/
theorem delete_of_record_error {cause : PageError}
    (read : SlottedPage.record page slot = .error (.error cause)) :
  delete page slot = (.error (.error cause), page)
  := by
  cases found : entry page slot with
  | error failure =>
    simp only [SlottedPage.record, found, bind, Except.bind, Except.error.injEq] at read
    simp only [delete, found, read]
  | ok pair =>
    simp only [SlottedPage.record, found, bind, Except.bind] at read
    split at read <;> cases read

end StorageEngine.SlottedPage

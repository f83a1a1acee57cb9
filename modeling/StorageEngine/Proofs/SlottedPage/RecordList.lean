import Mathlib
import StorageEngine.Proofs.SlottedPage.Records

/-!
# Slotted pages as lists of records

To those who use it a slotted page is a list.  Records are added at its end, each in the slot of its
number, and a record that is deleted leaves its slot behind.  What is left for more is the page
without its header, less every record that was ever added and the slot entry of each.

Whatever is done with a page that was made empty, it answers as this list does and without a fault
(`answers_eq_iff`).  The one exception is the question whether there is room for a record so long
that the length of a slot entry cannot be added to its length: it faults, where the list answers
that there is none.
-/

namespace StorageEngine.SlottedPage

/-- A string of bytes that is not too long for a buffer. -/
abbrev Buffer := { data : Bytes // data.length ≤ maxLength }

/-- An operation on a page. -/
inductive Op where
  | insert (data : Buffer)
  | delete (slot : SlotId)
  | get (slot : SlotId)
  | records
  | freeSpace
  | hasRoom (length : UInt64)

/-- What an operation answers. -/
inductive Answer where
  | inserted (result : Except PageError Nat)
  | deleted (result : Except PageError Unit)
  | got (result : Except PageError Bytes)
  | listed (records : List (Nat × Bytes))
  | left (bytes : Nat)
  | fits (room : Bool)

/-! ### Lists of records -/

/-- The records that a page of `size` bytes holds, each in one of its `slots`, and those that were
ever `added`. -/
structure RecordList where
  size : Nat
  added : List Bytes
  slots : List (Option Bytes)

namespace RecordList

/-- The list of a page of `size` bytes without slots. -/
def empty (size : Nat) : RecordList := ⟨size, [], []⟩

/-- The number of bytes taken by every record that was ever added to `list` and its slot entry. -/
def taken (list : RecordList) : Nat := (list.added.map fun data => data.length + slotSize).sum

/-- The number of bytes left in `list` for records and their slot entries. -/
def free (list : RecordList) : Nat := list.size - headerSize - list.taken

/-- The record of `list` in `slot`. -/
def get (list : RecordList) (slot : SlotId) : Except PageError Bytes :=
  match list.slots[slot.toNat]? with
  | none => .error (.invalidSlot slot)
  | some none => .error (.recordNotFound slot)
  | some (some data) => .ok data

/-- `list` with `data` in a new slot at its end, if that is not empty and fits. -/
def insert (list : RecordList) (data : Bytes) : Except PageError Nat × RecordList :=
  if data ≠ [] ∧ data.length + slotSize ≤ list.free then
    (.ok list.slots.length,
      { list with added := data :: list.added, slots := list.slots ++ [some data] })
  else (.error .insufficientSpace, list)

/-- `list` without the record in `slot`, if there is one. -/
def delete (list : RecordList) (slot : SlotId) : Except PageError Unit × RecordList :=
  match list.get slot with
  | .error cause => (.error cause, list)
  | .ok _ => (.ok (), { list with slots := list.slots.set slot.toNat none })

/-- The records in some slots with the numbers of the slots, counted from `first` on. -/
def liveFrom (first : Nat) : List (Option Bytes) → List (Nat × Bytes)
  | [] => []
  | none :: slots => liveFrom (first + 1) slots
  | some data :: slots => (first, data) :: liveFrom (first + 1) slots

/-- The answer of `list` to an operation, and the list after it. -/
def perform (list : RecordList) : Op → Answer × RecordList
  | .insert data => ((.inserted (list.insert data).1), (list.insert data).2)
  | .delete slot => (.deleted (list.delete slot).1, (list.delete slot).2)
  | .get slot => (.got (list.get slot), list)
  | .records => (.listed (liveFrom 0 list.slots), list)
  | .freeSpace => (.left list.free, list)
  | .hasRoom length => (.fits (decide (length.toNat + slotSize ≤ list.free)), list)

/-- The answers of `list` to operations in a row. -/
def answers (list : RecordList) : List Op → List Answer
  | [] => []
  | op :: ops => (list.perform op).1 :: (list.perform op).2.answers ops

theorem length_answers (list : RecordList) (ops : List Op) :
  (list.answers ops).length = ops.length
  := by
  induction ops generalizing list with
  | nil => rfl
  | cons op ops ih => rw [answers, List.length_cons, List.length_cons, ih]

end RecordList

/-! ### Pages -/

/-- A result whose errors are part of the answer. -/
def settle {α β : Type} (f : α → β) :
    Except (Failure PageError) α → Except Fault (Except PageError β)
  | .ok a => .ok (.ok (f a))
  | .error (.error cause) => .ok (.error cause)
  | .error (.fault fault) => .error fault

/-- The answer of `page` to an operation, and the page after it. -/
def perform (page : Bytes) : Op → Except Fault Answer × Bytes
  | .insert data =>
    ((settle UInt32.toNat (insert page data).1).map .inserted, (insert page data).2)
  | .delete slot => ((settle id (delete page slot).1).map .deleted, (delete page slot).2)
  | .get slot => ((settle id (record page slot)).map .got, page)
  | .records =>
    ((records page).map fun found => .listed (found.map (Prod.map UInt32.toNat id)), page)
  | .freeSpace => ((freeSpace page).map fun free => .left free.toNat, page)
  | .hasRoom length => ((hasRoom page length.toNat).map .fits, page)

/-- The answers of `page` to operations in a row. -/
def answers (page : Bytes) : List Op → List (Except Fault Answer)
  | [] => []
  | op :: ops => (perform page op).1 :: answers (perform page op).2 ops

/-- Whether an operation is a question about a length to which that of a slot entry cannot be
added. -/
def Op.overflows : Op → Bool
  | .hasRoom length => decide (wordLimit ≤ length.toNat + slotSize)
  | _ => false

/-- `answer`, if `op` does not overflow. -/
def Op.answerOr (op : Op) (answer : Answer) : Except Fault Answer :=
  if op.overflows then .error .overflow else .ok answer

/-- All `ops` are answered by `answers` exactly if none of them overflows. -/
theorem zipWith_answerOr_eq_iff (ops : List Op) (answers : List Answer)
    (length : answers.length = ops.length) :
  List.zipWith Op.answerOr ops answers = answers.map .ok ↔ ∀ op ∈ ops, op.overflows = false
  := by
  induction ops generalizing answers with
  | nil =>
    obtain rfl := List.eq_nil_of_length_eq_zero length
    simp
  | cons op ops ih =>
    obtain ⟨answer, answers, rfl⟩ := List.exists_cons_of_length_eq_add_one length
    have rest := ih answers (by simpa using length)
    simp [Op.answerOr, rest]

/-! ### Operations that succeed and that are refused -/

variable {page data : Bytes} {header : Header} {slot : SlotId}

/-- `insert` stores `data` that is not empty and fits the free space of the `header`. -/
theorem LaidOut.insert_eq_ok (laid : LaidOut page header) (short : page.length < UInt32.size)
    (some : data ≠ []) (fits : data.length + slotSize ≤ header.freeSize.toNat) :
  ∃ after, SlottedPage.insert page data = (.ok header.recordCount, after)
  := by
  have free := laid.free
  have bound : data.length + slotSize < wordLimit :=
    Nat.lt_of_le_of_lt fits (Nat.lt_trans header.freeSize.toNat_lt (by decide))
  have entry : slotSize * (header.recordCount.toNat + 1) ≤ page.length := by
    simp only [slotSize] at free fits ⊢
    omega
  have within : header.freeOffset.toNat + data.length ≤ page.length := by omega
  have placed : place page data
      = .ok ⟨header, page.length - slotSize * (header.recordCount.toNat + 1)⟩ := by
    simp [place, laid.headed, orFault, some, Header.hasRoom, addLengths, bound, fits, slotStart,
      subLengths, entry, within, bind, Except.bind, pure, Except.pure]
  obtain ⟨grown, grow⟩ := grow_of_place placed short
  simp only [SlottedPage.insert, placed, grow]
  exact ⟨_, rfl⟩

/-- `insert` refuses `data` that is empty or does not fit the free space of the `header`, with
`.insufficientSpace`. -/
theorem insert_eq_error (headed : SlottedPage.header page = .ok header)
    (bound : data.length ≤ maxLength)
    (full : ¬ (data ≠ [] ∧ data.length + slotSize ≤ header.freeSize.toNat)) :
  insert page data = (.error (.error .insufficientSpace), page)
  := by
  have short : data.length + slotSize < wordLimit :=
    Nat.lt_of_le_of_lt (Nat.add_le_add_right bound slotSize) (by decide)
  have refused : place page data = .error (.error .insufficientSpace) := by
    by_cases none : data = []
    · simp [place, headed, orFault, none, bind, Except.bind, throw, throwThe, MonadExceptOf.throw]
    · have large : ¬ data.length + slotSize ≤ header.freeSize.toNat := fun fits => full ⟨none, fits⟩
      simp [place, headed, orFault, none, Header.hasRoom, addLengths, short, large, bind,
        Except.bind, pure, Except.pure, throw, throwThe, MonadExceptOf.throw]
  simp only [insert, refused]

/-! ### Pages that mirror lists -/

/-- Whether `page` with its `header` holds what `list` says. -/
structure Mirrors (page : Bytes) (header : Header) (list : RecordList) : Prop
    extends LaidOut page header where
  size : page.length = list.size
  room : headerSize + list.taken + header.freeSize.toNat = list.size
  count : header.recordCount.toNat = list.slots.length
  held : ∀ slot, record page slot = (list.get slot).mapError .error

namespace Mirrors

variable {list : RecordList}

/-- The header says how much is left. -/
theorem freeSize (mirrors : Mirrors page header list) :
  header.freeSize.toNat = list.free
  := by
  have room := mirrors.room
  simp only [RecordList.free]
  omega

/-- `SlottedPage.insert page data` answers as `list.insert data`, and leaves a page that `Mirrors`
what that leaves of `list`. -/
theorem insert (mirrors : Mirrors page header list) (short : page.length < UInt32.size)
    (data : Buffer) :
  settle UInt32.toNat (SlottedPage.insert page data).1 = .ok (list.insert data).1
    ∧ ∃ header', Mirrors (SlottedPage.insert page data).2 header' (list.insert data).2
  := by
  obtain ⟨data, bound⟩ := data
  simp only [RecordList.insert, ← mirrors.freeSize]
  by_cases fits : data ≠ [] ∧ data.length + slotSize ≤ header.freeSize.toNat
  · obtain ⟨after, eq⟩ := mirrors.toLaidOut.insert_eq_ok short fits.1 fits.2
    obtain ⟨-, header', inserted⟩ := mirrors.toLaidOut.inserted eq
    obtain ⟨-, -, -, records⟩ := mirrors.toLaidOut.insert eq
    rw [if_pos fits, eq]
    refine ⟨by rw [settle, mirrors.count], header', inserted.laidOut mirrors.toLaidOut, ?_, ?_, ?_,
      ?_⟩
    · rw [inserted.length, mirrors.size]
    · have room := mirrors.room
      have size := inserted.size
      simp only [RecordList.taken, List.map_cons, List.sum_cons] at room ⊢
      omega
    · rw [inserted.count, mirrors.count, List.length_append, List.length_singleton]
    · intro slot
      rw [records, mirrors.held]
      by_cases new : slot = header.recordCount
      · simp [RecordList.get, new, mirrors.count, Except.mapError]
      · have apart : slot.toNat ≠ list.slots.length := by
          rw [← mirrors.count]
          apply mt UInt32.toNat_inj.mp new
        have old : (list.slots ++ [some data])[slot.toNat]? = list.slots[slot.toNat]? := by
          rcases Nat.lt_or_gt_of_ne apart with before | beyond
          · rw [List.getElem?_append_left before]
          · have length : (list.slots ++ [some data]).length ≤ slot.toNat := by
              rw [List.length_append, List.length_singleton]
              apply beyond
            rw [List.getElem?_eq_none length, List.getElem?_eq_none (Nat.le_of_lt beyond)]
        rw [if_neg new]
        simp only [RecordList.get, old]
  · rw [if_neg fits, insert_eq_error mirrors.headed bound fits]
    exact ⟨rfl, header, mirrors⟩

/-- `SlottedPage.delete page slot` answers as `list.delete slot`, and leaves a page that `Mirrors`
what that leaves of `list`. -/
theorem delete (mirrors : Mirrors page header list) (slot : SlotId) :
  settle id (SlottedPage.delete page slot).1 = .ok (list.delete slot).1
    ∧ ∃ header', Mirrors (SlottedPage.delete page slot).2 header' (list.delete slot).2
  := by
  have read := mirrors.held slot
  cases found : list.get slot with
  | error cause =>
    rw [found] at read
    simp only [delete_of_record_error read, RecordList.delete, found]
    exact ⟨rfl, header, mirrors⟩
  | ok data =>
    rw [found] at read
    obtain ⟨after, eq⟩ := delete_of_record read
    have deleted := mirrors.toLaidOut.deleted eq
    obtain ⟨laid, -, records⟩ := mirrors.toLaidOut.delete eq
    have counted : slot.toNat < list.slots.length := by
      rw [← mirrors.count]
      apply deleted.counted
    simp only [eq, RecordList.delete, found]
    refine ⟨rfl, header, laid, ?_, mirrors.room, ?_, ?_⟩
    · rw [deleted.length, mirrors.size]
    · rw [mirrors.count, List.length_set]
    · intro other
      rw [records, mirrors.held]
      by_cases same : other = slot
      · simp [RecordList.get, same, counted, Except.mapError]
      · have apart : slot.toNat ≠ other.toNat := Ne.symm (mt UInt32.toNat_inj.mp same)
        rw [if_neg same]
        simp only [RecordList.get, List.getElem?_set_ne apart]

/-- The records of `page` from the slot `before.length` on are those that `list` has in `slots`. -/
theorem recordsFrom (mirrors : Mirrors page header list) :
  ∀ (slots before : List (Option Bytes)), list.slots = before ++ slots →
    (SlottedPage.recordsFrom page before.length slots.length).map
        (List.map (Prod.map UInt32.toNat id))
      = .ok (RecordList.liveFrom before.length slots)
  | [], _, _ => rfl
  | held :: slots, before, split => by
    have bound : before.length < UInt32.size := by
      have count := header.recordCount.toNat_lt
      rw [mirrors.count, split, List.length_append, List.length_cons] at count
      simp only [UInt32.size]
      omega
    have number : (UInt32.ofNat before.length).toNat = before.length :=
      UInt32.toNat_ofNat_of_lt' bound
    have read := mirrors.held (UInt32.ofNat before.length)
    have rest := mirrors.recordsFrom slots (before ++ [held]) (by rw [split]; simp)
    simp only [RecordList.get, number, split] at read
    rw [List.length_append, List.length_singleton] at rest
    cases held with
    | none =>
      simp only [List.getElem?_append_right, Nat.le_refl, Nat.sub_self,
        List.getElem?_cons_zero, Except.mapError] at read
      simp only [List.length_cons, SlottedPage.recordsFrom, read, RecordList.liveFrom, rest]
    | some data =>
      simp only [List.getElem?_append_right, Nat.le_refl, Nat.sub_self,
        List.getElem?_cons_zero, Except.mapError] at read
      cases later : SlottedPage.recordsFrom page (before.length + 1) slots.length with
      | error fault => simp [later, Except.map] at rest
      | ok found =>
        rw [later] at rest
        simp only [Except.map, Except.ok.injEq] at rest
        simp [SlottedPage.recordsFrom, read, later, RecordList.liveFrom, rest, number, Except.map,
          bind, Except.bind, pure, Except.pure]

/-- `SlottedPage.perform page op` answers as `list.perform op`, unless `op` is a question that
overflows, and leaves a page that `Mirrors` what that leaves of `list`. -/
theorem perform (mirrors : Mirrors page header list) (short : page.length < UInt32.size)
    (op : Op) :
  (SlottedPage.perform page op).1 = op.answerOr (list.perform op).1
    ∧ ∃ header', Mirrors (SlottedPage.perform page op).2 header' (list.perform op).2
  := by
  cases op with
  | insert data =>
    obtain ⟨result, after⟩ := mirrors.insert short data
    refine ⟨?_, after⟩
    simp only [SlottedPage.perform, RecordList.perform, result]
    rfl
  | delete slot =>
    obtain ⟨result, after⟩ := mirrors.delete slot
    refine ⟨?_, after⟩
    simp only [SlottedPage.perform, RecordList.perform, result]
    rfl
  | get slot =>
    refine ⟨?_, header, mirrors⟩
    simp only [SlottedPage.perform, RecordList.perform, mirrors.held]
    cases list.get slot <;> rfl
  | records =>
    refine ⟨?_, header, mirrors⟩
    have listed := mirrors.recordsFrom list.slots [] rfl
    rw [← mirrors.count, List.length_nil] at listed
    simp only [SlottedPage.perform, RecordList.perform, SlottedPage.records, mirrors.headed, bind,
      Except.bind, Op.answerOr, Op.overflows]
    cases found : SlottedPage.recordsFrom page 0 header.recordCount.toNat with
    | error fault => simp [found, Except.map] at listed
    | ok records => simpa [found, Except.map] using listed
  | freeSpace =>
    refine ⟨?_, header, mirrors⟩
    simp only [SlottedPage.perform, RecordList.perform, SlottedPage.freeSpace, mirrors.headed,
      ← mirrors.freeSize]
    rfl
  | hasRoom length =>
    refine ⟨?_, header, mirrors⟩
    simp only [SlottedPage.perform, RecordList.perform, SlottedPage.hasRoom, mirrors.headed,
      ← mirrors.freeSize, bind, Except.bind, Header.hasRoom, addLengths, Op.answerOr, Op.overflows]
    by_cases sum : length.toNat + slotSize < wordLimit
    · simp [sum, pure, Except.pure, Except.map]
    · simp [sum, Except.map]

end Mirrors

theorem length_perform (page : Bytes) (op : Op) :
  (perform page op).2.length = page.length
  := by
  cases op with
  | insert data => apply length_insert
  | delete slot => apply length_delete
  | get | records | freeSpace | hasRoom => rfl

/-! ### Runs -/

/-- A page that `Mirrors` a `list` answers `ops` in a row as `list` does, apart from questions that
overflow. -/
theorem Mirrors.answers_eq {list : RecordList} (mirrors : Mirrors page header list)
    (short : page.length < UInt32.size) (ops : List Op) :
  answers page ops = List.zipWith Op.answerOr ops (list.answers ops)
  := by
  induction ops generalizing page header list with
  | nil => rfl
  | cons op ops ih =>
    obtain ⟨first, header', after⟩ := mirrors.perform short op
    have rest := ih after (by rwa [length_perform])
    rw [answers, RecordList.answers, List.zipWith_cons_cons, first, rest]

/-- A page that `init` makes empty `Mirrors` the list without slots. -/
theorem mirrors_init (long : headerSize ≤ page.length) (short : page.length < UInt32.size) :
  ∃ start header, init page = .ok start ∧ Mirrors start header (.empty page.length)
  := by
  have eq : init page = .ok (page.overwrite 0 (Header.encode
      ⟨UInt32.ofNat headerSize, UInt32.ofNat (page.length - headerSize), 0⟩)) := by
    simp [init, Header.empty, subLengths, long, bind, Except.bind, pure, Except.pure]
  obtain ⟨⟨header, laid⟩, none⟩ := wellFormed_init eq
  cases laid.headed.symm.trans (header_overwrite _ _)
  refine ⟨_, _, eq, laid, ?_, ?_, rfl, none⟩
  · rw [Bytes.length_overwrite (by simpa using long)]
    rfl
  · have whole : (UInt32.ofNat (page.length - headerSize)).toNat = page.length - headerSize :=
      UInt32.toNat_ofNat_of_lt' (by omega)
    simp only [RecordList.taken, RecordList.empty, List.map_nil, List.sum_nil, whole]
    omega

/-- A page that `init` makes empty answers `ops` in a row as the list of its records does, apart
from questions that overflow.  So it answers all of them, and as the list does, exactly if no
`.hasRoom` asks about a `length` that has no sum with the length of a slot entry. -/
theorem answers_eq_iff (long : headerSize ≤ page.length) (short : page.length < UInt32.size)
    (ops : List Op) :
  ∃ start, init page = .ok start
    ∧ answers start ops
      = List.zipWith Op.answerOr ops ((RecordList.empty page.length).answers ops)
    ∧ (answers start ops = ((RecordList.empty page.length).answers ops).map .ok
      ↔ ∀ length, .hasRoom length ∈ ops → length.toNat + slotSize < wordLimit)
  := by
  obtain ⟨start, header, eq, mirrors⟩ := mirrors_init long short
  have answered := mirrors.answers_eq (by rwa [mirrors.size]) ops
  use start, eq, answered
  rw [answered, zipWith_answerOr_eq_iff _ _ (RecordList.length_answers ..)]
  constructor
  · intro fine length asked
    simpa [Op.overflows] using fine _ asked
  · intro fine op asked
    cases op with
    | hasRoom length => simpa [Op.overflows] using fine length asked
    | insert | delete | get | records | freeSpace => rfl

/-- The answers of a page of 36 bytes, which two records fill, to `.hasRoom`, `.get` and `.records`
after a deletion. -/
theorem answers_full_page :
  headerSize ≤ (List.replicate 36 0).length ∧ (List.replicate 36 0).length < UInt32.size
    ∧ ∃ start, init (List.replicate 36 0) = .ok start
      ∧ answers start
          [ .insert ⟨[1, 2, 3], by decide⟩, .insert ⟨[4, 5, 6, 7, 8], by decide⟩, .delete 0,
            .hasRoom 0, .get 0, .get 1, .get 2, .records ]
        = [ .ok (.inserted (.ok 0)), .ok (.inserted (.ok 1)), .ok (.deleted (.ok ())),
            .ok (.fits false), .ok (.got (.error (.recordNotFound 0))),
            .ok (.got (.ok [4, 5, 6, 7, 8])), .ok (.got (.error (.invalidSlot 2))),
            .ok (.listed [(1, [4, 5, 6, 7, 8])]) ]
  := by
  have long : headerSize ≤ (List.replicate 36 0 : Bytes).length := by decide
  have short : (List.replicate 36 0 : Bytes).length < UInt32.size := by decide
  obtain ⟨start, eq, -, answered⟩ := answers_eq_iff long short
    [ .insert ⟨[1, 2, 3], by decide⟩, .insert ⟨[4, 5, 6, 7, 8], by decide⟩, .delete 0,
      .hasRoom 0, .get 0, .get 1, .get 2, .records ]
  refine ⟨long, short, start, eq, ?_⟩
  rw [answered.mpr]
  · rfl
  · intro length asked
    obtain rfl : length = 0 := by simpa using asked
    decide

/-- The list has no room for the longest record; the page, asked by `.hasRoom`, answers
`.overflow`. -/
theorem hasRoom_longest :
  ∃ start, init (List.replicate 64 0) = .ok start
    ∧ answers start [.hasRoom 18446744073709551615] = [.error .overflow]
    ∧ (RecordList.empty 64).answers [.hasRoom 18446744073709551615] = [.fits false]
  := ⟨_, rfl, rfl, rfl⟩

end StorageEngine.SlottedPage

import StorageEngine.Proofs.SlottedPage.Records
import StorageEngine.Proofs.Workspace.Basic

/-!
# What workspaces tell of records

The history of a table lists the changes to its records that were committed, in the order of
commits, and those that transactions may still commit.  Workspaces tell a history (`Tells`) if the
committed pages of the table hold what the committed changes make of its records, and the private
pages of a transaction what its own changes make of these.  They do so along every run in which no
page of the table is edited in place (`Tells.run`).
-/

namespace StorageEngine

/-! ### Changes -/

/-- What is done to `record`: bytes are stored in it, or it is deleted. -/
structure Change where
  record : RecordId
  data : Option Bytes

namespace Change

variable {contents contents' : RecordId → Option Bytes} {changes : List Change}
  {record : RecordId} {data : Bytes}

/-- `contents` after `change`. -/
def apply (contents : RecordId → Option Bytes) (change : Change) : RecordId → Option Bytes :=
  Function.update contents change.record change.data

/-- `contents` after `changes` one by one. -/
def applyAll (changes : List Change) (contents : RecordId → Option Bytes) :
    RecordId → Option Bytes :=
  changes.foldl apply contents

/-- Whether bytes are stored in records only that hold none. -/
def Fresh : List Change → (RecordId → Option Bytes) → Prop
  | [], _ => True
  | change :: changes, contents =>
    (change.data.isSome → contents change.record = none) ∧ Fresh changes (apply contents change)

theorem applyAll_append (changes changes' : List Change) (contents : RecordId → Option Bytes) :
  applyAll (changes ++ changes') contents = applyAll changes' (applyAll changes contents)
  := List.foldl_append

/-- What `changes` make of `record` depends on what it holds before. -/
theorem applyAll_congr (changes : List Change) (same : contents record = contents' record) :
  applyAll changes contents record = applyAll changes contents' record
  := by
  induction changes generalizing contents contents' with
  | nil => apply same
  | cons change changes ih =>
    apply ih
    by_cases here : record = change.record
    · simp [apply, here]
    · simp [apply, here, same]

/-- A `record` that none of `changes` is of stays. -/
theorem applyAll_of_untouched (untouched : ∀ change ∈ changes, change.record ≠ record) :
  applyAll changes contents record = contents record
  := by
  induction changes generalizing contents with
  | nil => rfl
  | cons change changes ih =>
    rw [List.forall_mem_cons] at untouched
    refine (ih untouched.2).trans ?_
    simp [apply, untouched.1.symm]

theorem fresh_append (changes changes' : List Change) (contents : RecordId → Option Bytes) :
  Fresh (changes ++ changes') contents
    ↔ Fresh changes contents ∧ Fresh changes' (applyAll changes contents)
  := by
  induction changes generalizing contents with
  | nil => simp [Fresh, applyAll]
  | cons change changes ih =>
    rw [List.cons_append, Fresh, Fresh, ih, and_assoc]
    rfl

/-- Whether `changes` are `Fresh` depends on the records that they change. -/
theorem Fresh.congr (fresh : Fresh changes contents)
    (same : ∀ change ∈ changes, contents change.record = contents' change.record) :
  Fresh changes contents'
  := by
  induction changes generalizing contents contents' with
  | nil => trivial
  | cons change changes ih =>
    rw [List.forall_mem_cons] at same
    refine ⟨same.1 ▸ fresh.1, ih fresh.2 ?_⟩
    intro later member
    by_cases here : later.record = change.record
    · simp [apply, here]
    · simp [apply, here, same.2 later member]

/-- A `record` that `changes` do not delete goes on to hold `data`. -/
theorem Fresh.kept (fresh : Fresh changes contents) (holds : contents record = some data)
    (undeleted : ∀ change ∈ changes, change.record = record → change.data ≠ none) :
  applyAll changes contents record = some data
  := by
  induction changes generalizing contents with
  | nil => apply holds
  | cons change changes ih =>
    rw [List.forall_mem_cons] at undeleted
    apply ih fresh.2 _ undeleted.2
    by_cases here : change.record = record
    · have stores := Option.isSome_iff_ne_none.mpr (undeleted.1 here)
      cases (here ▸ fresh.1 stores).symm.trans holds
    · simp [apply, Ne.symm here, holds]

end Change

/-! ### Histories -/

/-- The changes to the records of a table that were `committed`, in order, and those that each
transaction has `pending` since it last ended. -/
structure History where
  committed : List Change
  pending : TransactionId → List Change

namespace History

/-- The history of a table to which nothing has happened. -/
def empty : History := ⟨[], fun _ => []⟩

/-- Notes that `txn` has changed a record as `change` says. -/
def note (history : History) (txn : TransactionId) (change : Change) : History :=
  { history with
    pending := Function.update history.pending txn (history.pending txn ++ [change]) }

/-- Forgets the changes that `txn` has pending. -/
def drop (history : History) (txn : TransactionId) : History :=
  { history with pending := Function.update history.pending txn [] }

/-- Notes that `txn` has committed its changes. -/
def commit (history : History) (txn : TransactionId) : History :=
  { history.drop txn with committed := history.committed ++ history.pending txn }

/-- `history` of `table` after an event. -/
def after (table : TableId) (history : History) : Event → History
  | .inserted txn record tuple =>
    if record.page.table = table then history.note txn ⟨record, some tuple⟩ else history
  | .deleted txn record =>
    if record.page.table = table then history.note txn ⟨record, none⟩ else history
  | .ended txn true (.ok ()) => history.commit txn
  | .ended txn _ _ => history.drop txn
  | _ => history

/-- The history of `table` after `events` one by one. -/
def of (table : TableId) (events : List Event) : History := events.foldl (after table) empty

/-- What records hold, from `start` on, by the changes that `history` has committed. -/
def contents (history : History) (start : RecordId → Option Bytes) : RecordId → Option Bytes :=
  Change.applyAll history.committed start

/-- What records hold for `txn`, from `start` on, by its own changes too. -/
def seen (history : History) (start : RecordId → Option Bytes) (txn : TransactionId) :
    RecordId → Option Bytes :=
  Change.applyAll (history.pending txn) (history.contents start)

end History

/-! ### Pages and records -/

/-- Whether `bytes` are well formed and the records of `page` in them hold what `contents` says. -/
def SlottedPage.Holds (bytes : Bytes) (page : PageId) (contents : RecordId → Option Bytes) : Prop :=
  WellFormed bytes ∧ ∀ slot, (record bytes slot).toOption = contents ⟨page, slot⟩

namespace SlottedPage.Holds

variable {bytes after tuple : Bytes} {page : PageId} {slot : SlotId}
  {contents contents' : RecordId → Option Bytes}

theorem congr (holds : Holds bytes page contents)
    (same : ∀ slot, contents ⟨page, slot⟩ = contents' ⟨page, slot⟩) :
  Holds bytes page contents'
  := ⟨holds.1, fun slot => (holds.2 slot).trans (same slot)⟩

/-- An insertion stores into a `slot` that holds nothing, and the page `Holds` the changed
contents. -/
theorem insert (holds : Holds bytes page contents)
    (eq : SlottedPage.insert bytes tuple = (.ok slot, after)) :
  contents ⟨page, slot⟩ = none
    ∧ Holds after page (Change.apply contents ⟨⟨page, slot⟩, some tuple⟩)
  := by
  obtain ⟨⟨header, laid⟩, records⟩ := holds
  obtain ⟨header', laid', missing, others⟩ := laid.insert eq
  constructor
  · rw [← records, missing]
    rfl
  · use ⟨header', laid'⟩
    intro other
    rw [others, Change.apply]
    by_cases here : other = slot
    · subst here
      rw [if_pos rfl, Function.update_self]
      rfl
    · rw [if_neg here, Function.update_of_ne (by simpa using here), records]

/-- After a deletion the page `Holds` the contents without `slot`. -/
theorem delete (holds : Holds bytes page contents)
    (eq : SlottedPage.delete bytes slot = (.ok (), after)) :
  Holds after page (Change.apply contents ⟨⟨page, slot⟩, none⟩)
  := by
  obtain ⟨⟨header, laid⟩, records⟩ := holds
  obtain ⟨laid', -, others⟩ := laid.delete eq
  use ⟨header, laid'⟩
  intro other
  rw [others, Change.apply]
  by_cases here : other = slot
  · subst here
    rw [if_pos rfl, Function.update_self]
    rfl
  · rw [if_neg here, Function.update_of_ne (by simpa using here), records]

/-- An empty page `Holds` contents that have no record of `page`. -/
theorem empty {size : Nat} (eq : Store.emptyHeapPage size = .ok bytes)
    (missing : ∀ slot, contents ⟨page, slot⟩ = none) :
  Holds bytes page contents
  := by
  cases filled : zeros size with
  | error fault => simp [Store.emptyHeapPage, filled, bind, Except.bind] at eq
  | ok zeros =>
    have made : init zeros = .ok bytes := by
      simpa [Store.emptyHeapPage, filled, bind, Except.bind] using eq
    obtain ⟨formed, records⟩ := wellFormed_init made
    use formed
    intro slot
    rw [records, missing]
    rfl

end SlottedPage.Holds

/-! ### Telling a history -/

namespace Workspaces

variable {spaces after : Workspaces} {txn other : TransactionId} {page : PageId} {bytes : Bytes}
  {table : TableId} {start : RecordId → Option Bytes} {history : History} {event : Event}

/-- Whether the pages of `table` in `spaces` are what `history` makes of `start`. -/
structure Tells (spaces : Workspaces) (table : TableId) (start : RecordId → Option Bytes)
    (history : History) : Prop where
  committed : ∀ page bytes, page.table = table → spaces.committed page = some bytes →
    SlottedPage.Holds bytes page (history.contents start)
  missing : ∀ record : RecordId, record.page.table = table →
    spaces.committed record.page = none → history.contents start record = none
  overlay : ∀ txn page bytes, page.table = table → spaces.overlay txn page = some bytes →
    SlottedPage.Holds bytes page (history.seen start txn)
  own : ∀ change ∈ history.committed, change.record.page.table = table
  pending : ∀ txn, ∀ change ∈ history.pending txn,
    change.record.page.table = table ∧ (spaces.overlay txn change.record.page).isSome
  disjoint : ∀ txn other page, other ≠ txn → (spaces.overlay txn page).isSome →
    spaces.overlay other page = none
  fresh : Change.Fresh history.committed start
  freshPending : ∀ txn, Change.Fresh (history.pending txn) (history.contents start)

namespace Tells

/-- A transaction has no changes pending to a page that it has not changed. -/
theorem untouched (tells : spaces.Tells table start history)
    (unchanged : spaces.overlay txn page = none) :
  ∀ change ∈ history.pending txn, ∀ slot, change.record ≠ ⟨page, slot⟩
  := by
  intro change member slot same
  obtain ⟨-, changed⟩ := tells.pending txn change member
  simp [same, unchanged] at changed

/-- What `txn` sees in `page` `Holds` what its own changes make of the committed contents. -/
theorem view (tells : spaces.Tells table start history) (own : page.table = table)
    (seen : spaces.view txn page = some bytes) :
  SlottedPage.Holds bytes page (history.seen start txn)
  := by
  cases changed : spaces.overlay txn page with
  | some image =>
    obtain rfl : image = bytes := by
      simpa [Workspaces.view, changed] using seen
    apply tells.overlay txn page image own changed
  | none =>
    have stored : spaces.committed page = some bytes := by
      simpa [Workspaces.view, changed] using seen
    apply (tells.committed page bytes own stored).congr
    intro slot
    symm
    apply Change.applyAll_of_untouched
    intro change member
    apply tells.untouched changed change member slot

/-- `Tells` persists when `txn` changes a record of `table` and `change` is noted. -/
theorem note (tells : spaces.Tells table start history) {change : Change}
    (own : change.record.page.table = table)
    (holds : SlottedPage.Holds bytes change.record.page
      (Change.apply (history.seen start txn) change))
    (fresh : change.data.isSome → history.seen start txn change.record = none)
    (alone : ∀ other, other ≠ txn → spaces.overlay other change.record.page = none) :
  (spaces.put txn change.record.page (some bytes)).Tells table start (history.note txn change)
  where
  committed := tells.committed
  missing := tells.missing
  overlay other page image inside changed := by
    rw [overlay_put] at changed
    by_cases mine : other = txn
    · subst mine
      have step : (history.note other change).seen start other
          = Change.apply (history.seen start other) change := by
        simp [History.note, History.seen, History.contents, Change.applyAll]
      rw [step]
      by_cases here : page = change.record.page
      · subst here
        obtain rfl : bytes = image := by
          simpa using changed
        apply holds
      · rw [if_neg (by tauto)] at changed
        apply (tells.overlay other page image inside changed).congr
        intro slot
        rw [Change.apply, Function.update_of_ne]
        intro same
        apply here (congrArg RecordId.page same)
    · rw [if_neg (by tauto)] at changed
      have step : (history.note txn change).seen start other = history.seen start other := by
        simp [History.note, History.seen, History.contents, mine]
      rw [step]
      apply tells.overlay other page image inside changed
  own := tells.own
  pending other later member := by
    rw [overlay_put]
    by_cases mine : other = txn
    · subst mine
      obtain before | rfl : later ∈ history.pending other ∨ later = change := by
        simpa [History.note] using member
      · obtain ⟨inside, changed⟩ := tells.pending other later before
        use inside
        split
        · rfl
        · apply changed
      · use own
        simp
    · rw [if_neg (by tauto)]
      apply tells.pending other later
      simpa [History.note, mine] using member
  disjoint := by
    intro first second page distinct changed
    rw [overlay_put] at changed ⊢
    by_cases mine : second = txn ∧ page = change.record.page
    · obtain ⟨rfl, rfl⟩ := mine
      rw [if_neg (by tauto), alone first distinct.symm] at changed
      cases changed
    · rw [if_neg mine]
      by_cases here : first = txn ∧ page = change.record.page
      · obtain ⟨rfl, rfl⟩ := here
        apply alone second distinct
      · rw [if_neg here] at changed
        apply tells.disjoint first second page distinct changed
  fresh := tells.fresh
  freshPending other := by
    by_cases mine : other = txn
    · subst mine
      have step : (history.note other change).pending other
          = history.pending other ++ [change] := by
        simp [History.note]
      rw [step, Change.fresh_append]
      exact ⟨tells.freshPending other, fresh, trivial⟩
    · have step : (history.note txn change).pending other = history.pending other := by
        simp [History.note, mine]
      rw [step]
      apply tells.freshPending other

/-- `Tells` persists when `txn` changes a page of another table. -/
theorem put (tells : spaces.Tells table start history) (foreign : page.table ≠ table)
    (alone : ∀ other, other ≠ txn → spaces.overlay other page = none) :
  (spaces.put txn page (some bytes)).Tells table start history
  where
  committed := tells.committed
  missing := tells.missing
  overlay other place image inside changed := by
    rw [overlay_put, if_neg] at changed
    · apply tells.overlay other place image inside changed
    · rintro ⟨-, rfl⟩
      apply foreign inside
  own := tells.own
  pending other change member := by
    obtain ⟨inside, changed⟩ := tells.pending other change member
    rw [overlay_put]
    use inside
    split
    · rfl
    · apply changed
  disjoint := by
    intro first second place distinct changed
    rw [overlay_put] at changed ⊢
    by_cases mine : second = txn ∧ place = page
    · obtain ⟨rfl, rfl⟩ := mine
      rw [if_neg (by tauto), alone first distinct.symm] at changed
      cases changed
    · rw [if_neg mine]
      by_cases here : first = txn ∧ place = page
      · obtain ⟨rfl, rfl⟩ := here
        apply alone second distinct
      · rw [if_neg here] at changed
        apply tells.disjoint first second place distinct changed
  fresh := tells.fresh
  freshPending := tells.freshPending

/-- `Tells` persists when the changes of `txn` are dropped. -/
theorem drop (tells : spaces.Tells table start history) (txn : TransactionId) :
  (spaces.drop txn).Tells table start (history.drop txn)
  where
  committed := tells.committed
  missing := tells.missing
  overlay other page image inside changed := by
    rw [overlay_drop] at changed
    by_cases mine : other = txn
    · simp [mine] at changed
    · rw [if_neg mine] at changed
      have step : (history.drop txn).seen start other = history.seen start other := by
        simp [History.drop, History.seen, History.contents, mine]
      rw [step]
      apply tells.overlay other page image inside changed
  own := tells.own
  pending other change member := by
    by_cases mine : other = txn
    · simp [History.drop, mine] at member
    · rw [overlay_drop, if_neg mine]
      apply tells.pending other change
      simpa [History.drop, mine] using member
  disjoint := by
    intro first second page distinct changed
    rw [overlay_drop] at changed ⊢
    by_cases mine : second = txn
    · rw [if_pos mine]
    · rw [if_neg mine]
      by_cases here : first = txn
      · simp [here] at changed
      · rw [if_neg here] at changed
        apply tells.disjoint first second page distinct changed
  fresh := tells.fresh
  freshPending other := by
    by_cases mine : other = txn
    · simp [History.drop, mine, Change.Fresh]
    · have step : (history.drop txn).pending other = history.pending other := by
        simp [History.drop, mine]
      rw [step]
      apply tells.freshPending other

/-- `history.commit txn` makes of `start` what `txn` has seen. -/
theorem contents_commit (history : History) (txn : TransactionId) :
  (history.commit txn).contents start = history.seen start txn
  := Change.applyAll_append ..

/-- `history.commit txn` changes no record of a `page` that `txn` has not changed. -/
theorem contents_commit_of_unchanged (tells : spaces.Tells table start history)
    (unchanged : spaces.overlay txn page = none) (slot : SlotId) :
  (history.commit txn).contents start ⟨page, slot⟩ = history.contents start ⟨page, slot⟩
  := by
  rw [contents_commit]
  apply Change.applyAll_of_untouched
  intro change member
  apply tells.untouched unchanged change member slot

/-- `Tells` persists when `txn` commits. -/
theorem commit (tells : spaces.Tells table start history) (txn : TransactionId) :
  (spaces.commit txn).Tells table start (history.commit txn)
  where
  committed page image inside stored := by
    rw [contents_commit]
    apply tells.view inside stored
  missing record inside absent := by
    have absent : spaces.view txn record.page = none := absent
    obtain ⟨unchanged, absent⟩ := Option.or_eq_none_iff.mp absent
    rw [tells.contents_commit_of_unchanged unchanged record.slot]
    apply tells.missing record inside absent
  overlay other page image inside changed := by
    rw [Workspaces.commit, overlay_drop] at changed
    by_cases mine : other = txn
    · simp [mine] at changed
    · rw [if_neg mine] at changed
      have unchanged := tells.disjoint other txn page (Ne.symm mine) (Option.isSome_of_mem changed)
      apply (tells.overlay other page image inside changed).congr
      intro slot
      have step : (history.commit txn).pending other = history.pending other := by
        simp [History.commit, History.drop, mine]
      rw [History.seen, History.seen, step]
      apply Change.applyAll_congr
      rw [tells.contents_commit_of_unchanged unchanged]
  own change member := by
    rcases List.mem_append.mp member with before | new
    · apply tells.own change before
    · apply (tells.pending txn change new).1
  pending := (tells.drop txn).pending
  disjoint := (tells.drop txn).disjoint
  fresh := by
    apply (Change.fresh_append ..).mpr
    exact ⟨tells.fresh, tells.freshPending txn⟩
  freshPending other := by
    by_cases mine : other = txn
    · simp [History.commit, History.drop, mine, Change.Fresh]
    · have step : (history.commit txn).pending other = history.pending other := by
        simp [History.commit, History.drop, mine]
      rw [step]
      apply (tells.freshPending other).congr
      intro change member
      obtain ⟨-, changed⟩ := tells.pending other change member
      have unchanged := tells.disjoint other txn _ (Ne.symm mine) changed
      rw [tells.contents_commit_of_unchanged unchanged change.record.slot]

/-- `Tells` persists when an empty `page` is appended. -/
theorem grow (tells : spaces.Tells table start history) {size : Nat}
    (new : spaces.committed page = none) (empty : Store.emptyHeapPage size = .ok bytes) :
  (spaces.grow page bytes).Tells table start history
  where
  committed place image inside stored := by
    by_cases here : place = page
    · subst here
      obtain rfl : bytes = image := by
        simpa using stored
      apply SlottedPage.Holds.empty empty
      intro slot
      apply tells.missing ⟨place, slot⟩ inside new
    · rw [committed_grow, if_neg here] at stored
      apply tells.committed place image inside stored
  missing record inside absent := by
    apply tells.missing record inside
    by_cases here : record.page = page
    · rw [here, new]
    · rw [committed_grow, if_neg here] at absent
      apply absent
  overlay := tells.overlay
  own := tells.own
  pending := tells.pending
  disjoint := tells.disjoint
  fresh := tells.fresh
  freshPending := tells.freshPending

/-! ### Runs -/

/-- `Tells` persists after an `event` that edits no page of `table` in place. -/
theorem step (tells : spaces.Tells table start history) (step : spaces.Step event after)
    (unedited : ∀ txn page edits, event = .updated txn page edits → page.table ≠ table) :
  after.Tells table start (history.after table event)
  := by
  cases step with
  | fetched seen => apply tells
  | scanned begun seen => apply tells
  | scanning all =>
    exact ⟨tells.committed, tells.missing, tells.overlay, tells.own, tells.pending, tells.disjoint,
      tells.fresh, tells.freshPending⟩
  | grown new unseen empty => apply tells.grow new empty
  | committed => apply tells.commit
  | aborted faultless => apply tells.drop
  | updated seen edited alone => apply tells.put (unedited _ _ _ rfl) alone
  | @inserted txn record tuple _ _ seen stored alone =>
    rw [History.after]
    by_cases own : record.page.table = table
    · obtain ⟨missing, holds⟩ := (tells.view own seen).insert stored
      rw [if_pos own]
      apply tells.note own holds _ alone
      intro _
      apply missing
    · rw [if_neg own]
      apply tells.put own alone
  | @deleted txn record _ _ seen deleted alone =>
    rw [History.after]
    by_cases own : record.page.table = table
    · rw [if_pos own]
      apply tells.note own ((tells.view own seen).delete deleted) _ alone
      intro stores
      cases stores
    · rw [if_neg own]
      apply tells.put own alone

/-- `Tells` persists along a `run` in which no page of `table` is edited in place. -/
theorem run {events : List Event} (tells : spaces.Tells table start history)
    (run : spaces.Run events after)
    (unedited : ∀ txn page edits, .updated txn page edits ∈ events → page.table ≠ table) :
  after.Tells table start (events.foldl (History.after table) history)
  := by
  induction run generalizing history with
  | stop => apply tells
  | step step rest ih =>
    apply ih
    · apply tells.step step
      rintro txn page edits rfl
      apply unedited txn page edits (List.mem_cons_self ..)
    · intro txn page edits member
      apply unedited txn page edits (List.mem_cons_of_mem _ member)

/-- An insertion reports a `record` that holds nothing for `txn`. -/
theorem seen_of_inserted (tells : spaces.Tells table start history) {record : RecordId}
    {tuple : Bytes} (own : record.page.table = table)
    (step : spaces.Step (.inserted txn record tuple) after) :
  history.seen start txn record = none
  := by
  cases step with
  | inserted seen stored alone => apply ((tells.view own seen).insert stored).1

/-- A `record` in which `tuple` was committed to be stored holds it, if it was not deleted
`later`. -/
theorem contents_of_committed (tells : spaces.Tells table start history)
    {earlier later : List Change} {record : RecordId} {tuple : Bytes}
    (split : history.committed = earlier ++ ⟨record, some tuple⟩ :: later)
    (undeleted : ∀ change ∈ later, change.record = record → change.data ≠ none) :
  history.contents start record = some tuple
  := by
  have fresh := tells.fresh
  rw [split, Change.fresh_append] at fresh
  rw [History.contents, split, Change.applyAll_append]
  apply fresh.2.2.kept _ undeleted
  simp [Change.apply]

/-- `Workspaces.initial committed` tells `start`, with nothing in the history, if its pages hold
that. -/
theorem initial {committed : PageId → Option Bytes}
    (holds : ∀ page bytes, page.table = table → committed page = some bytes →
      SlottedPage.Holds bytes page start)
    (missing : ∀ record : RecordId, committed record.page = none → start record = none) :
  (Workspaces.initial committed).Tells table start .empty
  where
  committed := holds
  missing record _ := missing record
  overlay _ _ _ _ changed := by cases changed
  own _ member := by cases member
  pending _ _ member := by cases member
  disjoint _ _ _ _ _ := rfl
  fresh := trivial
  freshPending _ := trivial

end Tells

end Workspaces

end StorageEngine

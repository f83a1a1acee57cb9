import Mathlib.Logic.Function.Basic
import Mathlib.Tactic.Common
import StorageEngine.Call.Scan

/-!
# Private workspaces

The idea that transactions are given of a pool: every page has one committed image, and every
transaction has a private image of each page that it has changed.  A transaction sees its private
image of a page or else the committed one; its private images become the committed ones when it
commits, and are gone when it aborts.  There are no caches, locks or failures here.
-/

namespace StorageEngine

/-! ### Edits -/

/-- `data` that is put in place of the bytes from `start` on. -/
structure Edit where
  start : Nat
  data : Bytes
  deriving DecidableEq

/-- `bytes` after `edits`, if all of them fit. -/
def Edit.applyAll? (edits : List Edit) (bytes : Bytes) : Option Bytes :=
  edits.foldlM (fun bytes edit => bytes.overwrite? edit.start edit.data) bytes

/-- To apply `edits ++ [edit]` is to apply `edits` and then `edit`. -/
theorem Edit.applyAll?_concat (edits : List Edit) (edit : Edit) (bytes : Bytes) :
  Edit.applyAll? (edits ++ [edit]) bytes
    = (Edit.applyAll? edits bytes).bind (·.overwrite? edit.start edit.data)
  := by
  simp [applyAll?, List.foldlM_append]

/-! ### Workspaces -/

/-- What the transactions on a pool do, as far as they can tell. -/
inductive Event where
  /-- A page was fetched, with these bytes. -/
  | fetched (txn : TransactionId) (page : PageId) (bytes : Bytes)
  /-- A fetched page was edited in place and marked. -/
  | updated (txn : TransactionId) (page : PageId) (edits : List Edit)
  | inserted (txn : TransactionId) (record : RecordId) (tuple : Bytes)
  | deleted (txn : TransactionId) (record : RecordId)
  /-- A scan began on a table of so many pages. -/
  | scanning (txn : TransactionId) (table : TableId) (pages : Nat)
  /-- A scan ended with these tuples. -/
  | scanned (txn : TransactionId) (table : TableId) (found : List Tuple)
  /-- An empty page was appended to a table, with these bytes. -/
  | grown (page : PageId) (bytes : Bytes)
  /-- A transaction was told to end, with this result. -/
  | ended (txn : TransactionId) (commits : Bool) (result : Except (Failure PoolError) Unit)

/-- The committed image of each page, and the private images of each transaction. -/
structure Workspaces where
  committed : PageId → Option Bytes
  overlay : TransactionId → PageId → Option Bytes
  /-- The table of the last scan of each transaction, and how many pages it had. -/
  scans : TransactionId → Option (TableId × Nat)

namespace Workspaces

variable {spaces : Workspaces} {txn other : TransactionId} {page : PageId} {bytes : Bytes}

/-- The workspaces over `committed` before any transaction has done anything. -/
def initial (committed : PageId → Option Bytes) : Workspaces :=
  ⟨committed, fun _ _ => none, fun _ => none⟩

/-- The image of `page` that `txn` sees. -/
def view (spaces : Workspaces) (txn : TransactionId) (page : PageId) : Option Bytes :=
  (spaces.overlay txn page).or (spaces.committed page)

/-- The tuples that `txn` sees in some pages of `table`, if it sees these pages. -/
def collect? (spaces : Workspaces) (txn : TransactionId) (table : TableId) :
    List PageNo → Option (List Tuple)
  | [] => some []
  | no :: rest => do
    let bytes ← spaces.view txn ⟨table, no⟩
    let records ← (SlottedPage.records bytes).toOption
    return Call.tuplesOf ⟨table, no⟩ records ++ (← spaces.collect? txn table rest)

/-- The numbers of the first `pages` of a table. -/
def pageNos (pages : Nat) : List PageNo := (List.range pages).map UInt32.ofNat

/-- Sets the private image that `txn` has of `page`. -/
def put (spaces : Workspaces) (txn : TransactionId) (page : PageId) (image : Option Bytes) :
    Workspaces :=
  { spaces with
    overlay := Function.update spaces.overlay txn
      (Function.update (spaces.overlay txn) page image) }

/-- Forgets the private images of `txn`. -/
def drop (spaces : Workspaces) (txn : TransactionId) : Workspaces :=
  { spaces with overlay := Function.update spaces.overlay txn fun _ => none }

/-- Makes the private images of `txn` the committed ones. -/
def commit (spaces : Workspaces) (txn : TransactionId) : Workspaces :=
  { spaces.drop txn with committed := spaces.view txn }

/-- Sets the committed image of `page`. -/
def grow (spaces : Workspaces) (page : PageId) (bytes : Bytes) : Workspaces :=
  { spaces with committed := Function.update spaces.committed page (some bytes) }

/-- Notes that `txn` has begun a scan of `table`. -/
def scan (spaces : Workspaces) (txn : TransactionId) (table : TableId) (pages : Nat) :
    Workspaces :=
  { spaces with scans := Function.update spaces.scans txn (some (table, pages)) }

/-- What an event says of the workspaces, and what it makes of them. -/
inductive Step : Workspaces → Event → Workspaces → Prop where
  | fetched {spaces : Workspaces} {txn : TransactionId} {page : PageId} {bytes : Bytes}
      (seen : spaces.view txn page = some bytes) :
      Step spaces (.fetched txn page bytes) spaces
  | updated {spaces : Workspaces} {txn : TransactionId} {page : PageId} {edits : List Edit}
      {before after : Bytes} (seen : spaces.view txn page = some before)
      (edited : Edit.applyAll? edits before = some after)
      (alone : ∀ other, other ≠ txn → spaces.overlay other page = none) :
      Step spaces (.updated txn page edits) (spaces.put txn page (some after))
  | inserted {spaces : Workspaces} {txn : TransactionId} {record : RecordId} {tuple : Bytes}
      {before after : Bytes} (seen : spaces.view txn record.page = some before)
      (stored : SlottedPage.insert before tuple = (.ok record.slot, after))
      (alone : ∀ other, other ≠ txn → spaces.overlay other record.page = none) :
      Step spaces (.inserted txn record tuple) (spaces.put txn record.page (some after))
  | deleted {spaces : Workspaces} {txn : TransactionId} {record : RecordId}
      {before after : Bytes} (seen : spaces.view txn record.page = some before)
      (deleted : SlottedPage.delete before record.slot = (.ok (), after))
      (alone : ∀ other, other ≠ txn → spaces.overlay other record.page = none) :
      Step spaces (.deleted txn record) (spaces.put txn record.page (some after))
  | scanning {spaces : Workspaces} {txn : TransactionId} {table : TableId} {pages : Nat}
      (all : ∀ no, (spaces.committed ⟨table, no⟩).isSome → no.toNat < pages) :
      Step spaces (.scanning txn table pages) (spaces.scan txn table pages)
  | scanned {spaces : Workspaces} {txn : TransactionId} {table : TableId} {pages : Nat}
      {found : List Tuple} (begun : spaces.scans txn = some (table, pages))
      (seen : spaces.collect? txn table (pageNos pages) = some found) :
      Step spaces (.scanned txn table found) spaces
  | grown {spaces : Workspaces} {page : PageId} {bytes : Bytes} {size : Nat}
      (new : spaces.committed page = none) (unseen : ∀ txn, spaces.overlay txn page = none)
      (empty : Store.emptyHeapPage size = .ok bytes) :
      Step spaces (.grown page bytes) (spaces.grow page bytes)
  | committed {spaces : Workspaces} {txn : TransactionId} :
      Step spaces (.ended txn true (.ok ())) (spaces.commit txn)
  | aborted {spaces : Workspaces} {txn : TransactionId} {result : Except (Failure PoolError) Unit}
      (faultless : ∀ fault, result ≠ .error (.fault fault)) :
      Step spaces (.ended txn false result) (spaces.drop txn)

/-- What events in a row make of the workspaces. -/
inductive Run : Workspaces → List Event → Workspaces → Prop where
  | stop (spaces : Workspaces) : Run spaces [] spaces
  | step {spaces next last : Workspaces} {event : Event} {events : List Event}
      (step : Step spaces event next) (rest : Run next events last) :
      Run spaces (event :: events) last

theorem Run.single {spaces after : Workspaces} {event : Event} (step : Step spaces event after) :
  Run spaces [event] after
  := .step step (.stop after)

theorem Run.append {spaces next last : Workspaces} {events events' : List Event}
    (first : Run spaces events next) (second : Run next events' last) :
  Run spaces (events ++ events') last
  := by
  induction first with
  | stop => apply second
  | step step _ ih => apply Run.step step (ih second)

/-- What `events ++ events'` make of workspaces is made by `events'` of what `events` make of
them. -/
theorem Run.split {spaces last : Workspaces} {events events' : List Event}
    (run : Run spaces (events ++ events') last) :
  ∃ next, Run spaces events next ∧ Run next events' last
  := by
  induction events generalizing spaces with
  | nil => use spaces, .stop spaces, run
  | cons event events ih =>
    cases run with
    | step step rest =>
      obtain ⟨next, first, second⟩ := ih rest
      use next, .step step first, second

/-- An `event` makes one thing of workspaces only. -/
theorem Step.unique {spaces after after' : Workspaces} {event : Event}
    (step : Step spaces event after) (step' : Step spaces event after') :
  after' = after
  := by
  cases step with
  | updated seen edited alone =>
    cases step' with
    | updated seen' edited' =>
      cases seen.symm.trans seen'
      cases edited.symm.trans edited'
      rfl
  | inserted seen stored alone =>
    cases step' with
    | inserted seen' stored' =>
      cases seen.symm.trans seen'
      cases stored.symm.trans stored'
      rfl
  | deleted seen deleted alone =>
    cases step' with
    | deleted seen' deleted' =>
      cases seen.symm.trans seen'
      cases deleted.symm.trans deleted'
      rfl
  | _ =>
    cases step'
    rfl

/-- `events` make one thing of workspaces only. -/
theorem Run.unique {spaces after after' : Workspaces} {events : List Event}
    (run : Run spaces events after) (run' : Run spaces events after') :
  after' = after
  := by
  induction run with
  | stop =>
    cases run'
    rfl
  | step step _ ih =>
    cases run' with
    | step step' rest =>
      cases step.unique step'
      apply ih rest

/-! ### What the operations change -/

@[simp]
theorem overlay_put (image : Option Bytes) (other : TransactionId) (place : PageId) :
  (spaces.put txn page image).overlay other place
    = if other = txn ∧ place = page then image else spaces.overlay other place
  := by
  by_cases mine : other = txn
  · subst mine
    by_cases here : place = page
    · subst here
      simp [put]
    · simp [put, here]
  · simp [put, mine]

@[simp]
theorem committed_grow (place : PageId) :
  (spaces.grow page bytes).committed place
    = if place = page then some bytes else spaces.committed place
  := by
  by_cases here : place = page
  · subst here
    simp [grow]
  · simp [grow, here]

@[simp]
theorem overlay_drop (other : TransactionId) (page : PageId) :
  (spaces.drop txn).overlay other page = if other = txn then none else spaces.overlay other page
  := by
  by_cases mine : other = txn
  · subst mine
    simp [drop]
  · simp [drop, mine]

/-- A committed image of `page` stays in a `run` without commits. -/
theorem Run.committed_eq {spaces after : Workspaces} {events : List Event}
    (run : Run spaces events after) (pending : ∀ txn result, .ended txn true result ∉ events)
    (image : spaces.committed page = some bytes) :
  after.committed page = some bytes
  := by
  induction run with
  | stop => exact image
  | step step _ ih =>
    apply ih
    · intro txn result later
      exact pending txn result (List.mem_cons_of_mem _ later)
    · cases step with
      | @grown place _ _ new =>
        have apart : page ≠ place := by
          rintro rfl
          cases new.symm.trans image
        simp [committed_grow, apart, image]
      | committed => cases pending _ _ List.mem_cons_self
      | _ => exact image

/-- What is collected in `pages ++ [no]` is `found` in `pages` with the tuples of the page `no`
after it. -/
theorem collect?_concat {table : TableId} {no : PageNo} {pages : List PageNo} {found : List Tuple}
    {records : List (SlotId × Bytes)} (before : spaces.collect? txn table pages = some found)
    (seen : spaces.view txn ⟨table, no⟩ = some bytes)
    (eq : SlottedPage.records bytes = .ok records) :
  spaces.collect? txn table (pages ++ [no])
    = some (found ++ Call.tuplesOf ⟨table, no⟩ records)
  := by
  induction pages generalizing found with
  | nil =>
    obtain rfl : [] = found := by simpa [collect?] using before
    simp [collect?, seen, eq, Except.toOption]
  | cons first pages ih =>
    simp only [collect?, List.cons_append, bind, Option.bind_eq_some_iff, pure,
      Option.some.injEq] at before ⊢
    obtain ⟨bytes, view, records, read, rest, more, rfl⟩ := before
    refine ⟨bytes, view, records, read, _, ih more, ?_⟩
    rw [List.append_assoc]

/-- What `txn` collects in `pages` depends on what it sees of these pages alone. -/
theorem collect?_congr {after : Workspaces} {table : TableId} {pages : List PageNo}
    (same : ∀ no ∈ pages, after.view txn ⟨table, no⟩ = spaces.view txn ⟨table, no⟩) :
  after.collect? txn table pages = spaces.collect? txn table pages
  := by
  induction pages with
  | nil => rfl
  | cons no pages ih =>
    simp only [List.mem_cons, forall_eq_or_imp] at same
    simp only [collect?, same.1, ih same.2]

end Workspaces

end StorageEngine

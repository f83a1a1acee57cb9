import StorageEngine.Proofs.System.Simulation
import StorageEngine.Proofs.Workspace.History

/-!
# Records of systems

Where the pages of a table are well formed and are changed by insertions and deletions only, what
the table stores is what the committed insertions and deletions make of it: none is lost, none is
there twice, and nothing is there that was not committed (`Run.decoded_eq_committed`).
-/

namespace StorageEngine

/-- What `pool` has stored in `record`, read from the page that is stored alone. -/
def Pool.decoded (pool : Pool) (record : RecordId) : Option Bytes := do
  let bytes ← pool.stored record.page
  let found ← (SlottedPage.records bytes).toOption
  found.lookup record.slot

namespace System

variable {system : System} {spaces : Workspaces} {pool : Pool} {table : TableId}
  {history : History} {events : List Event}

/-- What is stored in the records of a well-formed page. -/
theorem decoded_of_stored {page : PageId} {bytes : Bytes} (stored : pool.stored page = some bytes)
    (formed : SlottedPage.WellFormed bytes) (slot : SlotId) :
  pool.decoded ⟨page, slot⟩ = (SlottedPage.record bytes slot).toOption
  := by
  obtain ⟨found, eq, -⟩ := formed.records
  rw [← formed.lookup_records eq]
  simp [Pool.decoded, stored, eq, Except.toOption]

/-- Where the page of `record` is not stored, `decoded` finds nothing. -/
theorem decoded_of_missing {record : RecordId} (missing : pool.stored record.page = none) :
  pool.decoded record = none
  := by
  simp [Pool.decoded, missing]

/-- The workspaces of `pool.stored` tell `pool.decoded`, if every stored page of `table` is well
formed. -/
theorem tells_stored
    (formed : ∀ page bytes, page.table = table → pool.stored page = some bytes →
      SlottedPage.WellFormed bytes) :
  (Workspaces.initial pool.stored).Tells table pool.decoded .empty
  := by
  apply Workspaces.Tells.initial
  · intro page bytes inside stored
    have formed := formed page bytes inside stored
    use formed
    intro slot
    rw [decoded_of_stored stored formed]
  · intro record missing
    apply decoded_of_missing missing

/-- Where `committed` is what the pool has stored, `decoded` finds what `history` makes of
`start`. -/
theorem decoded_eq_contents {start : RecordId → Option Bytes}
    (tells : spaces.Tells table start history) (committed : spaces.committed = pool.stored)
    {record : RecordId} (inside : record.page.table = table) :
  pool.decoded record = history.contents start record
  := by
  cases stored : pool.stored record.page with
  | none => rw [decoded_of_missing stored, tells.missing record inside (committed ▸ stored)]
  | some bytes =>
    obtain ⟨formed, records⟩ := tells.committed record.page bytes inside (committed ▸ stored)
    rw [← records record.slot, ← decoded_of_stored stored formed]

/-- At every point of a run in which no page of `table` is edited in place and every store is
`Numbered`, whatever else happens and fails: every stored page of `table` can be read, and has no
slot twice; `decoded` is what the insertions and deletions that were committed make, in the order
of commits, of what it was at the start; a `tuple` whose insertion was committed is stored in the
`record` that was reported unless its deletion was committed later; and no insertion reports a
`record` that holds something for its transaction. -/
theorem Run.decoded_eq_committed {config : PoolConfig} {catalog : Registry TableId StoreNo}
    {stores : Array Store} (created : Pool.create config catalog stores = .ok pool)
    (well : pool.WellStored)
    (formed : ∀ page bytes, page.table = table → pool.stored page = some bytes →
      SlottedPage.WellFormed bytes)
    (run : (System.start pool).Run events system)
    (numbered : ∀ no, (system.pool.store no).Numbered)
    (unedited : ∀ txn page edits, .updated txn page edits ∈ events → page.table ≠ table) :
  (∀ page bytes, page.table = table → system.pool.stored page = some bytes →
    ∃ found, SlottedPage.records bytes = .ok found ∧ (found.map Prod.fst).Nodup)
  ∧ (∀ record : RecordId, record.page.table = table →
    system.pool.decoded record = (History.of table events).contents pool.decoded record)
  ∧ (∀ earlier record tuple later,
    (History.of table events).committed = earlier ++ ⟨record, some tuple⟩ :: later →
    (∀ change ∈ later, change.record = record → change.data ≠ none) →
    system.pool.decoded record = some tuple)
  ∧ ∀ earlier txn record tuple later, events = earlier ++ .inserted txn record tuple :: later →
    record.page.table = table →
    (History.of table earlier).seen pool.decoded txn record = none
  := by
  obtain ⟨spaces, followed, mirrors⟩ := (mirrors_start created well).run run numbered
  have start := tells_stored formed
  have tells : spaces.Tells table pool.decoded (History.of table events) :=
    start.run followed unedited
  have committed := mirrors.faithful.committed
  refine ⟨?_, ?_, ?_, ?_⟩
  · intro page bytes inside stored
    obtain ⟨formed, -⟩ := tells.committed page bytes inside (committed ▸ stored)
    obtain ⟨found, eq, nodup, -⟩ := formed.records
    use found
  · intro record inside
    apply decoded_eq_contents tells committed inside
  · intro earlier record tuple later split undeleted
    have inside : record.page.table = table := by
      apply tells.own ⟨record, some tuple⟩
      simp [split]
    rw [decoded_eq_contents tells committed inside]
    apply tells.contents_of_committed split undeleted
  · rintro earlier txn record tuple later rfl inside
    obtain ⟨next, before, after⟩ := followed.split
    cases after with
    | step step rest =>
      apply Workspaces.Tells.seen_of_inserted _ inside step
      apply start.run before
      intro txn page edits member
      apply unedited txn page edits (List.mem_append_left _ member)

/-! ### A run -/

/-- A pool with room for one page, over a heap table without pages. -/
def noPages : Pool :=
  { config := ⟨1, 24, .ofMillis 1⟩, cache := ⟨1, []⟩, copies := #[], locks := .empty
    catalog := ⟨[(1, 0)]⟩, stores := #[{ table := 1, medium := .heap (.empty 24) }] }

/-- An empty page. -/
def emptyPage : Bytes :=
  [12, 0, 0, 0, 12, 0, 0, 0, 0, 0, 0, 0, 0, 0, 0, 0, 0, 0, 0, 0, 0, 0, 0, 0]

/-- A page with a tuple of one byte. -/
def filledPage : Bytes :=
  [13, 0, 0, 0, 3, 0, 0, 0, 1, 0, 0, 0, 7, 0, 0, 0, 12, 0, 0, 0, 1, 0, 0, 0]

theorem wellFormed_filledPage :
  SlottedPage.WellFormed filledPage
  := by
  have made : SlottedPage.init (List.replicate 24 0) = .ok emptyPage := rfl
  obtain ⟨⟨header, laid⟩, -⟩ := SlottedPage.wellFormed_init made
  have inserted : SlottedPage.insert emptyPage [7] = (.ok 0, filledPage) := rfl
  obtain ⟨-, header', filled⟩ := laid.inserted inserted
  exact ⟨header', filled.laidOut laid⟩

/-- `noPages` after an empty page was appended. -/
def noPagesGrown : Pool :=
  { noPages with stores := #[{ table := 1, medium := .heap ⟨24, ⟨emptyPage.toArray⟩⟩ }] }

/-- `noPages` after a tuple was inserted. -/
def noPagesInserted : Pool :=
  { noPages with
    cache := ⟨1, [⟨⟨1, 0⟩, 0, true⟩]⟩
    copies := #[⟨⟨1, 0⟩, filledPage, some ⟨0⟩⟩]
    locks := LockTable.empty.grant ⟨1, 0⟩ ⟨0⟩ .exclusive
    stores := #[
      { table := 1, medium := .heap ⟨24, ⟨emptyPage.toArray⟩⟩, accesses := [⟨0, false, false⟩] }] }

/-- `noPagesInserted` after the insertion was committed. -/
def noPagesCommitted : Pool :=
  { noPages with
    cache := ⟨1, [⟨⟨1, 0⟩, 0, false⟩]⟩
    copies := #[⟨⟨1, 0⟩, filledPage, none⟩]
    stores := #[
      { table := 1, medium := .heap ⟨24, ⟨filledPage.toArray⟩⟩
        accesses := [⟨0, true, false⟩, ⟨0, false, false⟩] }] }

theorem wellStored_noPages :
  noPages.WellStored
  := wellStored_of_one_store rfl rfl (by decide) rfl

theorem stored_noPages (page : PageId) :
  noPages.stored page = none
  := by
  by_contra stored
  obtain ⟨bytes, stored⟩ := Option.ne_none_iff_exists'.mp stored
  obtain ⟨no, found, image⟩ := Pool.stored_eq_some_iff.mp stored
  have within := Store.lt_length (wellStored_noPages.numbered no) image
  obtain ⟨-, rfl⟩ := eq_of_one_table rfl found
  cases within

/-- On `noPages`, a transaction inserts a tuple and commits. -/
theorem run_noPages :
  ∃ system, system.pool = noPagesCommitted
    ∧ (System.start noPages).Run
      [.grown ⟨1, 0⟩ emptyPage, .inserted ⟨0⟩ ⟨⟨1, 0⟩, 0⟩ [7], .ended ⟨0⟩ true (.ok ())] system
  := by
  have insert : (Request.insert 1 [7]).enter ⟨0⟩ noPages
    = (.grown ⟨1, 0⟩ (.place ⟨1, 0⟩ [7]), noPagesGrown) := rfl
  have place : (Call.place ⟨1, 0⟩ [7]).round ⟨0⟩ noPagesGrown
    = (.done { Outcome.answer (.inserted (some ⟨⟨1, 0⟩, 0⟩)) with record := some ⟨⟨1, 0⟩, 0⟩ },
      noPagesInserted) := rfl
  have complete : noPagesInserted.complete ⟨0⟩ true = (.ok (), noPagesCommitted) := rfl
  have served : noPages.serves (.insert 1 [7]) := serves_insert_of_one_table rfl rfl _ _
  have grown := Run.start.step
    (@Step.enter (System.start noPages) ⟨0⟩ (.insert 1 [7]) _ _ trivial served insert)
  have inserted := grown.step (@Step.round _ ⟨0⟩ (.place ⟨1, 0⟩ [7]) _ _ rfl place)
  have ended := inserted.step (@Step.complete _ ⟨0⟩ true _ _ trivial complete)
  exact ⟨_, rfl, ended⟩

theorem decoded_noPages :
  ∃ system, (System.start noPages).Run
      [.grown ⟨1, 0⟩ emptyPage, .inserted ⟨0⟩ ⟨⟨1, 0⟩, 0⟩ [7], .ended ⟨0⟩ true (.ok ())] system
    ∧ system.pool.decoded ⟨⟨1, 0⟩, 0⟩ = some [7]
  := by
  obtain ⟨system, pool, run⟩ := run_noPages
  have created : Pool.create noPages.config noPages.catalog noPages.stores = .ok noPages := rfl
  have formed : ∀ page bytes, page.table = 1 → noPages.stored page = some bytes →
      SlottedPage.WellFormed bytes := by
    intro page bytes _ stored
    cases (stored_noPages page).symm.trans stored
  obtain ⟨-, -, committed, -⟩ :=
    Run.decoded_eq_committed created wellStored_noPages formed run
      (pool ▸ numbered_of_one_store rfl (by decide)) (by simp)
  use system, run
  apply committed [] ⟨⟨1, 0⟩, 0⟩ [7] []
  · rfl
  · simp

/-! ### A tuple that is lost -/

/-- A file of as many `filledPage`s as there are page numbers. -/
def tuplePages : PageFile := .repeated UInt32.size filledPage

theorem outgrown_tuplePages :
  (Pool.ofFile 1 tuplePages).Outgrown 1 0 tuplePages
  := Pool.outgrown_ofFile 1 (PageFile.outgrown_repeated (by decide))

theorem page_tuplePages (no : PageNo) :
  tuplePages.page no = filledPage
  := PageFile.page_repeated (UInt32.toNat_lt_size no)

/-- The pool over `tuplePages` keeps `filledPage` for every page of the table. -/
theorem kept?_tuplePages (pageNo : PageNo) :
  (Pool.ofFile 1 tuplePages).kept? ⟨1, pageNo⟩ = some filledPage
  := by
  rw [outgrown_tuplePages.kept?, page_tuplePages]

/-- All pages of `tuplePages` are well formed and hold a tuple.  That of the first page is lost
when an insertion begins, though nothing is committed. -/
theorem lost_tuplePages :
  Pool.create (Pool.ofFile 1 tuplePages).config (Pool.ofFile 1 tuplePages).catalog
      (Pool.ofFile 1 tuplePages).stores = .ok (Pool.ofFile 1 tuplePages)
    ∧ (∀ pageNo, (Pool.ofFile 1 tuplePages).kept? ⟨1, pageNo⟩ = some filledPage)
    ∧ SlottedPage.WellFormed filledPage
    ∧ SlottedPage.records filledPage = .ok [(0, [7])]
    ∧ ∃ system, (System.start (.ofFile 1 tuplePages)).Run [] system
      ∧ system.pool.kept? ⟨1, 0⟩ = some emptyPage
      ∧ SlottedPage.records emptyPage = .ok []
  := by
  have outgrown := outgrown_tuplePages
  have fits : Call.fits 24 [8] = true := rfl
  have empty : Store.emptyHeapPage 24 = .ok emptyPage := rfl
  obtain ⟨system, run, pool⟩ := run_outgrown outgrown fits empty ⟨0⟩
  have size : emptyPage.length = filledPage.length := rfl
  refine ⟨Pool.create_ofFile Nat.one_pos (by decide) tuplePages, kept?_tuplePages,
    wellFormed_filledPage, rfl, system, run, ?_, rfl⟩
  rw [pool, outgrown.kept?_overwritten size, if_pos rfl]

end System

end StorageEngine

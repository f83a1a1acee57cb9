import Mathlib.Data.List.Induction
import StorageEngine.Proofs.System.Records
import StorageEngine.Proofs.System.StepMoves
import StorageEngine.Proofs.Workspace.Rooted

/-!
# How many tuples there are

Where the pages of a table are well formed and tuples are inserted only, the table holds as many
tuples as before and as many more as were inserted by transactions that have committed
(`System.Reached.gains`), however the transactions come in between each other.
-/

namespace StorageEngine

/-! ### Stored tuples -/

namespace Store

variable {store : Store} {page : PageId} {bytes : Bytes}

/-- The tuples that the page `no` of `store` holds. -/
def tuplesIn (store : Store) (no : PageNo) : List Tuple :=
  match store.image ⟨store.table, no⟩ with
  | .error _ => []
  | .ok bytes =>
    match SlottedPage.records bytes with
    | .error _ => []
    | .ok records => Call.tuplesOf ⟨store.table, no⟩ records

/-- The tuples that `store` holds, in the order of pages and slots. -/
def tuples (store : Store) : List Tuple :=
  (Workspaces.pageNos store.length).flatMap store.tuplesIn

/-- A store of the same table and medium has the same `tuples`. -/
theorem tuples_congr {other : Store} (table : other.table = store.table)
    (medium : other.medium = store.medium) :
  other.tuples = store.tuples
  := by
  have length : other.length = store.length := by
    simp only [Store.length, medium]
  have image : ∀ page, other.image page = store.image page := by
    intro page
    simp only [Store.image, Store.checkTable, table, medium]
  have page : other.tuplesIn = store.tuplesIn := by
    funext no
    simp only [tuplesIn, image, table]
  rw [Store.tuples, Store.tuples, length, page]

/-- The page numbers of a `Numbered` store are distinct. -/
theorem nodup_pageNos (numbered : store.Numbered) :
  (Workspaces.pageNos store.length).Nodup
  := by
  apply List.Nodup.map_on _ List.nodup_range
  intro i within j within' same
  have toNat : ∀ k < store.length, (UInt32.ofNat k).toNat = k := by
    intro k within
    apply UInt32.toNat_ofNat_of_lt' (Nat.lt_trans within numbered)
  rw [← toNat i (List.mem_range.mp within), same, toNat j (List.mem_range.mp within')]

end Store

namespace Pool

variable {pool : Pool} {no : StoreNo} {record : RecordId}

/-- Whether the stored pages of `table` are well formed. -/
def Formed (pool : Pool) (table : TableId) : Prop :=
  ∀ page bytes, page.table = table → pool.stored page = some bytes → SlottedPage.WellFormed bytes

/-- The tuples in the page `pageNo` are in distinct records, those of that page in which `decoded`
finds something. -/
theorem records_tuplesIn (kept : pool.catalog.get? (pool.store no).table = some no)
    (formed : pool.Formed (pool.store no).table) (pageNo : PageNo) :
  (((pool.store no).tuplesIn pageNo).map Tuple.record).Nodup
    ∧ ∀ record?, record? ∈ ((pool.store no).tuplesIn pageNo).map Tuple.record
      ↔ ∃ slot, record? = some ⟨⟨(pool.store no).table, pageNo⟩, slot⟩
        ∧ (pool.decoded ⟨⟨(pool.store no).table, pageNo⟩, slot⟩).isSome
  := by
  have image : pool.stored ⟨(pool.store no).table, pageNo⟩
      = ((pool.store no).image ⟨(pool.store no).table, pageNo⟩).toOption := by
    simp [Pool.stored, kept]
  rw [Store.tuplesIn]
  cases read : (pool.store no).image ⟨(pool.store no).table, pageNo⟩ with
  | error failure =>
    rw [read] at image
    have missing : ∀ slot, pool.decoded ⟨⟨(pool.store no).table, pageNo⟩, slot⟩ = none :=
      fun slot => System.decoded_of_missing image
    simp [missing]
  | ok bytes =>
    rw [read] at image
    have well := formed _ bytes rfl image
    obtain ⟨found, eq, nodup, members⟩ := well.records
    have decoded : ∀ slot, (pool.decoded ⟨⟨(pool.store no).table, pageNo⟩, slot⟩).isSome
        ↔ ∃ data, (slot, data) ∈ found := by
      intro slot
      rw [System.decoded_of_stored image well]
      simp only [members]
      cases SlottedPage.record bytes slot <;> simp [Except.toOption]
    dsimp only
    rw [eq]
    constructor
    · have named : (Call.tuplesOf ⟨(pool.store no).table, pageNo⟩ found).map Tuple.record
          = (found.map Prod.fst).map fun slot => some ⟨⟨(pool.store no).table, pageNo⟩, slot⟩ := by
        simp [Call.tuplesOf, Function.comp_def]
      rw [named]
      apply nodup.map
      intro slot other same
      simpa using same
    · intro record?
      simp only [decoded]
      constructor
      · intro member
        obtain ⟨tuple, among, rfl⟩ := List.mem_map.mp member
        obtain ⟨⟨slot, data⟩, there, rfl⟩ := List.mem_map.mp among
        exact ⟨slot, rfl, data, there⟩
      · rintro ⟨slot, rfl, data, there⟩
        apply List.mem_map.mpr
        exact ⟨_, List.mem_map.mpr ⟨(slot, data), there, rfl⟩, rfl⟩

/-- The `tuples` of a store are in those records of its table in which `decoded` finds
something. -/
theorem mem_tuples (kept : pool.catalog.get? (pool.store no).table = some no)
    (numbered : (pool.store no).Numbered) (formed : pool.Formed (pool.store no).table)
    (record? : Option RecordId) :
  record? ∈ (pool.store no).tuples.map Tuple.record
    ↔ ∃ record, record? = some record ∧ record.page.table = (pool.store no).table
      ∧ (pool.decoded record).isSome
  := by
  rw [Store.tuples, List.map_flatMap, List.mem_flatMap]
  constructor
  · rintro ⟨pageNo, -, member⟩
    obtain ⟨slot, rfl, holds⟩ := ((records_tuplesIn kept formed pageNo).2 record?).mp member
    exact ⟨_, rfl, rfl, holds⟩
  · rintro ⟨⟨⟨table, pageNo⟩, slot⟩, rfl, rfl, holds⟩
    obtain ⟨bytes, image⟩ : ∃ bytes, pool.stored ⟨(pool.store no).table, pageNo⟩ = some bytes := by
      apply Option.ne_none_iff_exists'.mp
      intro missing
      rw [System.decoded_of_missing missing] at holds
      cases holds
    obtain ⟨no', kept', read⟩ := stored_eq_some_iff.mp image
    cases kept.symm.trans kept'
    have within := Store.lt_length numbered read
    refine ⟨pageNo, List.mem_map.mpr ⟨pageNo.toNat, List.mem_range.mpr within, by simp⟩, ?_⟩
    apply ((records_tuplesIn kept formed pageNo).2 _).mpr ⟨slot, rfl, holds⟩

/-- No two `tuples` of a store are in one record. -/
theorem nodup_tuples (kept : pool.catalog.get? (pool.store no).table = some no)
    (numbered : (pool.store no).Numbered) (formed : pool.Formed (pool.store no).table) :
  ((pool.store no).tuples.map Tuple.record).Nodup
  := by
  rw [Store.tuples, List.map_flatMap, List.nodup_flatMap]
  use fun pageNo _ => (records_tuplesIn kept formed pageNo).1
  apply (Store.nodup_pageNos numbered).imp
  intro pageNo other distinct record? here there
  obtain ⟨slot, rfl, -⟩ := ((records_tuplesIn kept formed pageNo).2 _).mp here
  obtain ⟨slot', same, -⟩ := ((records_tuplesIn kept formed other).2 _).mp there
  apply distinct
  simpa using congrArg (Option.map fun record => record.page.no) same

end Pool

/-! ### Insertions -/

namespace Change

variable {contents : RecordId → Option Bytes} {changes : List Change}

/-- Where `changes` store bytes in empty records only, no record is stored in twice, and `contents`
has none of them. -/
theorem Fresh.nodup (fresh : Fresh changes contents)
    (stores : ∀ change ∈ changes, change.data.isSome) :
  (changes.map Change.record).Nodup
    ∧ ∀ change ∈ changes, contents change.record = none
  := by
  induction changes generalizing contents with
  | nil => simp
  | cons change changes ih =>
    rw [List.forall_mem_cons] at stores
    obtain ⟨nodup, empty⟩ := ih fresh.2 stores.2
    have first := fresh.1 stores.1
    have others : ∀ later ∈ changes, later.record ≠ change.record
        ∧ contents later.record = none := by
      intro later member
      have unused := empty later member
      by_cases same : later.record = change.record
      · rw [same, apply, Function.update_self] at unused
        simp [unused] at stores
      · rw [apply, Function.update_of_ne same] at unused
        exact ⟨same, unused⟩
    constructor
    · rw [List.map_cons, List.nodup_cons]
      refine ⟨?_, nodup⟩
      intro member
      obtain ⟨later, among, same⟩ := List.mem_map.mp member
      apply (others later among).1 same
    · rw [List.forall_mem_cons]
      exact ⟨first, fun later member => (others later member).2⟩

/-- After insertions, `record` holds something if it did in `contents`, or if one of `changes` is
of it. -/
theorem isSome_applyAll (stores : ∀ change ∈ changes, change.data.isSome) (record : RecordId) :
  (applyAll changes contents record).isSome
    ↔ (contents record).isSome ∨ record ∈ changes.map Change.record
  := by
  induction changes generalizing contents with
  | nil => simp [applyAll]
  | cons change changes ih =>
    rw [List.forall_mem_cons] at stores
    have later := @ih (apply contents change) stores.2
    rw [List.map_cons, List.mem_cons, ← or_assoc]
    apply later.trans
    apply or_congr_left
    by_cases here : record = change.record
    · simp [apply, here, stores.1]
    · simp [apply, here]

end Change

namespace History

variable {history : History} {table : TableId} {txn : TransactionId}

/-- Whether all that `history` does to records is to store bytes in them. -/
def Stores (history : History) : Prop :=
  (∀ change ∈ history.committed, change.data.isSome)
    ∧ ∀ txn, ∀ change ∈ history.pending txn, change.data.isSome

theorem Stores.drop (stores : history.Stores) (txn : TransactionId) :
  (history.drop txn).Stores
  := by
  use stores.1
  intro other change member
  by_cases mine : other = txn
  · simp [History.drop, mine] at member
  · simp only [History.drop, Function.update_of_ne mine] at member
    apply stores.2 other change member

theorem Stores.after (stores : history.Stores) {event : Event}
    (undeleted : ∀ txn record, event ≠ .deleted txn record) :
  (after table history event).Stores
  := by
  cases event with
  | inserted txn record tuple =>
    rw [History.after]
    split
    · use stores.1
      intro other change member
      by_cases mine : other = txn
      · simp only [note, mine, Function.update_self, List.mem_append, List.mem_singleton] at member
        rcases member with before | rfl
        · apply stores.2 txn change before
        · rfl
      · simp only [note, Function.update_of_ne mine] at member
        apply stores.2 other change member
    · apply stores
  | deleted txn record => cases undeleted txn record rfl
  | ended txn commits result =>
    rcases commits with _ | _
    · apply stores.drop
    · rcases result with failure | _
      · apply stores.drop
      · refine ⟨?_, (stores.drop txn).2⟩
        intro change member
        rcases List.mem_append.mp member with before | new
        · apply stores.1 change before
        · apply stores.2 txn change new
  | _ => apply stores

/-- Where `events` delete nothing, the history of `table` `Stores` bytes only. -/
theorem stores_of {events : List Event} (undeleted : ∀ txn record, .deleted txn record ∉ events) :
  (of table events).Stores
  := by
  induction events using List.reverseRecOn with
  | nil => exact ⟨nofun, fun _ => nofun⟩
  | append_singleton events event ih =>
    simp only [List.mem_append, List.mem_singleton, not_or] at undeleted
    rw [of, List.foldl_append]
    apply Stores.after (ih fun txn record => (undeleted txn record).1)
    intro txn record same
    apply (undeleted txn record).2 same.symm

end History

/-- Whether an event neither changes records nor ends a transaction. -/
def Event.isQuiet : Event → Bool
  | .fetched .. | .scanning .. | .scanned .. | .grown .. => true
  | _ => false

/-- Events in which no record is changed do not change a history. -/
theorem History.foldl_quiet {table : TableId} {events : List Event} (history : History)
    (quiet : ∀ event ∈ events, event.isQuiet = true) :
  events.foldl (after table) history = history
  := by
  induction events with
  | nil => rfl
  | cons event events ih =>
    rw [List.forall_mem_cons] at quiet
    have same : history.after table event = history := by
      cases event with
      | fetched | scanning | scanned | grown => rfl
      | _ => cases quiet.1
    rw [List.foldl_cons, same, ih quiet.2]

/-! ### Pages and changes -/

namespace Workspaces

variable {spaces after : Workspaces} {table : TableId} {history : History} {event : Event}
  {events : List Event}

/-- Whether transactions that have changed pages of `table` have changed records of it. -/
def Recorded (spaces : Workspaces) (table : TableId) (history : History) : Prop :=
  ∀ txn page, page.table = table → (spaces.overlay txn page).isSome → history.pending txn ≠ []

theorem recorded_initial (committed : PageId → Option Bytes) :
  (initial committed).Recorded table .empty
  := by
  intro txn page _ changed
  cases changed

theorem Recorded.note (recorded : spaces.Recorded table history) {txn : TransactionId}
    {change : Change} {page : PageId} {image : Option Bytes} :
  (spaces.put txn page image).Recorded table (history.note txn change)
  := by
  intro other place inside changed
  by_cases mine : other = txn
  · simp [History.note, mine]
  · rw [overlay_put, if_neg (by tauto)] at changed
    simp only [History.note, Function.update_of_ne mine]
    apply recorded other place inside changed

theorem Recorded.put (recorded : spaces.Recorded table history) {txn : TransactionId}
    {page : PageId} {image : Option Bytes} (foreign : page.table ≠ table) :
  (spaces.put txn page image).Recorded table history
  := by
  intro other place inside changed
  rw [overlay_put, if_neg] at changed
  · apply recorded other place inside changed
  · rintro ⟨-, rfl⟩
    apply foreign inside

theorem Recorded.drop (recorded : spaces.Recorded table history) (txn : TransactionId) :
  (spaces.drop txn).Recorded table (history.drop txn)
  := by
  intro other place inside changed
  by_cases mine : other = txn
  · simp [mine] at changed
  · rw [overlay_drop, if_neg mine] at changed
    simp only [History.drop, Function.update_of_ne mine]
    apply recorded other place inside changed

theorem Recorded.step (recorded : spaces.Recorded table history) (step : spaces.Step event after)
    (unedited : ∀ txn page edits, event ≠ .updated txn page edits) :
  after.Recorded table (history.after table event)
  := by
  cases step with
  | fetched | scanning | scanned | grown => apply recorded
  | updated => cases unedited _ _ _ rfl
  | inserted | deleted =>
    rw [History.after]
    split
    · apply recorded.note
    · rename_i foreign
      apply recorded.put foreign
  | committed | aborted => apply recorded.drop

/-- In a `run` in which no page is edited in place, who changes a page changes a record: `Recorded`
persists. -/
theorem Recorded.run (recorded : spaces.Recorded table history) (run : spaces.Run events after)
    (unedited : ∀ txn page edits, .updated txn page edits ∉ events) :
  after.Recorded table (events.foldl (History.after table) history)
  := by
  induction run generalizing history with
  | stop => apply recorded
  | step step _ ih =>
    simp only [List.mem_cons, not_or] at unedited
    apply ih (recorded.step step fun txn page edits => Ne.symm (unedited txn page edits).1)
    exact fun txn page edits => (unedited txn page edits).2

end Workspaces

/-! ### Counting -/

/-- A pool that stores what `history` has committed holds as many `tuples` more as were inserted,
in pages that are `Formed`. -/
theorem Pool.length_tuples {pool after : Pool} {no : StoreNo} {spaces : Workspaces}
    {history : History} (kept : pool.catalog.get? (pool.store no).table = some no)
    (formed : pool.Formed (pool.store no).table) (numbered : (pool.store no).Numbered)
    (same : pool.SameTables after) (numbered' : (after.store no).Numbered)
    (tells : spaces.Tells (pool.store no).table pool.decoded history) (stores : history.Stores)
    (committed : spaces.committed = after.stored) :
  after.Formed (pool.store no).table
    ∧ (after.store no).tuples.length = (pool.store no).tuples.length + history.committed.length
  := by
  have own : (after.store no).table = (pool.store no).table := same.table no
  obtain ⟨nodup, empty⟩ := tells.fresh.nodup stores.1
  have formed' : after.Formed (pool.store no).table := by
    intro page bytes inside stored
    apply (tells.committed page bytes inside (committed ▸ stored)).1
  have kept' : after.catalog.get? (after.store no).table = some no := by
    rw [same.catalog, own]
    apply kept
  have decoded : ∀ record : RecordId, record.page.table = (pool.store no).table →
      ((after.decoded record).isSome
        ↔ (pool.decoded record).isSome ∨ record ∈ history.committed.map Change.record) := by
    intro record inside
    rw [System.decoded_eq_contents tells committed inside]
    apply Change.isSome_applyAll stores.1
  have members := Pool.mem_tuples kept numbered formed
  have members' := Pool.mem_tuples kept' numbered' (own ▸ formed')
  use formed'
  -- Both sides list the records that hold something, each once.
  have perm : ((after.store no).tuples.map Tuple.record).Perm
      ((pool.store no).tuples.map Tuple.record
        ++ (history.committed.map Change.record).map some) := by
    apply (List.perm_ext_iff_of_nodup (nodup_tuples kept' numbered' (own ▸ formed')) _).mpr
    · intro record?
      rw [members', own, List.mem_append, members, List.mem_map]
      constructor
      · rintro ⟨record, rfl, inside, holds⟩
        apply ((decoded record inside).mp holds).imp
        · intro held
          exact ⟨record, rfl, inside, held⟩
        · intro new
          exact ⟨record, new, rfl⟩
      · rintro (⟨record, rfl, inside, held⟩ | ⟨record, new, rfl⟩)
        · exact ⟨record, rfl, inside, (decoded record inside).mpr (.inl held)⟩
        · obtain ⟨change, member, rfl⟩ := List.mem_map.mp new
          have inside := tells.own change member
          exact ⟨_, rfl, inside, (decoded _ inside).mpr (.inr new)⟩
    · apply List.Nodup.append (nodup_tuples kept numbered formed)
      · apply nodup.map
        exact fun _ _ => Option.some.inj
      · intro record? old new
        obtain ⟨record, among, rfl⟩ := List.mem_map.mp new
        obtain ⟨change, member, rfl⟩ := List.mem_map.mp among
        obtain ⟨record, same, -, held⟩ := (members _).mp old
        cases same
        rw [empty change member] at held
        cases held
  simpa using perm.length_eq

/-! ### Pages in memory -/

/-- With the `SameTables`, a counter table has as many pages as before, and stays `Numbered`. -/
theorem Pool.SameTables.numbered {pool after : Pool} {no : StoreNo} (same : pool.SameTables after)
    (numbered : (pool.store no).Numbered)
    (bare : ∃ pages, (pool.store no).shape = .inr pages) :
  (after.store no).Numbered
  := by
  have length : ∀ (store : Store) pages, store.shape = .inr pages → store.length = pages := by
    intro store pages shape
    unfold Store.shape at shape
    unfold Store.length
    cases medium : store.medium with
    | heap file =>
      rw [medium] at shape
      cases shape
    | counters held =>
      rw [medium] at shape
      cases shape
      rfl
  obtain ⟨pages, shape⟩ := bare
  have after := length _ pages ((same.shape no).trans shape)
  rw [Store.Numbered, length _ pages shape] at numbered
  rw [Store.Numbered, after]
  apply numbered

/-- All stores are `Numbered` after a `run`, if those of heap tables are. -/
theorem System.Mirrors.numbered {system last : System} {spaces : Workspaces} {events : List Event}
    (mirrors : system.Mirrors spaces) (tidy : system.pool.Tidy) (run : system.Run events last)
    (numbered : ∀ no, (last.pool.store no).Numbered
      ∨ ∃ pages, (system.pool.store no).shape = .inr pages) (no : StoreNo) :
  (last.pool.store no).Numbered
  := by
  induction run generalizing no with
  | start => apply mirrors.faithful.well.numbered no
  | step before step ih =>
    have numbered' := ih fun other =>
      (numbered other).imp_left fun numbered => Nat.lt_of_le_of_lt (step.grows other) numbered
    obtain ⟨spaces', -, mirrors'⟩ := mirrors.run before numbered'
    obtain ⟨tidy', same⟩ := mirrors.keeps tidy before numbered'
    rcases numbered no with numbered | bare
    · apply numbered
    · apply (same.trans (mirrors'.sameTables tidy' step)).numbered _ bare
      apply mirrors.faithful.well.numbered no

/-! ### Runs -/

/-- Whether `pool` was just created over one heap table, `table` in the store `no`, whose pages are
well formed. -/
structure Pool.Over (pool : Pool) (table : TableId) (no : StoreNo) : Prop where
  created : Pool.create pool.config pool.catalog pool.stores = .ok pool
  well : pool.WellStored
  kept : pool.catalog.get? table = some no
  alone : ∀ other, (pool.catalog.get? other).isSome → other = table
  heap : ∃ pageSize, (pool.store no).shape = .inl pageSize
  bare : ∀ other, other ≠ no → ∃ pages, (pool.store other).shape = .inr pages
  formed : pool.Formed table

/-- Whether `after` keeps the tables of `pool`, and `more` tuples in well-formed pages of
`table`. -/
structure Pool.Gains (pool after : Pool) (table : TableId) (no : StoreNo) (more : Nat) : Prop where
  same : pool.SameTables after
  formed : after.Formed table
  tuples : (after.store no).tuples.length = (pool.store no).tuples.length + more

namespace System

variable {system last : System} {start : Pool} {table : TableId} {no : StoreNo}
  {events events' : List Event} {spaces : Workspaces} {txn : TransactionId}

/-- What is known of `system` and of `spaces` after a run on a pool over `table` alone. -/
structure Reached (start : Pool) (table : TableId) (events : List Event) (system : System)
    (spaces : Workspaces) : Prop where
  mirrors : system.Mirrors spaces
  tidy : system.pool.Tidy
  same : start.SameTables system.pool
  rooted : spaces.Rooted
  recorded : spaces.Recorded table (History.of table events)
  tells : spaces.Tells table start.decoded (History.of table events)
  stores : (History.of table events).Stores

/-- A run in which tuples are inserted only is known to workspaces. -/
theorem Run.reached (base : start.Over table no) (run : (System.start start).Run events system)
    (numbered : (system.pool.store no).Numbered)
    (unedited : ∀ txn page edits, .updated txn page edits ∉ events)
    (undeleted : ∀ txn record, .deleted txn record ∉ events) :
  ∃ spaces, system.Reached start table events spaces
  := by
  have begun := mirrors_start base.created base.well
  have tidy : (System.start start).pool.Tidy := Pool.tidy_create base.created
  have numbered : ∀ other, (system.pool.store other).Numbered := by
    apply begun.numbered tidy run
    intro other
    by_cases own : other = no
    · exact .inl (own ▸ numbered)
    · exact .inr (base.bare other own)
  obtain ⟨tidy', same⟩ := begun.keeps tidy run numbered
  obtain ⟨spaces, followed, mirrors⟩ := begun.run run numbered
  use spaces, mirrors, tidy', same, (Workspaces.rooted_initial start.stored).run followed
  · apply (Workspaces.recorded_initial start.stored).run followed unedited
  · apply (tells_stored base.formed).run followed
    intro txn page edits edited
    cases unedited txn page edits edited
  · apply History.stores_of undeleted

namespace Reached

variable (reached : system.Reached start table events spaces)

include reached

/-- Workspaces follow a `run` that goes on from `system`. -/
theorem follow (base : start.Over table no) (run : system.Run events' last)
    (numbered : (last.pool.store no).Numbered) :
  ∃ spaces', spaces.Run events' spaces'
  := by
  have numbered : ∀ other, (last.pool.store other).Numbered := by
    apply reached.mirrors.numbered reached.tidy run
    intro other
    by_cases own : other = no
    · exact .inl (own ▸ numbered)
    · rw [reached.same.shape]
      exact .inr (base.bare other own)
  obtain ⟨spaces', followed, -⟩ := reached.mirrors.run run numbered
  exact ⟨spaces', followed⟩

/-- `table` is kept in the store `no` of `system`. -/
theorem kept (base : start.Over table no) :
  (system.pool.store no).table = table ∧ system.pool.catalog.get? table = some no
  := by
  rw [reached.same.table, reached.same.catalog]
  exact ⟨(base.well.catalogued table no base.kept).2, base.kept⟩

/-- `system.pool` serves insertions into `table`. -/
theorem serves_insert (base : start.Over table no) (tuple : Bytes) :
  system.pool.serves (.insert table tuple)
  := by
  apply reached.same.serves_insert
  intro other found
  rw [base.kept] at found
  cases found
  apply base.heap

/-- `system.pool` serves scans of the store `no`. -/
theorem serves_scan (base : start.Over table no) :
  system.pool.serves (.scan no)
  := by
  obtain ⟨own, kept⟩ := reached.kept base
  show system.pool.catalog.get? (system.pool.store no).table = some no
  rw [own, kept]

/-- There are no pages to be seen but those of `table`. -/
theorem table_of_view (base : start.Over table no) {page : PageId}
    (seen : (spaces.view txn page).isSome) :
  page.table = table
  := by
  have committed := reached.rooted.committed_of_view seen
  rw [reached.mirrors.faithful.committed] at committed
  obtain ⟨bytes, stored⟩ := Option.isSome_iff_exists.mp committed
  obtain ⟨other, found, -⟩ := Pool.stored_eq_some_iff.mp stored
  rw [reached.same.catalog] at found
  apply base.alone page.table (Option.isSome_of_mem found)

/-- A `txn` with nothing pending has changed no `page` of `table`. -/
theorem overlay_eq_none (idle : (History.of table events).pending txn = []) {page : PageId}
    (inside : page.table = table) :
  spaces.overlay txn page = none
  := by
  by_contra changed
  apply reached.recorded txn page inside (Option.isSome_iff_ne_none.mpr changed) idle

omit reached in
/-- A pool that stores what is committed `Gains` over `start` what `history` has committed. -/
theorem gains_of_committed {pool : Pool} {history : History} (base : start.Over table no)
    (same : start.SameTables pool) (well : pool.WellStored)
    (tells : spaces.Tells table start.decoded history) (stores : history.Stores)
    (committed : spaces.committed = pool.stored) :
  start.Gains pool table no history.committed.length
  := by
  have own : (start.store no).table = table := (base.well.catalogued table no base.kept).2
  subst own
  obtain ⟨formed, tuples⟩ := Pool.length_tuples base.kept base.formed (base.well.numbered no) same
    (well.numbered no) tells stores committed
  exact ⟨same, formed, tuples⟩

/-- `system.pool` `Gains` over `start` what `events` have committed. -/
theorem gains (base : start.Over table no) :
  start.Gains system.pool table no (History.of table events).committed.length
  := gains_of_committed base reached.same reached.mirrors.faithful.well reached.tells
    reached.stores reached.mirrors.faithful.committed

/-- An abort of `txn` takes no tuple away, whatever it is in the midst of: the pool still `Gains`
what `events` have committed. -/
theorem gains_abort (base : start.Over table no) (txn : TransactionId) :
  start.Gains (system.pool.complete txn false).2 table no
    (History.of table events).committed.length
  := by
  obtain ⟨outcome, after, eq, faithful, -⟩ := reached.mirrors.faithful.abort txn
  have same := (system.pool.keeps_complete txn false reached.tidy).2
  rw [eq] at same ⊢
  have gains : start.Gains after table no
      ((History.of table events).drop txn).committed.length :=
    gains_of_committed base (reached.same.trans same) faithful.well (reached.tells.drop txn)
      (reached.stores.drop txn) faithful.committed
  apply gains

end Reached

end System

end StorageEngine

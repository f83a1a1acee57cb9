import StorageEngine.Proofs.Pool.Outgrown
import StorageEngine.Proofs.System.Calls
import StorageEngine.Proofs.System.Growth

/-!
# Workspaces follow systems

Whatever a step of a system is, the workspaces that the system mirrors can follow it by the events
that happen in it (`Mirrors.step`).  So every run on a pool is one that transactions with private
workspaces could have seen (`Run.refines_workspaces`).
-/

namespace StorageEngine.System

variable {system : System} {spaces : Workspaces} {txn : TransactionId} {pool after : Pool}
  {page : PageId} {bytes : Bytes}

/-! ### Edits and marks -/

/-- `spaces` follow an `edit` without events: they know nothing of it before it is marked. -/
theorem Mirrors.edit (mirrors : system.Mirrors spaces) {copy : CopyNo} {edits : List Edit}
    {edit : Edit} (hand : system.doing txn = .editing copy page edits)
    (fits : (system.pool.copy copy).bytes.overwrite? edit.start edit.data = some bytes) :
  system.Follows spaces txn
    (system.pool.setCopy copy { system.pool.copy copy with bytes })
    (.editing copy page (edits ++ [edit])) []
  := by
  have suits := mirrors.suits txn
  rw [hand] at suits
  obtain ⟨allocated, named, exclusive, size, stored, cached, seen, view, edited⟩ := suits
  have kept : bytes.length = (system.pool.copy copy).bytes.length := by
    unfold Bytes.overwrite? at fits
    split at fits
    · cases fits
      rename_i within
      apply Bytes.length_overwrite within
    · cases fits
  have new : (system.pool.setCopy copy { system.pool.copy copy with bytes }).copy copy
      = { system.pool.copy copy with bytes } := by
    rw [Pool.copy_setCopy, if_pos ⟨rfl, allocated⟩]
  use spaces, .stop spaces
  apply mirrors.moved
  · apply (mirrors.faithful.edit kept).mono
    rintro place frame - (⟨other, holds, disturbed⟩ | rfl)
    · by_cases mine : other = txn
      · subst mine
        rw [hand] at disturbed
        right
        use holds, disturbed.1
        simp
      · left
        use other
    · right
      rw [named]
      use exclusive, rfl
      simp
  · apply (Pool.onlyAt_setCopy system.pool spaces copy _).leaves
    · rw [named]
      apply mirrors.faithful.alone (Option.isSome_of_mem exclusive)
    · intro _ _
      rfl
    · intro _ _ _
      rfl
  · refine ⟨?_, ?_, exclusive, ?_, stored, cached, seen, view, ?_⟩
    · simpa [Pool.setCopy] using allocated
    · rw [new, named]
    · rw [new]
      apply kept.trans size
    · rw [Edit.applyAll?_concat, edited, new]
      apply fits

/-- A `place` that is loose and is not the `page` that `txn` is editing is loose for another
transaction. -/
theorem looseBut_of_editing {copy : CopyNo} {edits : List Edit} {place : PageId}
    (hand : system.doing txn = .editing copy page edits)
    (loose : system.Loose place ∧ place ≠ page) :
  system.LooseBut txn place
  := by
  obtain ⟨⟨other, exclusive, disturbed⟩, distinct⟩ := loose
  use other
  refine ⟨?_, exclusive, disturbed⟩
  rintro rfl
  rw [hand] at disturbed
  apply distinct disturbed.1

/-- `spaces` follow an attempt to mark the `copy` at hand as changed. -/
theorem Mirrors.mark (mirrors : system.Mirrors spaces) {copy : CopyNo} {edits : List Edit}
    (hand : system.doing txn = .editing copy page edits)
    {result : Except (Failure PoolError) Unit}
    (eq : system.pool.markDirty txn copy = (result, after)) :
  system.Follows spaces txn after .idle
    (if result = .ok () then [.updated txn page edits] else [])
  := by
  have suits := mirrors.suits txn
  rw [hand] at suits
  obtain ⟨allocated, named, exclusive, size, stored, cached, seen, view, edited⟩ := suits
  subst named
  rw [Pool.markDirty, if_pos exclusive] at eq
  have installed := mirrors.faithful.install allocated exclusive size stored
  rw [eq] at installed
  rcases installed with ⟨-, ⟨rfl, faithful, left⟩ | ⟨-, rfl, faithful, left⟩⟩
  · rw [if_pos rfl]
    have alone : ∀ other, other ≠ txn → spaces.overlay other (system.pool.copy copy).id = none :=
      fun other distinct =>
        mirrors.faithful.overlay_eq_none (Option.isSome_of_mem exclusive) distinct
    apply mirrors.follow (.single (.updated view edited alone)) _ left (Activity.suits_idle ..)
    apply faithful.mono
    intro place frame _ loose
    apply looseBut_of_editing hand loose
  · rw [if_neg (by simp)]
    apply mirrors.silent _ left (Activity.suits_idle ..)
    apply faithful.mono
    intro place frame _ loose
    apply looseBut_of_editing hand loose

/-! ### Ends -/

/-- `spaces` follow the end of `txn`. -/
theorem Mirrors.complete (mirrors : system.Mirrors spaces) {commits : Bool}
    {result : Except (Failure PoolError) Unit} (free : (system.doing txn).mayEnd commits)
    (eq : system.pool.complete txn commits = (result, after)) :
  system.Follows spaces txn after .idle [.ended txn commits result]
  := by
  cases commits with
  | true =>
    have calm : ∀ page, ¬ (system.doing txn).disturbs page := by
      apply calm_of_mayCall
      cases doing : system.doing txn <;> simp_all [Activity.mayEnd, Activity.mayCall]
    have faithful := mirrors.calm calm
    have tight : ∀ page, (spaces.overlay txn page).isSome → ¬ system.LooseBut txn page := by
      intro page changed
      apply not_looseBut faithful (Pool.Leaves.refl txn system.pool spaces)
      apply Option.isSome_of_mem (faithful.exclusive_of_overlay changed)
    obtain ⟨after', eq', faithful', left, -⟩ := faithful.commit tight
    cases eq.symm.trans eq'
    apply mirrors.follow (.single .committed) faithful' left (Activity.suits_idle ..)
  | false =>
    obtain ⟨outcome, after', eq', faithful, left, -⟩ := mirrors.faithful.abort txn
    cases eq.symm.trans eq'
    have faultless : ∀ fault, outcome.mapError Failure.error ≠ .error (.fault fault) := by
      intro fault
      cases outcome <;> simp [Except.mapError]
    apply mirrors.follow (.single (.aborted faultless)) _ left (Activity.suits_idle ..)
    apply faithful.mono
    rintro page frame - ⟨⟨other, exclusive, disturbed⟩, unheld⟩
    use other
    refine ⟨?_, exclusive, disturbed⟩
    rintro rfl
    cases unheld.symm.trans exclusive

/-! ### Disruptions -/

/-- A system mirrors workspaces whatever the store `no` is told to fail, but writes. -/
theorem Mirrors.disrupt (mirrors : system.Mirrors spaces) (no : StoreNo)
    (failingReads : List PageNo) (failingCount : Bool) (appendLimit : Option Nat) :
  Mirrors { system with
    pool := system.pool.setStore no
      { system.pool.store no with failingReads, failingCount, appendLimit } } spaces
  := by
  let told : Store := { system.pool.store no with failingReads, failingCount, appendLimit }
  have same : system.pool.SameStores (system.pool.setStore no told) :=
    Pool.sameStores_setStore ⟨rfl, rfl, rfl⟩
  constructor
  · apply mirrors.faithful.reframe same mirrors.faithful.distinct
    · intro _ _ found
      apply found
    · intro _ _ found _
      apply found
  · intro txn
    -- What a transaction does leaves alone what concerns others, and so does what none of them
    -- does.
    obtain ⟨other, distinct⟩ : ∃ other, txn ≠ other := by
      use ⟨txn.number + 1⟩
      intro equal
      have equal := congrArg TransactionId.number equal
      simp at equal
    apply (mirrors.suits txn).of_leaves _ distinct
    apply Pool.leaves_of_fewer same
    intro _ _ found
    apply found

/-! ### Runs -/

/-- Workspaces that a system `Mirrors` follow a `step` that leaves the stores `Numbered`. -/
theorem Mirrors.step {system after : System} {events : List Event}
    (mirrors : system.Mirrors spaces) (step : Step system events after)
    (numbered : ∀ no, (after.pool.store no).Numbered) :
  ∃ spaces', spaces.Run events spaces' ∧ after.Mirrors spaces'
  := by
  cases step with
  | enter free served eq => apply mirrors.enter free served eq numbered
  | round under eq => apply mirrors.advance under eq numbered
  | edit hand fits => apply mirrors.edit hand fits
  | mark hand eq => apply mirrors.mark hand eq
  | unmarked hand eq => apply mirrors.mark hand eq
  | complete free eq => apply mirrors.complete free eq
  | disrupt no failingReads failingCount appendLimit =>
    exact ⟨spaces, .stop spaces, mirrors.disrupt no failingReads failingCount appendLimit⟩

/-- Workspaces that a system `Mirrors` follow a `run` that leaves the stores `Numbered`. -/
theorem Mirrors.run {start system : System} {events : List Event} (mirrors : start.Mirrors spaces)
    (run : start.Run events system) (numbered : ∀ no, (system.pool.store no).Numbered) :
  ∃ spaces', spaces.Run events spaces' ∧ system.Mirrors spaces'
  := by
  induction run with
  | start => exact ⟨spaces, .stop spaces, mirrors⟩
  | step before step ih =>
    obtain ⟨spaces', run, mirrors'⟩ := ih (step.grows.numbered numbered)
    obtain ⟨spaces'', run', mirrors''⟩ := mirrors'.step step numbered
    use spaces'', run.append run'

/-- A system that starts on a pool that `create` returns `Mirrors` the workspaces of what is
stored. -/
theorem mirrors_start {config : PoolConfig} {catalog : Registry TableId StoreNo}
    {stores : Array Store} (created : Pool.create config catalog stores = .ok pool)
    (well : pool.WellStored) :
  (start pool).Mirrors (.initial pool.stored)
  := by
  obtain ⟨locks, frames⟩ : pool.locks = .empty ∧ pool.cache.frames = [] := by
    rw [(Pool.create_eq_ok created).2]
    trivial
  have absent : ∀ page, pool.cache.frame? page = none := by
    intro page
    simp [Cache.frame?, frames]
  constructor
  · refine ⟨well, ?_, ?_, rfl, ?_, ?_, ?_⟩
    · rw [start, locks]
      apply LockTable.sound_empty
    · simp [start, Cache.Distinct, frames]
    · intro page frame found
      cases (absent page).symm.trans found
    · intro page frame found
      cases (absent page).symm.trans found
    · intro txn page changed
      cases changed
  · intro txn
    trivial

/-- A run on a pool that leaves every store `Numbered` is one that transactions with private
workspaces could have seen: `events` lead to workspaces, and to no others, whose committed images
are what the pool has stored, and of which no two transactions have private images of one page. -/
theorem Run.refines_workspaces {config : PoolConfig} {catalog : Registry TableId StoreNo}
    {stores : Array Store} (created : Pool.create config catalog stores = .ok pool)
    (well : pool.WellStored) {events : List Event} (run : (System.start pool).Run events system)
    (numbered : ∀ no, (system.pool.store no).Numbered) :
  ∃ spaces, (Workspaces.initial pool.stored).Run events spaces
    ∧ (∀ spaces', (Workspaces.initial pool.stored).Run events spaces' → spaces' = spaces)
    ∧ spaces.committed = system.pool.stored
    ∧ ∀ txn other page, txn ≠ other →
        spaces.overlay txn page = none ∨ spaces.overlay other page = none
  := by
  obtain ⟨spaces, followed, mirrors⟩ := (mirrors_start created well).run run numbered
  use spaces, followed
  refine ⟨fun _ => followed.unique, mirrors.faithful.committed, ?_⟩
  intro txn other page distinct
  by_contra both
  obtain ⟨mine, theirs⟩ := not_or.mp both
  have exclusive := mirrors.faithful.exclusive_of_overlay (Option.isSome_iff_ne_none.mpr mine)
  apply theirs
  apply mirrors.faithful.overlay_eq_none (Option.isSome_of_mem exclusive) distinct.symm

/-! ### A run -/

/-- A pool with room for one page, over a table of one page. -/
def onePage : Pool :=
  { config := ⟨1, 4, .ofMillis 1⟩, cache := ⟨1, []⟩, copies := #[], locks := .empty
    catalog := ⟨[(1, 0)]⟩, stores := #[{ table := 1, medium := .heap ⟨4, ⟨#[1, 2, 3, 4]⟩⟩ }] }

/-- `onePage` while a transaction has its page at hand, in which it has put `bytes`. -/
def onePageAtHand (bytes : Bytes) : Pool :=
  { onePage with
    cache := ⟨1, [⟨⟨1, 0⟩, 0, false⟩]⟩
    copies := #[⟨⟨1, 0⟩, bytes, none⟩]
    locks := LockTable.empty.grant ⟨1, 0⟩ ⟨0⟩ .exclusive
    stores := #[onePage.store 0 |>.note ⟨0, false, false⟩] }

/-- `onePageAtHand` after the transaction has marked its page. -/
def onePageMarked : Pool :=
  { onePageAtHand [] with
    cache := ⟨1, [⟨⟨1, 0⟩, 0, true⟩]⟩
    copies := #[⟨⟨1, 0⟩, [1, 9, 3, 4], some ⟨0⟩⟩] }

/-- `onePageMarked` after the transaction has committed. -/
def onePageCommitted : Pool :=
  { onePage with
    cache := ⟨1, [⟨⟨1, 0⟩, 0, false⟩]⟩
    copies := #[⟨⟨1, 0⟩, [1, 9, 3, 4], none⟩]
    stores := #[
      { table := 1, medium := .heap ⟨4, ⟨#[1, 9, 3, 4]⟩⟩
        accesses := [⟨0, true, false⟩, ⟨0, false, false⟩] }] }

/-- In a pool with one store, every store is `Numbered` if that one has fewer than `UInt32.size`
pages. -/
theorem numbered_of_one_store (one : pool.stores.size = 1)
    (numbered : (pool.store 0).length < UInt32.size) (no : StoreNo) :
  (pool.store no).Numbered
  := by
  cases no with
  | zero => apply numbered
  | succ no =>
    have missing : pool.store (no + 1) = default := by
      simp [Pool.store, Array.getD, one]
    rw [missing, Store.Numbered]
    decide

/-- A pool that catalogs one table has it in store 0, and no other. -/
theorem eq_of_one_table {table own : TableId} {no : StoreNo} (one : pool.catalog = ⟨[(own, 0)]⟩)
    (found : pool.catalog.get? table = some no) :
  own = table ∧ 0 = no
  := by
  simpa [one, Registry.get?, Registry.lookup] using found

/-- A pool with one table, kept in a `file`, serves insertions. -/
theorem serves_insert_of_one_table {own : TableId} {file : PageFile}
    (one : pool.catalog = ⟨[(own, 0)]⟩) (heap : (pool.store 0).medium = .heap file)
    (table : TableId) (tuple : Bytes) :
  pool.serves (.insert table tuple)
  := by
  intro no found
  obtain ⟨rfl, rfl⟩ := eq_of_one_table one found
  exact ⟨file, heap⟩

/-- A pool with one table is `WellStored` if its `store` has fewer than `UInt32.size` pages and no
`failingWrites`. -/
theorem wellStored_of_one_store {store : Store} (catalog : pool.catalog = ⟨[(store.table, 0)]⟩)
    (one : pool.stores = #[store]) (numbered : store.length < UInt32.size)
    (willing : store.failingWrites = []) :
  pool.WellStored
  := by
  have first : pool.store 0 = store := by
    simp [Pool.store, one]
  refine ⟨?_, ?_, ?_⟩
  · intro table no found
    obtain ⟨rfl, rfl⟩ := eq_of_one_table catalog found
    simp [one, first]
  · apply numbered_of_one_store
    · simp [one]
    · rw [first]
      apply numbered
  · intro no
    cases no with
    | zero => rw [first, willing]
    | succ no =>
      have missing : pool.store (no + 1) = default := by
        simp [Pool.store, Array.getD, one]
      rw [missing]
      rfl

/-- On `onePage`, a transaction fetches the page, overwrites a byte of it, marks it and commits. -/
theorem run_onePage :
  ∃ system, system.pool = onePageCommitted
    ∧ (System.start onePage).Run
      [.fetched ⟨0⟩ ⟨1, 0⟩ [1, 2, 3, 4], .updated ⟨0⟩ ⟨1, 0⟩ [⟨1, [9]⟩],
        .ended ⟨0⟩ true (.ok ())] system
  := by
  have fetch : (Call.fetch ⟨1, 0⟩ .readWrite).round ⟨0⟩ onePage
    = (.done (.answer (.page 0)), onePageAtHand [1, 2, 3, 4]) := rfl
  have mark : (onePageAtHand [1, 9, 3, 4]).markDirty ⟨0⟩ 0 = (.ok (), onePageMarked) := rfl
  have complete : onePageMarked.complete ⟨0⟩ true = (.ok (), onePageCommitted) := rfl
  have entered := Run.start.step
    (@Step.enter (System.start onePage) ⟨0⟩ (.fetch ⟨1, 0⟩ .readWrite) _ _ trivial trivial rfl)
  have fetched := entered.step (@Step.round _ ⟨0⟩ (.fetch ⟨1, 0⟩ .readWrite) _ _ rfl fetch)
  have edited := fetched.step (@Step.edit _ ⟨0⟩ 0 ⟨1, 0⟩ [] ⟨1, [9]⟩ [1, 9, 3, 4] rfl rfl)
  have marked := edited.step (@Step.mark _ ⟨0⟩ 0 ⟨1, 0⟩ [⟨1, [9]⟩] _ rfl mark)
  have ended := marked.step (@Step.complete _ ⟨0⟩ true _ _ trivial complete)
  exact ⟨_, rfl, ended⟩

theorem refines_workspaces_onePage :
  ∃ system, (System.start onePage).Run
      [.fetched ⟨0⟩ ⟨1, 0⟩ [1, 2, 3, 4], .updated ⟨0⟩ ⟨1, 0⟩ [⟨1, [9]⟩],
        .ended ⟨0⟩ true (.ok ())] system
    ∧ ∃ spaces, (Workspaces.initial onePage.stored).Run
        [.fetched ⟨0⟩ ⟨1, 0⟩ [1, 2, 3, 4], .updated ⟨0⟩ ⟨1, 0⟩ [⟨1, [9]⟩],
          .ended ⟨0⟩ true (.ok ())] spaces
      ∧ spaces.committed ⟨1, 0⟩ = some [1, 9, 3, 4]
  := by
  obtain ⟨system, pool, run⟩ := run_onePage
  have created : Pool.create onePage.config onePage.catalog onePage.stores = .ok onePage := rfl
  have well : onePage.WellStored := wellStored_of_one_store rfl rfl (by decide) rfl
  obtain ⟨spaces, followed, -, committed, -⟩ := Run.refines_workspaces created well run
    (pool ▸ numbered_of_one_store rfl (by decide))
  refine ⟨system, run, spaces, followed, ?_⟩
  rw [committed, pool]
  rfl

/-! ### A run past the last page number -/

/-- Where `table` has `Outgrown` its page numbers, a transaction that begins an insertion stores an
empty page over the first page of `table`. -/
theorem run_outgrown {table : TableId} {no : StoreNo} {file : PageFile} {tuple bytes : Bytes}
    (outgrown : pool.Outgrown table no file) (fits : Call.fits file.pageSize tuple = true)
    (empty : Store.emptyHeapPage file.pageSize = .ok bytes) (txn : TransactionId) :
  ∃ system, (System.start pool).Run [] system ∧ system.pool = pool.overwritten no file bytes
  := by
  have served : pool.serves (.insert table tuple) := by
    intro other found
    cases outgrown.found.symm.trans found
    exact ⟨file, outgrown.medium⟩
  obtain ⟨size, -, short⟩ := Store.length_emptyHeapPage empty
  have unread : (pool.overwritten no file bytes).stored ⟨table, 0⟩ = none :=
    (outgrown.overwritten size).stored short 0
  have run := Run.start.step (@Step.enter (System.start pool) txn (.insert table tuple) _ _ trivial
    served (outgrown.enter_insert fits empty txn))
  simp only [Request.events, Round.appended, unread, Option.toList_none, List.map_nil,
    List.append_nil] at run
  exact ⟨_, run, rfl⟩

/-- A file of as many pages of zeros as there are page numbers, `UInt32.size`. -/
def zeroPages : PageFile := .repeated UInt32.size (List.replicate 24 0)

/-- What is left of the first page of `zeroPages` when an insertion begins is no committed image of
it, whatever has happened, unless a transaction has committed. -/
theorem not_refines_workspaces_zeroPages :
  Pool.create (Pool.ofFile 1 zeroPages).config (Pool.ofFile 1 zeroPages).catalog
      (Pool.ofFile 1 zeroPages).stores = .ok (Pool.ofFile 1 zeroPages)
    ∧ ∃ system, (System.start (.ofFile 1 zeroPages)).Run [] system
      ∧ ∀ events spaces, (∀ txn result, .ended txn true result ∉ events) →
        (Workspaces.initial (Pool.ofFile 1 zeroPages).kept?).Run events spaces →
        spaces.committed ≠ system.pool.kept?
  := by
  use Pool.create_ofFile Nat.one_pos (by decide) zeroPages
  have outgrown : (Pool.ofFile 1 zeroPages).Outgrown 1 0 zeroPages :=
    Pool.outgrown_ofFile 1 (PageFile.outgrown_repeated (by decide))
  have fits : Call.fits 24 [8] = true := rfl
  obtain ⟨empty, made, changed⟩ : ∃ empty, Store.emptyHeapPage 24 = .ok empty
      ∧ empty ≠ List.replicate 24 0 := ⟨_, rfl, by decide⟩
  obtain ⟨system, run, pool⟩ := run_outgrown outgrown fits made ⟨0⟩
  refine ⟨system, run, ?_⟩
  intro events spaces pending followed same
  have first : zeroPages.page 0 = List.replicate 24 0 :=
    PageFile.page_repeated (UInt32.toNat_lt_size 0)
  generalize kept : (Pool.ofFile 1 zeroPages).kept? = images at followed
  have before : images ⟨1, 0⟩ = some (List.replicate 24 0) := by
    rw [← kept, outgrown.kept?, first]
  have after := followed.committed_eq pending before
  rw [same, pool, outgrown.kept?_overwritten (Store.length_emptyHeapPage made).1, if_pos rfl]
    at after
  cases after
  exact changed rfl

end StorageEngine.System

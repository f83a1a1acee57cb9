import StorageEngine.Proofs.System.Arranged
import StorageEngine.Proofs.System.Repeatable

/-!
# The locks of an insertion

An insertion into a heap table looks for room in page after page under shared locks, and gives up
those that its transaction did not have before.  So, whatever others do meanwhile, its transaction
holds at any time what it held before, but for one page, where it holds at least as much
(`LockTable.Strengthens`); and if a tuple was inserted, that page is the one that stores it, locked
exclusively (`Inserting.keeps_locks`).
-/

namespace StorageEngine

theorem LockMode.satisfies_trans {a b c : LockMode} (first : a.satisfies b = true)
    (second : b.satisfies c = true) :
  a.satisfies c = true
  := by
  cases a <;> cases b <;> cases c <;> simp_all [satisfies]

/-! ### What a transaction holds -/

namespace LockTable

variable {locks middle after : LockTable} {page place : PageId} {txn : TransactionId}
  {mode : LockMode}

/-- Whether `txn` holds in `after` what it held in `locks`. -/
def SameModes (txn : TransactionId) (locks after : LockTable) : Prop :=
  ∀ page, after.modeOf? page txn = locks.modeOf? page txn

/-- Whether `txn` holds in `after` what it held in `locks`, but for `place`, where it holds at
least as much. -/
structure Strengthens (txn : TransactionId) (place : PageId) (locks after : LockTable) : Prop where
  others : ∀ page, page ≠ place → after.modeOf? page txn = locks.modeOf? page txn
  kept : ∀ mode, locks.modeOf? place txn = some mode →
    ∃ kept, after.modeOf? place txn = some kept ∧ kept.satisfies mode = true

theorem SameModes.trans (first : SameModes txn locks middle) (second : SameModes txn middle after) :
  SameModes txn locks after
  := fun page => (second page).trans (first page)

theorem SameModes.strengthens (same : SameModes txn locks after) (place : PageId) :
  Strengthens txn place locks after
  where
  others page _ := same page
  kept mode holds := by
    use mode, (same place).trans holds
    cases mode <;> rfl

theorem Strengthens.trans (first : Strengthens txn place locks middle)
    (second : Strengthens txn place middle after) :
  Strengthens txn place locks after
  where
  others page apart := (second.others page apart).trans (first.others page apart)
  kept mode holds := by
    obtain ⟨between, holds, covers⟩ := first.kept mode holds
    obtain ⟨kept, holds, covers'⟩ := second.kept between holds
    use kept, holds
    apply LockMode.satisfies_trans covers' covers

/-- Where `locks` are strengthened to `after`, a lock that was held is held at least as
strongly. -/
theorem Strengthens.weakens_none (strengthens : Strengthens txn place locks after)
    (holds : locks.modeOf? page txn = some mode) :
  ∃ kept, after.modeOf? page txn = some kept ∧ kept.satisfies mode = true
  := by
  by_cases here : page = place
  · subst here
    apply strengthens.kept mode holds
  · use mode, (strengthens.others page here).trans holds
    cases mode <;> rfl

theorem strengthens_request (locks : LockTable) (page : PageId) (txn : TransactionId)
    (mode : LockMode) :
  Strengthens txn page locks (locks.request page txn mode).2
  where
  others _ apart := modeOf?_request_of_ne locks mode fun same => apart same.1
  kept _ holds := modeOf?_request_of_held locks holds

/-- To request a shared lock on a `page` that `txn` has locked leaves the `SameModes`. -/
theorem sameModes_request_shared (held : (locks.modeOf? page txn).isSome) :
  SameModes txn locks (locks.request page txn .shared).2
  := by
  intro other
  by_cases here : other = page
  · subst here
    obtain ⟨mode, holds⟩ := Option.isSome_iff_exists.mp held
    rcases locks.request_cases other txn .shared with ⟨-, eq⟩ | ⟨-, -, eq⟩ | ⟨-, -, eq⟩
    · rw [eq, modeOf?_grant, if_pos ⟨rfl, rfl⟩, holds]
      cases mode <;> rfl
    · rw [eq, modeOf?_deny]
    · rw [eq, modeOf?_clearWaits, modeOf?_deny]
  · apply modeOf?_request_of_ne locks _ fun same => here same.1

/-- To request a lock on a `page` that `txn` has not locked, and to release it, leaves the
`SameModes`. -/
theorem sameModes_release_request (unheld : locks.modeOf? page txn = none) (mode : LockMode) :
  SameModes txn locks ((locks.request page txn mode).2.release page txn)
  := by
  intro other
  rw [modeOf?_release]
  split
  · rename_i here
    rw [here.1, unheld]
  · rename_i apart
    exact modeOf?_request_of_ne locks mode apart

theorem sameModes_request_of_waiting (waits : (locks.request page txn mode).1 = .waiting) :
  SameModes txn locks (locks.request page txn mode).2
  := by
  intro other
  by_cases here : other = page
  · subst here
    apply modeOf?_request_of_waiting locks _ _ _ waits
  · apply modeOf?_request_of_ne locks _ fun same => here same.1

end LockTable

/-! ### Steps of others -/

namespace Pool

variable {pool after : Pool} {txn : TransactionId} {act : TableAct} {no : StoreNo}

/-- An `act` of others leaves `txn` the `SameModes`. -/
theorem sameModes_performTable (sound : pool.Sound) (admitted : pool.admits act)
    (foreign : ∀ actor ∈ act.locker?, actor ≠ txn) :
  LockTable.SameModes txn pool.locks (pool.performTable act).locks
  := by
  obtain ⟨actor, distinct, own⟩ : ∃ actor, actor ≠ txn ∧ ∀ other ∈ act.locker?, other = actor := by
    cases acts : act.locker? with
    | some actor =>
      use actor, foreign actor acts
      rintro _ ⟨⟩
      rfl
    | none =>
      refine ⟨⟨txn.number + 1⟩, ?_, nofun⟩
      intro same
      have next : txn.number + 1 = txn.number := congrArg TransactionId.number same
      simp at next
  have follows : Follows actor pool (pool.performTable act) :=
    follows_performTable sound.tidy admitted own
  exact ((follows.locks sound.locks).2 txn distinct.symm).1

/-- An `act` that leaves tables in order leaves the store `no` with its table. -/
theorem table_performTable (tidy : pool.Tidy) (orderly : pool.arranges act)
    (inside : no < pool.stores.size) :
  ((pool.performTable act).store no).table = (pool.store no).table
    ∧ no < (pool.performTable act).stores.size
  := by
  cases act with
  | use act =>
    have unmoved := unmoved_perform tidy act
    use unmoved.tables.table no
    exact unmoved.size.symm ▸ inside
  | edit copy bytes => exact ⟨rfl, inside⟩
  | addTable store =>
    have size : (pool.addTable store).stores.size = pool.stores.size + 1 := Array.size_push ..
    constructor
    · exact congrArg Store.table
        ((pool.store_addTable store no).trans (if_neg (Nat.ne_of_lt inside)))
    · exact size ▸ Nat.lt_succ_of_lt inside
  | removeTable table => exact ⟨rfl, inside⟩
  | alter other store =>
    have size : (pool.setStore other store).stores.size = pool.stores.size :=
      Array.size_setIfInBounds ..
    constructor
    · rw [performTable, store_setStore]
      split
      · rename_i here
        rw [here.1, orderly.1]
      · rfl
    · exact size.symm ▸ inside

theorem locks_install (pool : Pool) (txn : TransactionId) (no : CopyNo) :
  (pool.install txn no).2.locks = pool.locks
  := by
  obtain ⟨-, eq⟩ | ⟨-, ⟨room, -, eq⟩ | eq⟩ := pool.install_cases txn no
  all_goals
    rw [eq]
    rfl

end Pool

/-! ### The locks during an insertion -/

variable {before pool after : Pool} {txn : TransactionId} {table : TableId} {tuple : Bytes}
  {no : StoreNo} {page : PageId} {rest : List PageNo} {stage : Round}

/-- What `txn` holds in `pool` while an insertion that began in `before` looks for room, and then
where it has found some. -/
inductive Call.Holds (txn : TransactionId) (before pool : Pool) : Call → Prop where
  | probe {no : StoreNo} {tuple : Bytes} {pageNo : PageNo} {rest : List PageNo}
      (inside : no < pool.stores.size)
      (same : LockTable.SameModes txn before.locks pool.locks) :
      Holds txn before pool (.probe no tuple pageNo
        (pool.locks.modeOf? ⟨(pool.store no).table, pageNo⟩ txn).isSome rest)
  | place {page : PageId} {tuple : Bytes}
      (strengthens : LockTable.Strengthens txn page before.locks pool.locks) :
      Holds txn before pool (.place page tuple)

/-- What `txn` holds in `pool` after an insertion that began in `before`. -/
inductive Outcome.Holds (txn : TransactionId) (before pool : Pool) : Outcome → Prop where
  | inserted {record : RecordId}
      (strengthens : LockTable.Strengthens txn record.page before.locks pool.locks)
      (exclusive : pool.locks.modeOf? record.page txn = some .exclusive) :
      Holds txn before pool { result := .ok (.inserted (some record)), record := some record }
  | failed {place : PageId} {failure : Failure CallError} {record : Option RecordId}
      (strengthens : LockTable.Strengthens txn place before.locks pool.locks) :
      Holds txn before pool { result := .error failure, record }

/-- What `txn` holds in `pool` in an insertion that began in `before`. -/
def Round.Holds (txn : TransactionId) (before pool : Pool) : Round → Prop :=
  Round.Comes (Outcome.Holds txn before pool) (Call.Holds txn before pool)

/-- While a `stage` `Holds`, the locks of `txn` are those `before`, strengthened on one `place` at
most. -/
theorem Round.Holds.strengthens (holds : stage.Holds txn before pool) :
  ∃ place, LockTable.Strengthens txn place before.locks pool.locks
  := by
  apply Comes.elim holds
  · intro outcome holds
    cases holds with
    | inserted strengthens => exact ⟨_, strengthens⟩
    | failed strengthens => exact ⟨_, strengthens⟩
  · intro call holds
    cases holds with
    | probe inside same => exact ⟨default, same.strengthens _⟩
    | place strengthens => exact ⟨_, strengthens⟩

/-- A `stage` that `Holds` does so after what others do, which leaves `txn` the `SameModes`. -/
theorem Round.Holds.of_sameModes (holds : stage.Holds txn before pool)
    (same : LockTable.SameModes txn pool.locks after.locks)
    (tables : ∀ no < pool.stores.size,
      (after.store no).table = (pool.store no).table ∧ no < after.stores.size) :
  stage.Holds txn before after
  := by
  apply Comes.imp holds
  · intro outcome holds
    cases holds with
    | inserted strengthens exclusive =>
      exact .inserted (strengthens.trans (same.strengthens _)) ((same _).trans exclusive)
    | failed strengthens => exact .failed (strengthens.trans (same.strengthens _))
  · intro call holds
    cases holds with
    | @probe no tuple pageNo rest inside unchanged =>
      obtain ⟨table, inside'⟩ := tables no inside
      rw [← same, ← table]
      exact .probe inside' (unchanged.trans same)
    | place strengthens => exact .place (strengthens.trans (same.strengthens _))

namespace Call

/-- Where a call goes on to look for room or appends a page, the stage `Holds`. -/
theorem holds_entering (inside : no < pool.stores.size)
    (same : LockTable.SameModes txn before.locks pool.locks)
    (entering : Entering txn no tuple pool rest stage after) :
  stage.Holds txn before after
  := by
  cases entering with
  | refused => exact Outcome.Holds.failed (same.strengthens default)
  | @grown page => exact Holds.place (same.strengthens page)
  | next => exact Holds.probe inside same

/-- After a round of `.probe` the stage `Holds`: a page is looked at under a shared lock, which is
kept if there is room, or was before. -/
theorem holds_probe (tidy : pool.Tidy) {pageNo : PageNo} {alreadyHeld : Bool}
    (holds : (probe no tuple pageNo alreadyHeld rest).Holds txn before pool) :
  ((probe no tuple pageNo alreadyHeld rest).round txn pool).1.Holds txn before
    ((probe no tuple pageNo alreadyHeld rest).round txn pool).2
  := by
  rcases eq : (probe no tuple pageNo alreadyHeld rest).round txn pool with ⟨stage, after⟩
  cases holds with
  | probe inside same =>
  have relocks : Pool.anything.relocks pool.locks
      (pool.locks.request ⟨(pool.store no).table, pageNo⟩ txn .shared).2 := trivial
  have locks : (pool.fetch txn ⟨(pool.store no).table, pageNo⟩ .readOnly).2.locks
      = (pool.locks.request ⟨(pool.store no).table, pageNo⟩ txn .shared).2 :=
    (Pool.moves_fetch tidy txn _ .readOnly relocks).2.1
  have waiting : (pool.fetch txn ⟨(pool.store no).table, pageNo⟩ .readOnly).1 = .waiting → _ :=
    Pool.fetch_waiting
  have unmoved := pool.unmoved_fetch txn ⟨(pool.store no).table, pageNo⟩ .readOnly
  have strengthens := (same.strengthens ⟨(pool.store no).table, pageNo⟩).trans
    (pool.locks.strengthens_request ⟨(pool.store no).table, pageNo⟩ txn .shared)
  cases Probing.of_round eq with
  | waiting fetched =>
    rw [fetched] at waiting
    obtain ⟨waits, rfl⟩ := waiting rfl
    have same' := LockTable.sameModes_request_of_waiting waits
    have known := same' ⟨(pool.store no).table, pageNo⟩
    show Holds txn before _ _
    rw [← known]
    exact .probe inside (same.trans same')
  | failed fetched | broken fetched =>
    rw [← locks, fetched] at strengthens
    exact Outcome.Holds.failed strengthens
  | roomy fetched =>
    rw [← locks, fetched] at strengthens
    exact Holds.place strengthens
  | @full _ middle _ _ fetched _ entering =>
    rw [fetched] at locks unmoved
    dsimp only at locks unmoved
    have inside : no < middle.stores.size := unmoved.size.symm ▸ inside
    cases held : (pool.locks.modeOf? ⟨(pool.store no).table, pageNo⟩ txn).isSome with
    | true =>
      rw [held] at entering
      apply holds_entering inside _ entering
      apply same.trans
      rw [locks]
      apply LockTable.sameModes_request_shared held
    | false =>
      rw [held] at entering
      have unheld := Option.isSome_eq_false_iff.mp held
      have same' := LockTable.sameModes_release_request (Option.isNone_iff_eq_none.mp unheld)
        .shared
      rw [← locks] at same'
      have released : LockTable.SameModes txn before.locks
          (middle.releasePage txn ⟨(pool.store no).table, pageNo⟩).locks := same.trans same'
      apply holds_entering _ released entering
      exact inside

/-- After a round of `.place` the stage `Holds`: `page` takes `tuple`, locked exclusively, or the
insertion fails. -/
theorem holds_place (tidy : pool.Tidy)
    (strengthens : LockTable.Strengthens txn page before.locks pool.locks) (tuple : Bytes) :
  ((place page tuple).round txn pool).1.Holds txn before ((place page tuple).round txn pool).2
  := by
  have relocks : Pool.anything.relocks pool.locks
      (pool.locks.request page txn .exclusive).2 := trivial
  obtain ⟨moves, locks, cached⟩ := Pool.moves_fetch tidy txn page .readWrite relocks
  have locks : (pool.fetch txn page .readWrite).2.locks
      = (pool.locks.request page txn .exclusive).2 := locks
  have strengthens := strengthens.trans (pool.locks.strengthens_request page txn .exclusive)
  simp only [round, run]
  rcases eq : runPlace txn page tuple pool with ⟨progress, after⟩
  cases Placing.of_runPlace eq with
  | waiting fetched =>
    rw [← locks, fetched] at strengthens
    exact Holds.place strengthens
  | failed fetched =>
    rw [← locks, fetched] at strengthens
    exact Outcome.Holds.failed strengthens
  | @fetched copy middle _ _ fetched storing =>
    rw [← locks, fetched] at strengthens
    rw [fetched] at moves locks cached
    dsimp only at locks strengthens
    obtain ⟨granted, frame, found, rfl⟩ := cached copy rfl
    have exclusive : middle.locks.modeOf? page txn = some .exclusive := by
      rw [locks]
      apply LockTable.modeOf?_request_exclusive granted
    obtain ⟨-, rfl, -⟩ := (tidy.moves moves).framed page frame found
    cases storing with
    | refused => exact Outcome.Holds.failed strengthens
    | @unmarked _ bytes _ _ _ marked =>
      have kept := Pool.locks_install
        (middle.setCopy frame.copy { middle.copy frame.copy with bytes }) txn frame.copy
      rw [marked] at kept
      have kept : after.locks = middle.locks := kept
      exact Outcome.Holds.failed (kept ▸ strengthens)
    | @stored _ bytes _ _ marked =>
      have kept := Pool.locks_install
        (middle.setCopy frame.copy { middle.copy frame.copy with bytes }) txn frame.copy
      rw [marked] at kept
      have kept : after.locks = middle.locks := kept
      exact Outcome.Holds.inserted (kept ▸ strengthens) (kept ▸ exclusive)

/-- After a round of a `call` that `Holds` the stage does so. -/
theorem holds_round (tidy : pool.Tidy) {call : Call} (holds : call.Holds txn before pool) :
  (call.round txn pool).1.Holds txn before (call.round txn pool).2
  := by
  cases holds with
  | probe inside same => exact holds_probe tidy (.probe inside same)
  | place strengthens => exact holds_place tidy strengthens _

end Call

/-- When an insertion into a heap `table` begins, its stage `Holds`. -/
theorem Request.holds_enter (arranged : before.Arranged)
    (heap : before.serves (.insert table tuple)) :
  ((Request.insert table tuple).enter txn before).1.Holds txn before
    ((Request.insert table tuple).enter txn before).2
  := by
  have same : LockTable.SameModes txn before.locks before.locks := fun _ => rfl
  rcases eq : (insert table tuple).enter txn before with ⟨stage, after⟩
  obtain ⟨failure, rfl, rfl⟩ | ⟨no, pages, found, entering⟩ := enter_insert_cases heap eq
  · exact Outcome.Holds.failed (same.strengthens default)
  · exact Call.holds_entering (arranged.catalogued _ _ found).1 same entering

/-! ### Insertions among the steps of others -/

/-- An insertion of `tuple` into `table` under way that began in `before`, where others take any
steps between its lock requests and after it. -/
inductive Inserting (txn : TransactionId) (table : TableId) (tuple : Bytes) (before : Pool) :
    Round → Pool → Prop where
  | enter : Inserting txn table tuple before ((Request.insert table tuple).enter txn before).1
      ((Request.insert table tuple).enter txn before).2
  /-- The insertion goes on, up to its next lock request. -/
  | round {stage : Round} {pool : Pool} {call : Call}
      (inserting : Inserting txn table tuple before stage pool) (goes : call ∈ stage.pending?) :
      Inserting txn table tuple before (call.round txn pool).1 (call.round txn pool).2
  | others {stage : Round} {pool : Pool}
      (inserting : Inserting txn table tuple before stage pool) (act : TableAct)
      (admitted : pool.admits act) (orderly : pool.arranges act)
      (foreign : ∀ actor ∈ act.locker?, actor ≠ txn) :
      Inserting txn table tuple before stage (pool.performTable act)

/-- What a transaction holds at any time of an insertion. -/
theorem Inserting.holds (sound : before.Sound) (arranged : before.Arranged)
    (heap : before.serves (.insert table tuple))
    (inserting : Inserting txn table tuple before stage pool) :
  pool.Sound ∧ stage.Holds txn before pool
  := by
  induction inserting with
  | enter =>
    constructor
    · apply (Request.follows_enter sound.tidy _).1.sound sound
    · apply Request.holds_enter arranged heap
  | @round stage pool call _ goes ih =>
    obtain ⟨sound, holds⟩ := ih
    have holds := Round.Comes.pending holds goes
    have allocated : call.Allocated pool := by
      cases holds <;> apply List.forall_mem_nil
    exact ⟨(Call.follows_round sound.tidy allocated).sound sound, Call.holds_round sound.tidy holds⟩
  | others _ act admitted orderly foreign ih =>
    obtain ⟨sound, holds⟩ := ih
    use sound.performTable admitted
    apply holds.of_sameModes (Pool.sameModes_performTable sound admitted foreign)
    intro no inside
    apply Pool.table_performTable sound.tidy orderly inside

/-- Whatever was asked of a pool `before`, and whatever others do during an insertion into a heap
`table`: at any time `txn` holds what it held before the insertion, but for one page, where it
holds at least as much.  If the insertion answers where `tuple` is stored, that is the page, and it
is locked exclusively. -/
theorem Inserting.keeps_locks {config : PoolConfig} {catalog : Registry TableId StoreNo}
    {stores : Array Store} {start : Pool} (created : Pool.create config catalog stores = .ok start)
    (arranged : start.Arranged) (ordered : start.Ordered before)
    (heap : before.serves (.insert table tuple))
    (inserting : Inserting txn table tuple before stage pool) :
  (∃ place, LockTable.Strengthens txn place before.locks pool.locks)
    ∧ (∀ page mode, before.locks.modeOf? page txn = some mode →
        ∃ kept, pool.locks.modeOf? page txn = some kept ∧ kept.satisfies mode = true)
    ∧ ∀ outcome answer, stage = .done outcome → outcome.result = .ok answer →
        ∃ record, answer = .inserted (some record)
          ∧ ∀ page, pool.locks.modeOf? page txn
            = if page = record.page then some .exclusive else before.locks.modeOf? page txn
  := by
  have sound := Pool.sound_create created
  obtain ⟨-, holds⟩ := inserting.holds (ordered.reached.sound sound)
    (ordered.arranged sound arranged) heap
  obtain ⟨place, strengthens⟩ := holds.strengthens
  refine ⟨⟨place, strengthens⟩, fun page mode => strengthens.weakens_none, ?_⟩
  rintro outcome answer rfl ok
  cases holds with
  | @inserted record strengthens exclusive =>
    cases ok
    use record, rfl
    intro page
    split
    · rename_i here
      rw [here, exclusive]
    · rename_i apart
      apply strengthens.others page apart
  | failed => cases ok

/-! ### An insertion that skips a page -/

namespace System

theorem arranged_noPages :
  noPages.Arranged
  := by
  constructor
  · exact wellStored_noPages.catalogued
  · rintro (_ | no) pageSize shape
    · cases shape
      decide
    · cases shape

/-- `noPagesScanned` is reached from `noPages`: the table has one page, which is full, and a
transaction has locked it to read it. -/
theorem ordered_noPagesScanned :
  noPages.Ordered noPagesScanned
  := by
  have inserted : noPages.Ordered noPagesInserted := by
    apply Pool.Ordered.act (Pool.Ordered.act Pool.Ordered.start
      (.use (.enter ⟨0⟩ (.insert 1 [7]))) _ _) (.use (.round ⟨0⟩ (.place ⟨1, 0⟩ [7])))
    · apply List.forall_mem_nil
    · trivial
    · trivial
    · trivial
  apply Pool.Ordered.act (Pool.Ordered.act inserted (.use (.complete ⟨0⟩ true)) trivial trivial)
    (.use (.round ⟨1⟩ (.scan 1 [] 0 [])))
  · apply List.forall_mem_nil
  · trivial

/-- In `noPagesScanned` an insertion skips the full page, on which its transaction keeps the shared
lock that it had before, while another one reads that page. -/
theorem keeps_locks_noPages :
  Pool.create noPages.config noPages.catalog noPages.stores = .ok noPages
    ∧ noPages.Arranged
    ∧ noPages.Ordered noPagesScanned
    ∧ noPagesScanned.serves (.insert 1 [8])
    ∧ ∃ outcome pool, Inserting ⟨1⟩ 1 [8] noPagesScanned (.done outcome) pool
      ∧ outcome.result = .ok (.inserted (some ⟨⟨1, 1⟩, 0⟩))
      ∧ pool.locks.modeOf? ⟨1, 0⟩ ⟨1⟩ = some .shared
      ∧ pool.locks.modeOf? ⟨1, 1⟩ ⟨1⟩ = some .exclusive
  := by
  have created : Pool.create noPages.config noPages.catalog noPages.stores = .ok noPages := rfl
  have heap : noPagesScanned.serves (.insert 1 [8]) := serves_insert_of_one_table rfl rfl _ _
  have begun : Inserting ⟨1⟩ 1 [8] noPagesScanned (.next (.probe 0 [8] 0 true [])) noPagesScanned :=
    .enter
  have read := begun.others (.use (.round ⟨0⟩ (.fetch ⟨1, 0⟩ .readOnly))) (List.forall_mem_nil _)
    trivial (by rintro actor ⟨⟩; decide)
  have skipped := read.round rfl
  have placed := skipped.round rfl
  obtain ⟨-, -, answers⟩ :=
    Inserting.keeps_locks created arranged_noPages ordered_noPagesScanned heap placed
  obtain ⟨record, eq, modes⟩ := answers _ _ rfl rfl
  cases eq
  refine ⟨created, arranged_noPages, ordered_noPagesScanned, heap, _, _, placed, rfl, ?_, ?_⟩
  · rw [modes]
    rfl
  · rw [modes]
    rfl

end System

end StorageEngine

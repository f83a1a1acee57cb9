import Mathlib.Data.List.Nodup
import Mathlib.Tactic.Common
import StorageEngine.Lock.Table

/-!
# Consistent lock tables

The records of a page are consistent if they are one exclusive record alone or shared records of
distinct transactions.  On consistent records the decision to grant a lock is a comparison with
each lock that another transaction holds (`admits_iff`), and it keeps them consistent
(`isConsistent_grant`).  A lock table is sound if all of its records are consistent and if it
knows of every transaction the pages that it holds locks on; requests and releases keep it sound
(`Sound.request`, `Sound.release`, `Sound.releaseAll`).
-/

namespace StorageEngine

namespace PageLocks

variable {locks : PageLocks} {txn other : TransactionId} {mode held : LockMode}

/-! ### Consistent records -/

theorem isConsistent_iff :
  locks.isConsistent = true
    ↔ locks.holders.Nodup
      ∧ ((∀ record ∈ locks.records, record.mode = .shared) ∨ locks.records.length = 1)
  := by
  simp [isConsistent]

/-- In consistent `locks`, `modeOf? txn` is `mode` exactly if `⟨txn, mode⟩` is a record. -/
theorem modeOf?_eq_some_iff (consistent : locks.isConsistent = true) :
  locks.modeOf? txn = some mode ↔ ⟨txn, mode⟩ ∈ locks.records
  := by
  obtain ⟨nodup, -⟩ := isConsistent_iff.mp consistent
  obtain ⟨records⟩ := locks
  simp only [modeOf?, holders] at nodup ⊢
  clear consistent
  induction records with
  | nil => simp
  | cons record records ih =>
    obtain ⟨holder, held⟩ := record
    simp only [List.map_cons, List.nodup_cons] at nodup
    by_cases same : holder = txn
    · have absent : ⟨txn, mode⟩ ∉ records := by
        intro member
        apply nodup.1
        rw [same]
        apply List.mem_map_of_mem member
      simp [same, absent, eq_comm]
    · simp [same, Ne.symm same, ih nodup.2]

/-- In consistent `locks`, beside an exclusive lock of `txn` no `other` transaction holds one. -/
theorem modeOf?_of_exclusive (consistent : locks.isConsistent = true)
    (exclusive : locks.modeOf? txn = some .exclusive) (distinct : other ≠ txn) :
  locks.modeOf? other = .none
  := by
  have record := (modeOf?_eq_some_iff consistent).mp exclusive
  rcases (isConsistent_iff.mp consistent).2 with shared | alone
  · cases shared _ record
  · obtain ⟨only, records⟩ := List.length_eq_one_iff.mp alone
    obtain rfl : LockRecord.mk txn .exclusive = only := by simpa [records] using record
    simp [modeOf?, records, Ne.symm distinct]

/-- `locks.admits txn mode` holds exactly if `mode` is compatible with every lock that a
transaction other than `txn` holds. -/
theorem admits_iff (consistent : locks.isConsistent = true) :
  locks.admits txn mode = true
    ↔ ∀ other held, other ≠ txn → locks.modeOf? other = some held
        → held.isCompatibleWith mode = true
  := by
  obtain ⟨nodup, modes⟩ := isConsistent_iff.mp consistent
  match records : locks.records with
  | [] => simp [admits, records, modeOf?]
  | [only] =>
    obtain ⟨holder, held⟩ := only
    by_cases same : holder = txn
    · have granted : locks.admits txn mode = true := by simp [admits, records, same]
      have alone : ∀ other, other ≠ txn → locks.modeOf? other = .none := by
        intro other distinct
        simp [modeOf?, records, same, Ne.symm distinct]
      simp +contextual [granted, alone]
    · constructor
      · intro granted other mode' _ holds
        obtain ⟨rfl, rfl⟩ : held = .shared ∧ mode = .shared := by
          simpa [admits, records, same] using granted
        by_cases owner : holder = other
        · obtain rfl : LockMode.shared = mode' := by
            simpa [modeOf?, records, owner] using holds
          rfl
        · simp [modeOf?, records, owner] at holds
      · intro compatible
        have fits := compatible holder held same (by simp [modeOf?, records])
        cases held <;> cases mode <;> simp_all [LockMode.isCompatibleWith, admits]
  | first :: second :: rest =>
    have shared : ∀ record ∈ locks.records, record.mode = .shared := by
      rcases modes with shared | alone
      · apply shared
      · simp [records] at alone
    have decided : locks.admits txn mode = decide (mode = .shared) := by
      simp [admits, records]
    rw [decided, decide_eq_true_iff]
    constructor
    · intro wanted other held _ holds
      obtain rfl : held = .shared := shared _ ((modeOf?_eq_some_iff consistent).mp holds)
      rw [wanted]
      rfl
    · intro compatible
      have apart : first.holder ≠ second.holder := by
        intro same
        simp [holders, records, same] at nodup
      have fits : ∀ record ∈ locks.records, record.holder ≠ txn → mode = .shared := by
        intro record member distinct
        have holds := (modeOf?_eq_some_iff consistent).mpr member
        have fit := compatible record.holder record.mode distinct holds
        rw [shared record member] at fit
        cases mode <;> simp_all [LockMode.isCompatibleWith]
      by_cases same : first.holder = txn
      · apply fits second (by simp [records])
        intro equal
        apply apart (same.trans equal.symm)
      · apply fits first (by simp [records]) same

/-! ### What grants and releases keep -/

/-- The holders after `locks.grant txn mode` are those of `locks`, and `txn` at the end if it was
none. -/
theorem holders_grant :
  (locks.grant txn mode).holders
    = if txn ∈ locks.holders then locks.holders else locks.holders ++ [txn]
  := by
  obtain ⟨records⟩ := locks
  simp only [grant, holders]
  induction records with
  | nil => simp [grantIn]
  | cons record records ih =>
    by_cases same : record.holder = txn
    · simp [grantIn, same]
    · by_cases member : txn ∈ records.map LockRecord.holder
      · simp [grantIn, same, Ne.symm same, ih, member]
      · simp [grantIn, same, Ne.symm same, ih, member]

/-- `grantIn txn .shared` leaves `records` shared that were all shared. -/
theorem shared_grantIn {records : List LockRecord}
    (shared : ∀ record ∈ records, record.mode = .shared) :
  ∀ record ∈ grantIn txn .shared records, record.mode = .shared
  := by
  induction records with
  | nil => simp [grantIn]
  | cons record records ih =>
    simp only [List.mem_cons, forall_eq_or_imp] at shared
    by_cases same : record.holder = txn
    · simpa [grantIn, same, shared.1, LockMode.strongest, LockMode.satisfies] using shared.2
    · simpa [grantIn, same, shared.1] using ih shared.2

/-- If `txn` is the only one of distinct holders, then `locks` has one record. -/
theorem length_records_of_alone (nodup : locks.holders.Nodup) (some : txn ∈ locks.holders)
    (only : ∀ holder ∈ locks.holders, holder = txn) :
  locks.records.length = 1
  := by
  have one : locks.holders.length = 1 := by
    rw [List.eq_replicate_of_mem only] at nodup some ⊢
    have bound := List.nodup_replicate.mp nodup
    have positive := List.length_pos_of_mem some
    simp only [List.length_replicate] at positive ⊢
    omega
  simpa [holders] using one

/-- If `locks` admits `mode` to `txn` while an `other` transaction holds a lock, then `mode` and
every record are shared. -/
theorem shared_of_admits (consistent : locks.isConsistent = true)
    (granted : locks.admits txn mode = true) (distinct : other ≠ txn)
    (holds : locks.modeOf? other = some held) :
  mode = .shared ∧ ∀ record ∈ locks.records, record.mode = .shared
  := by
  have fit := (admits_iff consistent).mp granted other held distinct holds
  obtain ⟨rfl, rfl⟩ : held = .shared ∧ mode = .shared := by
    cases held <;> cases mode <;> simp_all [LockMode.isCompatibleWith]
  use rfl
  rcases (isConsistent_iff.mp consistent).2 with shared | one
  · apply shared
  · obtain ⟨only, records⟩ := List.length_eq_one_iff.mp one
    have member := (modeOf?_eq_some_iff consistent).mp holds
    simp only [records, List.mem_singleton] at member ⊢
    rintro _ rfl
    rw [← member]

/-- A grant of a `mode` that is admitted keeps `locks` consistent. -/
theorem isConsistent_grant (consistent : locks.isConsistent = true)
    (granted : locks.admits txn mode = true) :
  (locks.grant txn mode).isConsistent = true
  := by
  have nodup : (locks.grant txn mode).holders.Nodup := by
    have before := (isConsistent_iff.mp consistent).1
    rw [holders_grant]
    split
    · apply before
    · rename_i absent
      apply List.nodup_append.mpr ⟨before, by simp, ?_⟩
      rintro a member b new rfl
      obtain rfl : a = txn := by simpa using new
      apply absent member
  apply isConsistent_iff.mpr ⟨nodup, ?_⟩
  by_cases alone : ∀ other, other ≠ txn → locks.modeOf? other = .none
  · right
    have holder : txn ∈ (locks.grant txn mode).holders := by
      rw [mem_holders, modeOf?_grant, if_pos rfl]
      rfl
    apply length_records_of_alone nodup holder
    · intro holder member
      by_contra distinct
      have holds := (mem_holders _ holder).mp member
      rw [modeOf?_grant, if_neg distinct, alone holder distinct] at holds
      cases holds
  · left
    push Not at alone
    obtain ⟨other, distinct, holds⟩ := alone
    obtain ⟨held, holds⟩ := Option.ne_none_iff_exists'.mp holds
    obtain ⟨rfl, shared⟩ := shared_of_admits consistent granted distinct holds
    apply shared_grantIn shared

/-- `locks.release txn` is consistent if `locks` is. -/
theorem isConsistent_release (consistent : locks.isConsistent = true) :
  (locks.release txn).isConsistent = true
  := by
  obtain ⟨nodup, modes⟩ := isConsistent_iff.mp consistent
  have fewer : (locks.release txn).records.Sublist locks.records := List.filter_sublist
  apply isConsistent_iff.mpr
  constructor
  · apply nodup.sublist (fewer.map _)
  · rcases modes with shared | one
    · left
      intro record member
      apply shared record (fewer.subset member)
    · have bound := fewer.length_le
      cases left : (locks.release txn).records with
      | nil => simp
      | cons record records =>
        right
        simp [left] at bound ⊢
        apply List.eq_nil_of_length_eq_zero
        omega

end PageLocks

namespace LockTable

variable {table : LockTable} {page other : PageId} {txn holder : TransactionId} {mode : LockMode}

/-! ### Who holds which lock -/

/-- `table.grant page txn mode` gives `txn` on `page` the strongest of the mode that it held and
`mode`, and changes no other lock. -/
theorem modeOf?_grant :
  (table.grant page txn mode).modeOf? other holder
    = if other = page ∧ holder = txn then
        some (((table.modeOf? page txn).map (·.strongest mode)).getD mode)
      else table.modeOf? other holder
  := by
  simp only [modeOf?, locksOn_grant]
  by_cases same : other = page
  · subst same
    simp [PageLocks.modeOf?_grant]
  · simp [same]

/-- `table.release page txn` takes the lock of `txn` on `page`, and changes no other. -/
theorem modeOf?_release :
  (table.release page txn).modeOf? other holder
    = if other = page ∧ holder = txn then none else table.modeOf? other holder
  := by
  simp only [modeOf?, locksOn_release]
  by_cases same : other = page
  · subst same
    simp [PageLocks.modeOf?_release]
  · simp [same]

@[simp]
theorem modeOf?_deny :
  (table.deny page txn mode).modeOf? other holder = table.modeOf? other holder
  := rfl

@[simp]
theorem modeOf?_clearWaits :
  (table.clearWaits txn).modeOf? other holder = table.modeOf? other holder
  := rfl

/-! ### Recorded waits -/

/-- `clearWaits txn` forgets the wait that `deny` has recorded with the one before it. -/
theorem clearWaits_deny (table : LockTable) (page : PageId) (txn : TransactionId)
    (mode : LockMode) :
  (table.deny page txn mode).clearWaits txn = table.clearWaits txn
  := by
  simp only [clearWaits, deny, WaitGraph.clearWaits, WaitGraph.recordWait,
    Registry.erase_insert_self]

@[simp]
theorem graph_release :
  (table.release page txn).graph = table.graph
  := by
  unfold release
  cases table.pages.get? page with
  | none => rfl
  | some locks => by_cases none : (locks.modeOf? txn).isNone <;> simp [none]

@[simp]
theorem graph_foldl_release :
  ∀ (pages : List PageId) (table : LockTable),
    (pages.foldl (fun table page => table.release page txn) table).graph = table.graph
  | [], _ => rfl
  | page :: pages, table => by
    rw [List.foldl_cons, graph_foldl_release pages, graph_release]

/-- `table.releaseAll txn` forgets the waits of `txn` and no others. -/
theorem graph_releaseAll :
  (table.releaseAll txn).graph = table.graph.clearWaits txn
  := by
  simp [releaseAll, clearWaits]

/-! ### Sound tables -/

/-- The records of every page of `table` are consistent, and `heldPages` has for every transaction
exactly the pages that it holds locks on. -/
structure Sound (table : LockTable) : Prop where
  consistent : ∀ page, (table.locksOn page).isConsistent = true
  indexed : ∀ txn page, page ∈ table.heldPages txn ↔ (table.modeOf? page txn).isSome

/-- The table without locks is sound. -/
theorem sound_empty :
  Sound empty
  := by
  constructor
  · intro page
    rfl
  · intro txn page
    simp [empty, heldPages, modeOf?, locksOn, Registry.get?, EmptyCollection.emptyCollection,
      Registry.empty, Registry.lookup]

theorem Sound.clearWaits (sound : table.Sound) :
  (table.clearWaits txn).Sound
  := ⟨sound.consistent, sound.indexed⟩

theorem Sound.deny (sound : table.Sound) :
  (table.deny page txn mode).Sound
  := ⟨sound.consistent, sound.indexed⟩

/-- A grant of a `mode` that is admitted keeps the table `Sound`. -/
theorem Sound.grant (sound : table.Sound)
    (granted : (table.locksOn page).admits txn mode = true) :
  (table.grant page txn mode).Sound
  := by
  constructor
  · intro other
    rw [locksOn_grant]
    split
    · apply PageLocks.isConsistent_grant (sound.consistent page) granted
    · apply sound.consistent
  · intro holder other
    have before := sound.indexed holder other
    rw [heldPages_grant, modeOf?_grant]
    by_cases same : holder = txn
    · subst same
      by_cases here : other = page
      · subst here
        by_cases listed : other ∈ table.heldPages holder <;> simp [listed]
      · by_cases listed : page ∈ table.heldPages holder <;> simp [listed, here, before]
    · simp [same, before]

/-- After `table.release page txn`, `heldPages` lacks `page` for `txn`, and is as before for
another `holder`. -/
theorem Sound.heldPages_release (sound : table.Sound) :
  (table.release page txn).heldPages holder
    = if holder = txn then (table.heldPages txn).filter (· ≠ page) else table.heldPages holder
  := by
  by_cases holds : (table.modeOf? page txn).isSome
  · have forgets : (table.release page txn).held = forget table.held page txn := by
      unfold release
      simp only [modeOf?, locksOn] at holds
      cases found : table.pages.get? page with
      | none => simp [found] at holds
      | some locks =>
        have some : (locks.modeOf? txn).isNone = false := by simpa [found] using holds
        simp [some]
    simp only [heldPages, forgets]
    apply heldPages_forget
  · have unlisted : page ∉ table.heldPages txn := mt (sound.indexed txn page).mp holds
    have same : table.release page txn = table := by
      unfold release
      simp only [modeOf?, locksOn] at holds
      cases found : table.pages.get? page with
      | none => rfl
      | some locks =>
        have none : (locks.modeOf? txn).isNone = true := by simpa [found] using holds
        simp [none]
    rw [same]
    split
    · rename_i equal
      rw [equal]
      symm
      apply List.filter_eq_self.mpr
      intro listed member
      have distinct : listed ≠ page := fun equal => unlisted (equal ▸ member)
      simpa using distinct
    · rfl

/-- `table.release page txn` is `Sound` if `table` is. -/
theorem Sound.release (sound : table.Sound) (page : PageId) (txn : TransactionId) :
  (table.release page txn).Sound
  := by
  constructor
  · intro other
    rw [locksOn_release]
    split
    · apply PageLocks.isConsistent_release (sound.consistent page)
    · apply sound.consistent
  · intro holder other
    have before := sound.indexed holder other
    rw [sound.heldPages_release, modeOf?_release]
    by_cases same : holder = txn
    · subst same
      by_cases here : other = page <;> simp [here, before]
    · simp [same, before]

/-- Releasing `pages` one by one keeps the table `Sound`, and takes the locks of `txn` on these
pages and no others. -/
theorem Sound.foldl_release (txn : TransactionId) :
  ∀ (pages : List PageId) {table : LockTable}, table.Sound →
    (pages.foldl (fun table page => table.release page txn) table).Sound
      ∧ ∀ other holder,
        (pages.foldl (fun table page => table.release page txn) table).modeOf? other holder
          = if other ∈ pages ∧ holder = txn then none else table.modeOf? other holder
  | [], _, sound => by simpa using sound
  | page :: pages, table, sound => by
    obtain ⟨sound', modes⟩ := Sound.foldl_release txn pages (sound.release page txn)
    constructor
    · apply sound'
    · intro other holder
      rw [List.foldl_cons, modes, modeOf?_release]
      by_cases same : holder = txn <;> by_cases here : other = page <;> simp [same, here]

/-- Releasing every lock keeps the table sound. -/
theorem Sound.releaseAll (sound : table.Sound) :
  (table.releaseAll txn).Sound
  := (Sound.foldl_release txn (table.heldPages txn) sound).1.clearWaits

/-- After `table.releaseAll txn`, `modeOf?` finds no lock of `txn`, and those of another `holder`
as before. -/
theorem Sound.modeOf?_releaseAll (sound : table.Sound) :
  (table.releaseAll txn).modeOf? page holder
    = if holder = txn then none else table.modeOf? page holder
  := by
  have modes := (Sound.foldl_release txn (table.heldPages txn) sound).2 page holder
  apply Eq.trans modes
  by_cases same : holder = txn
  · subst same
    by_cases listed : page ∈ table.heldPages holder
    · simp [listed]
    · have unheld := mt (sound.indexed holder page).mpr listed
      simpa [listed] using unheld
  · simp [same]

/-! ### Requests -/

/-- What becomes of a `request`: it is `.granted`; or it is `.waiting` for the holders of `page`,
and no cycle can be reached from `txn`; or one can be, the answer is `.deadlock`, and `txn` waits
for nobody. -/
theorem request_cases (table : LockTable) (page : PageId) (txn : TransactionId)
    (mode : LockMode) :
  ((table.locksOn page).admits txn mode = true
      ∧ table.request page txn mode = (.granted, table.grant page txn mode))
    ∨ ((table.locksOn page).admits txn mode = false
      ∧ (table.deny page txn mode).hasCycleFrom txn = false
      ∧ table.request page txn mode = (.waiting, table.deny page txn mode))
    ∨ ((table.locksOn page).admits txn mode = false
      ∧ (table.deny page txn mode).hasCycleFrom txn = true
      ∧ table.request page txn mode = (.deadlock, (table.deny page txn mode).clearWaits txn))
  := by
  cases granted : (table.locksOn page).admits txn mode with
  | true => simp [request, tryAcquire, granted]
  | false =>
    cases cycle : (table.deny page txn mode).hasCycleFrom txn <;>
      simp [request, tryAcquire, granted, cycle]

/-- The table after `table.request page txn mode` is `Sound` if `table` is. -/
theorem Sound.request (sound : table.Sound) :
  (table.request page txn mode).2.Sound
  := by
  rcases table.request_cases page txn mode with ⟨granted, eq⟩ | ⟨-, -, eq⟩ | ⟨-, -, eq⟩
  · rw [eq]
    apply sound.grant granted
  · rw [eq]
    apply sound.deny
  · rw [eq]
    apply sound.deny.clearWaits

/-- `table.request page txn mode` changes no lock of an `other` page or another `holder`. -/
theorem modeOf?_request_of_ne (table : LockTable) (mode : LockMode)
    (distinct : ¬ (other = page ∧ holder = txn)) :
  (table.request page txn mode).2.modeOf? other holder = table.modeOf? other holder
  := by
  rcases table.request_cases page txn mode with ⟨-, eq⟩ | ⟨-, -, eq⟩ | ⟨-, -, eq⟩
  · rw [eq, modeOf?_grant, if_neg distinct]
  · rw [eq, modeOf?_deny]
  · rw [eq, modeOf?_clearWaits, modeOf?_deny]

/-- After `table.request page txn mode`, `txn` has a lock on `page` that satisfies the one that it
`held`. -/
theorem modeOf?_request_of_held (table : LockTable) {held : LockMode}
    (holds : table.modeOf? page txn = some held) :
  ∃ kept, (table.request page txn mode).2.modeOf? page txn = some kept
    ∧ kept.satisfies held = true
  := by
  rcases table.request_cases page txn mode with ⟨-, eq⟩ | ⟨-, -, eq⟩ | ⟨-, -, eq⟩
  · use held.strongest mode
    rw [eq, modeOf?_grant, if_pos ⟨rfl, rfl⟩, holds]
    use rfl
    apply LockMode.strongest_satisfies_left
  · use held
    rw [eq, modeOf?_deny]
    use holds
    cases held <;> rfl
  · use held
    rw [eq, modeOf?_clearWaits, modeOf?_deny]
    use holds
    cases held <;> rfl

/-- If `table.request page txn mode` is `.granted`, then `txn` has a lock on `page` that satisfies
`mode`. -/
theorem modeOf?_request_of_granted (table : LockTable) (page : PageId) (txn : TransactionId)
    (mode : LockMode) (granted : (table.request page txn mode).1 = .granted) :
  ∃ held, (table.request page txn mode).2.modeOf? page txn = some held
    ∧ held.satisfies mode = true
  := by
  rcases table.request_cases page txn mode with ⟨-, eq⟩ | ⟨-, -, eq⟩ | ⟨-, -, eq⟩
  · rw [eq, modeOf?_grant, if_pos ⟨rfl, rfl⟩]
    refine ⟨_, rfl, ?_⟩
    cases table.modeOf? page txn with
    | none => cases mode <;> rfl
    | some held => apply LockMode.strongest_satisfies_right
  · simp [eq] at granted
  · simp [eq] at granted

/-- If `table.request page txn .exclusive` is `.granted`, then `txn` holds `page` exclusively. -/
theorem modeOf?_request_exclusive (granted : (table.request page txn .exclusive).1 = .granted) :
  (table.request page txn .exclusive).2.modeOf? page txn = some .exclusive
  := by
  obtain ⟨held, holds, covers⟩ := table.modeOf?_request_of_granted page txn .exclusive granted
  cases held with
  | shared => cases covers
  | exclusive => apply holds

/-- If `table.request page txn mode` is `.waiting`, then `txn` holds on `page` what it held
before. -/
theorem modeOf?_request_of_waiting (table : LockTable) (page : PageId) (txn : TransactionId)
    (mode : LockMode) (waits : (table.request page txn mode).1 = .waiting) :
  (table.request page txn mode).2.modeOf? page txn = table.modeOf? page txn
  := by
  rcases table.request_cases page txn mode with ⟨-, eq⟩ | ⟨-, -, eq⟩ | ⟨-, -, eq⟩
  · simp [eq] at waits
  · rw [eq, modeOf?_deny]
  · simp [eq] at waits

end LockTable

end StorageEngine

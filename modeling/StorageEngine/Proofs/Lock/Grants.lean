import StorageEngine.Proofs.Lock.Service
import StorageEngine.Proofs.Lock.Tidy

/-!
# Grants and denials

Whether a lock is granted is decided by the shape of the records of its page, whereas the search
for deadlocks compares the modes of a request and of a lock that another transaction holds.  In
reachable tables the two agree: a request is denied exactly if some other transaction holds a lock
that is incompatible with it, and these transactions are those that it then waits for as far as the
search is concerned (`Reachable.grants_iff_compatible`).
-/

namespace StorageEngine

/-- `grant` changes no record but that of `txn`: released, both leave the same. -/
@[simp]
theorem PageLocks.release_grant (locks : PageLocks) (txn : TransactionId) (mode : LockMode) :
  (locks.grant txn mode).release txn = locks.release txn
  := by
  obtain ⟨records⟩ := locks
  simp only [grant, release, mk.injEq]
  induction records with
  | nil => simp [grantIn]
  | cons record records ih =>
    by_cases own : record.holder = txn
    · simp [grantIn, own]
    · simpa [grantIn, own] using ih

/-- Consistent `locks` list each holder once, so `eraseDups` takes nothing. -/
theorem PageLocks.eraseDups_filter_holders {locks : PageLocks}
    (consistent : locks.isConsistent = true)
    (keep : TransactionId → Bool) :
  (locks.holders.filter keep).eraseDups = locks.holders.filter keep
  := by
  have nodup := (isConsistent_iff.mp consistent).1.filter keep
  generalize locks.holders.filter keep = holders at nodup
  induction holders with
  | nil => rfl
  | cons holder holders ih =>
    obtain ⟨new, rest⟩ := List.nodup_cons.mp nodup
    have apart : holders.filter (fun other => !other == holder) = holders := by
      apply List.filter_eq_self.mpr
      intro other member
      have distinct : other ≠ holder := fun same => new (same ▸ member)
      simpa using distinct
    rw [List.eraseDups_cons, apart, ih rest]

namespace LockTable

variable {table after : LockTable} {page other : PageId} {txn holder : TransactionId}
  {mode : LockMode}

/-! ### What is granted and denied -/

/-- What a grant makes of `table`: in `after`, `txn` holds `page` in the stronger one of the mode
that it held and `mode`, and it waits no longer.  All other locks and waits stay. -/
structure Grants (page : PageId) (txn : TransactionId) (mode : LockMode) (table after : LockTable) :
    Prop where
  own : after.modeOf? page txn = some (((table.modeOf? page txn).map (·.strongest mode)).getD mode)
  records : (after.locksOn page).records.filter (fun record => record.holder ≠ txn)
    = (table.locksOn page).records.filter fun record => record.holder ≠ txn
  pages : ∀ other, other ≠ page → after.pages.get? other = table.pages.get? other
  listed : ∀ other, other ∈ after.heldPages txn ↔ other = page ∨ other ∈ table.heldPages txn
  held : ∀ holder, holder ≠ txn → after.held.get? holder = table.held.get? holder
  wait : after.graph.waitOf? txn = none
  waits : ∀ waiter, waiter ≠ txn → after.graph.waitOf? waiter = table.graph.waitOf? waiter

/-- What a denial makes of `table`: in `after`, `txn` waits for all others that hold `page`, in
place of what it waited for before.  Those that count among them are the ones whose locks are
incompatible with `mode`, and there are some.  All locks and all other waits stay. -/
structure Denies (page : PageId) (txn : TransactionId) (mode : LockMode) (table after : LockTable) :
    Prop where
  pages : after.pages = table.pages
  held : after.held = table.held
  wait : after.graph.waitOf? txn
    = some ⟨page, mode, (table.locksOn page).holders.filter (· ≠ txn)⟩
  waits : ∀ waiter, waiter ≠ txn → after.graph.waitOf? waiter = table.graph.waitOf? waiter
  live : ∀ other, other ∈ after.graph.liveBlockers after.pages txn
    ↔ other ≠ txn ∧ ∃ held, ⟨other, held⟩ ∈ (table.locksOn page).records
      ∧ held.isCompatibleWith mode = false
  blocked : after.graph.liveBlockers after.pages txn ≠ []

/-- In terms of records: a lock is granted if those of all other transactions are compatible. -/
theorem Sound.admits_iff (sound : table.Sound) (page : PageId) (txn : TransactionId)
    (mode : LockMode) :
  (table.locksOn page).admits txn mode = true
    ↔ ∀ record ∈ (table.locksOn page).records, record.holder ≠ txn →
      record.mode.isCompatibleWith mode = true
  := by
  have consistent := sound.consistent page
  rw [PageLocks.admits_iff consistent]
  constructor
  · intro compatible record member distinct
    apply compatible record.holder record.mode distinct
    apply (PageLocks.modeOf?_eq_some_iff consistent).mpr member
  · intro compatible other held distinct holds
    apply compatible ⟨other, held⟩ _ distinct
    apply (PageLocks.modeOf?_eq_some_iff consistent).mp holds

theorem grants_grant (table : LockTable) (page : PageId) (txn : TransactionId) (mode : LockMode) :
  Grants page txn mode table (table.grant page txn mode)
  where
  own := by
    rw [modeOf?_grant, if_pos ⟨rfl, rfl⟩]
  records := by
    have same := PageLocks.release_grant (table.locksOn page) txn mode
    rw [locksOn_grant, if_pos rfl]
    exact congrArg PageLocks.records same
  pages other apart := Registry.get?_insert_of_ne _ apart _
  listed other := by
    rw [heldPages_grant, if_pos rfl]
    by_cases here : page ∈ table.heldPages txn
    · have known : other = page → other ∈ table.heldPages txn := fun same => same ▸ here
      simp [here]
      tauto
    · simp [here, or_comm]
  held holder distinct := Registry.get?_insert_of_ne _ distinct _
  wait := (WaitGraph.waitOf?_clearWaits ..).trans (if_pos rfl)
  waits waiter distinct := (WaitGraph.waitOf?_clearWaits ..).trans (if_neg distinct)

/-- After `deny`, `txn` waits on `page` for all its holders but itself. -/
theorem Sound.waitOf?_deny (sound : table.Sound) (page : PageId) (txn : TransactionId)
    (mode : LockMode) :
  (table.deny page txn mode).graph.waitOf? txn
    = some ⟨page, mode, (table.locksOn page).holders.filter (· ≠ txn)⟩
  := by
  rw [LockTable.deny, WaitGraph.waitOf?_recordWait, if_pos rfl,
    PageLocks.eraseDups_filter_holders (sound.consistent page)]

/-- After `deny`, the live blockers of `txn` are the other transactions with a record on `page`
that is incompatible with `mode`. -/
theorem Sound.mem_liveBlockers_deny (sound : table.Sound) (page : PageId)
    (txn other : TransactionId) (mode : LockMode) :
  other ∈ (table.deny page txn mode).graph.liveBlockers (table.deny page txn mode).pages txn
    ↔ other ≠ txn ∧ ∃ held, ⟨other, held⟩ ∈ (table.locksOn page).records
      ∧ held.isCompatibleWith mode = false
  := by
  have edge : other ∈ (table.deny page txn mode).graph.liveBlockers
      (table.deny page txn mode).pages txn
      ↔ ∃ wait ∈ (table.deny page txn mode).graph.waitOf? txn, other ∈ wait.blockers
        ∧ ∃ held ∈ table.modeOf? wait.page other, held.isCompatibleWith wait.mode = false :=
    liveEdge_iff
  have recorded : ∀ held, table.modeOf? page other = some held
      ↔ ⟨other, held⟩ ∈ (table.locksOn page).records :=
    fun held => PageLocks.modeOf?_eq_some_iff (sound.consistent page)
  have holds : ∀ held, table.modeOf? page other = some held
      → other ∈ (table.locksOn page).holders := by
    intro held holds
    apply (PageLocks.mem_holders _ _).mpr
    exact Option.isSome_of_mem holds
  rw [edge, sound.waitOf?_deny]
  simp only [Option.mem_def, Option.some.injEq, exists_eq_left', List.mem_filter,
    decide_eq_true_eq, ← recorded]
  constructor
  · rintro ⟨⟨-, distinct⟩, held⟩
    exact ⟨distinct, held⟩
  · rintro ⟨distinct, held, some, conflict⟩
    exact ⟨⟨holds held some, distinct⟩, held, some, conflict⟩

theorem Sound.denies_deny (sound : table.Sound)
    (denied : (table.locksOn page).admits txn mode = false) :
  Denies page txn mode table (table.deny page txn mode)
  where
  pages := rfl
  held := rfl
  wait := sound.waitOf?_deny page txn mode
  waits waiter distinct := (WaitGraph.waitOf?_recordWait ..).trans (if_neg distinct)
  live other := sound.mem_liveBlockers_deny page txn other mode
  blocked := by
    have conflict := mt (sound.admits_iff page txn mode).mpr (by simp [denied])
    push Not at conflict
    obtain ⟨⟨holder, held⟩, member, distinct, incompatible⟩ := conflict
    apply List.ne_nil_of_mem
    apply (sound.mem_liveBlockers_deny page txn holder mode).mpr
    exact ⟨distinct, held, member, by simpa using incompatible⟩

/-- In a `Reachable` table, `tryAcquire` grants `mode` exactly if the records of all other
transactions on `page` are compatible with it.  Then it `Grants`: `txn` holds the stronger of the
mode that it held and `mode`, and waits no longer; else it `Denies`: `txn` waits for the other
holders, of whom those count whose locks are incompatible with `mode`, and there is one at least.
Nothing else changes. -/
theorem Reachable.grants_iff_compatible (reachable : Reachable table) (page : PageId)
    (txn : TransactionId) (mode : LockMode) :
  ((table.tryAcquire page txn mode).1 = true
      ↔ ∀ record ∈ (table.locksOn page).records, record.holder ≠ txn →
        record.mode.isCompatibleWith mode = true)
    ∧ ((table.tryAcquire page txn mode).1 = true →
        Grants page txn mode table (table.tryAcquire page txn mode).2)
    ∧ ((table.tryAcquire page txn mode).1 = false →
        Denies page txn mode table (table.tryAcquire page txn mode).2)
  := by
  have sound := reachable.tidy.toSound
  rw [← sound.admits_iff]
  unfold tryAcquire
  cases decided : (table.locksOn page).admits txn mode with
  | true => simp [grants_grant]
  | false => simp [sound.denies_deny decided]

/-- In `upgrading`, transactions 1 and 2 share a page: a third may share it, but transaction 2 does
not get it for itself, and waits for transaction 1. -/
theorem grants_upgrading :
  Reachable upgrading
    ∧ (upgrading.tryAcquire ⟨1, 0⟩ ⟨3⟩ .shared).1 = true
    ∧ (upgrading.tryAcquire ⟨1, 0⟩ ⟨3⟩ .shared).2.modeOf? ⟨1, 0⟩ ⟨3⟩ = some .shared
    ∧ (upgrading.tryAcquire ⟨1, 0⟩ ⟨2⟩ .exclusive).1 = false
    ∧ ∀ other, other ∈ (upgrading.tryAcquire ⟨1, 0⟩ ⟨2⟩ .exclusive).2.graph.liveBlockers
        (upgrading.tryAcquire ⟨1, 0⟩ ⟨2⟩ .exclusive).2.pages ⟨2⟩ ↔ other = ⟨1⟩
  := by
  obtain ⟨third, granted, -⟩ := Reachable.grants_iff_compatible
    reachable_upgrading ⟨1, 0⟩ ⟨3⟩ .shared
  obtain ⟨second, -, denied⟩ :=
    Reachable.grants_iff_compatible reachable_upgrading ⟨1, 0⟩ ⟨2⟩ .exclusive
  have shares : (upgrading.tryAcquire ⟨1, 0⟩ ⟨3⟩ .shared).1 = true := third.mpr (by decide)
  have alone : (upgrading.tryAcquire ⟨1, 0⟩ ⟨2⟩ .exclusive).1 = false :=
    Bool.eq_false_iff.mpr (mt second.mp (by decide))
  refine ⟨reachable_upgrading, shares, (granted shares).own, alone, ?_⟩
  intro other
  have records : (upgrading.locksOn ⟨1, 0⟩).records = [⟨⟨1⟩, .shared⟩, ⟨⟨2⟩, .shared⟩] := by
    decide
  rw [(denied alone).live, records]
  constructor
  · rintro ⟨distinct, held, member, -⟩
    simp [distinct] at member
    exact member.1
  · rintro rfl
    exact ⟨by decide, .shared, by simp, rfl⟩

end LockTable

end StorageEngine

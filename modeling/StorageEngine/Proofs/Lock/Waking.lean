import StorageEngine.Proofs.Lock.Tidy

/-!
# Who is woken

A transaction that is denied a lock sleeps until the waiters of its page are woken, and these are
woken only where a record is taken from the page.  No other step can turn a denial into a grant:
requests of whatever outcome only add records and strengthen them, and releases of other pages, or
by transactions that hold no lock on the page, leave the records of the page as they are.  So no
grant is missed by those who sleep (`Reachable.denied_until_woken`).
-/

namespace StorageEngine

/-- A `mode` that satisfies a `weaker` one is compatible with no more. -/
theorem LockMode.isCompatibleWith_of_satisfies {mode weaker asked : LockMode}
    (covers : mode.satisfies weaker = true) (conflict : weaker.isCompatibleWith asked = false) :
  mode.isCompatibleWith asked = false
  := by
  cases mode <;> cases weaker <;> cases asked <;> first | rfl | contradiction

/-- `locks.release txn` has as many records as `locks` exactly if `txn` has none. -/
theorem PageLocks.length_release_eq_iff {locks : PageLocks} {txn : TransactionId} :
  (locks.release txn).records.length = locks.records.length ↔ locks.modeOf? txn = .none
  := by
  rw [release, List.length_filter_eq_length_iff]
  simp [modeOf?]

namespace LockTable

variable {table later : LockTable} {page other : PageId} {txn holder : TransactionId}
  {mode held : LockMode} {act : Act}

/-! ### Waking the waiters of a page -/

/-- Releases the lock of `txn` and says whether the waiters of `page` are woken: they are if this
takes a record. -/
def releaseWaking (table : LockTable) (page : PageId) (txn : TransactionId) : Bool × LockTable :=
  match table.pages.get? page with
  | none => (false, table)
  | some locks =>
    let rest := locks.release txn
    if rest.records.length = locks.records.length then (false, table)
    else
      (true,
        { table with
          pages := if rest.isEmpty then table.pages.erase page else table.pages.insert page rest
          held := forget table.held page txn })

/-- Releases some pages one by one and says of which of them the waiters are woken, as
`releaseWaking` does. -/
def releaseEachWaking (txn : TransactionId) : List PageId → LockTable → List PageId × LockTable
  | [], table => ([], table)
  | page :: pages, table =>
    let (woken, table) := table.releaseWaking page txn
    let (others, table) := releaseEachWaking txn pages table
    (if woken then page :: others else others, table)

/-- Releases every lock of `txn` and says of which pages the waiters are woken. -/
def releaseAllWaking (table : LockTable) (txn : TransactionId) : List PageId × LockTable :=
  let (woken, table) := releaseEachWaking txn (table.heldPages txn) table
  (woken, table.clearWaits txn)

/-- The pages whose waiters are woken by a step on `table`. -/
def wakes (table : LockTable) : Act → List PageId
  | .tryAcquire .. => []
  | .request .. => []
  | .release page txn => if (table.releaseWaking page txn).1 then [page] else []
  | .releaseAll txn => (table.releaseAllWaking txn).1

/-- The table after a release is the one that is told of whom it wakes, and it wakes the waiters of
the page if its transaction has a lock to release. -/
theorem releaseWaking_eq (table : LockTable) (page : PageId) (txn : TransactionId) :
  table.releaseWaking page txn = ((table.modeOf? page txn).isSome, table.release page txn)
  := by
  unfold releaseWaking release modeOf? locksOn
  cases table.pages.get? page with
  | none => simp
  | some locks =>
    cases held : locks.modeOf? txn with
    | none => simp [PageLocks.length_release_eq_iff.mpr held, held]
    | some mode =>
      have fewer : ¬ (locks.release txn).records.length = locks.records.length := by
        simp [PageLocks.length_release_eq_iff, held]
      simp [fewer, held]

theorem releaseEachWaking_snd (txn : TransactionId) :
  ∀ (pages : List PageId) (table : LockTable),
    (releaseEachWaking txn pages table).2
      = pages.foldl (fun table page => table.release page txn) table
  | [], _ => rfl
  | page :: pages, table => by
    simp only [releaseEachWaking, releaseWaking_eq, List.foldl_cons]
    apply releaseEachWaking_snd txn pages

theorem releaseAllWaking_snd (table : LockTable) (txn : TransactionId) :
  (table.releaseAllWaking txn).2 = table.releaseAll txn
  := by
  simp only [releaseAllWaking, releaseAll, releaseEachWaking_snd]

/-- `releaseEachWaking txn pages` wakes the waiters of those `pages` on which `txn` has a lock. -/
theorem mem_releaseEachWaking (txn : TransactionId) (page : PageId) :
  ∀ (pages : List PageId) (table : LockTable),
    page ∈ (releaseEachWaking txn pages table).1
      ↔ page ∈ pages ∧ (table.modeOf? page txn).isSome
  | [], _ => by simp [releaseEachWaking]
  | first :: pages, table => by
    simp only [releaseEachWaking, releaseWaking_eq]
    have rest := mem_releaseEachWaking txn page pages (table.release first txn)
    rw [modeOf?_release] at rest
    by_cases here : page = first
    · subst here
      cases held : (table.modeOf? page txn).isSome <;> simp [rest]
    · cases (table.modeOf? first txn).isSome <;> simp [rest, here]

/-! ### Quiet steps -/

/-- `act` takes a record of `page`: it is a release by the holder, after which the holder has no
record any more. -/
def Takes (page : PageId) (table : LockTable) (act : Act) : Prop :=
  ∃ holder, (act = .release page holder ∨ act = .releaseAll holder)
    ∧ holder ∈ (table.locksOn page).holders
    ∧ holder ∉ ((table.perform act).locksOn page).holders

/-- The steps on `table` that take no record of `page`: requests of any kind and outcome, releases
of other pages, and releases by transactions without a lock on `page`. -/
inductive Quiet (page : PageId) (table : LockTable) : Act → Prop where
  | tryAcquire (other : PageId) (txn : TransactionId) (mode : LockMode) :
      Quiet page table (.tryAcquire other txn mode)
  | request (other : PageId) (txn : TransactionId) (mode : LockMode) :
      Quiet page table (.request other txn mode)
  | elsewhere {other : PageId} (apart : other ≠ page) (txn : TransactionId) :
      Quiet page table (.release other txn)
  | unheld {txn : TransactionId} (unheld : txn ∉ (table.locksOn page).holders) :
      Quiet page table (.release page txn)
  | allUnheld {txn : TransactionId} (unheld : txn ∉ (table.locksOn page).holders) :
      Quiet page table (.releaseAll txn)

/-- The tables that `Quiet` steps in any order lead to from `table`. -/
inductive QuietRun (page : PageId) (table : LockTable) : LockTable → Prop where
  | refl : QuietRun page table table
  | step {later : LockTable} {act : Act} (run : QuietRun page table later)
      (quiet : Quiet page later act) : QuietRun page table (later.perform act)

theorem QuietRun.reachable (run : QuietRun page table later) (reachable : Reachable table) :
  Reachable later
  := by
  induction run with
  | refl => apply reachable
  | step _ _ reachable => apply reachable.perform

/-- Where `txn` holds `page`, both `.release page txn` and `.releaseAll txn` take its record,
`Takes page table`. -/
theorem Sound.takes_release (sound : table.Sound) (holds : txn ∈ (table.locksOn page).holders) :
  Takes page table (.release page txn) ∧ Takes page table (.releaseAll txn)
  := by
  constructor
  · refine ⟨txn, .inl rfl, holds, ?_⟩
    simp [PageLocks.mem_holders, perform, locksOn_release, PageLocks.modeOf?_release]
  · refine ⟨txn, .inr rfl, holds, ?_⟩
    simp [PageLocks.mem_holders, perform, sound.locksOn_releaseAll, PageLocks.modeOf?_release]

/-- An `act` is `Quiet` on `page`, or it `Takes` a record of it. -/
theorem Sound.quiet_or_takes (sound : table.Sound) (page : PageId) (act : Act) :
  Quiet page table act ∨ Takes page table act
  := by
  cases act with
  | tryAcquire other txn mode =>
    left
    apply Quiet.tryAcquire
  | request other txn mode =>
    left
    apply Quiet.request
  | release other txn =>
    by_cases here : other = page
    · subst here
      by_cases holds : txn ∈ (table.locksOn other).holders
      · right
        apply (sound.takes_release holds).1
      · left
        apply Quiet.unheld holds
    · left
      apply Quiet.elsewhere here
  | releaseAll txn =>
    by_cases holds : txn ∈ (table.locksOn page).holders
    · right
      apply (sound.takes_release holds).2
    · left
      apply Quiet.allUnheld holds

/-- `table.wakes act` has `page` exactly if `act` `Takes` a record of it. -/
theorem Sound.mem_wakes_iff (sound : table.Sound) :
  page ∈ table.wakes act ↔ Takes page table act
  := by
  constructor
  · intro woken
    cases act with
    | tryAcquire => cases woken
    | request => cases woken
    | release other txn =>
      simp only [wakes, releaseWaking_eq] at woken
      split at woken
      · rename_i holds
        obtain rfl := List.mem_singleton.mp woken
        apply (sound.takes_release ((PageLocks.mem_holders _ _).mpr holds)).1
      · cases woken
    | releaseAll txn =>
      have holds := ((mem_releaseEachWaking txn page _ table).mp woken).2
      apply (sound.takes_release ((PageLocks.mem_holders _ _).mpr holds)).2
  · rintro ⟨holder, rfl | rfl, holds, -⟩
    · have held := (PageLocks.mem_holders _ _).mp holds
      simp [wakes, releaseWaking_eq, modeOf?, held]
    · have held := (PageLocks.mem_holders _ _).mp holds
      apply (mem_releaseEachWaking holder page _ table).mpr
      exact ⟨(sound.indexed holder page).mpr held, held⟩

/-! ### Denials last -/

/-- `tryAcquire` leaves the locks that `request` leaves. -/
theorem modeOf?_tryAcquire (table : LockTable) (page : PageId) (txn : TransactionId)
    (mode : LockMode) :
  (table.tryAcquire page txn mode).2.modeOf? other holder
    = (table.request page txn mode).2.modeOf? other holder
  := by
  unfold request
  obtain ⟨granted, after⟩ := table.tryAcquire page txn mode
  cases granted with
  | true => rfl
  | false =>
    dsimp only
    split <;> simp

/-- After a `Quiet` `act`, a `holder` of `page` has a lock that satisfies the one that it
`held`. -/
theorem Quiet.keeps (quiet : Quiet page table act) (sound : table.Sound)
    (holds : table.modeOf? page holder = some held) :
  ∃ kept, (table.perform act).modeOf? page holder = some kept ∧ kept.satisfies held = true
  := by
  have reflexive : held.satisfies held = true := by cases held <;> rfl
  have requested : ∀ (other : PageId) (txn : TransactionId) (mode : LockMode),
      ∃ kept, (table.request other txn mode).2.modeOf? page holder = some kept
        ∧ kept.satisfies held = true := by
    intro other txn mode
    by_cases same : page = other ∧ holder = txn
    · obtain ⟨rfl, rfl⟩ := same
      apply table.modeOf?_request_of_held holds
    · rw [table.modeOf?_request_of_ne mode same]
      exact ⟨held, holds, reflexive⟩
  have mine : holder ∈ (table.locksOn page).holders :=
    (PageLocks.mem_holders _ _).mpr (Option.isSome_of_mem holds)
  cases quiet with
  | tryAcquire other txn mode =>
    simp only [perform, modeOf?_tryAcquire]
    apply requested
  | request other txn mode => apply requested
  | elsewhere apart txn =>
    refine ⟨held, ?_, reflexive⟩
    rw [perform, modeOf?_release, if_neg fun same => apart same.1.symm, holds]
  | @unheld txn absent =>
    have apart : ¬ (page = page ∧ holder = txn) := fun same => absent (same.2 ▸ mine)
    refine ⟨held, ?_, reflexive⟩
    rw [perform, modeOf?_release, if_neg apart, holds]
  | @allUnheld txn absent =>
    have apart : ¬ holder = txn := fun same => absent (same ▸ mine)
    refine ⟨held, ?_, reflexive⟩
    rw [perform, sound.modeOf?_releaseAll, if_neg apart, holds]

/-- `tryAcquire` denies `mode` to `txn` exactly if another `holder` has a lock on `page` that is
incompatible with `mode`. -/
theorem Sound.denied_iff (sound : table.Sound) :
  (table.tryAcquire page txn mode).1 = false
    ↔ ∃ holder held, holder ≠ txn ∧ table.modeOf? page holder = some held
      ∧ held.isCompatibleWith mode = false
  := by
  have decided : (table.tryAcquire page txn mode).1 = (table.locksOn page).admits txn mode := by
    unfold tryAcquire
    cases (table.locksOn page).admits txn mode <;> rfl
  rw [decided, ← Bool.not_eq_true, PageLocks.admits_iff (sound.consistent page)]
  push Not
  simp [modeOf?]

/-- A request for `page` that `tryAcquire` denies is denied after a `Quiet` `act` too. -/
theorem Quiet.denied (quiet : Quiet page table act) (sound : table.Sound)
    (after : (table.perform act).Sound) (denied : (table.tryAcquire page txn mode).1 = false) :
  ((table.perform act).tryAcquire page txn mode).1 = false
  := by
  obtain ⟨holder, held, distinct, holds, conflict⟩ := sound.denied_iff.mp denied
  obtain ⟨kept, keeps, covers⟩ := quiet.keeps sound holds
  apply after.denied_iff.mpr
  exact ⟨holder, kept, distinct, keeps, LockMode.isCompatibleWith_of_satisfies covers conflict⟩

theorem QuietRun.denied (run : QuietRun page table later) (reachable : Reachable table)
    (denied : (table.tryAcquire page txn mode).1 = false) :
  (later.tryAcquire page txn mode).1 = false
  := by
  induction run with
  | refl => apply denied
  | step run quiet denied =>
    have sound := run.reachable reachable
    apply quiet.denied sound.tidy.toSound (sound.perform _).tidy.toSound denied

/-- In a `Reachable` table `wakes` has `page` for exactly the steps that take a record of it.  A
request for `page` that `tryAcquire` denies is denied after every `QuietRun`, and the first `act`
after which it is granted `Takes` a record of `page` and wakes its waiters. -/
theorem Reachable.denied_until_woken (reachable : Reachable table) (page : PageId) :
  (∀ act, page ∈ table.wakes act ↔ Takes page table act)
    ∧ ∀ txn mode, (table.tryAcquire page txn mode).1 = false →
      ∀ later, QuietRun page table later →
        (later.tryAcquire page txn mode).1 = false
          ∧ ∀ act, ((later.perform act).tryAcquire page txn mode).1 = true →
            Takes page later act ∧ page ∈ later.wakes act
  := by
  constructor
  · intro act
    apply reachable.tidy.toSound.mem_wakes_iff
  · intro txn mode denied later run
    have reached := run.reachable reachable
    have still := run.denied reachable denied
    use still
    intro act granted
    have sound := reached.tidy.toSound
    rcases sound.quiet_or_takes page act with quiet | takes
    · have silent := quiet.denied sound (reached.perform act).tidy.toSound still
      simp [silent] at granted
    · exact ⟨takes, sound.mem_wakes_iff.mpr takes⟩

/-- In `upgrading`, transaction 1 waits to have the page exclusively.  It still waits when
transaction 3 gives back what it never had and shares the page, and it is woken by `releaseAll` of
transaction 2, and then granted. -/
theorem woken_upgrading :
  (upgrading.tryAcquire ⟨1, 0⟩ ⟨1⟩ .exclusive).1 = false
    ∧ (((upgrading.perform (.release ⟨1, 0⟩ ⟨3⟩)).perform
        (.request ⟨1, 0⟩ ⟨3⟩ .shared)).tryAcquire ⟨1, 0⟩ ⟨1⟩ .exclusive).1 = false
    ∧ ((upgrading.perform (.releaseAll ⟨2⟩)).tryAcquire ⟨1, 0⟩ ⟨1⟩ .exclusive).1 = true
    ∧ ⟨1, 0⟩ ∈ upgrading.wakes (.releaseAll ⟨2⟩)
  := by
  have alone : (upgrading.tryAcquire ⟨1, 0⟩ ⟨1⟩ .exclusive).1 = false := by decide
  have woken : ((upgrading.perform (.releaseAll ⟨2⟩)).tryAcquire ⟨1, 0⟩ ⟨1⟩ .exclusive).1
      = true := by
    decide
  have waits := (Reachable.denied_until_woken reachable_upgrading ⟨1, 0⟩).2 ⟨1⟩ .exclusive alone
  have more : QuietRun ⟨1, 0⟩ upgrading ((upgrading.perform (.release ⟨1, 0⟩ ⟨3⟩)).perform
      (.request ⟨1, 0⟩ ⟨3⟩ .shared)) :=
    (QuietRun.refl.step (.unheld (by decide))).step (.request _ _ _)
  exact ⟨alone, (waits _ more).1, woken, ((waits _ .refl).2 _ woken).2⟩

end LockTable

end StorageEngine

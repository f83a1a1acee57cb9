import StorageEngine.Proofs.System.Basic
import StorageEngine.Proofs.Workspace.Completion

/-!
# Systems that mirror workspaces

A system mirrors workspaces if its pool is faithful to them, apart from the pages that transactions
are changing, and if what each transaction is in the midst of suits them: an edited copy is what
its transaction saw with its edits, and a scan has found what its transaction sees in the pages it
has locked.  What one transaction does leaves alone what suits the others (`Suits.of_leaves`).
-/

namespace StorageEngine

variable {pool after : Pool} {spaces spaces' : Workspaces} {txn other : TransactionId}
  {page : PageId}

/-! ### What suits a transaction -/

/-- What holds of `page` that `txn` has at hand as `copy`, with `edits` that are not marked. -/
structure Pool.AtHand (pool : Pool) (spaces : Workspaces) (txn : TransactionId) (copy : CopyNo)
    (page : PageId) (edits : List Edit) : Prop where
  allocated : copy < pool.copies.size
  named : (pool.copy copy).id = page
  exclusive : pool.locks.modeOf? page txn = some .exclusive
  size : (pool.copy copy).bytes.length = pool.config.pageSize
  stored : ∃ image, spaces.committed page = some image ∧ image.length = pool.config.pageSize
  cached : ∀ frame, pool.cache.frame? page = some frame → frame.copy = copy
  edited : ∃ seen, spaces.view txn page = some seen
    ∧ Edit.applyAll? edits seen = some (pool.copy copy).bytes

/-- What holds of a scan of `table` by `txn` that has `found` some tuples and comes to the `rest`
of the pages. -/
def Pool.Scanning (pool : Pool) (spaces : Workspaces) (txn : TransactionId) (table : TableId)
    (found : List Tuple) (rest : List PageNo) : Prop :=
  ∃ done pages, spaces.scans txn = some (table, pages)
    ∧ done ++ rest = Workspaces.pageNos pages
    ∧ spaces.collect? txn table done = some found
    ∧ ∀ no ∈ done, (pool.locks.modeOf? ⟨table, no⟩ txn).isSome

/-- What holds of a call of `txn` that is under way on `pool`. -/
def Call.Suits (pool : Pool) (spaces : Workspaces) (txn : TransactionId) : Call → Prop
  | .fetch .. => True
  | .place .. => True
  | .delete _ marks => marks = true
  | .probe no _ pageNo alreadyHeld _ =>
    pool.catalog.get? (pool.store no).table = some no
      ∧ (alreadyHeld = false → pool.locks.modeOf? ⟨(pool.store no).table, pageNo⟩ txn = none)
  | .scan table found no rest => pool.Scanning spaces txn table found (no :: rest)
  | _ => False

/-- What holds of `txn` that is in the midst of something on `pool`. -/
def Activity.Suits (pool : Pool) (spaces : Workspaces) (txn : TransactionId) : Activity → Prop
  | .calling call => call.Suits pool spaces txn
  | .editing copy page edits => pool.AtHand spaces txn copy page edits
  | _ => True

theorem Activity.suits_idle (pool : Pool) (spaces : Workspaces) (txn : TransactionId) :
  Activity.idle.Suits pool spaces txn
  := trivial

/-- The pages, among those that it holds exclusively, that a transaction may be changing. -/
def Activity.disturbs : Activity → PageId → Prop
  | .editing _ page edits, other => other = page ∧ edits ≠ []
  | .faulted, _ => True
  | _, _ => False

/-! ### What others leave alone -/

/-- What a transaction sees of a page that it holds stays while others do something. -/
theorem Pool.Leaves.view (left : pool.Leaves txn spaces after spaces') (distinct : other ≠ txn)
    (holds : (pool.locks.modeOf? page other).isSome) (seen : (spaces.view other page).isSome) :
  spaces'.view other page = spaces.view other page
  := by
  simp only [Workspaces.view, left.overlay other distinct] at seen ⊢
  cases own : spaces.overlay other page with
  | some bytes => rfl
  | none =>
    rw [own, Option.none_or] at seen
    rw [Option.none_or, Option.none_or, left.committed other page distinct holds seen]

/-- A `page` that `other` has at hand stays so while `txn` does what `Leaves` it. -/
theorem Pool.AtHand.of_leaves {copy : CopyNo} {edits : List Edit}
    (hand : pool.AtHand spaces other copy page edits)
    (left : pool.Leaves txn spaces after spaces') (distinct : other ≠ txn) :
  after.AtHand spaces' other copy page edits
  := by
  obtain ⟨allocated, named, exclusive, size, ⟨image, stored, length⟩, cached, seen, view, edited⟩ :=
    hand
  have holds := Option.isSome_of_mem exclusive
  obtain ⟨frames, copies⟩ := left.spares other page distinct exclusive
  have same := copies copy allocated named
  constructor
  · apply Nat.lt_of_lt_of_le allocated left.copies
  · rw [same, named]
  · rw [left.modes other distinct, exclusive]
  · rw [same, left.config, size]
  · use image
    rw [left.config, left.committed other page distinct holds (Option.isSome_of_mem stored)]
    use stored, length
  · intro frame found
    apply cached frame (frames frame found)
  · use seen
    rw [same, left.view distinct holds (Option.isSome_of_mem view)]
    use view, edited

/-- `txn` sees the `pages` in which it has collected tuples. -/
theorem Workspaces.view_isSome {table : TableId} {pages : List PageNo} {found : List Tuple}
    (collected : spaces.collect? txn table pages = some found) :
  ∀ no ∈ pages, (spaces.view txn ⟨table, no⟩).isSome
  := by
  induction pages generalizing found with
  | nil => simp
  | cons first pages ih =>
    simp only [collect?, bind, Option.bind_eq_some_iff, pure, Option.some.injEq] at collected
    obtain ⟨bytes, view, -, -, rest, more, -⟩ := collected
    rintro no (_ | ⟨_, later⟩)
    · rw [view]
      rfl
    · apply ih more no later

/-- `other` goes on `Scanning` while `txn` does what `Leaves` it. -/
theorem Pool.Scanning.of_leaves {table : TableId} {found : List Tuple} {rest : List PageNo}
    (scanning : pool.Scanning spaces other table found rest)
    (left : pool.Leaves txn spaces after spaces') (distinct : other ≠ txn) :
  after.Scanning spaces' other table found rest
  := by
  obtain ⟨done, pages, begun, all, collected, locked⟩ := scanning
  use done, pages
  rw [left.scans other distinct]
  refine ⟨begun, all, ?_, ?_⟩
  · rw [← collected]
    apply Workspaces.collect?_congr
    intro no member
    apply left.view distinct (locked no member) (Workspaces.view_isSome collected no member)
  · intro no member
    rw [left.modes other distinct]
    apply locked no member

/-- An `activity` of `other` suits the pool still when `txn` does what `Leaves` it. -/
theorem Activity.Suits.of_leaves {activity : Activity}
    (suits : activity.Suits pool spaces other)
    (left : pool.Leaves txn spaces after spaces') (distinct : other ≠ txn) :
  activity.Suits after spaces' other
  := by
  cases activity with
  | idle => trivial
  | faulted => trivial
  | editing copy page edits =>
    have hand : pool.AtHand spaces other copy page edits := suits
    apply hand.of_leaves left distinct
  | calling call =>
    cases call with
    | fetch page access => trivial
    | place page tuple => trivial
    | delete record marks => apply suits
    | probe no tuple pageNo alreadyHeld rest =>
      obtain ⟨catalogued, free⟩ := suits
      simp only [Activity.Suits, Call.Suits, left.catalog, left.tables, left.modes other distinct]
      use catalogued, free
    | scan table found no rest =>
      have scanning : pool.Scanning spaces other table found (no :: rest) := suits
      apply scanning.of_leaves left distinct
    | lock page mode => apply suits
    | count table touched record no rest => apply suits

/-! ### Mirroring -/

namespace System

variable {system : System} {activity : Activity}

/-- Whether a transaction other than `txn` may be changing `page`. -/
def LooseBut (system : System) (txn : TransactionId) (page : PageId) : Prop :=
  ∃ other, other ≠ txn ∧ system.pool.locks.modeOf? page other = some .exclusive
    ∧ (system.doing other).disturbs page

/-- Whether a transaction may be changing `page`. -/
def Loose (system : System) (page : PageId) : Prop :=
  ∃ txn, system.pool.locks.modeOf? page txn = some .exclusive
    ∧ (system.doing txn).disturbs page

/-- Whether `system` is what its transactions take it for, by `spaces`. -/
structure Mirrors (system : System) (spaces : Workspaces) : Prop where
  faithful : system.pool.Faithful spaces system.Loose
  suits : ∀ txn, (system.doing txn).Suits system.pool spaces txn

/-- A pool is faithful on the pages of a transaction that is changing none. -/
theorem Mirrors.calm (mirrors : system.Mirrors spaces)
    (calm : ∀ page, ¬ (system.doing txn).disturbs page) :
  system.pool.Faithful spaces (system.LooseBut txn)
  := by
  apply mirrors.faithful.mono
  rintro page frame - ⟨other, exclusive, disturbed⟩
  use other
  refine ⟨?_, exclusive, disturbed⟩
  rintro rfl
  apply calm page disturbed

/-- A `page` that `txn` holds is loose for no other transaction. -/
theorem not_looseBut {loose : PageId → Prop} (faithful : after.Faithful spaces' loose)
    (left : system.pool.Leaves txn spaces after spaces')
    (holds : (after.locks.modeOf? page txn).isSome) :
  ¬ system.LooseBut txn page
  := by
  rintro ⟨other, distinct, exclusive, -⟩
  have exclusive' := (left.modes other distinct page).trans exclusive
  apply distinct (faithful.eq_of_exclusive exclusive' holds).symm

/-- `system.moved txn after activity` `Mirrors` `spaces'`, if the pool is `Faithful` and `activity`
`Suits` it. -/
theorem Mirrors.moved (mirrors : system.Mirrors spaces)
    (faithful : after.Faithful spaces' fun page => system.LooseBut txn page
      ∨ after.locks.modeOf? page txn = some .exclusive ∧ activity.disturbs page)
    (left : system.pool.Leaves txn spaces after spaces')
    (suits : activity.Suits after spaces' txn) :
  (system.moved txn after activity).Mirrors spaces'
  where
  faithful := by
    apply faithful.mono
    rintro page frame - (⟨other, distinct, exclusive, disturbed⟩ | ⟨exclusive, disturbed⟩)
    · use other
      rw [pool_moved, left.modes other distinct, doing_moved_of_ne _ _ _ distinct]
      use exclusive, disturbed
    · use txn
      rw [pool_moved, doing_moved_self]
      use exclusive, disturbed
  suits other := by
    by_cases mine : other = txn
    · subst mine
      rw [pool_moved, doing_moved_self]
      apply suits
    · rw [pool_moved, doing_moved_of_ne _ _ _ mine]
      apply (mirrors.suits other).of_leaves left mine

/-- Whether `spaces` can follow a move of `txn` by the `events` that happen in it. -/
def Follows (system : System) (spaces : Workspaces) (txn : TransactionId) (after : Pool)
    (activity : Activity) (events : List Event) : Prop :=
  ∃ spaces', spaces.Run events spaces' ∧ (system.moved txn after activity).Mirrors spaces'

/-- `spaces` follow a move by the run of `events` to `spaces'`, if these suit the system again. -/
theorem Mirrors.follow (mirrors : system.Mirrors spaces) {events : List Event}
    (run : spaces.Run events spaces') (faithful : after.Faithful spaces' (system.LooseBut txn))
    (left : system.pool.Leaves txn spaces after spaces')
    (suits : activity.Suits after spaces' txn) :
  system.Follows spaces txn after activity events
  := by
  use spaces', run
  apply mirrors.moved _ left suits
  apply faithful.mono
  intro page frame _ loose
  left
  apply loose

/-- `spaces` follow a move that keeps the pool `Faithful` to them, without events. -/
theorem Mirrors.silent (mirrors : system.Mirrors spaces)
    (faithful : after.Faithful spaces (system.LooseBut txn))
    (left : system.pool.Leaves txn spaces after spaces)
    (suits : activity.Suits after spaces txn) :
  system.Follows spaces txn after activity []
  := mirrors.follow (.stop spaces) faithful left suits

/-- `spaces` follow a call that ends with `failure`. -/
theorem Mirrors.failed (mirrors : system.Mirrors spaces)
    (faithful : after.Faithful spaces (system.LooseBut txn))
    (left : system.pool.Leaves txn spaces after spaces) (failure : Failure PoolError) :
  system.Follows spaces txn after (Round.done (.failure failure)).leadsTo []
  := by
  apply mirrors.silent faithful left
  cases failure with
  | error cause => trivial
  | fault fault => trivial

end System

end StorageEngine

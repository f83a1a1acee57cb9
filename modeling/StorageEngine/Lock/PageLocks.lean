import StorageEngine.Identifier
import StorageEngine.Lock.Mode

/-!
# The locks on one page

The records of the locks that transactions hold on a page, in the order of first grant:
one exclusive record alone, or shared records of distinct transactions.  What the locks say
of a transaction is given by `modeOf?`, and the main statements say how granting and releasing
change it (`modeOf?_grant`, `modeOf?_release`).
-/

namespace StorageEngine

/-- A lock that a transaction holds. -/
structure LockRecord where
  holder : TransactionId
  mode : LockMode
  deriving DecidableEq

/-- The locks on a page, in the order of first grant. -/
structure PageLocks where
  records : List LockRecord
  deriving DecidableEq

namespace PageLocks

/-- No locks. -/
def none : PageLocks := ⟨[]⟩

/-- Whether no transaction holds a lock. -/
def isEmpty (locks : PageLocks) : Bool := locks.records.isEmpty

/-- The transactions that hold a lock. -/
def holders (locks : PageLocks) : List TransactionId := locks.records.map LockRecord.holder

/-- The mode in which a transaction holds its lock, if it holds one. -/
def modeOf? (locks : PageLocks) (txn : TransactionId) : Option LockMode :=
  (locks.records.find? fun record => record.holder = txn).map LockRecord.mode

/-- Whether a transaction may be granted a lock.  A sole holder may strengthen its lock;
beside other holders only shared locks are granted, and several records are all shared. -/
def admits (locks : PageLocks) (txn : TransactionId) (mode : LockMode) : Bool :=
  match locks.records with
  | [] => true
  | [only] => only.holder = txn || (only.mode = .shared && mode = .shared)
  | _ => mode = .shared

/-- Records with a lock granted: the holder's record is strengthened in its place, if it has
one, and else a record is added at the end. -/
def grantIn (txn : TransactionId) (mode : LockMode) : List LockRecord → List LockRecord
  | [] => [⟨txn, mode⟩]
  | record :: records =>
    if record.holder = txn then { record with mode := record.mode.strongest mode } :: records
    else record :: grantIn txn mode records

/-- The locks with one more granted. -/
def grant (locks : PageLocks) (txn : TransactionId) (mode : LockMode) : PageLocks :=
  ⟨grantIn txn mode locks.records⟩

/-- The locks without those of a transaction. -/
def release (locks : PageLocks) (txn : TransactionId) : PageLocks :=
  ⟨locks.records.filter fun record => record.holder ≠ txn⟩

/-- Whether the records are one exclusive lock alone or shared locks, of distinct
transactions. -/
def isConsistent (locks : PageLocks) : Bool :=
  decide locks.holders.Nodup
    && (locks.records.all (·.mode = .shared) || locks.records.length = 1)

/-! ## Who holds which lock -/

@[simp]
theorem modeOf?_none (txn : TransactionId) :
  none.modeOf? txn = .none
  := rfl

theorem isEmpty_iff {locks : PageLocks} :
  locks.isEmpty = true ↔ locks = none
  := by
  cases locks
  simp [isEmpty, none]

/-- The holders are the transactions that hold a lock in some mode. -/
theorem mem_holders (locks : PageLocks) (txn : TransactionId) :
  txn ∈ locks.holders ↔ (locks.modeOf? txn).isSome
  := by
  simp [holders, modeOf?]

theorem find?_grantIn (txn other : TransactionId) (mode : LockMode) (records : List LockRecord) :
  ((grantIn txn mode records).find? fun record => record.holder = other).map LockRecord.mode
    = if other = txn then
        some ((((records.find? fun record => record.holder = txn).map LockRecord.mode).map
          (·.strongest mode)).getD mode)
      else (records.find? fun record => record.holder = other).map LockRecord.mode
  := by
  induction records with
  | nil => by_cases h : other = txn <;> simp [grantIn, h, eq_comm]
  | cons record records ih =>
    by_cases h : record.holder = txn
    · by_cases g : other = txn
      · simp [grantIn, h, g]
      · simp [grantIn, h, Ne.symm g, g]
    · by_cases g : record.holder = other
      · have g' : other ≠ txn := fun e => h (g.trans e)
        simp [grantIn, g, g']
      · simp [grantIn, h, g, ih]

/-- A grant gives its transaction the stronger of the mode that it held before and the mode
granted, and leaves what others hold. -/
theorem modeOf?_grant (locks : PageLocks) (txn other : TransactionId) (mode : LockMode) :
  (locks.grant txn mode).modeOf? other
    = if other = txn then some (((locks.modeOf? txn).map (·.strongest mode)).getD mode)
      else locks.modeOf? other
  := find?_grantIn txn other mode locks.records

/-- Who holds no lock releases none. -/
theorem release_eq_self {locks : PageLocks} {txn : TransactionId} (h : locks.modeOf? txn = .none) :
  locks.release txn = locks
  := by
  have absent : ∀ record ∈ locks.records, record.holder ≠ txn := by
    simpa [modeOf?] using h
  unfold release
  rw [List.filter_eq_self.mpr]
  intro record member
  simpa using absent record member

/-- A release takes the lock of its transaction and leaves what others hold. -/
theorem modeOf?_release (locks : PageLocks) (txn other : TransactionId) :
  (locks.release txn).modeOf? other = if other = txn then .none else locks.modeOf? other
  := by
  simp only [modeOf?, release, List.find?_filter]
  by_cases h : other = txn
  · subst h
    simp
  · rw [if_neg h]
    congr 2
    funext record
    by_cases g : record.holder = other <;> simp [g, h]

end PageLocks

end StorageEngine

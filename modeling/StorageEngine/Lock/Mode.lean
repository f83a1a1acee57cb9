/-!
# Lock modes

A page is locked either in shared mode, which any number of transactions may do at once, or
in exclusive mode, which shuts out every other transaction.
-/

namespace StorageEngine

/-- How a transaction locks a page. -/
inductive LockMode where
  | shared
  | exclusive
  deriving DecidableEq

namespace LockMode

/-- Whether holding a lock in mode `held` covers a request for mode `requested`. -/
def satisfies (held requested : LockMode) : Bool :=
  match held, requested with
  | .exclusive, _ => true
  | .shared, .shared => true
  | .shared, .exclusive => false

/-- The stronger of two modes. -/
def strongest (a b : LockMode) : LockMode := if a.satisfies b then a else b

/-- Whether two transactions may hold locks on one page in these modes at once. -/
def isCompatibleWith (a b : LockMode) : Bool :=
  match a, b with
  | .shared, .shared => true
  | _, _ => false

theorem strongest_satisfies_left (a b : LockMode) :
  (a.strongest b).satisfies a = true
  := by
  cases a <;> cases b <;> rfl

theorem strongest_satisfies_right (a b : LockMode) :
  (a.strongest b).satisfies b = true
  := by
  cases a <;> cases b <;> rfl

end LockMode

/-- What a transaction means to do with a page. -/
inductive Access where
  | readOnly
  | readWrite
  deriving DecidableEq

/-- The lock that an access needs. -/
def Access.lockMode : Access → LockMode
  | .readOnly => .shared
  | .readWrite => .exclusive

end StorageEngine

import StorageEngine.Proofs.Call.Deeds
import StorageEngine.Proofs.Pool.Growth
import StorageEngine.Proofs.System.Basic

/-!
# Growth of systems

No step of a system takes a page away from a store (`Step.grows`), so none gets lost in a run
(`Run.grows`).
-/

namespace StorageEngine

/-- No deed of a call takes a page away from a store: `pool.Grows after`. -/
theorem Pool.Does.grows {txn : TransactionId} {hand : List CopyNo} {pool after : Pool}
    (does : pool.Does txn hand after) :
  pool.Grows after
  := by
  induction does with
  | nothing => exact .of_stores rfl
  | relock _ _ ih => exact (Grows.of_stores rfl).trans ih
  | fetch page access _ ih => exact (grows_fetch _ txn page access).trans ih
  | edit _ _ _ ih => exact (Grows.of_stores rfl).trans ih
  | @install _ pool _ no _ _ ih => exact (Grows.of_stores (pool.stores_install txn no)).trans ih
  | append _ _ ih => exact (Grows.setStore (Store.length_le_allocate rfl)).trans ih

/-! ### Steps -/

namespace System

variable {start system next : System} {events : List Event}

/-- No `step` takes a page away from a store of `system`. -/
theorem Step.grows (step : Step system events next) :
  system.pool.Grows next.pool
  := by
  cases step with
  | @enter txn request round pool free served eq =>
    have grows := (request.does_enter txn system.pool).grows
    rw [eq] at grows
    apply grows
  | @round txn call round pool under eq =>
    have grows := (call.does_round txn system.pool).grows
    rw [eq] at grows
    apply grows
  | edit hand fits => apply Pool.Grows.of_stores rfl
  | @mark txn copy page edits pool hand eq =>
    have same := system.pool.stores_markDirty txn copy
    rw [eq] at same
    apply Pool.Grows.of_stores same
  | @unmarked txn copy page edits failure pool hand eq =>
    have same := system.pool.stores_markDirty txn copy
    rw [eq] at same
    apply Pool.Grows.of_stores same
  | @complete txn commits result pool free eq =>
    have grows := system.pool.grows_complete txn commits
    rw [eq] at grows
    apply grows
  | disrupt =>
    apply Pool.Grows.setStore
    apply Nat.le_refl

/-- No page of `start` gets lost in a `run`. -/
theorem Run.grows (run : start.Run events system) :
  start.pool.Grows system.pool
  := by
  induction run with
  | start => apply Pool.Grows.of_stores rfl
  | step before step ih => apply ih.trans step.grows

end System

end StorageEngine

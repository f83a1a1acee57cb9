import StorageEngine.Proofs.Workspace.Basic

/-!
# Pages that there are

Transactions change committed pages only, and pages stay committed.  So a transaction sees a page
only if it is committed (`Workspaces.Rooted.committed_of_view`), and a page that there is not comes
to be when it is appended (`Workspaces.Run.committed_eq_none`).
-/

namespace StorageEngine

namespace Workspaces

variable {spaces after : Workspaces} {txn : TransactionId} {page : PageId} {event : Event}
  {events : List Event}

/-- Whether `spaces` have private images of committed pages only. -/
def Rooted (spaces : Workspaces) : Prop :=
  ∀ txn page, (spaces.overlay txn page).isSome → (spaces.committed page).isSome

theorem rooted_initial (committed : PageId → Option Bytes) :
  (initial committed).Rooted
  := by
  intro txn page changed
  cases changed

/-- In `Rooted` spaces only committed pages are seen. -/
theorem Rooted.committed_of_view (rooted : spaces.Rooted)
    (seen : (spaces.view txn page).isSome) :
  (spaces.committed page).isSome
  := by
  rw [view, Option.isSome_or, Bool.or_eq_true] at seen
  rcases seen with changed | committed
  · apply rooted txn page changed
  · apply committed

theorem rooted_put (rooted : spaces.Rooted) (seen : (spaces.view txn page).isSome)
    (image : Option Bytes) :
  (spaces.put txn page image).Rooted
  := by
  intro other place changed
  rw [overlay_put] at changed
  split at changed
  · rename_i here
    rw [here.2]
    apply rooted.committed_of_view seen
  · apply rooted other place changed

theorem rooted_drop (rooted : spaces.Rooted) (txn : TransactionId) :
  (spaces.drop txn).Rooted
  := by
  intro other place changed
  rw [overlay_drop] at changed
  split at changed
  · cases changed
  · apply rooted other place changed

theorem Rooted.step (rooted : spaces.Rooted) (step : spaces.Step event after) :
  after.Rooted
  := by
  cases step with
  | fetched | scanning | scanned => apply rooted
  | updated seen | inserted seen | deleted seen =>
    apply rooted_put rooted (Option.isSome_of_mem seen)
  | grown =>
    intro other place changed
    rw [committed_grow]
    split
    · rfl
    · apply rooted other place changed
  | @committed txn =>
    intro other place changed
    have committed := rooted_drop rooted txn other place changed
    have view : ((spaces.overlay txn place).or (spaces.committed place)).isSome := by
      rw [Option.isSome_or, Bool.or_eq_true]
      right
      apply committed
    apply view
  | aborted => apply rooted_drop rooted

theorem Rooted.run (rooted : spaces.Rooted) (run : spaces.Run events after) :
  after.Rooted
  := by
  induction run with
  | stop => apply rooted
  | step step _ ih => apply ih (rooted.step step)

/-- A `page` that is not committed is so in a `run` that does not append it. -/
theorem Run.committed_eq_none (run : spaces.Run events after) (rooted : spaces.Rooted)
    (missing : spaces.committed page = none) (ungrown : ∀ bytes, .grown page bytes ∉ events) :
  after.committed page = none
  := by
  induction run with
  | stop => apply missing
  | @step spaces next last event events step rest ih =>
    simp only [List.mem_cons, not_or] at ungrown
    apply ih (rooted.step step) _ fun bytes => (ungrown bytes).2
    cases step with
    | @grown place bytes =>
      rw [committed_grow, if_neg, missing]
      rintro rfl
      apply (ungrown bytes).1 rfl
    | @committed txn =>
      have unseen : spaces.view txn page = none := by
        by_contra seen
        have committed := rooted.committed_of_view (Option.isSome_iff_ne_none.mpr seen)
        simp [missing] at committed
      apply unseen
    | _ => apply missing

end Workspaces

end StorageEngine

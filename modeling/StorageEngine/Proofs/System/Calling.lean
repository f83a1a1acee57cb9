import StorageEngine.Proofs.System.Following
import StorageEngine.Proofs.System.Repeatable

/-!
# Calls among the steps of others

A call of one transaction goes on from lock request to lock request, and others take any steps in
between, and after it (`Calling`).  What it goes through is a run of the system (`Calling.run`).
-/

namespace StorageEngine

/-- The transaction that an event is of. -/
def Event.actor? : Event → Option TransactionId
  | .fetched txn .. | .updated txn .. | .inserted txn .. | .deleted txn .. | .scanning txn ..
  | .scanned txn .. | .ended txn .. => some txn
  | .grown .. => none

/-- A call of `txn` under way that began in `begun`, and what has happened since, where others take
any steps between its lock requests and after it. -/
inductive Calling (txn : TransactionId) (request : Request) (begun : System) :
    List Event → Round → System → Prop where
  | enter {stage : Round} {pool : Pool} (free : (begun.doing txn).mayCall)
      (served : begun.pool.serves request) (eq : request.enter txn begun.pool = (stage, pool)) :
      Calling txn request begun (request.events txn pool stage) stage
        (begun.moved txn pool stage.leadsTo)
  /-- The call goes on, up to its next lock request. -/
  | round {events : List Event} {stage next : Round} {system : System} {call : Call} {pool : Pool}
      (calling : Calling txn request begun events stage system) (goes : call ∈ stage.pending?)
      (eq : call.round txn system.pool = (next, pool)) :
      Calling txn request begun (events ++ call.events txn pool next) next
        (system.moved txn pool (call.leadsTo next))
  | others {events events' : List Event} {stage : Round} {system after : System}
      (calling : Calling txn request begun events stage system)
      (step : System.Step system events' after) (aside : after.doing txn = system.doing txn)
      (foreign : ∀ event ∈ events', event.actor? ≠ some txn) :
      Calling txn request begun (events ++ events') stage after

variable {begun system : System} {txn : TransactionId} {request : Request} {stage : Round}
  {call : Call} {events : List Event}

/-- What is not of a transaction changes nothing for it. -/
theorem Event.not_alters {event : Event} (foreign : event.actor? ≠ some txn) :
  ¬ event.alters txn
  := by
  intro alters
  cases event with
  | updated | inserted | deleted | ended => exact foreign (congrArg some alters)
  | _ => cases alters

/-- A `stage` with a pending `call` leads to `.calling call`. -/
theorem Round.leadsTo_of_pending (goes : call ∈ stage.pending?) :
  stage.leadsTo = .calling call ∧ ∀ earlier : Call, earlier.leadsTo stage = .calling call
  := by
  cases stage with
  | done outcome => cases goes
  | waiting next | next next | grown page next =>
    cases goes
    refine ⟨rfl, ?_⟩
    rintro (_ | ⟨_, _ | _⟩ | _ | _ | _ | _ | _) <;> rfl

namespace Calling

/-- While a `call` is pending, `txn` is in the midst of it. -/
theorem doing (calling : Calling txn request begun events stage system)
    (goes : call ∈ stage.pending?) :
  system.doing txn = .calling call
  := by
  induction calling with
  | enter =>
    rw [System.doing_moved_self]
    apply (Round.leadsTo_of_pending goes).1
  | round =>
    rw [System.doing_moved_self]
    apply (Round.leadsTo_of_pending goes).2
  | others _ _ aside _ ih => rw [aside, ih goes]

/-- A call that is `Calling` among the steps of others is a run. -/
theorem run (calling : Calling txn request begun events stage system) :
  begun.Run events system
  := by
  induction calling with
  | enter free served eq => apply System.Run.start.step (.enter free served eq)
  | round calling goes eq ih => apply ih.step (.round (calling.doing goes) eq)
  | others _ step _ _ ih => apply ih.step step

end Calling

end StorageEngine

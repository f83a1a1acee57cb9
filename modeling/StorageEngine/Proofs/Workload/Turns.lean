import Mathlib.Logic.Relation
import StorageEngine.Proofs.System.WholeCalls
import StorageEngine.Workload

/-!
# Turns of workers

Workers work at the same time: between any two lock requests of one of them others may come in.  So
they take turns in any order, each of which is a round of a call, or a commit, or the begin of a
transaction (`Crew.turn`).  A step of a worker, in which its call gets as far as it gets, is some of
its turns in a row (`Crew.turns_step`), and so is all that the workers do who work one after another
(`Crew.turns_workInTurn`).
-/

namespace StorageEngine

/-- After a `round` a call has ended or has to wait, or else it goes on with `next`. -/
theorem Round.stops_or_rests (round : Round) :
  (∃ progress, round.stop? = some progress)
    ∨ ∃ next, round.rest? = some next ∧ round.stop? = none
  := by
  cases round with
  | done outcome => exact .inl ⟨_, rfl⟩
  | waiting call => exact .inl ⟨_, rfl⟩
  | next call => exact .inr ⟨_, rfl, rfl⟩
  | grown page call => exact .inr ⟨_, rfl, rfl⟩

/-! ### Turns -/

namespace Worker

variable {worker : Worker} {transaction : Transaction} {pool : Pool}

/-- Goes on after `round` of an insertion. -/
def hear (worker : Worker) (transaction : Transaction) (round : Round) (pool : Pool) :
    Worker × Pool :=
  match round.stop? with
  | some progress => worker.follow transaction progress pool
  | none => ({ worker with call := round.rest? }, pool)

/-- Goes on with `transaction` up to its next lock request, or ends it. -/
def turn (worker : Worker) (workload : Workload) (transaction : Transaction) (pool : Pool) :
    Worker × Pool :=
  match worker.call with
  | some call =>
    let (round, pool) := call.round transaction.id pool
    worker.hear transaction round pool
  | none =>
    if worker.inserted < workload.tuples then
      match transaction.checkActive with
      | .error cause => worker.giveUp transaction (.error cause) pool
      | .ok () =>
        let (round, pool) :=
          (Request.insert workload.table worker.nextTuple).enter transaction.id pool
        worker.hear transaction round pool
    else worker.commit transaction pool

/-- How a worker follows `progress` does not depend on the `call` that it was in. -/
theorem follow_call (call : Option Call) (progress : Progress) :
  ({ worker with call } : Worker).follow transaction progress pool
    = worker.follow transaction progress pool
  := by
  rcases progress with ⟨result, record⟩ | next
  · rcases result with failure | answer
    · simp only [follow]
      split
      · rfl
      · split <;> rfl
    · rfl
  · rfl

end Worker

namespace Crew

variable {crew after : Crew} {i : Nat} {worker : Worker} {transaction : Transaction}

/-- `crew` after the worker `i` has done something on the pool. -/
def moved (crew : Crew) (i : Nat) (came : Worker × Pool) : Crew :=
  { crew with pool := came.2 }.setWorker i came.1

/-- Lets the worker `i` take a turn. -/
def turn (crew : Crew) (i : Nat) : Crew :=
  match crew.workers[i]? with
  | none => crew
  | some worker =>
    if worker.status ≠ .working then crew
    else
      match worker.transaction with
      | some transaction => crew.moved i (worker.turn crew.workload transaction crew.pool)
      | none => crew.step i

/-- What workers come to who take turns in any order. -/
abbrev Turns : Crew → Crew → Prop :=
  Relation.ReflTransGen fun crew after => ∃ i, crew.turn i = after

/-! ### Steps as turns -/

theorem moved_moved (crew : Crew) (i : Nat) (came came' : Worker × Pool) :
  (crew.moved i came).moved i came' = crew.moved i came'
  := by
  simp [moved, setWorker]

theorem worker_moved (found : crew.workers[i]? = some worker) (came : Worker × Pool) :
  (crew.moved i came).workers[i]? = some came.1
  := by
  have inside : i < crew.workers.size := (Array.getElem?_eq_some_iff.mp found).1
  simp [moved, setWorker, inside]

/-- In a turn of the worker `i` whose `call` is under way, it hears of a round of `call`. -/
theorem turn_of_call {call : Call} (found : crew.workers[i]? = some worker)
    (working : worker.status = .working) (busy : worker.transaction = some transaction)
    (under : worker.call = some call) {round : Round} {pool : Pool}
    (eq : call.round transaction.id crew.pool = (round, pool)) :
  crew.turn i = crew.moved i (worker.hear transaction round pool)
  := by
  simp [turn, found, working, busy, Worker.turn, under, eq]

/-- To run `call` at one go is to take turns at it. -/
theorem turns_run {call : Call} (found : crew.workers[i]? = some worker)
    (working : worker.status = .working) (busy : worker.transaction = some transaction)
    (under : worker.call = some call) {progress : Progress} {pool : Pool}
    (eq : call.run transaction.id crew.pool = (progress, pool)) :
  crew.Turns (crew.moved i (worker.follow transaction progress pool))
  := by
  induction rank : call.requests using Nat.strongRecOn generalizing crew call worker with
  | ind n ih =>
    subst rank
    rw [Call.run_eq_proceed] at eq
    cases first : call.round transaction.id crew.pool with
    | mk round middle =>
      rw [first] at eq
      have turned := turn_of_call found working busy under first
      rcases round.stops_or_rests with ⟨progress', stop⟩ | ⟨next, rest, unstopped⟩
      · rw [Round.proceed_of_stop stop] at eq
        cases eq
        rw [Worker.hear, stop] at turned
        exact .single ⟨i, turned⟩
      · rw [Round.proceed_of_rest rest] at eq
        rw [Worker.hear, unstopped, rest] at turned
        have goes : call.GoesOn next := by
          rcases Call.round_cases first with ⟨progress', stop, -⟩ | ⟨next', rest', goes⟩
          · cases unstopped.symm.trans stop
          · cases rest.symm.trans rest'
            apply goes
        have further := ih _ goes.fewer
          (worker_moved found ({ worker with call := some next }, middle))
          working busy rfl eq rfl
        rw [moved_moved, Worker.follow_call] at further
        exact .head ⟨i, turned⟩ further

/-- To start an insertion at one go is to take turns at it. -/
theorem turns_start (found : crew.workers[i]? = some worker) (working : worker.status = .working)
    (busy : worker.transaction = some transaction) (free : worker.call = none)
    (more : worker.inserted < crew.workload.tuples)
    (active : transaction.checkActive = .ok ()) {progress : Progress} {pool : Pool}
    (eq : (Request.insert crew.workload.table worker.nextTuple).start transaction.id crew.pool
      = (progress, pool)) :
  crew.Turns (crew.moved i (worker.follow transaction progress pool))
  := by
  rw [Request.start_eq_proceed] at eq
  cases first : (Request.insert crew.workload.table worker.nextTuple).enter transaction.id
    crew.pool with
  | mk round middle =>
    rw [first] at eq
    have turned : crew.turn i = crew.moved i (worker.hear transaction round middle) := by
      simp [turn, found, working, busy, Worker.turn, free, more, active, first]
    rcases round.stops_or_rests with ⟨progress', stop⟩ | ⟨next, rest, unstopped⟩
    · rw [Round.proceed_of_stop stop] at eq
      cases eq
      rw [Worker.hear, stop] at turned
      exact .single ⟨i, turned⟩
    · rw [Round.proceed_of_rest rest] at eq
      rw [Worker.hear, unstopped, rest] at turned
      have further := turns_run (worker_moved found ({ worker with call := some next }, middle))
        working busy rfl eq
      rw [moved_moved, Worker.follow_call] at further
      exact .head ⟨i, turned⟩ further

/-- A step of the worker `i` is made of turns. -/
theorem turns_step (crew : Crew) (i : Nat) :
  crew.Turns (crew.step i)
  := by
  cases found : crew.workers[i]? with
  | none =>
    have idle : crew.step i = crew := by
      simp [step, found]
    rw [idle]
  | some worker =>
    by_cases working : worker.status = .working
    · cases busy : worker.transaction with
      | none =>
        apply Relation.ReflTransGen.single
        use i
        simp [turn, found, working, busy]
      | some transaction =>
        have stepped : crew.step i
            = crew.moved i (worker.advance crew.workload transaction crew.pool) := by
          simp [step, found, working, busy, moved]
        rw [stepped, Worker.advance]
        cases under : worker.call with
        | some call => exact turns_run found working busy under rfl
        | none =>
          dsimp only
          split
          · rename_i more
            unfold Transaction.call
            cases active : transaction.checkActive with
            | error cause =>
              apply Relation.ReflTransGen.single
              use i
              simp [turn, found, working, busy, Worker.turn, under, more, active]
            | ok _ => exact turns_start found working busy under more active rfl
          · rename_i enough
            apply Relation.ReflTransGen.single
            use i
            simp [turn, found, working, busy, Worker.turn, under, enough]
    · have idle : crew.step i = crew := by
        simp [step, found, working]
      rw [idle]

/-- What workers do who work one after another is made of turns. -/
theorem turns_workInTurn (crew : Crew) :
  crew.Turns crew.workInTurn
  := by
  have alone : ∀ (i steps : Nat) (crew : Crew), crew.Turns (work i steps crew) := by
    intro i steps
    induction steps with
    | zero =>
      intro crew
      apply Relation.ReflTransGen.refl
    | succ steps ih =>
      intro crew
      rw [work]
      split
      · exact (turns_step crew i).trans (ih (crew.step i))
      · apply Relation.ReflTransGen.refl
  have all : ∀ (order : List Nat) (crew : Crew),
      crew.Turns (order.foldl (fun crew i => work i (stepsAlone crew.workload) crew) crew) := by
    intro order
    induction order with
    | nil =>
      intro crew
      apply Relation.ReflTransGen.refl
    | cons i order ih =>
      intro crew
      exact (alone i (stepsAlone crew.workload) crew).trans (ih _)
  apply all

end Crew

end StorageEngine

import StorageEngine.Proofs.System.Tally
import StorageEngine.Proofs.Workload.Turns

/-!
# Turns of workers on a system

A worker in the midst of a transaction takes a turn: its insertion goes on, or succeeds, or fails,
in which case it aborts the transaction, or it commits (`Worker.Moves`).  Each is a step of a
system, or two (`Worker.Busy.turn`), and leaves alone what other transactions have pending.
-/

namespace StorageEngine

/-! ### Rounds of insertions -/

/-- Whether a call inserts a tuple into a heap table. -/
def Call.inserts : Call → Prop
  | .probe .. | .place .. => True
  | _ => False

/-- An insertion marks whatever it changes. -/
theorem Call.marks_of_inserts {call : Call} (inserts : call.inserts) :
  call.marks
  := by
  cases call with
  | probe | place => trivial
  | _ => cases inserts

/-- What a round of an insertion by `txn` leads it to, and what happens in it: the insertion goes
on or has to wait, or it fails, or the tuple is stored. -/
inductive Round.Inserts (txn : TransactionId) : Round → Activity → List Event → Prop where
  | goesOn {round : Round} {next : Call} {events : List Event}
      (on : round.stop? = some (.waiting next) ∨ round.rest? = some next) (inserts : next.inserts)
      (quiet : ∀ event ∈ events, event.isQuiet = true) :
      Inserts txn round (.calling next) events
  | fails {outcome : Outcome} {failure : Failure CallError} {activity : Activity}
      (failed : outcome.result = .error failure) (ends : activity.mayEnd false) :
      Inserts txn (.done outcome) activity []
  | stores {outcome : Outcome} {answer : Answer} {record : RecordId} {tuple : Bytes}
      (stored : outcome.result = .ok answer) :
      Inserts txn (.done outcome) .idle [.inserted txn record tuple]

section

variable {txn : TransactionId} {pool after : Pool} {round : Round} {call next : Call}

/-- An insertion that goes on is one. -/
theorem Round.Inserts.inserts_of_goesOn {activity : Activity} {events : List Event}
    (leads : Round.Inserts txn round activity events)
    (on : round.stop? = some (.waiting next) ∨ round.rest? = some next) :
  next.inserts ∧ activity = .calling next ∧ ∀ event ∈ events, event.isQuiet = true
  := by
  cases leads with
  | @goesOn _ next' _ on' inserts quiet =>
    obtain rfl : next = next' := by
      cases round <;> simp_all [Round.stop?, Round.rest?]
    exact ⟨inserts, rfl, quiet⟩
  | fails => simp [Round.stop?, Round.rest?] at on
  | stores => simp [Round.stop?, Round.rest?] at on

theorem Round.quiet_appended (round : Round) (pool : Pool) :
  ∀ event ∈ round.appended pool, event.isQuiet = true
  := by
  intro event member
  cases round with
  | grown page call =>
    obtain ⟨bytes, -, rfl⟩ := List.mem_map.mp member
    rfl
  | _ => cases member

/-- An insertion that goes on with `next` appends pages at most. -/
theorem Round.inserts_of_rest (rest : round.rest? = some next) (inserts : next.inserts) :
  Round.Inserts txn round round.leadsTo (round.appended after)
  := by
  rw [Round.leadsTo_of_rest rest]
  exact .goesOn (.inr rest) inserts (round.quiet_appended after)

/-- After a `failure` a transaction may abort. -/
theorem Round.inserts_of_failure (failure : Failure PoolError) (record : Option RecordId) :
  Round.Inserts txn (.done { Outcome.failure failure with record })
    (Round.done { Outcome.failure failure with record }).leadsTo []
  := by
  apply Round.Inserts.fails rfl
  cases failure with
  | error cause => trivial
  | fault fault => rfl

theorem Call.entering_inserts {no : StoreNo} {tuple : Bytes} {rest : List PageNo}
    (entering : Entering txn no tuple pool rest round after) :
  Round.Inserts txn round round.leadsTo (round.appended after)
  := by
  cases entering with
  | refused => apply Round.inserts_of_failure _ none
  | grown | next =>
    apply Round.inserts_of_rest rfl
    trivial

/-- What a `round` of an insertion leads to and tells satisfies `Round.Inserts`. -/
theorem Call.round_inserts (inserts : call.inserts)
    (eq : call.round txn pool = (round, after)) :
  Round.Inserts txn round (call.leadsTo round) (call.events txn after round)
  := by
  cases call with
  | probe no tuple pageNo held rest =>
    have told : (probe no tuple pageNo held rest).events txn after round
        = round.appended after := by
      cases round <;> rfl
    rw [told]
    cases Probing.of_round eq with
    | waiting => exact .goesOn (.inl rfl) trivial (List.forall_mem_nil _)
    | failed | broken => apply Round.inserts_of_failure _ none
    | roomy =>
      apply Round.inserts_of_rest rfl
      trivial
    | full _ _ entering => exact entering_inserts entering
  | place page tuple =>
    simp only [Call.round, Call.run] at eq
    rcases placed : runPlace txn page tuple pool with ⟨progress, last⟩
    rw [placed] at eq
    cases Placing.of_runPlace placed with
    | waiting =>
      cases eq
      exact .goesOn (.inl rfl) trivial (List.forall_mem_nil _)
    | failed =>
      cases eq
      apply Round.inserts_of_failure _ none
    | fetched _ storing =>
      cases storing with
      | refused =>
        cases eq
        apply Round.inserts_of_failure _ none
      | unmarked =>
        cases eq
        apply Round.inserts_of_failure
      | stored =>
        cases eq
        exact .stores rfl
  | _ => cases inserts

/-- What an insertion into a heap `table` begins with satisfies `Round.Inserts`. -/
theorem Request.enter_inserts {table : TableId} {tuple : Bytes}
    (served : pool.serves (.insert table tuple))
    (eq : (Request.insert table tuple).enter txn pool = (round, after)) :
  Round.Inserts txn round round.leadsTo ((Request.insert table tuple).events txn after round)
  := by
  show Round.Inserts txn round round.leadsTo (round.appended after)
  obtain ⟨failure, rfl, -⟩ | ⟨no, pages, -, entering⟩ := enter_insert_cases served eq
  · apply Round.inserts_of_failure _ none
  · exact Call.entering_inserts entering

end

/-! ### Ways of turns -/

namespace Transaction

variable {transaction : Transaction}

/-- After `transaction.complete` the transaction is not `.active`, whatever came of it. -/
theorem complete_ended (transaction : Transaction) (commits : Bool) (pool : Pool) :
  (transaction.complete commits pool).2.1.state ≠ .active
  := by
  unfold complete checkActive endState
  by_cases active : transaction.state = .active
  · rw [if_pos active]
    cases commits <;> simp
  · rw [if_neg active]
    apply active

/-- To drop a `transaction` that is not `.active` leaves `pool`. -/
theorem drop_ended (ended : transaction.state ≠ .active) (pool : Pool) :
  transaction.drop pool = pool
  := by
  simp [drop, abort, complete, checkActive, ended]

/-- An `.active` transaction completes as `pool.complete` does. -/
theorem complete_active (active : transaction.state = .active) (commits : Bool) (pool : Pool) :
  (transaction.complete commits pool).1 = widen .pool (pool.complete transaction.id commits).1
    ∧ (transaction.complete commits pool).2.2 = (pool.complete transaction.id commits).2
  := by
  simp [complete, checkActive, active]

/-- An `.active` transaction whose call has failed aborts in a run of the system. -/
theorem run_abort (transaction : Transaction) (active : transaction.state = .active)
    {system : System} {pool : Pool} {activity : Activity}
    (step : system.Step [] (system.moved transaction.id pool activity))
    (ends : activity.mayEnd false) :
  ∃ result, system.Run [.ended transaction.id false result]
    (system.moved transaction.id (transaction.abort pool).2.2 .idle)
  := by
  have free : ((system.moved transaction.id pool activity).doing transaction.id).mayEnd false := by
    rw [System.doing_moved_self]
    apply ends
  have run := (System.Run.single step).step (.complete free rfl)
  rw [System.moved_moved] at run
  use (pool.complete transaction.id false).1
  rw [abort, (transaction.complete_active active false pool).2]
  apply run

theorem grows_complete (transaction : Transaction) (commits : Bool) (pool : Pool) :
  pool.Grows (transaction.complete commits pool).2.2
  := by
  unfold complete
  cases transaction.checkActive with
  | error cause => apply Pool.Grows.of_stores rfl
  | ok _ => apply pool.grows_complete

theorem keeps_complete (transaction : Transaction) (commits : Bool) (pool : Pool) :
  pool.Keeps (transaction.complete commits pool).2.2
  := by
  unfold complete
  cases transaction.checkActive with
  | error cause => apply Pool.Keeps.refl
  | ok _ => apply pool.keeps_complete

end Transaction

namespace Worker

variable {worker worker' : Worker} {workload : Workload} {transaction : Transaction}
  {pool middle after : Pool}

/-- Whether `worker` has given its transaction up, to try again or for good. -/
def GivesUp (worker worker' : Worker) : Prop :=
  worker' = { worker.rest with aborted := worker.aborted + 1 }
    ∨ ∃ failure, worker' = worker.stop (statusOf failure)

/-- A worker whose insertion has failed `GivesUp`, and its transaction aborts. -/
theorem follow_of_failed {outcome : Outcome} {failure : Failure CallError}
    (failed : outcome.result = .error failure) (pool : Pool) :
  worker.GivesUp (worker.follow transaction (.done outcome) pool).1
    ∧ (worker.follow transaction (.done outcome) pool).2 = (transaction.abort pool).2.2
  := by
  simp only [follow, failed]
  split
  · exact ⟨.inr ⟨_, rfl⟩, rfl⟩
  · split
    · unfold retry
      cases aborted : transaction.abort pool with
      | mk result came =>
        obtain ⟨spent, pool'⟩ := came
        cases result with
        | ok _ => exact ⟨.inl rfl, rfl⟩
        | error failure =>
          refine ⟨.inr ⟨_, rfl⟩, ?_⟩
          apply Transaction.drop_ended
          have ended := transaction.complete_ended false pool
          rw [← Transaction.abort, aborted] at ended
          apply ended
    · exact ⟨.inr ⟨_, rfl⟩, rfl⟩

/-- How a worker goes on after a `round`: its insertion is under way, or has succeeded, or has
failed. -/
theorem hear_cases {round : Round} (eq : worker.hear transaction round middle = (worker', after)) :
  (∃ next, (round.stop? = some (.waiting next) ∨ round.rest? = some next)
      ∧ worker' = { worker with call := some next } ∧ after = middle)
    ∨ (∃ outcome answer, round = .done outcome ∧ outcome.result = .ok answer
      ∧ worker' = { worker with inserted := worker.inserted + 1, call := none } ∧ after = middle)
    ∨ ∃ outcome failure, round = .done outcome ∧ outcome.result = .error failure
      ∧ worker.GivesUp worker' ∧ after = (transaction.abort middle).2.2
  := by
  cases round with
  | waiting next =>
    cases eq
    left
    exact ⟨next, .inl rfl, rfl, rfl⟩
  | next next =>
    cases eq
    left
    exact ⟨next, .inr rfl, rfl, rfl⟩
  | grown page next =>
    cases eq
    left
    exact ⟨next, .inr rfl, rfl, rfl⟩
  | done outcome =>
    right
    cases result : outcome.result with
    | ok answer =>
      left
      have followed : worker.hear transaction (.done outcome) middle
          = ({ worker with inserted := worker.inserted + 1, call := none }, middle) := by
        simp [hear, Round.stop?, follow, result]
      cases followed.symm.trans eq
      exact ⟨outcome, answer, rfl, result, rfl, rfl⟩
    | error failure =>
      right
      have followed : worker.GivesUp (worker.follow transaction (.done outcome) middle).1
          ∧ (worker.follow transaction (.done outcome) middle).2 = (transaction.abort middle).2.2 :=
        follow_of_failed result middle
      rw [show worker.follow transaction (.done outcome) middle = (worker', after) from eq]
        at followed
      exact ⟨outcome, failure, rfl, result, followed⟩

/-- How a commit comes out: `worker'` counts one more in `committed`, or stops with the status of
the `failure`. -/
theorem commit_cases (eq : worker.commit transaction pool = (worker', after)) :
  after = (transaction.commit pool).2.2
    ∧ ((transaction.commit pool).1 = .ok ()
        ∧ worker' = { worker.rest with committed := worker.committed + 1 }
      ∨ ∃ failure, (transaction.commit pool).1 = .error failure
        ∧ worker' = worker.stop (statusOf failure))
  := by
  unfold commit at eq
  cases committed : transaction.commit pool with
  | mk result came =>
    obtain ⟨spent, pool'⟩ := came
    rw [committed] at eq
    cases result with
    | ok _ =>
      cases eq
      exact ⟨rfl, .inl ⟨rfl, rfl⟩⟩
    | error failure =>
      have ended := transaction.complete_ended true pool
      rw [← Transaction.commit, committed] at ended
      simp only [giveUp, Transaction.drop_ended ended] at eq
      cases eq
      exact ⟨rfl, .inr ⟨failure, rfl, rfl⟩⟩

/-- The round that the insertion of `worker` comes to. -/
def insertion (worker : Worker) (workload : Workload) (transaction : Transaction) (pool : Pool) :
    Round × Pool :=
  match worker.call with
  | some call => call.round transaction.id pool
  | none => (Request.insert workload.table worker.nextTuple).enter transaction.id pool

/-- What a worker does in a `turn`: it hears of a round, or commits, or finds its transaction
ended. -/
theorem turn_cases (worker : Worker) (workload : Workload) (transaction : Transaction)
    (pool : Pool) :
  (worker.turn workload transaction pool
        = worker.hear transaction (worker.insertion workload transaction pool).1
          (worker.insertion workload transaction pool).2
      ∧ (worker.call = none → worker.inserted < workload.tuples))
    ∨ (worker.call = none ∧ workload.tuples ≤ worker.inserted
      ∧ worker.turn workload transaction pool = worker.commit transaction pool)
    ∨ ∃ cause, transaction.checkActive = .error cause
      ∧ worker.turn workload transaction pool = worker.giveUp transaction (.error cause) pool
  := by
  cases under : worker.call with
  | some call =>
    left
    simp [turn, insertion, under]
  | none =>
    by_cases more : worker.inserted < workload.tuples
    · cases active : transaction.checkActive with
      | ok _ =>
        left
        simp [turn, insertion, under, more, active]
      | error cause =>
        right; right
        exact ⟨cause, rfl, by simp [turn, under, more, active]⟩
    · right; left
      exact ⟨rfl, Nat.not_lt.mp more, by simp [turn, under, more]⟩

/-! ### Transactions begun -/

/-- Whether a failure has ended `worker`. -/
def hasFailed (worker : Worker) : Bool :=
  match worker.status with
  | .failed _ | .faulted _ => true
  | _ => false

/-- The number of transactions that `worker` has begun. -/
def begun (worker : Worker) : Nat :=
  worker.committed + worker.aborted
    + if worker.transaction.isSome || worker.hasFailed then 1 else 0

theorem begun_stop (busy : worker.transaction = some transaction)
    (failure : Failure TransactionError) :
  (worker.stop (statusOf failure)).begun = worker.begun
  := by
  cases failure <;> simp [begun, stop, rest, statusOf, hasFailed, busy]

theorem begun_givesUp (busy : worker.transaction = some transaction)
    (working : worker.status = .working) (gives : worker.GivesUp worker') :
  worker'.begun = worker.begun
  := by
  rcases gives with rfl | ⟨failure, rfl⟩
  · simp [begun, rest, hasFailed, busy, working]
    omega
  · apply begun_stop busy

/-- A worker in the midst of a transaction begins none in a `turn`, and takes no page away. -/
theorem begun_turn (busy : worker.transaction = some transaction)
    (working : worker.status = .working)
    (eq : worker.turn workload transaction pool = (worker', after)) :
  worker'.begun = worker.begun ∧ pool.Grows after
  := by
  rcases worker.turn_cases workload transaction pool with
    ⟨heard, -⟩ | ⟨-, -, commits⟩ | ⟨cause, -, gives⟩
  · rw [heard] at eq
    have grows : pool.Grows (worker.insertion workload transaction pool).2 := by
      unfold insertion
      split
      · exact (Call.does_round ..).grows
      · exact (Request.does_enter ..).grows
    rcases hear_cases eq with ⟨next, -, rfl, rfl⟩ | ⟨outcome, answer, -, -, rfl, rfl⟩
      | ⟨outcome, failure, -, -, gives, rfl⟩
    · exact ⟨by simp [begun, hasFailed, busy], grows⟩
    · exact ⟨by simp [begun, hasFailed, busy], grows⟩
    · exact ⟨begun_givesUp busy working gives, grows.trans (transaction.grows_complete false _)⟩
  · rw [commits] at eq
    obtain ⟨rfl, ⟨-, rfl⟩ | ⟨failure, -, rfl⟩⟩ := commit_cases eq
    · refine ⟨?_, transaction.grows_complete true pool⟩
      simp [begun, rest, hasFailed, busy, working]
      omega
    · exact ⟨begun_stop busy failure, transaction.grows_complete true pool⟩
  · rw [gives] at eq
    cases eq
    exact ⟨begun_stop busy _, transaction.grows_complete false pool⟩

/-! ### Calls that are made -/

/-- Whether `worker` makes insertions only. -/
def Inserts (worker : Worker) : Prop := ∀ call, worker.call = some call → call.inserts

theorem inserts_givesUp (gives : worker.GivesUp worker') :
  worker'.Inserts
  := by
  rcases gives with rfl | ⟨failure, rfl⟩ <;> exact nofun

/-- A worker that `Inserts` only keeps the tables in their stores, and goes on to do so. -/
theorem keeps_turn (inserts : worker.Inserts)
    (served : ∀ tuple, pool.serves (.insert workload.table tuple))
    (eq : worker.turn workload transaction pool = (worker', after)) :
  pool.Keeps after ∧ worker'.Inserts
  := by
  rcases worker.turn_cases workload transaction pool with
    ⟨heard, -⟩ | ⟨-, -, commits⟩ | ⟨cause, -, gives⟩
  · rw [heard] at eq
    obtain ⟨keeps, activity, events, leads⟩ :
        pool.Keeps (worker.insertion workload transaction pool).2
        ∧ ∃ activity events, Round.Inserts transaction.id
          (worker.insertion workload transaction pool).1 activity events := by
      unfold insertion
      cases under : worker.call with
      | some call =>
        have mine := inserts call under
        have marks := Call.marks_of_inserts mine
        exact ⟨Call.keeps_round marks transaction.id pool, _, _, Call.round_inserts mine rfl⟩
      | none =>
        exact ⟨Request.keeps_enter (served _) transaction.id, _, _,
          Request.enter_inserts (served _) rfl⟩
    rcases hear_cases eq with ⟨next, on, rfl, rfl⟩ | ⟨outcome, answer, -, -, rfl, rfl⟩
      | ⟨outcome, failure, -, -, gives, rfl⟩
    · refine ⟨keeps, ?_⟩
      rintro call (⟨⟩)
      apply (leads.inserts_of_goesOn on).1
    · exact ⟨keeps, nofun⟩
    · exact ⟨keeps.trans (transaction.keeps_complete false _), inserts_givesUp gives⟩
  · rw [commits] at eq
    obtain ⟨rfl, ⟨-, rfl⟩ | ⟨failure, -, rfl⟩⟩ := commit_cases eq
    · exact ⟨transaction.keeps_complete true pool, nofun⟩
    · exact ⟨transaction.keeps_complete true pool, nofun⟩
  · rw [gives] at eq
    cases eq
    exact ⟨transaction.keeps_complete false pool, nofun⟩

/-! ### Turns on a system -/

/-- What is known of `worker` in the midst of `transaction`. -/
structure Busy (worker : Worker) (workload : Workload) (transaction : Transaction)
    (system : System) (history : History) : Prop where
  working : worker.status = .working
  active : transaction.state = .active
  doing : system.doing transaction.id = worker.call.elim .idle .calling
  calls : ∀ call, worker.call = some call → call.inserts ∧ worker.inserted < workload.tuples
  pending : (history.pending transaction.id).length = worker.inserted
  inserted : worker.inserted ≤ workload.tuples
  committed : worker.committed < workload.transactions

/-- What is known of `worker` that is in the midst of no transaction. -/
structure Resting (worker : Worker) (workload : Workload) : Prop where
  call : worker.call = none
  inserted : worker.inserted = 0
  committed : worker.committed ≤ workload.transactions
  finished : worker.status = .finished → worker.committed = workload.transactions

/-- What a turn makes of `worker` in the midst of `txn`, what happens in it, and what `txn` is in
the midst of then. -/
inductive Moves (worker : Worker) (workload : Workload) (txn : TransactionId) :
    Worker → List Event → Activity → Prop where
  | goesOn {next : Call} {events : List Event} (inserts : next.inserts)
      (more : worker.inserted < workload.tuples)
      (quiet : ∀ event ∈ events, event.isQuiet = true) :
      Moves worker workload txn { worker with call := some next } events (.calling next)
  | stores {record : RecordId} {tuple : Bytes} (more : worker.inserted < workload.tuples) :
      Moves worker workload txn { worker with inserted := worker.inserted + 1, call := none }
        [.inserted txn record tuple] .idle
  | commits (enough : workload.tuples ≤ worker.inserted) :
      Moves worker workload txn { worker.rest with committed := worker.committed + 1 }
        [.ended txn true (.ok ())] .idle
  | aborts {worker' : Worker} {result : Except (Failure PoolError) Unit}
      (gives : worker.GivesUp worker') :
      Moves worker workload txn worker' [.ended txn false result] .idle

variable {system : System} {history : History} {start : Pool} {no : StoreNo} {events : List Event}
  {spaces : Workspaces}

/-- The round that a worker's insertion comes to is a step of the system. -/
theorem Busy.insertion_step (busy : worker.Busy workload transaction system history)
    (served : ∀ tuple, system.pool.serves (.insert workload.table tuple)) :
  ∃ activity events,
    Round.Inserts transaction.id (worker.insertion workload transaction system.pool).1 activity
      events
    ∧ system.Step events (system.moved transaction.id
      (worker.insertion workload transaction system.pool).2 activity)
  := by
  unfold insertion
  cases under : worker.call with
  | some call =>
    have doing : system.doing transaction.id = .calling call := by
      rw [busy.doing, under]
      rfl
    exact ⟨_, _, Call.round_inserts (busy.calls call under).1 rfl, .round doing rfl⟩
  | none =>
    have idle : (system.doing transaction.id).mayCall := by
      rw [busy.doing, under]
      trivial
    exact ⟨_, _, Request.enter_inserts (served _) rfl, .enter idle (served _) rfl⟩

/-- The commit of a `Busy` worker without call succeeds, and is a step of the system. -/
theorem Busy.commit_step (busy : worker.Busy workload transaction system history)
    (reached : system.Reached start workload.table events spaces)
    (base : start.Over workload.table no) (free : worker.call = none)
    (eq : worker.commit transaction system.pool = (worker', after))
    (numbered : (after.store no).Numbered) :
  worker' = { worker.rest with committed := worker.committed + 1 }
    ∧ system.Step [.ended transaction.id true (.ok ())] (system.moved transaction.id after .idle)
  := by
  have free : (system.doing transaction.id).mayEnd true := by
    rw [busy.doing, free]
    trivial
  obtain ⟨outcome, pool⟩ := transaction.complete_active busy.active true system.pool
  obtain ⟨came, made⟩ := commit_cases eq
  have came : after = (system.pool.complete transaction.id true).2 := came.trans pool
  have step : System.Step system [.ended transaction.id true
        (system.pool.complete transaction.id true).1] (system.moved transaction.id after .idle) :=
    .complete free (by rw [came])
  obtain ⟨spaces', followed⟩ := reached.follow base (.single step) numbered
  have success : (system.pool.complete transaction.id true).1 = .ok () := by
    cases followed with
    | step first rest =>
      generalize (system.pool.complete transaction.id true).1 = result at first
      cases first
      rfl
  rw [success] at step outcome
  refine ⟨?_, step⟩
  rcases made with ⟨-, made⟩ | ⟨failure, failed, -⟩
  · apply made
  · cases outcome.symm.trans failed

/-- A `turn` of a `Busy` worker is a step of the system, or two, and satisfies `Moves`. -/
theorem Busy.turn (busy : worker.Busy workload transaction system history)
    (reached : system.Reached start workload.table events spaces)
    (base : start.Over workload.table no)
    (eq : worker.turn workload transaction system.pool = (worker', after))
    (numbered : (after.store no).Numbered) :
  ∃ events activity, worker.Moves workload transaction.id worker' events activity
    ∧ system.Run events (system.moved transaction.id after activity)
  := by
  rcases worker.turn_cases workload transaction system.pool with
    ⟨heard, more⟩ | ⟨free, enough, commits⟩ | ⟨cause, ended, -⟩
  · rw [heard] at eq
    have more : worker.inserted < workload.tuples := by
      cases under : worker.call with
      | none => apply more under
      | some call => apply (busy.calls call under).2
    obtain ⟨activity, events, inserts, step⟩ := busy.insertion_step (reached.serves_insert base)
    rcases hear_cases eq with ⟨next, on, rfl, rfl⟩ | ⟨outcome, answer, done, result, rfl, rfl⟩
      | ⟨outcome, failure, done, result, gives, rfl⟩
    · obtain ⟨goes, rfl, quiet⟩ := inserts.inserts_of_goesOn on
      exact ⟨_, _, .goesOn goes more quiet, .single step⟩
    · rw [done] at inserts
      cases inserts with
      | goesOn on' => simp [Round.stop?, Round.rest?] at on'
      | fails failed => cases result.symm.trans failed
      | stores => exact ⟨_, _, .stores more, .single step⟩
    · rw [done] at inserts
      cases inserts with
      | goesOn on' => simp [Round.stop?, Round.rest?] at on'
      | stores stored => cases result.symm.trans stored
      | fails failed ends =>
        obtain ⟨result, run⟩ := transaction.run_abort busy.active step ends
        exact ⟨_, _, .aborts gives, run⟩
  · rw [commits] at eq
    obtain ⟨rfl, step⟩ := busy.commit_step reached base free eq numbered
    exact ⟨_, _, .commits enough, .single step⟩
  · simp [Transaction.checkActive, busy.active] at ended

/-! ### What turns change -/

variable {activity : Activity}

/-- The `events` of a turn neither edit a page in place nor delete a record. -/
theorem Moves.inserts_only {txn : TransactionId}
    (moves : worker.Moves workload txn worker' events activity) :
  (∀ other page edits, .updated other page edits ∉ events)
    ∧ ∀ other record, .deleted other record ∉ events
  := by
  cases moves with
  | goesOn _ _ quiet =>
    constructor
    · intro other page edits member
      cases quiet _ member
    · intro other record member
      cases quiet _ member
  | _ => simp

/-- Whether the insertions in `events` are into `table`. -/
def Inside (events : List Event) (table : TableId) : Prop :=
  ∀ txn record tuple, .inserted txn record tuple ∈ events → record.page.table = table

/-- On a pool over one `table`, the insertions of a turn are `Inside` that table. -/
theorem Moves.inside {txn : TransactionId} {table : TableId} {events' : List Event} {last : System}
    (moves : worker.Moves workload txn worker' events' activity)
    (reached : system.Reached start table events spaces) (base : start.Over table no)
    (run : system.Run events' last) (numbered : (last.pool.store no).Numbered) :
  Inside events' table
  := by
  intro other record tuple member
  cases moves with
  | goesOn _ _ quiet => cases quiet _ member
  | stores =>
    cases List.mem_singleton.mp member
    obtain ⟨spaces', followed⟩ := reached.follow base run numbered
    cases followed with
    | step first rest =>
      cases first with
      | inserted seen => apply reached.table_of_view base (Option.isSome_of_mem seen)
  | commits => cases List.mem_singleton.mp member
  | aborts => cases List.mem_singleton.mp member

/-- A turn of `txn` leaves what is pending for an `other` transaction. -/
theorem Moves.pending_of_ne {txn other : TransactionId}
    (moves : worker.Moves workload txn worker' events activity)
    (inside : Inside events workload.table) (distinct : other ≠ txn) :
  (events.foldl (History.after workload.table) history).pending other = history.pending other
  := by
  cases moves with
  | goesOn _ _ quiet => rw [History.foldl_quiet history quiet]
  | @stores record tuple =>
    have own : record.page.table = workload.table := inside txn record tuple (by simp)
    simp [History.after, own, History.note, distinct]
  | commits => simp [History.after, History.commit, History.drop, distinct]
  | aborts => simp [History.after, History.drop, distinct]

/-- After a turn a worker is still `Busy` with its transaction, or it rests and the transaction has
nothing pending. -/
theorem Moves.rests (moves : worker.Moves workload transaction.id worker' events activity)
    (busy : worker.Busy workload transaction system history)
    (inside : Inside events workload.table) (after : Pool) :
  (worker'.transaction = worker.transaction
      ∧ worker'.Busy workload transaction (system.moved transaction.id after activity)
        (events.foldl (History.after workload.table) history))
    ∨ worker'.transaction = none ∧ worker'.Resting workload ∧ activity = .idle
      ∧ (events.foldl (History.after workload.table) history).pending transaction.id = []
  := by
  cases moves with
  | @goesOn next events inserts more quiet =>
    left
    rw [History.foldl_quiet history quiet]
    refine ⟨rfl, busy.working, busy.active, System.doing_moved_self .., ?_, busy.pending,
      busy.inserted, busy.committed⟩
    rintro call (⟨⟩)
    exact ⟨inserts, more⟩
  | @stores record tuple more =>
    left
    have own : record.page.table = workload.table := inside transaction.id record tuple (by simp)
    refine ⟨rfl, busy.working, busy.active, System.doing_moved_self .., nofun, ?_, more,
      busy.committed⟩
    simp [History.after, own, History.note, busy.pending]
  | commits enough =>
    right
    refine ⟨rfl, ⟨rfl, rfl, busy.committed, ?_⟩, rfl, ?_⟩
    · intro finished
      cases busy.working.symm.trans finished
    · simp [History.after, History.commit, History.drop]
  | @aborts _ result gives =>
    right
    have dropped : ([Event.ended transaction.id false result].foldl (History.after workload.table)
        history).pending transaction.id = [] := by
      simp [History.after, History.drop]
    rcases gives with rfl | ⟨failure, rfl⟩
    · refine ⟨rfl, ⟨rfl, rfl, Nat.le_of_lt busy.committed, ?_⟩, rfl, dropped⟩
      intro finished
      cases busy.working.symm.trans finished
    · refine ⟨rfl, ⟨rfl, rfl, Nat.le_of_lt busy.committed, ?_⟩, rfl, dropped⟩
      intro finished
      cases failure <;> cases finished

/-- A turn commits `workload.tuples` insertions for each transaction that its worker counts
more. -/
theorem Moves.committed (moves : worker.Moves workload transaction.id worker' events activity)
    (busy : worker.Busy workload transaction system history)
    (inside : Inside events workload.table) :
  (events.foldl (History.after workload.table) history).committed.length
      + worker.committed * workload.tuples
    = history.committed.length + worker'.committed * workload.tuples
  := by
  cases moves with
  | goesOn _ _ quiet => rw [History.foldl_quiet history quiet]
  | @stores record tuple =>
    have own : record.page.table = workload.table := inside transaction.id record tuple (by simp)
    simp [History.after, own, History.note]
  | commits enough =>
    have all : worker.inserted = workload.tuples := Nat.le_antisymm busy.inserted enough
    simp [History.after, History.commit, busy.pending, all, Nat.succ_mul]
    omega
  | aborts gives =>
    rcases gives with rfl | ⟨failure, rfl⟩
    · simp [History.after, History.drop, rest]
    · simp [History.after, History.drop, stop, rest]

end Worker

end StorageEngine

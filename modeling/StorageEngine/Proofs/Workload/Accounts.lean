import Mathlib.Algebra.Order.BigOperators.Group.List
import Mathlib.Algebra.Order.Ring.Nat
import StorageEngine.Proofs.Workload.Moves

/-!
# Accounts of crews

Workers who take turns on a pool over one table, in any order, run a system in which tuples are
inserted only.  At every point of it, the insertions that are committed are those of the
transactions that the workers have committed, and a transaction that is under way has made as many
as its worker knows of (`Crew.Accounted`).  Every turn keeps the accounts in order
(`Crew.Accounted.turn`), and so do all of them (`Crew.Accounted.turns`).
-/

namespace StorageEngine

namespace Worker

variable {worker : Worker}

/-- `worker` after it has begun the transaction `number`. -/
def started (worker : Worker) (number : UInt64) : Worker :=
  { worker with transaction := some (.begin ⟨number⟩) }

/-- A worker that finds that it has finished has begun as many transactions as before. -/
theorem begun_finish (free : worker.transaction = none) (working : worker.status = .working) :
  (worker.stop .finished).begun = worker.begun
  := by
  simp [begun, stop, rest, hasFailed, free, working]

end Worker

namespace Crew

variable {crew after : Crew} {i j : Nat} {worker worker' : Worker} {transaction : Transaction}

/-- The sum of `f` over the workers of `crew`. -/
def sum (crew : Crew) (f : Worker → Nat) : Nat :=
  crew.workers.foldl (fun sum worker => sum + f worker) 0

/-- The number of transactions that the workers of `crew` have begun. -/
def begun (crew : Crew) : Nat := crew.sum Worker.begun

theorem sum_eq (crew : Crew) (f : Worker → Nat) :
  crew.sum f = (crew.workers.toList.map f).sum
  := by
  rw [sum, ← Array.foldl_toList, List.sum_eq_foldl, List.foldl_map]

/-- When the worker `i` becomes `worker'`, the sum of `f` changes by what `f` changes for it. -/
theorem sum_setWorker (found : crew.workers[i]? = some worker) (worker' : Worker)
    (f : Worker → Nat) :
  (crew.setWorker i worker').sum f + f worker = crew.sum f + f worker'
  := by
  have set : ∀ (workers : List Worker) (i : Nat), workers[i]? = some worker →
      ((workers.set i worker').map f).sum + f worker = (workers.map f).sum + f worker' := by
    intro workers
    induction workers with
    | nil => simp
    | cons first workers ih =>
      rintro (_ | i) found
      · cases found
        simp
        omega
      · have rest := ih i found
        simp only [List.set_cons_succ, List.map_cons, List.sum_cons]
        omega
  rw [sum_eq, sum_eq]
  simpa [setWorker] using set crew.workers.toList i (by simpa using found)

/-- The transaction that the worker `i` is in the midst of. -/
def transactionOf? (crew : Crew) (i : Nat) : Option Transaction :=
  crew.workers[i]?.bind Worker.transaction

theorem worker_setWorker (found : crew.workers[i]? = some worker) (worker' : Worker) (j : Nat) :
  (crew.setWorker i worker').workers[j]? = if j = i then some worker' else crew.workers[j]?
  := by
  have inside : i < crew.workers.size := (Array.getElem?_eq_some_iff.mp found).1
  by_cases here : j = i
  · simp [setWorker, here, inside]
  · simp [setWorker, here, Array.getElem?_setIfInBounds_ne (Ne.symm here)]

/-! ### A worker that becomes another -/

section

variable {crew' : Crew} {txn : TransactionId}

theorem transactionOf?_of_workers
    (workers : ∀ j, crew'.workers[j]? = if j = i then some worker' else crew.workers[j]?)
    (j : Nat) :
  crew'.transactionOf? j = if j = i then worker'.transaction else crew.transactionOf? j
  := by
  rw [transactionOf?, workers]
  split <;> rfl

variable (becomes : ∀ j, crew'.transactionOf? j
  = if j = i then worker'.transaction else crew.transactionOf? j)

include becomes

/-- If `txn` was the transaction of the worker `i` alone, and `worker'` has no other, then it is
that of the worker `i` alone. -/
theorem id_of_replaced
    (own : ∀ j transaction, crew.transactionOf? j = some transaction →
      (j = i ↔ transaction.id = txn))
    (named : ∀ transaction, worker'.transaction = some transaction → transaction.id = txn)
    (j : Nat) (transaction : Transaction) (has : crew'.transactionOf? j = some transaction) :
  j = i ↔ transaction.id = txn
  := by
  rw [becomes] at has
  split at has
  · rename_i here
    simp [here, named transaction has]
  · apply own j transaction has

/-- When `worker'` takes the place of the worker `i`, transactions of workers stay distinct. -/
theorem distinct_of_replaced
    (named : ∀ j transaction, crew'.transactionOf? j = some transaction →
      (j = i ↔ transaction.id = txn))
    (distinct : ∀ i j transaction other, crew.transactionOf? i = some transaction →
      crew.transactionOf? j = some other → transaction.id = other.id → i = j)
    (j k : Nat) (transaction other : Transaction) (has : crew'.transactionOf? j = some transaction)
    (has' : crew'.transactionOf? k = some other) (same : transaction.id = other.id) :
  j = k
  := by
  have both : j = i ↔ k = i := by
    rw [named j transaction has, named k other has', same]
  by_cases first : j = i
  · rw [first, both.mp first]
  · rw [becomes, if_neg first] at has
    rw [becomes, if_neg (both.not.mp first)] at has'
    apply distinct j k transaction other has has' same

end

/-! ### Transactions that are begun -/

/-- `crew` after `worker`, the one at `i`, has begun a transaction. -/
def started (crew : Crew) (i : Nat) (worker : Worker) : Crew :=
  { crew with nextId := crew.nextId + 1 }.setWorker i (worker.started crew.nextId)

theorem worker_started (found : crew.workers[i]? = some worker) (j : Nat) :
  (crew.started i worker).workers[j]?
    = if j = i then some (worker.started crew.nextId) else crew.workers[j]?
  := by
  have found : ({ crew with nextId := crew.nextId + 1 } : Crew).workers[i]? = some worker := found
  apply worker_setWorker found

theorem sum_started (found : crew.workers[i]? = some worker) (f : Worker → Nat) :
  (crew.started i worker).sum f + f worker = crew.sum f + f (worker.started crew.nextId)
  := by
  have found : ({ crew with nextId := crew.nextId + 1 } : Crew).workers[i]? = some worker := found
  apply sum_setWorker found

/-- When the worker `i` begins a transaction, the crew has begun one more. -/
theorem begun_started (found : crew.workers[i]? = some worker) (free : worker.transaction = none)
    (working : worker.status = .working) :
  (crew.started i worker).begun = crew.begun + 1
  := by
  have sum : (crew.started i worker).begun + worker.begun
      = crew.begun + (worker.started crew.nextId).begun := sum_started found Worker.begun
  have one : (worker.started crew.nextId).begun = worker.begun + 1 := by
    simp [Worker.begun, Worker.started, Worker.hasFailed, free, working]
  omega

/-! ### Accounts -/

/-- Whether the accounts of `crew` agree with what has happened on its pool: its workers have begun
as many transactions as there were numbers given out, none twice, and the insertions that are
committed are those of the transactions that they have committed. -/
structure Accounted (crew : Crew) (workload : Workload) (start : Pool) (events : List Event)
    (system : System) : Prop where
  work : crew.workload = workload
  run : (System.start start).Run events system
  pool : system.pool = crew.pool
  unedited : ∀ txn page edits, .updated txn page edits ∉ events
  undeleted : ∀ txn record, .deleted txn record ∉ events
  busy : ∀ (i : Nat) (worker : Worker) (transaction : Transaction), crew.workers[i]? = some worker →
    worker.transaction = some transaction →
    worker.Busy workload transaction system (History.of workload.table events)
  resting : ∀ (i : Nat) (worker : Worker), crew.workers[i]? = some worker →
    worker.transaction = none → worker.Resting workload
  distinct : ∀ i j transaction other, crew.transactionOf? i = some transaction →
    crew.transactionOf? j = some other → transaction.id = other.id → i = j
  idle : ∀ txn, (∀ i transaction, crew.transactionOf? i = some transaction → transaction.id ≠ txn) →
    system.doing txn = .idle ∧ (History.of workload.table events).pending txn = []
  below : ∀ i transaction, crew.transactionOf? i = some transaction →
    transaction.id.number.toNat < crew.nextId.toNat
  numbers : crew.nextId.toNat = 1 + crew.begun
  stored : (History.of workload.table events).committed.length
    = crew.committed * workload.tuples

namespace Accounted

variable {start pool : Pool} {events events' : List Event} {system : System} {activity : Activity}
  {workload : Workload}

/-- A crew that has done nothing has its accounts in order. -/
theorem create (workload : Workload) (start : Pool) (workers : Nat) :
  (Crew.create workload start workers).Accounted workload start [] (System.start start)
  := by
  have fresh : ∀ (i : Nat) (worker : Worker),
      (Crew.create workload start workers).workers[i]? = some worker →
      worker.transaction = none ∧ worker.Resting workload := by
    intro i worker found
    simp only [Crew.create, Array.getElem?_map, Option.map_eq_some_iff] at found
    obtain ⟨number, -, rfl⟩ := found
    exact ⟨rfl, rfl, rfl, Nat.zero_le _, nofun⟩
  have none : ∀ i transaction,
      (Crew.create workload start workers).transactionOf? i ≠ some transaction := by
    intro i transaction has
    obtain ⟨worker, found, busy⟩ := Option.bind_eq_some_iff.mp has
    cases (fresh i worker found).1.symm.trans busy
  have zero : ∀ f : Worker → Nat, (∀ number, f { number } = 0) →
      (Crew.create workload start workers).sum f = 0 := by
    intro f nothing
    simp [sum_eq, Crew.create, Function.comp_def, nothing]
  constructor
  · rfl
  · exact .start
  · rfl
  · intro _ _ _
    apply List.not_mem_nil
  · intro _ _
    apply List.not_mem_nil
  · intro i worker transaction found busy
    cases (fresh i worker found).1.symm.trans busy
  · intro i worker found _
    apply (fresh i worker found).2
  · intro i j transaction other has
    cases none i transaction has
  · intro txn _
    exact ⟨rfl, rfl⟩
  · intro i transaction has
    cases none i transaction has
  · have begun : (Crew.create workload start workers).begun = 0 := zero Worker.begun fun _ => rfl
    rw [begun]
    rfl
  · have committed : (Crew.create workload start workers).committed = 0 :=
      zero Worker.committed fun _ => rfl
    rw [committed, Nat.zero_mul]
    rfl

/-- `Accounted` persists when one worker becomes `worker'`, and something happens to `txn` alone,
which is its transaction. -/
theorem replace {crew' : Crew} {system' : System}
    (accounted : crew.Accounted workload start events system) (worker' : Worker)
    (txn : TransactionId)
    (work : crew'.workload = workload)
    (workers : ∀ j, crew'.workers[j]? = if j = i then some worker' else crew.workers[j]?)
    (own : ∀ j transaction, crew.transactionOf? j = some transaction →
      (j = i ↔ transaction.id = txn))
    (run : system.Run events' system') (pool : system'.pool = crew'.pool)
    (only : (∀ other page edits, .updated other page edits ∉ events')
      ∧ ∀ other record, .deleted other record ∉ events')
    (others : ∀ other, other ≠ txn → system'.doing other = system.doing other
      ∧ (History.of workload.table (events ++ events')).pending other
        = (History.of workload.table events).pending other)
    (busy : ∀ transaction, worker'.transaction = some transaction →
      transaction.id = txn ∧ txn.number.toNat < crew'.nextId.toNat
      ∧ worker'.Busy workload transaction system'
        (History.of workload.table (events ++ events')))
    (resting : worker'.transaction = none → worker'.Resting workload ∧ system'.doing txn = .idle
      ∧ (History.of workload.table (events ++ events')).pending txn = [])
    (next : crew.nextId.toNat ≤ crew'.nextId.toNat)
    (numbers : crew'.nextId.toNat = 1 + crew'.begun)
    (stored : (History.of workload.table (events ++ events')).committed.length
      = crew'.committed * workload.tuples) :
  crew'.Accounted workload start (events ++ events') system'
  := by
  have becomes := transactionOf?_of_workers workers
  have named := id_of_replaced becomes own fun transaction has => (busy transaction has).1
  refine ⟨work, accounted.run.trans run, pool, ?_, ?_, ?_, ?_, ?_, ?_, ?_, numbers, stored⟩
  · simp [accounted.unedited, only.1]
  · simp [accounted.undeleted, only.2]
  · intro j other transaction found has
    rw [workers] at found
    split at found
    · cases found
      apply (busy transaction has).2.2
    · rename_i there
      have before := accounted.busy j other transaction found has
      have distinct : transaction.id ≠ txn := by
        intro same
        apply there
        apply (own j transaction _).mpr same
        rw [transactionOf?, found]
        apply has
      refine { before with doing := ?_, pending := ?_ }
      · rw [(others _ distinct).1]
        apply before.doing
      · rw [(others _ distinct).2]
        apply before.pending
  · intro j other found free
    rw [workers] at found
    split at found
    · cases found
      apply (resting free).1
    · apply accounted.resting j other found free
  · apply distinct_of_replaced becomes named accounted.distinct
  · intro other unused
    by_cases same : other = txn
    · rw [same]
      apply (resting _).2
      by_contra has
      obtain ⟨transaction, has⟩ := Option.ne_none_iff_exists'.mp has
      apply unused i transaction _ ((busy transaction has).1.trans same.symm)
      rw [becomes, if_pos rfl]
      apply has
    · rw [(others other same).1, (others other same).2]
      apply accounted.idle
      intro j transaction has
      by_cases there : j = i
      · rw [(own j transaction has).mp there]
        apply Ne.symm same
      · apply unused j transaction
        rw [becomes, if_neg there]
        apply has
  · intro j transaction has
    rw [becomes] at has
    split at has
    · obtain ⟨id, below, -⟩ := busy transaction has
      rw [id]
      apply below
    · apply Nat.lt_of_lt_of_le _ next
      apply accounted.below j transaction has

/-- `Accounted` persists when the worker `i` moves in its `transaction`. -/
theorem moved (accounted : crew.Accounted workload start events system)
    (found : crew.workers[i]? = some worker) (has : worker.transaction = some transaction)
    (moves : worker.Moves workload transaction.id worker' events' activity)
    (run : system.Run events' (system.moved transaction.id pool activity))
    (inside : Worker.Inside events' workload.table) (begun : worker'.begun = worker.begun) :
  (crew.moved i (worker', pool)).Accounted workload start (events ++ events')
    (system.moved transaction.id pool activity)
  := by
  have busy := accounted.busy i worker transaction found has
  have mine : crew.transactionOf? i = some transaction := by
    rw [transactionOf?, found]
    exact has
  have history : History.of workload.table (events ++ events')
      = events'.foldl (History.after workload.table) (History.of workload.table events) :=
    List.foldl_append
  have rests := moves.rests busy inside pool
  refine accounted.replace worker' transaction.id accounted.work (worker_setWorker found worker') ?_
    run rfl moves.inserts_only ?_ ?_ ?_ (Nat.le_refl _) ?_ ?_
  · intro j other had
    constructor
    · rintro rfl
      cases mine.symm.trans had
      rfl
    · exact accounted.distinct j i other transaction had mine
  · intro other distinct
    rw [history]
    exact ⟨System.doing_moved_of_ne _ _ _ distinct, moves.pending_of_ne inside distinct⟩
  · intro other had
    rcases rests with ⟨same, busy'⟩ | ⟨none, -⟩
    · rw [same, has] at had
      cases had
      rw [history]
      exact ⟨rfl, accounted.below i transaction mine, busy'⟩
    · cases none.symm.trans had
  · intro none
    rcases rests with ⟨same, -⟩ | ⟨-, resting, rfl, empty⟩
    · rw [same, has] at none
      cases none
    · rw [history, System.doing_moved_self]
      exact ⟨resting, rfl, empty⟩
  · have sum : (crew.moved i (worker', pool)).begun + worker.begun = crew.begun + worker'.begun :=
      sum_setWorker found worker' Worker.begun
    have numbers : (crew.moved i (worker', pool)).nextId.toNat = 1 + crew.begun := accounted.numbers
    omega
  · have sum : (crew.moved i (worker', pool)).committed + worker.committed
        = crew.committed + worker'.committed := sum_setWorker found worker' Worker.committed
    have product := congrArg (· * workload.tuples) sum
    simp only [Nat.add_mul] at product
    have more := moves.committed busy inside
    have stored := accounted.stored
    rw [history]
    omega

/-- The transaction that is begun next, with `crew.nextId`, is not one that a worker is in the
midst of. -/
theorem unused (accounted : crew.Accounted workload start events system) (j : Nat)
    (transaction : Transaction) (has : crew.transactionOf? j = some transaction) :
  transaction.id ≠ ⟨crew.nextId⟩
  := by
  intro same
  have below := accounted.below j transaction has
  rw [same] at below
  apply Nat.lt_irrefl _ below

/-- A worker in the midst of no transaction has none with `crew.nextId`, nor has another. -/
theorem own_unused (accounted : crew.Accounted workload start events system)
    (found : crew.workers[i]? = some worker) (free : worker.transaction = none) (j : Nat)
    (transaction : Transaction) (has : crew.transactionOf? j = some transaction) :
  j = i ↔ transaction.id = ⟨crew.nextId⟩
  := by
  constructor
  · rintro rfl
    rw [transactionOf?, found] at has
    cases free.symm.trans has
  · intro same
    cases accounted.unused j transaction has same

/-- `Accounted` persists when the worker `i` finds that it has finished. -/
theorem finished (accounted : crew.Accounted workload start events system)
    (found : crew.workers[i]? = some worker) (free : worker.transaction = none)
    (working : worker.status = .working) (enough : workload.transactions ≤ worker.committed) :
  (crew.setWorker i (worker.stop .finished)).Accounted workload start events system
  := by
  have resting := accounted.resting i worker found free
  have idle := accounted.idle ⟨crew.nextId⟩ accounted.unused
  have all : worker.committed = workload.transactions := Nat.le_antisymm resting.committed enough
  have after : (crew.setWorker i (worker.stop .finished)).Accounted workload start (events ++ [])
      system := by
    refine accounted.replace (worker.stop .finished) ⟨crew.nextId⟩ accounted.work
      (worker_setWorker found _) (accounted.own_unused found free) .start accounted.pool (by simp)
      ?_ nofun ?_ (Nat.le_refl _) ?_ ?_
    · intro other _
      rw [List.append_nil]
      exact ⟨rfl, rfl⟩
    · intro _
      rw [List.append_nil]
      exact ⟨⟨rfl, rfl, resting.committed, fun _ => all⟩, idle⟩
    · have sum : (crew.setWorker i (worker.stop .finished)).begun + worker.begun
          = crew.begun + (worker.stop .finished).begun := sum_setWorker found _ Worker.begun
      have numbers : (crew.setWorker i (worker.stop .finished)).nextId.toNat = 1 + crew.begun :=
        accounted.numbers
      rw [Worker.begun_finish free working] at sum
      omega
    · have sum : (crew.setWorker i (worker.stop .finished)).committed + worker.committed
          = crew.committed + worker.committed := sum_setWorker found _ Worker.committed
      rw [List.append_nil, Nat.add_right_cancel sum]
      apply accounted.stored
  rw [List.append_nil] at after
  apply after

/-- `Accounted` persists when the worker `i` begins a transaction, if there is a number for it. -/
theorem started (accounted : crew.Accounted workload start events system)
    (found : crew.workers[i]? = some worker) (free : worker.transaction = none)
    (working : worker.status = .working) (more : worker.committed < workload.transactions)
    (numbered : crew.nextId.toNat + 1 < UInt64.size) :
  (crew.started i worker).Accounted workload start events system
  := by
  have resting := accounted.resting i worker found free
  obtain ⟨idle, empty⟩ := accounted.idle ⟨crew.nextId⟩ accounted.unused
  have next : (crew.started i worker).nextId.toNat = crew.nextId.toNat + 1 := by
    show (crew.nextId + 1).toNat = _
    rw [UInt64.toNat_add]
    apply Nat.mod_eq_of_lt numbered
  have after : (crew.started i worker).Accounted workload start (events ++ []) system := by
    refine accounted.replace (worker.started crew.nextId) ⟨crew.nextId⟩ accounted.work
      (worker_started found) (accounted.own_unused found free) .start accounted.pool (by simp)
      ?_ ?_ nofun ?_ ?_ ?_
    · intro other _
      rw [List.append_nil]
      exact ⟨rfl, rfl⟩
    · rintro transaction (⟨⟩)
      rw [List.append_nil, next]
      refine ⟨rfl, Nat.lt_succ_self _, working, rfl, ?_, ?_, ?_, ?_, more⟩
      · simp [Worker.started, Transaction.begin, idle, resting.call]
      · simp [Worker.started, resting.call]
      · simp [Worker.started, Transaction.begin, empty, resting.inserted]
      · simp [Worker.started, resting.inserted]
    · rw [next]
      apply Nat.le_succ
    · have begun := begun_started found free working
      have numbers := accounted.numbers
      omega
    · have sum : (crew.started i worker).committed + worker.committed
          = crew.committed + worker.committed := sum_started found Worker.committed
      rw [List.append_nil, Nat.add_right_cancel sum]
      apply accounted.stored
  rw [List.append_nil] at after
  apply after

end Accounted

/-! ### Turns -/

/-- What `crew.turn i` does: nothing; or it is part of the transaction of the worker `i`, or ends
its work, or begins a transaction. -/
theorem turn_cases (crew : Crew) (i : Nat) :
  crew.turn i = crew
    ∨ ∃ worker, crew.workers[i]? = some worker ∧ worker.status = .working
      ∧ ((∃ transaction, worker.transaction = some transaction
          ∧ crew.turn i = crew.moved i (worker.turn crew.workload transaction crew.pool))
        ∨ worker.transaction = none ∧ crew.workload.transactions ≤ worker.committed
          ∧ crew.turn i = crew.setWorker i (worker.stop .finished)
        ∨ worker.transaction = none ∧ worker.committed < crew.workload.transactions
          ∧ crew.turn i = crew.started i worker)
  := by
  cases found : crew.workers[i]? with
  | none =>
    left
    simp [turn, found]
  | some worker =>
    by_cases working : worker.status = .working
    · right
      refine ⟨worker, rfl, working, ?_⟩
      cases busy : worker.transaction with
      | some transaction =>
        left
        exact ⟨transaction, rfl, by simp [turn, found, working, busy]⟩
      | none =>
        right
        by_cases more : worker.committed < crew.workload.transactions
        · right
          refine ⟨rfl, more, ?_⟩
          simp [turn, step, found, working, busy, more, started, Worker.started]
        · left
          exact ⟨rfl, Nat.not_lt.mp more, by simp [turn, step, found, working, busy, more]⟩
    · left
      simp [turn, found, working]

/-- `crew.turn i` takes back no transaction that was begun, and no page. -/
theorem turn_le (crew : Crew) (i : Nat) :
  crew.begun ≤ (crew.turn i).begun ∧ crew.pool.Grows (crew.turn i).pool
  := by
  rcases crew.turn_cases i with same | ⟨worker, found, working,
    ⟨transaction, busy, eq⟩ | ⟨free, -, eq⟩ | ⟨free, -, eq⟩⟩
  · rw [same]
    exact ⟨Nat.le_refl _, .of_stores rfl⟩
  · rw [eq]
    cases turned : worker.turn crew.workload transaction crew.pool with
    | mk worker' pool =>
      obtain ⟨begun, grows⟩ := Worker.begun_turn busy working turned
      have sum := sum_setWorker found worker' Worker.begun
      refine ⟨Nat.le_of_eq ?_, grows⟩
      show crew.sum Worker.begun = (crew.setWorker i worker').sum Worker.begun
      omega
  · rw [eq]
    have sum : (crew.setWorker i (worker.stop .finished)).begun + worker.begun
        = crew.begun + (worker.stop .finished).begun := sum_setWorker found _ Worker.begun
    rw [Worker.begun_finish free working] at sum
    exact ⟨by omega, .of_stores rfl⟩
  · rw [eq, begun_started found free working]
    exact ⟨Nat.le_succ _, .of_stores rfl⟩

/-- `turns` leave a crew as many workers as it had. -/
theorem size_turns (turns : crew.Turns after) :
  after.workers.size = crew.workers.size
  := by
  induction turns with
  | refl => rfl
  | @tail crew _ before turn ih =>
    obtain ⟨i, rfl⟩ := turn
    rw [← ih]
    rcases crew.turn_cases i with same | ⟨worker, -, -,
      ⟨transaction, -, eq⟩ | ⟨-, -, eq⟩ | ⟨-, -, eq⟩⟩
    · rw [same]
    · simp [eq, moved, setWorker]
    · simp [eq, setWorker]
    · simp [eq, started, setWorker]

/-- `turns` take no page away. -/
theorem grows_turns (turns : crew.Turns after) :
  crew.pool.Grows after.pool
  := by
  induction turns with
  | refl => exact .of_stores rfl
  | @tail crew _ before turn ih =>
    obtain ⟨i, rfl⟩ := turn
    exact ih.trans (crew.turn_le i).2

/-- Whether `crew` makes insertions only, on a pool that is `Tidy` and keeps the tables of
`start`. -/
structure Orderly (crew : Crew) (workload : Workload) (start : Pool) : Prop where
  work : crew.workload = workload
  tidy : crew.pool.Tidy
  same : start.SameTables crew.pool
  inserts : ∀ (i : Nat) (worker : Worker), crew.workers[i]? = some worker → worker.Inserts

namespace Orderly

variable {workload : Workload} {start pool : Pool}

theorem create {workers : Nat} (tidy : start.Tidy) :
  (Crew.create workload start workers).Orderly workload start
  := by
  refine ⟨rfl, tidy, .refl start, ?_⟩
  intro i worker found
  simp only [Crew.create, Array.getElem?_map, Option.map_eq_some_iff] at found
  obtain ⟨number, -, rfl⟩ := found
  exact nofun

/-- `Orderly` persists when one worker becomes `worker'`, which `Inserts` only, on a pool that
keeps its tables. -/
theorem replace {crew' : Crew} (orderly : crew.Orderly workload start)
    (work : crew'.workload = workload) (keeps : crew.pool.Keeps crew'.pool)
    (workers : ∀ j, crew'.workers[j]? = if j = i then some worker' else crew.workers[j]?)
    (inserts : worker'.Inserts) :
  crew'.Orderly workload start
  := by
  obtain ⟨tidy, same⟩ := keeps orderly.tidy
  refine ⟨work, tidy, orderly.same.trans same, ?_⟩
  intro j other found
  rw [workers] at found
  split at found
  · cases found
    apply inserts
  · apply orderly.inserts j other found

/-- `crew.turn i` is `Orderly` if `crew` is. -/
theorem turn (orderly : crew.Orderly workload start)
    (heap : ∀ no, start.catalog.get? workload.table = some no →
      ∃ pageSize, (start.store no).shape = .inl pageSize) (i : Nat) :
  (crew.turn i).Orderly workload start
  := by
  rcases crew.turn_cases i with same | ⟨worker, found, working,
    ⟨transaction, has, eq⟩ | ⟨free, -, eq⟩ | ⟨free, -, eq⟩⟩
  · rw [same]
    apply orderly
  · rw [eq, orderly.work]
    cases turned : worker.turn workload transaction crew.pool with
    | mk worker' pool =>
      obtain ⟨keeps, inserts⟩ := Worker.keeps_turn (orderly.inserts i worker found)
        (orderly.same.serves_insert heap) turned
      exact orderly.replace orderly.work keeps (worker_setWorker found worker') inserts
  · rw [eq]
    exact orderly.replace orderly.work (.refl _) (worker_setWorker found _) nofun
  · rw [eq]
    exact orderly.replace orderly.work (.refl _) (worker_started found)
      (orderly.inserts i worker found)

/-- A crew that takes `turns` is `Orderly`. -/
theorem turns {workers : Nat} (tidy : start.Tidy)
    (heap : ∀ no, start.catalog.get? workload.table = some no →
      ∃ pageSize, (start.store no).shape = .inl pageSize)
    (turns : (Crew.create workload start workers).Turns crew) :
  crew.Orderly workload start
  := by
  induction turns with
  | refl => apply create tidy
  | tail _ turn ih =>
    obtain ⟨i, rfl⟩ := turn
    apply ih.turn heap i

end Orderly

namespace Accounted

variable {workload : Workload} {start : Pool} {no : StoreNo} {events : List Event}
  {system : System}

/-- `Accounted` persists in `crew.turn i`, while transactions and pages have numbers. -/
theorem turn (accounted : crew.Accounted workload start events system)
    (base : start.Over workload.table no) (i : Nat)
    (numbers : (crew.turn i).begun + 1 < UInt64.size)
    (numbered : ((crew.turn i).pool.store no).Numbered) :
  ∃ events' system', (crew.turn i).Accounted workload start events' system'
  := by
  have work := accounted.work
  have before : (system.pool.store no).Numbered := by
    rw [accounted.pool]
    exact Nat.lt_of_le_of_lt ((crew.turn_le i).2 no) numbered
  obtain ⟨spaces, reached⟩ :=
    accounted.run.reached base before accounted.unedited accounted.undeleted
  rcases crew.turn_cases i with same | ⟨worker, found, working,
    ⟨transaction, has, eq⟩ | ⟨free, enough, eq⟩ | ⟨free, more, eq⟩⟩
  · rw [same]
    exact ⟨events, system, accounted⟩
  · rw [eq] at numbered ⊢
    rw [work, ← accounted.pool] at numbered ⊢
    cases turned : worker.turn workload transaction system.pool with
    | mk worker' pool =>
      rw [turned] at numbered
      obtain ⟨events', activity, moves, run⟩ :=
        (accounted.busy i worker transaction found has).turn reached base turned
          numbered
      have inside := moves.inside reached base run numbered
      exact ⟨_, _, accounted.moved found has moves run inside
        (Worker.begun_turn has working turned).1⟩
  · rw [eq]
    exact ⟨events, system, accounted.finished found free working (work ▸ enough)⟩
  · rw [eq] at numbers ⊢
    refine ⟨events, system, accounted.started found free working (work ▸ more) ?_⟩
    rw [begun_started found free working] at numbers
    have given := accounted.numbers
    omega

/-- A crew that takes `turns` on a pool over one table is `Accounted`, while transactions and pages
have numbers. -/
theorem turns {workers : Nat} (base : start.Over workload.table no)
    (turns : (Crew.create workload start workers).Turns crew)
    (numbers : crew.begun + 1 < UInt64.size)
    (numbered : (crew.pool.store no).Numbered) :
  ∃ events system, crew.Accounted workload start events system
  := by
  induction turns with
  | refl => exact ⟨[], System.start start, .create workload start workers⟩
  | @tail crew _ before turn ih =>
    obtain ⟨i, rfl⟩ := turn
    obtain ⟨fewer, grows⟩ := crew.turn_le i
    obtain ⟨events, system, accounted⟩ := ih (by omega) (Nat.lt_of_le_of_lt (grows no) numbered)
    apply accounted.turn base i numbers numbered

/-- Nobody commits more than `workload.transactions`. -/
theorem committed_le (accounted : crew.Accounted workload start events system) :
  crew.committed ≤ crew.workers.size * workload.transactions
  := by
  have each : ∀ worker ∈ crew.workers.toList, worker.committed ≤ workload.transactions := by
    intro worker member
    obtain ⟨i, found⟩ := Array.mem_iff_getElem?.mp (Array.mem_toList_iff.mp member)
    cases has : worker.transaction with
    | none => apply (accounted.resting i worker found has).committed
    | some transaction =>
      apply Nat.le_of_lt (accounted.busy i worker transaction found has).committed
  have sum : crew.committed = (crew.workers.toList.map Worker.committed).sum := crew.sum_eq _
  rw [sum, ← Array.length_toList, ← List.length_map (f := Worker.committed)]
  apply List.sum_le_card_nsmul
  intro committed member
  obtain ⟨worker, among, rfl⟩ := List.mem_map.mp member
  apply each worker among

/-- If no worker has failed, then all have committed `workload.transactions`. -/
theorem committed_of_finished (accounted : crew.Accounted workload start events system)
    (done : crew.failure? = none) :
  crew.committed = crew.workers.size * workload.transactions
  := by
  have each : ∀ worker ∈ crew.workers.toList, worker.committed = workload.transactions := by
    intro worker member
    obtain ⟨i, found⟩ := Array.mem_iff_getElem?.mp (Array.mem_toList_iff.mp member)
    have finished : worker.status = .finished := by
      simp only [failure?, Option.map_eq_none_iff, Array.find?_eq_none] at done
      simpa using done worker (Array.mem_toList_iff.mp member)
    cases has : worker.transaction with
    | none => apply (accounted.resting i worker found has).finished finished
    | some transaction =>
      cases finished.symm.trans (accounted.busy i worker transaction found has).working
  have sum : crew.committed = (crew.workers.toList.map Worker.committed).sum := crew.sum_eq _
  rw [sum, List.map_congr_left each]
  simp

end Accounted

end Crew

end StorageEngine

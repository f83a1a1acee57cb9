import StorageEngine.Proofs.System.Following
import StorageEngine.Transaction

/-!
# From the beginning of a transaction to its end

A transaction is used through a handle: it makes calls, marks what it has changed, commits or
aborts, and in the end its handle is dropped.  In between, others use the same pool, and anything
may fail.  All the same the pool is told once to end the transaction, in the way in which the
handle was told so first; from then on the handle refuses whatever is asked of it, and the
transaction is left with no lock and waits for none (`Tenure.Run.ends_once`).
-/

namespace StorageEngine

variable {txn : TransactionId} {pool after : Pool}

/-! ### Handles -/

namespace Transaction

variable {σ : Type} {transaction : Transaction}

/-- Ends `transaction` by whatever `ends` transactions. -/
def completeWith (ends : σ → TransactionId → Bool → Except (Failure PoolError) Unit × σ)
    (transaction : Transaction) (commits : Bool) (state : σ) :
    Except (Failure TransactionError) Unit × Transaction × σ :=
  match transaction.checkActive with
  | .error cause => (.error (.error cause), transaction, state)
  | .ok () =>
    let (result, state) := ends state transaction.id commits
    (widen .pool result, { transaction with state := endState commits }, state)

/-- `transaction.complete` is `completeWith` for `Pool.complete`. -/
theorem completeWith_complete (transaction : Transaction) :
  transaction.completeWith Pool.complete = transaction.complete
  := rfl

theorem checkActive_ended (ended : transaction.state ≠ .active) :
  transaction.checkActive = .error (.ended transaction.id)
  := if_neg ended

theorem checkActive_active (active : transaction.state = .active) :
  transaction.checkActive = .ok ()
  := if_pos active

theorem endState_ne_active (commits : Bool) :
  endState commits ≠ .active
  := by
  cases commits <;> nofun

/-- A `transaction` that is not `.active` refuses to end with `.ended`, and `state` stays. -/
theorem completeWith_ended
    (ends : σ → TransactionId → Bool → Except (Failure PoolError) Unit × σ)
    (ended : transaction.state ≠ .active) (commits : Bool) (state : σ) :
  transaction.completeWith ends commits state
    = (.error (.error (.ended transaction.id)), transaction, state)
  := by
  rw [completeWith, checkActive_ended ended]

/-- An `.active` transaction ends as `ends` says, whatever comes of it. -/
theorem completeWith_active
    (ends : σ → TransactionId → Bool → Except (Failure PoolError) Unit × σ)
    (active : transaction.state = .active) (commits : Bool) (state : σ) :
  transaction.completeWith ends commits state
    = (widen .pool (ends state transaction.id commits).1,
      ⟨transaction.id, endState commits⟩, (ends state transaction.id commits).2)
  := by
  rw [completeWith, checkActive_active active]

/-- A `transaction` that is not `.active` refuses a call with `.ended`, and `pool` stays. -/
theorem call_ended (ended : transaction.state ≠ .active) (request : Request) (pool : Pool) :
  transaction.call request pool = (.error (.ended transaction.id), pool)
  := by
  rw [call, checkActive_ended ended]

/-- An `.active` transaction makes a call in rounds, by `Round.proceed`. -/
theorem call_active (active : transaction.state = .active) (request : Request) (pool : Pool) :
  transaction.call request pool
    = (.ok (Round.proceed transaction.id (request.enter transaction.id pool)).1,
      (Round.proceed transaction.id (request.enter transaction.id pool)).2)
  := by
  rw [call, checkActive_active active]
  dsimp only
  rw [Request.start_eq_proceed]

/-- A `transaction` that is not `.active` refuses to mark with `.ended`, and `pool` stays. -/
theorem markDirty_ended (ended : transaction.state ≠ .active) (no : CopyNo) (pool : Pool) :
  transaction.markDirty no pool = (.error (.error (.ended transaction.id)), pool)
  := by
  rw [markDirty, checkActive_ended ended]

theorem markDirty_active (active : transaction.state = .active) (no : CopyNo) (pool : Pool) :
  (transaction.markDirty no pool).2 = (pool.markDirty transaction.id no).2
  := by
  rw [markDirty, checkActive_active active]

end Transaction

/-! ### Pools that note who ends -/

/-- A `pool`, with what it was told of the `ends` of transactions: which of them was ended, and
whether it was to commit. -/
structure NotedPool where
  pool : Pool
  ends : List (TransactionId × Bool)

namespace NotedPool

variable {noted : NotedPool}

/-- Ends `txn`, and notes it. -/
def complete (noted : NotedPool) (txn : TransactionId) (commits : Bool) :
    Except (Failure PoolError) Unit × NotedPool :=
  let (result, pool) := noted.pool.complete txn commits
  (result, ⟨pool, noted.ends ++ [(txn, commits)]⟩)

/-- `noted` after a step. -/
def perform (noted : NotedPool) : TableAct → NotedPool
  | .use (.complete txn commits) => (noted.complete txn commits).2
  | act => { noted with pool := noted.pool.performTable act }

/-- The ends of `txn`: for each time that it was ended, whether it was to commit. -/
def endsOf (noted : NotedPool) (txn : TransactionId) : List Bool :=
  (noted.ends.filter fun ended => ended.1 = txn).map Prod.snd

@[simp]
theorem pool_perform (noted : NotedPool) (act : TableAct) :
  (noted.perform act).pool = noted.pool.performTable act
  := by
  unfold perform
  split <;> rfl

theorem endsOf_complete (noted : NotedPool) (txn : TransactionId) (commits : Bool) :
  (noted.complete txn commits).2.endsOf txn = noted.endsOf txn ++ [commits]
  := by
  simp [endsOf, complete]

/-- An `act` of others adds nothing to `endsOf txn`. -/
theorem endsOf_perform {act : TableAct} (others : act.locker? ≠ some txn) :
  (noted.perform act).endsOf txn = noted.endsOf txn
  := by
  unfold perform
  split
  · rename_i other commits
    have distinct : other ≠ txn := fun same => others (congrArg some same)
    simp [endsOf, complete, distinct]
  · rfl

end NotedPool

/-! ### Handles on shared pools -/

/-- A transaction from when it was begun, and the pool that it shares with others. -/
structure Tenure where
  handle : Transaction
  /-- The call that is under way. -/
  call? : Option Call
  shared : NotedPool
  dropped : Bool

/-- What happens to a transaction. -/
inductive HandleAct where
  /-- Others use the pool: they make calls and end, overwrite copies, add and remove tables, and
  stores begin or cease to fail. -/
  | others (act : TableAct)
  /-- A call begins. -/
  | call (request : Request)
  /-- The call under way goes on, up to its next lock request. -/
  | resume
  | mark (no : CopyNo)
  /-- The transaction is told to end. -/
  | finish (commits : Bool)
  /-- The handle is dropped. -/
  | drop

/-- Whether the transaction is to commit, if it is told to end. -/
def HandleAct.finish? : HandleAct → Option Bool
  | finish commits => some commits
  | _ => none

/-- Whether the transaction ends, if it has not ended before. -/
def HandleAct.ends : HandleAct → Bool
  | finish _ | drop => true
  | _ => false

namespace Tenure

/-- `txn`, which begins on `pool`. -/
def begin (txn : TransactionId) (pool : Pool) : Tenure := ⟨.begin txn, none, ⟨pool, []⟩, false⟩

variable {tenure : Tenure} {acts : List HandleAct}

/-- Whether the handle of `tenure` is there and no call is under way. -/
def Free (tenure : Tenure) : Prop := tenure.call? = none ∧ tenure.dropped = false

/-- Whether something can happen to `tenure`: the handle is asked for one thing at a time until it
is dropped, others do not act for its transaction, and stores are `Laid` when the transaction
ends. -/
def permits (tenure : Tenure) : HandleAct → Prop
  | .others act => act.locker? ≠ some tenure.handle.id ∧ tenure.shared.pool.admits act
  | .resume => True
  | .call _ => tenure.Free
  | .mark no => tenure.Free ∧ no < tenure.shared.pool.copies.size
  | .finish _ | .drop =>
    tenure.Free ∧ (tenure.handle.state = .active → tenure.shared.pool.Laid)

/-- `tenure` after it was told to end. -/
def finish (tenure : Tenure) (commits : Bool) : Tenure :=
  let (_, handle, shared) :=
    tenure.handle.completeWith NotedPool.complete commits tenure.shared
  { tenure with handle, shared }

/-- `tenure` after a round of a call. -/
def went (tenure : Tenure) (round : Round × Pool) : Tenure :=
  { tenure with call? := round.1.pending?, shared.pool := round.2 }

/-- The transaction after something has happened.  A call is made in rounds, since others may act
between any two of them (`Transaction.call_active`). -/
def perform (tenure : Tenure) : HandleAct → Tenure
  | .others act => { tenure with shared := tenure.shared.perform act }
  | .call request =>
    match tenure.handle.checkActive with
    | .error _ => tenure
    | .ok () => tenure.went (request.enter tenure.handle.id tenure.shared.pool)
  | .resume =>
    match tenure.call? with
    | none => tenure
    | some call => tenure.went (call.round tenure.handle.id tenure.shared.pool)
  | .mark no =>
    { tenure with shared.pool := (tenure.handle.markDirty no tenure.shared.pool).2 }
  | .finish commits => tenure.finish commits
  | .drop => { tenure.finish false with dropped := true }

/-- What happens from `start` on, one thing after another. -/
inductive Run (start : Tenure) : List HandleAct → Tenure → Prop where
  | start : Run start [] start
  | act {acts : List HandleAct} {tenure : Tenure} (before : Run start acts tenure)
      (act : HandleAct) (permitted : tenure.permits act) :
      Run start (acts ++ [act]) (tenure.perform act)

/-- How a transaction ends that was told so in `acts`, or that was `dropped`. -/
def ending? (acts : List HandleAct) (dropped : Bool) : Option Bool :=
  (acts.findSome? HandleAct.finish?).or (if dropped then some false else none)

/-- `tenure.finish commits` leaves the handle and the pool that `handle.complete` leaves. -/
theorem finish_eq (tenure : Tenure) (commits : Bool) :
  (tenure.finish commits).handle = (tenure.handle.complete commits tenure.shared.pool).2.1
    ∧ (tenure.finish commits).shared.pool
      = (tenure.handle.complete commits tenure.shared.pool).2.2
  := by
  unfold finish Transaction.completeWith Transaction.complete
  cases tenure.handle.checkActive with
  | error cause => exact ⟨rfl, rfl⟩
  | ok _ => exact ⟨rfl, rfl⟩

/-- `tenure.perform .drop` leaves the pool that `handle.drop` leaves. -/
theorem pool_drop (tenure : Tenure) :
  (tenure.perform .drop).shared.pool = tenure.handle.drop tenure.shared.pool
  := (tenure.finish_eq false).2

/-! ### What every step keeps -/

/-- What holds of `tenure`, the transaction `txn` after `acts`: the pool has ended it at most once,
as `ending?` says, and once it has ended it has no call under way and no lock. -/
structure Orderly (txn : TransactionId) (acts : List HandleAct) (tenure : Tenure) : Prop where
  named : tenure.handle.id = txn
  sound : tenure.shared.pool.Sound
  allocated : ∀ call ∈ tenure.call?, call.Allocated tenure.shared.pool
  dropped : tenure.dropped = true ↔ .drop ∈ acts
  /-- It is active until it ends. -/
  active : tenure.handle.state = .active ↔ ending? acts tenure.dropped = none
  /-- It is ended once. -/
  ends : tenure.shared.endsOf txn = (ending? acts tenure.dropped).toList
  /-- When it has ended, nothing is left of it. -/
  gone : tenure.handle.state ≠ .active →
    tenure.call? = none ∧ tenure.shared.pool.locks.Unlocked txn

theorem orderly_begin (txn : TransactionId) (sound : pool.Sound) :
  Orderly txn [] (begin txn pool)
  where
  named := rfl
  sound := sound
  allocated := nofun
  dropped := by simp [begin]
  active := by simp [begin, Transaction.begin, ending?]
  ends := rfl
  gone ended := by cases ended rfl

/-- `Orderly` persists in an `act` that does not end `txn`, keeps the pool `Sound` and `endsOf
txn`, and leaves `txn` without call and lock if it has ended. -/
theorem Orderly.goes (orderly : Orderly txn acts tenure) {act : HandleAct}
    (stays : act.ends = false) {call? : Option Call} {shared : NotedPool}
    (sound : shared.pool.Sound) (allocated : ∀ call ∈ call?, call.Allocated shared.pool)
    (ends : shared.endsOf txn = tenure.shared.endsOf txn)
    (gone : tenure.handle.state ≠ .active → call? = none ∧ shared.pool.locks.Unlocked txn) :
  Orderly txn (acts ++ [act]) { tenure with call?, shared }
  := by
  obtain ⟨silent, present⟩ : act.finish? = none ∧ act ≠ .drop := by
    cases act <;> simp_all [HandleAct.ends, HandleAct.finish?]
  have ending : ending? (acts ++ [act]) tenure.dropped = ending? acts tenure.dropped := by
    simp [ending?, List.findSome?_append, silent]
  refine ⟨orderly.named, sound, allocated, ?_, ?_, ?_, gone⟩
  · rw [List.mem_append, List.mem_singleton, ← orderly.dropped]
    exact (or_iff_left present.symm).symm
  · rw [ending]
    apply orderly.active
  · rw [ending, ends, orderly.ends]

/-- `Orderly` persists in an `act` of an `.active` `txn` that `Follows txn` on the pool and does
not end it. -/
theorem Orderly.own (orderly : Orderly txn acts tenure) {act : HandleAct}
    (stays : act.ends = false) (active : tenure.handle.state = .active)
    {call? : Option Call} (follows : Pool.Follows txn tenure.shared.pool after)
    (allocated : ∀ call ∈ call?, call.Allocated after) :
  Orderly txn (acts ++ [act]) { tenure with call?, shared.pool := after }
  := orderly.goes stays (follows.sound orderly.sound) allocated rfl
    fun ended => absurd active ended

/-- `Orderly` persists in an `act` that is refused and changes nothing. -/
theorem Orderly.refused (orderly : Orderly txn acts tenure) {act : HandleAct}
    (stays : act.ends = false) :
  Orderly txn (acts ++ [act]) tenure
  := orderly.goes stays orderly.sound orderly.allocated rfl orderly.gone

/-- `Orderly` persists in an `act` of another transaction that the pool admits. -/
theorem Orderly.others (orderly : Orderly txn acts tenure) {act : TableAct}
    (others : act.locker? ≠ some txn) (admitted : tenure.shared.pool.admits act) :
  Orderly txn (acts ++ [.others act]) { tenure with shared := tenure.shared.perform act }
  := by
  -- What changes nobody's locks is as good as done by any other transaction.
  obtain ⟨actor, distinct, own⟩ : ∃ actor, txn ≠ actor ∧ ∀ other ∈ act.locker?, other = actor := by
    cases locker : act.locker? with
    | some other =>
      use other, fun same => others (locker.trans (congrArg some same.symm))
      intro actor acts
      exact (Option.some.inj acts).symm
    | none =>
      by_cases first : txn = ⟨0⟩
      · exact ⟨⟨1⟩, by simp [first], nofun⟩
      · exact ⟨⟨0⟩, first, nofun⟩
  have follows := Pool.follows_performTable orderly.sound.tidy admitted own
  rw [← NotedPool.pool_perform] at follows
  refine orderly.goes rfl (follows.sound orderly.sound) ?_ (NotedPool.endsOf_perform others) ?_
  · intro call under no touched
    apply Nat.lt_of_lt_of_le (orderly.allocated call under no touched) follows.copies
  · intro ended
    obtain ⟨none, unlocked⟩ := orderly.gone ended
    exact ⟨none, unlocked.of_onlyBy follows.locks orderly.sound.locks distinct⟩

theorem finish_active (active : tenure.handle.state = .active) (commits : Bool) :
  tenure.finish commits
    = { tenure with
        handle := ⟨tenure.handle.id, Transaction.endState commits⟩
        shared := (tenure.shared.complete tenure.handle.id commits).2 }
  := by
  rw [finish, Transaction.completeWith_active _ active]

theorem finish_ended (ended : tenure.handle.state ≠ .active) (commits : Bool) :
  tenure.finish commits = tenure
  := by
  rw [finish, Transaction.completeWith_ended _ ended]

/-- `Orderly` persists in an `act` in which `tenure` is finished, unless it was before: `ending?`
tells the first decision. -/
theorem Orderly.ended (orderly : Orderly txn acts tenure) (free : tenure.Free)
    (laid : tenure.handle.state = .active → tenure.shared.pool.Laid) {act : HandleAct}
    {commits dropped : Bool} (drops : dropped = true ↔ act = .drop)
    (ending : ending? (acts ++ [act]) dropped = (ending? acts false).or (some commits)) :
  Orderly txn (acts ++ [act]) { tenure.finish commits with dropped }
  := by
  obtain ⟨idle, present⟩ := free
  have dropped' : dropped = true ↔ .drop ∈ acts ++ [act] := by
    rw [List.mem_append, List.mem_singleton, ← orderly.dropped, present, drops, eq_comm]
    simp
  have before := orderly.active
  have ends := orderly.ends
  rw [present] at before ends
  by_cases active : tenure.handle.state = .active
  · rw [before.mp active] at ending ends
    obtain ⟨sound, unlocked⟩ := orderly.sound.complete (laid active) txn commits
    rw [finish_active active, orderly.named]
    refine ⟨rfl, sound, ?_, dropped', ?_, ?_, fun _ => ⟨idle, unlocked⟩⟩
    · intro call under
      cases idle.symm.trans under
    · rw [ending]
      simp [Transaction.endState_ne_active]
    · rw [ending, NotedPool.endsOf_complete, ends]
      rfl
  · have same : ending? (acts ++ [act]) dropped = ending? acts false := by
      rw [ending]
      cases told : ending? acts false with
      | none => cases active (before.mpr told)
      | some _ => rfl
    rw [finish_ended active]
    refine ⟨orderly.named, orderly.sound, orderly.allocated, dropped', ?_, ?_, orderly.gone⟩
    · rw [same]
      apply before
    · rw [same]
      apply ends

/-- `Orderly` persists in every `act` that is permitted. -/
theorem Orderly.perform (orderly : Orderly txn acts tenure) {act : HandleAct}
    (permitted : tenure.permits act) :
  Orderly txn (acts ++ [act]) (tenure.perform act)
  := by
  obtain rfl := orderly.named
  cases act with
  | others act => apply orderly.others permitted.1 permitted.2
  | call request =>
    by_cases active : tenure.handle.state = .active
    · simp only [Tenure.perform, Transaction.checkActive_active active]
      obtain ⟨follows, allocated⟩ := Request.follows_enter orderly.sound.tidy request
      exact orderly.own rfl active follows allocated
    · simp only [Tenure.perform, Transaction.checkActive_ended active]
      exact orderly.refused rfl
  | resume =>
    simp only [Tenure.perform]
    cases under : tenure.call? with
    | none => exact orderly.refused rfl
    | some call =>
      -- No call was under way when the transaction ended, and none was begun since.
      have active : tenure.handle.state = .active := by
        by_contra ended
        cases (orderly.gone ended).1.symm.trans under
      have allocated := orderly.allocated call under
      exact orderly.own rfl active (Call.follows_round orderly.sound.tidy allocated)
        fun next goes => Call.allocated_round orderly.sound.tidy allocated goes
  | mark no =>
    by_cases active : tenure.handle.state = .active
    · simp only [Tenure.perform, Transaction.markDirty_active active]
      have follows := Pool.follows_markDirty orderly.sound.tidy tenure.handle.id tenure.handle.id
        permitted.2
      apply orderly.own rfl active follows
      intro call under
      cases permitted.1.1.symm.trans under
    · simp only [Tenure.perform, Transaction.markDirty_ended active]
      exact orderly.refused rfl
  | finish commits =>
    have same : tenure.finish commits = { tenure.finish commits with dropped := false } := by
      rw [← permitted.1.2]
      rfl
    rw [Tenure.perform, same]
    apply orderly.ended permitted.1 permitted.2 (by simp)
    simp [ending?, List.findSome?_append, HandleAct.finish?]
  | drop =>
    apply orderly.ended permitted.1 permitted.2 (by simp)
    simp [ending?, List.findSome?_append, HandleAct.finish?]

/-- In a `run` that begins on a `Sound` pool, `tenure` is `Orderly`. -/
theorem Run.orderly (run : (begin txn pool).Run acts tenure) (sound : pool.Sound) :
  Orderly txn acts tenure
  := by
  induction run with
  | start => apply orderly_begin txn sound
  | act _ act permitted ih => apply ih.perform permitted

/-! ### Ends -/

/-- If `acts` tell a transaction to finish, there is a `first` time that they do. -/
theorem finish?_of_mem {commits : Bool} (told : .finish commits ∈ acts) :
  ∃ first, acts.findSome? HandleAct.finish? = some first
  := by
  rw [← Option.isSome_iff_exists, List.findSome?_isSome_iff]
  exact ⟨_, told, rfl⟩

/-- A transaction that was told to end or whose handle was dropped was ended once on its pool, in
the way in which it was told first, and to abort if it was not told; it has no lock and waits for
none.  Once it was told to end, its handle refuses every call, and nothing changes.  Reads and
writes may fail at any time, also while it ends; that they do not fault then is what laid-out
stores are for (`permits`). -/
theorem Run.ends_once {config : PoolConfig} {catalog : Registry TableId StoreNo}
    {stores : Array Store} (created : Pool.create config catalog stores = .ok pool)
    (run : (begin txn pool).Run acts tenure) :
  ((∃ commits, .finish commits ∈ acts) ∨ .drop ∈ acts →
      tenure.shared.endsOf txn = [decide (acts.findSome? HandleAct.finish? = some true)]
        ∧ tenure.shared.pool.locks.Unlocked txn)
    ∧ ((∃ commits, .finish commits ∈ acts) →
      (∀ request, tenure.handle.call request tenure.shared.pool
          = (.error (.ended txn), tenure.shared.pool))
        ∧ (∀ no, tenure.handle.markDirty no tenure.shared.pool
          = (.error (.error (.ended txn)), tenure.shared.pool))
        ∧ ∀ commits, tenure.handle.completeWith NotedPool.complete commits tenure.shared
          = (.error (.error (.ended txn)), tenure.handle, tenure.shared))
  := by
  have orderly := run.orderly (Pool.sound_create created)
  obtain rfl := orderly.named
  have ended : ∀ {commits}, ending? acts tenure.dropped = some commits →
      tenure.handle.state ≠ .active := by
    intro commits ending active
    cases ending.symm.trans (orderly.active.mp active)
  constructor
  · intro gone
    have ending : ending? acts tenure.dropped
        = some (decide (acts.findSome? HandleAct.finish? = some true)) := by
      cases told : acts.findSome? HandleAct.finish? with
      | some commits => cases commits <;> simp [ending?, told]
      | none =>
        have dropped : tenure.dropped = true := by
          rcases gone with ⟨commits, member⟩ | member
          · obtain ⟨first, told'⟩ := finish?_of_mem member
            cases told.symm.trans told'
          · apply orderly.dropped.mpr member
        simp [ending?, told, dropped]
    rw [orderly.ends, ending]
    exact ⟨rfl, (orderly.gone (ended ending)).2⟩
  · rintro ⟨commits, member⟩
    obtain ⟨first, told⟩ := finish?_of_mem member
    have ending : ending? acts tenure.dropped = some first := by
      rw [ending?, told, Option.some_or]
    have ended := ended ending
    exact ⟨fun request => Transaction.call_ended ended request _,
      fun no => Transaction.markDirty_ended ended no _,
      fun commits => Transaction.completeWith_ended _ ended commits _⟩

/-- A transaction changes a page, another one waits for it, the page cannot be written any more,
and so the transaction fails to commit; then it is told to abort, and dropped: `.drop`. -/
def commitFails : List HandleAct :=
  [.call (.fetch ⟨1, 0⟩ .readWrite), .resume, .others (.edit 0 [9, 2, 3, 4]), .mark 0,
    .others (.use (.round ⟨1⟩ (.fetch ⟨1, 0⟩ .readOnly))), .others (.use (.disrupt 0 [0] [0])),
    .finish true, .finish false, .drop]

/-- In `commitFails` the pool is told once to end transaction 0, and to commit. -/
theorem ends_once_commitFails :
  Pool.create Pool.roomForOne.config Pool.roomForOne.catalog Pool.roomForOne.stores
      = .ok Pool.roomForOne
    ∧ ∃ tenure, (begin ⟨0⟩ Pool.roomForOne).Run commitFails tenure
      ∧ tenure.shared.endsOf ⟨0⟩ = [true]
      ∧ tenure.shared.pool.locks.Unlocked ⟨0⟩
      ∧ tenure.handle.call (.fetch ⟨1, 0⟩ .readOnly) tenure.shared.pool
        = (.error (.ended ⟨0⟩), tenure.shared.pool)
  := by
  have created : Pool.create Pool.roomForOne.config Pool.roomForOne.catalog Pool.roomForOne.stores
      = .ok Pool.roomForOne := rfl
  obtain ⟨tenure, run⟩ : ∃ tenure, (begin ⟨0⟩ Pool.roomForOne).Run commitFails tenure := by
    have begun : (begin ⟨0⟩ Pool.roomForOne).Run [] (begin ⟨0⟩ Pool.roomForOne) := .start
    have fetched := (begun.act (.call (.fetch ⟨1, 0⟩ .readWrite)) ⟨rfl, rfl⟩).act .resume trivial
    have edited := fetched.act (.others (.edit 0 [9, 2, 3, 4])) ⟨nofun, trivial⟩
    have marked := edited.act (.mark 0) ⟨⟨rfl, rfl⟩, by decide⟩
    have waited := marked.act (.others (.use (.round ⟨1⟩ (.fetch ⟨1, 0⟩ .readOnly))))
      ⟨by decide, List.forall_mem_nil _⟩
    have disrupted := waited.act (.others (.use (.disrupt 0 [0] [0]))) ⟨nofun, trivial⟩
    have committed := disrupted.act (.finish true) ⟨⟨rfl, rfl⟩, fun _ no pageSize shape => by
      rcases no with _ | no
      all_goals cases shape⟩
    have refused := committed.act (.finish false) ⟨⟨rfl, rfl⟩, fun active => by cases active⟩
    exact ⟨_, refused.act .drop ⟨⟨rfl, rfl⟩, fun active => by cases active⟩⟩
  obtain ⟨gone, refuses⟩ := run.ends_once created
  obtain ⟨ends, unlocked⟩ := gone (.inr (by simp [commitFails]))
  refine ⟨created, tenure, run, ?_, unlocked, ?_⟩
  · rw [ends]
    rfl
  · apply (refuses ⟨true, by simp [commitFails]⟩).1

end Tenure

end StorageEngine

import StorageEngine.Proofs.Pool.Order
import StorageEngine.Proofs.System.Following

/-!
# Calls in single steps

Whatever is asked of a pool is done in steps each of which asks for one page at most
(`PoolStep`).  A round of a call fetches a page, and may change its copy and put it into the cache;
what it does beside that is done to locks and stores.  So whatever can be done to a pool is a
sequence of steps (`Pool.takeAll_steps`), and others may step in between any two of them.
-/

namespace StorageEngine

/-- A step on a pool that asks for one page at most. -/
inductive PoolStep where
  | fetch (txn : TransactionId) (page : PageId) (access : Access)
  /-- A copy is marked as changed and put into the cache. -/
  | install (txn : TransactionId) (no : CopyNo)
  /-- The same, if the transaction has locked the page exclusively. -/
  | mark (txn : TransactionId) (no : CopyNo)
  /-- A copy is overwritten and not marked. -/
  | edit (no : CopyNo) (bytes : Bytes)
  | complete (txn : TransactionId) (commits : Bool)
  | flushPage (page : PageId)
  | flushTransaction (txn : TransactionId)
  | flushAll
  | discard (page : PageId)
  /-- Locks are requested or released. -/
  | relock (locks : LockTable)
  /-- Something happens to the tables and their stores. -/
  | restock (catalog : Registry TableId StoreNo) (stores : Array Store)

namespace Pool

variable {pool after : Pool} {txn : TransactionId} {page : PageId} {no : CopyNo} {step : PoolStep}

/-- `pool` after a step. -/
def take (pool : Pool) : PoolStep → Pool
  | .fetch txn page access => (pool.fetch txn page access).2
  | .install txn no => (pool.install txn no).2
  | .mark txn no => (pool.markDirty txn no).2
  | .edit no bytes => pool.setCopy no { pool.copy no with bytes }
  | .complete txn commits => (pool.complete txn commits).2
  | .flushPage page => (pool.flushPage page).2
  | .flushTransaction txn => (pool.flushTransaction txn).2
  | .flushAll => pool.flushAll.2
  | .discard page => pool.discard page
  | .relock locks => { pool with locks }
  | .restock catalog stores => { pool with catalog, stores }

/-- `pool` after `steps` in a row. -/
def takeAll (pool : Pool) (steps : List PoolStep) : Pool := steps.foldl take pool

/-- Whether a step can be taken on `pool`: a copy that is put into the cache is there. -/
def allowsStep (pool : Pool) : PoolStep → Prop
  | .install _ no | .mark _ no => no < pool.copies.size
  | _ => True

/-- Whether steps can be taken on `pool` in a row. -/
def allowsSteps (pool : Pool) : List PoolStep → Prop
  | [] => True
  | step :: steps => pool.allowsStep step ∧ (pool.take step).allowsSteps steps

/-- A step keeps a pool tidy. -/
theorem Tidy.take (tidy : pool.Tidy) (allowed : pool.allowsStep step) :
  (pool.take step).Tidy
  := by
  cases step with
  | fetch txn page access => exact (follows_fetch tidy txn page access).1.tidy
  | install txn no => exact (follows_install tidy txn txn allowed).tidy
  | mark txn no => exact (follows_markDirty tidy txn txn allowed).tidy
  | edit no bytes => exact tidy.edit no bytes
  | complete txn commits => exact (follows_complete tidy txn commits).tidy
  | flushPage page => exact (follows_flushPage tidy default page).tidy
  | flushTransaction txn => exact (follows_writeBackAll tidy txn _).tidy
  | flushAll => exact (follows_writeBackAll tidy default _).tidy
  | discard page =>
    have moves : Moves (acting default) pool (pool.discard page) := .single (.remove page)
    exact tidy.moves moves
  | relock locks => exact ⟨tidy.capacity, tidy.bounded, tidy.distinct, tidy.framed⟩
  | restock catalog stores => exact ⟨tidy.capacity, tidy.bounded, tidy.distinct, tidy.framed⟩

/-! ### Marking copies -/

/-- The steps in which copies are marked for `txn`, up to the first that finds no room. -/
def installSteps (pool : Pool) (txn : TransactionId) : List CopyNo → List PoolStep
  | [] => []
  | no :: copies =>
    .install txn no ::
      match pool.install txn no with
      | (.error _, _) => []
      | (.ok (), after) => after.installSteps txn copies

theorem takeAll_installSteps (pool : Pool) (txn : TransactionId) (copies : List CopyNo) :
  pool.takeAll (pool.installSteps txn copies) = (pool.installAll txn copies).2
  := by
  induction copies generalizing pool with
  | nil => rfl
  | cons no copies ih =>
    simp only [installSteps, installAll, takeAll, List.foldl_cons, take]
    rcases pool.install txn no with ⟨failure | _, after⟩
    · rfl
    · apply ih

theorem allowsSteps_installSteps (txn : TransactionId) {copies : List CopyNo} {pool : Pool}
    (allocated : ∀ no ∈ copies, no < pool.copies.size) :
  pool.allowsSteps (pool.installSteps txn copies)
  := by
  induction copies generalizing pool with
  | nil => trivial
  | cons no copies ih =>
    have same := (pool.copy_install txn no no).1
    use allocated no List.mem_cons_self
    simp only [take]
    rcases eq : pool.install txn no with ⟨failure | _, after⟩
    · trivial
    · rw [eq] at same
      apply ih
      intro other member
      rw [same]
      apply allocated other (List.mem_cons_of_mem _ member)

end Pool

variable {pool : Pool} {txn : TransactionId}

namespace Call

/-! ### Calls -/

/-- The steps in which `page` is fetched and changed by `change`, and marked if that succeeds. -/
def changeSteps {α : Type} (txn : TransactionId) (page : PageId)
    (change : Bytes → Except (Failure PageError) α × Bytes) (marks : Bool) (pool : Pool) :
    List PoolStep :=
  .fetch txn page .readWrite ::
    match pool.fetch txn page .readWrite with
    | (.page copy, after) =>
      let (result, bytes) := change (after.copy copy).bytes
      .edit copy bytes :: if marks && result.isOk then [.install txn copy] else []
    | _ => []

/-- The steps in which counter pages of `table` are counted up, and marked at last. -/
def countSteps (txn : TransactionId) (table : TableId) :
    List CopyNo → Bytes → Pool → List PoolStep
  | touched, [], pool => pool.installSteps txn touched
  | touched, no :: rest, pool =>
    let page : PageId := ⟨table, UInt32.ofNat no.toNat⟩
    .fetch txn page .readWrite ::
      match pool.fetch txn page .readWrite with
      | (.page copy, after) =>
        match countUp (after.copy copy).bytes with
        | .error _ => []
        | .ok bytes =>
          .edit copy bytes ::
            countSteps txn table (touched ++ [copy]) rest
              (after.setCopy copy { after.copy copy with bytes })
      | _ => []

/-- The steps of a round of `call`. -/
def steps (txn : TransactionId) (pool : Pool) (call : Call) : List PoolStep :=
  match call with
  | lock page mode => [.relock (pool.locks.request page txn mode).2]
  | fetch page access => [.fetch txn page access]
  | probe no _ pageNo _ _ =>
    let after := (call.round txn pool).2
    [.fetch txn ⟨(pool.store no).table, pageNo⟩ .readOnly, .relock after.locks,
      .restock after.catalog after.stores]
  | place page tuple => changeSteps txn page (SlottedPage.insert · tuple) true pool
  | count table touched _ no rest => countSteps txn table touched (no :: rest) pool
  | delete record marks =>
    changeSteps txn record.page (SlottedPage.delete · record.slot) marks pool
  | scan table _ no _ => [.fetch txn ⟨table, no⟩ .readOnly]

theorem takeAll_runPlace (page : PageId) (tuple : Bytes) :
  pool.takeAll (changeSteps txn page (SlottedPage.insert · tuple) true pool)
    = (runPlace txn page tuple pool).2
  := by
  simp only [changeSteps, Pool.takeAll, List.foldl_cons, Pool.take]
  rcases eq : runPlace txn page tuple pool with ⟨progress, after⟩
  cases Placing.of_runPlace eq with
  | waiting fetched | failed fetched =>
    rw [fetched]
    rfl
  | fetched fetched storing =>
    rw [fetched]
    dsimp only
    cases storing with
    | refused inserted =>
      rw [inserted]
      rfl
    | unmarked inserted marked | stored inserted marked =>
      rw [inserted]
      exact congrArg Prod.snd marked

theorem takeAll_runDelete (record : RecordId) (marks : Bool) :
  pool.takeAll (changeSteps txn record.page (SlottedPage.delete · record.slot) marks pool)
    = (runDelete txn record marks pool).2
  := by
  simp only [changeSteps, Pool.takeAll, List.foldl_cons, Pool.take]
  rcases eq : runDelete txn record marks pool with ⟨progress, after⟩
  cases Deleting.of_runDelete eq with
  | waiting fetched | failed fetched =>
    rw [fetched]
    rfl
  | refused fetched deleted =>
    rw [fetched]
    dsimp only
    rw [deleted]
    cases marks <;> rfl
  | erased silent fetched deleted =>
    rw [fetched]
    dsimp only
    rw [deleted, silent]
    rfl
  | unmarked marking fetched deleted marked | deleted marking fetched deleted marked =>
    rw [fetched]
    dsimp only
    rw [deleted, marking]
    exact congrArg Prod.snd marked

theorem takeAll_countSteps (table : TableId) (touched : List CopyNo) (record : Option RecordId)
    (rest : Bytes) (pool : Pool) :
  pool.takeAll (countSteps txn table touched rest pool)
    = (runCount txn table touched record rest pool).2
  := by
  induction rest generalizing pool touched record with
  | nil =>
    simp only [countSteps, runCount, pool_finish]
    apply Pool.takeAll_installSteps
  | cons no rest ih =>
    simp only [countSteps, runCount, Pool.takeAll, List.foldl_cons, Pool.take]
    rcases pool.fetch txn ⟨table, UInt32.ofNat no.toNat⟩ .readWrite with
      ⟨copy | _ | failure, after⟩
    · dsimp only
      rcases countUp (after.copy copy).bytes with fault | bytes
      · rfl
      · apply ih
    · rfl
    · rfl

/-- What goes on to look for room changes nothing but `stores`. -/
theorem entering_around {no : StoreNo} {tuple : Bytes} {rest : List PageNo} {round : Round}
    (entering : Entering txn no tuple pool rest round after) :
  ∃ stores, after = { pool with stores }
  := by
  cases entering with
  | refused | grown | next => exact ⟨_, rfl⟩

/-- A round of `.probe` fetches its page, and then changes nothing but `locks` and `stores`. -/
theorem probe_around (no : StoreNo) (tuple : Bytes) (pageNo : PageNo) (alreadyHeld : Bool)
    (rest : List PageNo) (pool : Pool) :
  ∃ locks stores, ((probe no tuple pageNo alreadyHeld rest).round txn pool).2
    = { (pool.fetch txn ⟨(pool.store no).table, pageNo⟩ .readOnly).2 with locks, stores }
  := by
  rcases eq : (probe no tuple pageNo alreadyHeld rest).round txn pool with ⟨round, after⟩
  cases Probing.of_round eq with
  | waiting fetched | failed fetched | broken fetched | roomy fetched =>
    rw [fetched]
    exact ⟨_, _, rfl⟩
  | full fetched _ entering =>
    obtain ⟨stores, rfl⟩ := entering_around entering
    rw [fetched]
    cases alreadyHeld with
    | true | false => exact ⟨_, stores, rfl⟩

/-- To take the steps of `call` one by one leaves the pool that its round leaves. -/
theorem takeAll_steps (call : Call) (pool : Pool) :
  pool.takeAll (call.steps txn pool) = (call.round txn pool).2
  := by
  cases call with
  | lock page mode =>
    rw [pool_round_lock]
    rfl
  | fetch page access =>
    rw [pool_round_fetch]
    rfl
  | probe no tuple pageNo alreadyHeld rest =>
    obtain ⟨locks, stores, eq⟩ := probe_around no tuple pageNo alreadyHeld rest pool
    simp only [steps, Pool.takeAll, List.foldl_cons, List.foldl_nil, Pool.take]
    rw [eq]
  | place page tuple =>
    simp only [steps, round, pool_last, run]
    apply takeAll_runPlace
  | count table touched record no rest =>
    simp only [steps, round, pool_last, run]
    apply takeAll_countSteps
  | delete record marks =>
    simp only [steps, round, pool_last, run]
    apply takeAll_runDelete
  | scan table found no rest =>
    rw [pool_round_scan]
    rfl

/-! ### Steps that can be taken -/

theorem allowsSteps_changeSteps {α : Type} (tidy : pool.Tidy) (page : PageId)
    (change : Bytes → Except (Failure PageError) α × Bytes) (marks : Bool) :
  pool.allowsSteps (changeSteps txn page change marks pool)
  := by
  obtain ⟨-, within⟩ := Pool.follows_fetch tidy txn page .readWrite
  refine ⟨trivial, ?_⟩
  simp only [Pool.take]
  rcases fetched : pool.fetch txn page .readWrite with ⟨copy | _ | failure, after⟩
  · rw [fetched] at within
    refine ⟨trivial, ?_⟩
    dsimp only
    split
    · refine ⟨?_, trivial⟩
      simpa [Pool.allowsStep, Pool.take, Pool.setCopy] using within copy rfl
    · trivial
  · trivial
  · trivial

theorem allowsSteps_countSteps (table : TableId) {touched : List CopyNo} {rest : Bytes}
    {pool : Pool} (tidy : pool.Tidy) (allocated : ∀ no ∈ touched, no < pool.copies.size) :
  pool.allowsSteps (countSteps txn table touched rest pool)
  := by
  induction rest generalizing pool touched with
  | nil => apply Pool.allowsSteps_installSteps txn allocated
  | cons no rest ih =>
    obtain ⟨fetches, within⟩ :=
      Pool.follows_fetch tidy txn ⟨table, UInt32.ofNat no.toNat⟩ .readWrite
    refine ⟨trivial, ?_⟩
    simp only [Pool.take]
    rcases fetched : pool.fetch txn ⟨table, UInt32.ofNat no.toNat⟩ .readWrite with
      ⟨copy | _ | failure, after⟩
    · rw [fetched] at fetches within
      dsimp only
      rcases countUp (after.copy copy).bytes with fault | bytes
      · trivial
      · have edited := fetches.trans (Pool.follows_edit fetches.tidy txn copy bytes)
        refine ⟨trivial, ih edited.tidy ?_⟩
        intro other member
        rcases List.mem_append.mp member with old | new
        · apply Nat.lt_of_lt_of_le (allocated other old) edited.copies
        · obtain rfl := List.mem_singleton.mp new
          simpa [Pool.take, Pool.setCopy] using within other rfl
    · trivial
    · trivial

theorem allowsSteps_steps (tidy : pool.Tidy) {call : Call} (allocated : call.Allocated pool) :
  pool.allowsSteps (call.steps txn pool)
  := by
  cases call with
  | place page tuple =>
    simp only [steps]
    apply allowsSteps_changeSteps tidy
  | count table touched record no rest => apply allowsSteps_countSteps table tidy allocated
  | delete record marks =>
    simp only [steps]
    apply allowsSteps_changeSteps tidy
  | _ => simp [steps, Pool.allowsSteps, Pool.allowsStep]

end Call

namespace Request

/-- The steps before the first lock request of a call by `request`, and those of its first round
where it begins with one. -/
def steps (txn : TransactionId) (pool : Pool) (request : Request) : List PoolStep :=
  match request with
  | insert table tuple =>
    match pool.storeOf table with
    | .error _ => []
    | .ok no =>
      match (pool.store no).medium with
      | .counters _ => Call.countSteps txn (pool.store no).table [] tuple pool
      | .heap _ =>
        let after := (request.enter txn pool).2
        [.restock after.catalog after.stores]
  | _ => []

theorem takeAll_steps (request : Request) (pool : Pool) :
  pool.takeAll (request.steps txn pool) = (request.enter txn pool).2
  := by
  cases request with
  | insert table tuple =>
    simp only [steps, enter]
    rcases eq : Call.enterInsert txn table tuple pool with ⟨round, after⟩
    cases Call.Beginning.of_enterInsert eq with
    | unknown missing =>
      rw [missing]
      rfl
    | unfit known medium | uncounted known medium =>
      rw [known]
      dsimp only
      rw [medium]
      rfl
    | counters known medium counted =>
      rw [known]
      dsimp only
      rw [medium]
      dsimp only
      rw [Call.takeAll_countSteps _ _ none, counted]
    | entering known medium _ _ entering =>
      obtain ⟨stores, rfl⟩ := Call.entering_around entering
      rw [known]
      dsimp only
      rw [medium]
      rfl
  | scan no =>
    simp only [steps, enter]
    split <;> rfl
  | _ => rfl

theorem allowsSteps_steps (tidy : pool.Tidy) (request : Request) :
  pool.allowsSteps (request.steps txn pool)
  := by
  cases request with
  | insert table tuple =>
    simp only [steps]
    split
    · trivial
    · split
      · apply Call.allowsSteps_countSteps _ tidy (List.forall_mem_nil _)
      · exact ⟨trivial, trivial⟩
  | _ => trivial

end Request

/-! ### Whatever is done to a pool -/

/-- The steps in which something is done to `pool`. -/
def TableAct.steps (pool : Pool) : TableAct → List PoolStep
  | .use (.enter txn request) => request.steps txn pool
  | .use (.round txn call) => call.steps txn pool
  | .use (.update txn no bytes) => [.edit no bytes, .mark txn no]
  | .use (.mark txn no) => [.mark txn no]
  | .use (.complete txn commits) => [.complete txn commits]
  | .use (.flushPage page) => [.flushPage page]
  | .use (.flushTransaction txn) => [.flushTransaction txn]
  | .use .flushAll => [.flushAll]
  | .use (.discard page) => [.discard page]
  | .use (.release txn page) => [.relock (pool.locks.release page txn)]
  | .edit no bytes => [.edit no bytes]
  | act => [.restock (pool.performTable act).catalog (pool.performTable act).stores]

namespace Pool

/-- To take the steps of `act` one by one leaves the pool that `performTable act` leaves. -/
theorem takeAll_steps (pool : Pool) (act : TableAct) :
  pool.takeAll (act.steps pool) = pool.performTable act
  := by
  cases act with
  | use act =>
    cases act with
    | enter txn request => apply Request.takeAll_steps
    | round txn call => apply Call.takeAll_steps
    | _ => rfl
  | _ => rfl

theorem allowsSteps_steps (tidy : pool.Tidy) {act : TableAct} (admitted : pool.admits act) :
  pool.allowsSteps (act.steps pool)
  := by
  cases act with
  | use act =>
    cases act with
    | enter txn request => apply Request.allowsSteps_steps tidy
    | round txn call => apply Call.allowsSteps_steps tidy admitted
    | update txn no bytes =>
      have allocated : no < pool.copies.size := admitted
      refine ⟨trivial, ?_, trivial⟩
      simpa [allowsStep, take, setCopy] using allocated
    | mark txn no => exact ⟨admitted, trivial⟩
    | _ => exact ⟨trivial, trivial⟩
  | _ => exact ⟨trivial, trivial⟩

end Pool

end StorageEngine

import StorageEngine.Proofs.Pool.Unaltered
import StorageEngine.Proofs.System.Faultless
import StorageEngine.Proofs.System.TableChanges
import StorageEngine.Proofs.Lock.Tidy

/-!
# What one transaction does to a pool

Whatever a transaction asks of a pool, also where it marks copies of pages that it has not locked,
or leaves bytes behind that it does not mark: the pool stays tidy, and the locks and the waits of
the other transactions stay as they are (`Pool.Follows`).  So whatever is asked of a pool in
whatever order, the pool and its lock table are tidy (`Pool.Reached.sound`).
-/

namespace StorageEngine

namespace Pool

variable {pool middle after : Pool} {page : PageId} {no : CopyNo} {txn owner : TransactionId}

/-! ### Steps of one transaction -/

/-- Whether `txn` has done what was done to a `Tidy` pool up to `after`. -/
structure Follows (txn : TransactionId) (pool after : Pool) : Prop where
  tidy : after.Tidy
  copies : pool.copies.size ≤ after.copies.size
  locks : LockTable.OnlyBy txn pool.locks after.locks

theorem Follows.refl (tidy : pool.Tidy) (txn : TransactionId) :
  Follows txn pool pool
  := ⟨tidy, Nat.le_refl _, .refl txn _⟩

theorem Follows.trans (first : Follows txn pool middle) (second : Follows txn middle after) :
  Follows txn pool after
  where
  tidy := second.tidy
  copies := Nat.le_trans first.copies second.copies
  locks := first.locks.trans second.locks

/-- What `txn` may do in moves. -/
def acting (txn : TransactionId) : Freedom where
  relocks := LockTable.OnlyBy txn
  changes _ := True
  writes := True
  spoils := True

theorem Follows.of_moves {may : Freedom} (tidy : pool.Tidy) (moves : Moves may pool after)
    (relocks : ∀ table table', may.relocks table table' → LockTable.OnlyBy txn table table') :
  Follows txn pool after
  where
  tidy := tidy.moves moves
  copies := moves.copies_le
  locks := by
    induction moves with
    | refl => apply LockTable.OnlyBy.refl
    | tail _ move ih =>
      rcases move.locks_cases with same | allowed
      · rw [same]
        apply ih
      · apply ih.trans (relocks _ _ allowed)

/-- A `Tidy` pool of the same locks, with no copy less, `Follows` for any `txn`. -/
theorem Follows.of_tidy (tidy : after.Tidy)
    (copies : pool.copies.size ≤ after.copies.size) (locks : after.locks = pool.locks) :
  Follows txn pool after
  where
  tidy := tidy
  copies := copies
  locks := by
    rw [locks]
    apply LockTable.OnlyBy.refl

theorem follows_fetch (tidy : pool.Tidy) (txn : TransactionId) (page : PageId)
    (access : Access) :
  Follows txn pool (pool.fetch txn page access).2
    ∧ ∀ no, (pool.fetch txn page access).1 = .page no →
        no < (pool.fetch txn page access).2.copies.size
  := by
  have relocks : (acting txn).relocks pool.locks
      (pool.locks.request page txn access.lockMode).2 :=
    LockTable.onlyBy_request _ _ _ _
  obtain ⟨moves, -, cached⟩ := moves_fetch tidy txn page access relocks
  use .of_moves tidy moves fun _ _ => id
  intro no answered
  obtain ⟨-, frame, found, rfl⟩ := cached no answered
  apply ((tidy.moves moves).framed page frame found).1

theorem follows_edit (tidy : pool.Tidy) (txn : TransactionId) (no : CopyNo) (bytes : Bytes) :
  Follows txn pool (pool.setCopy no { pool.copy no with bytes })
  := .of_tidy (tidy.edit no bytes) (by simp [setCopy]) rfl

/-! ### Marking copies -/

/-- `pool.marked owner no` is `Tidy`, whoever has locked the page of the copy `no`, if that is
cached or there is room. -/
theorem Tidy.marked (tidy : pool.Tidy) (owner : TransactionId) (allocated : no < pool.copies.size)
    (roomy : (pool.cache.frame? (pool.copy no).id).isSome
      ∨ pool.cache.size < pool.cache.capacity) :
  (pool.marked owner no).Tidy
  := by
  have cached := pool.cache.sameBut_put ⟨(pool.copy no).id, no, true⟩ roomy
  have elsewhere : Elsewhere (pool.copy no).id pool (pool.marked owner no) :=
    elsewhere_setCopy cached rfl (.inl ⟨rfl, rfl⟩)
  apply tidy.elsewhere elsewhere
  intro frame found
  rw [Pool.marked, Cache.frame?_put, if_pos rfl] at found
  cases found
  rw [copy_marked allocated, if_pos rfl]
  exact ⟨Nat.lt_of_lt_of_le allocated elsewhere.copies, rfl, rfl⟩

/-- To mark the copy `no` of a page that is not cached keeps a pool `Tidy`. -/
theorem Tidy.mark (tidy : pool.Tidy) (owner : TransactionId)
    (absent : pool.cache.frame? (pool.copy no).id = none) :
  (pool.setCopy no ((pool.copy no).mark (some owner))).Tidy
  := by
  have cached : pool.cache.SameBut (pool.copy no).id pool.cache := ⟨rfl, id, id, fun _ _ => rfl⟩
  have elsewhere : Elsewhere (pool.copy no).id pool
      (pool.setCopy no ((pool.copy no).mark (some owner))) :=
    elsewhere_setCopy cached rfl (.inl ⟨rfl, rfl⟩)
  apply tidy.elsewhere elsewhere
  intro frame found
  cases absent.symm.trans found

theorem follows_install (tidy : pool.Tidy) (txn owner : TransactionId)
    (allocated : no < pool.copies.size) :
  Follows txn pool (pool.install owner no).2
  := by
  have copies := Nat.le_of_eq (pool.copy_install owner no no).1.symm
  obtain ⟨resident, eq⟩ | ⟨absent, ⟨room, made, eq⟩ | eq⟩ := pool.install_cases owner no
  · rw [eq] at copies ⊢
    exact .of_tidy (tidy.marked owner allocated (.inl resident)) copies rfl
  · rw [eq] at copies ⊢
    obtain ⟨moves, roomy⟩ := moves_makeRoom (acting txn) tidy made
    have tidy' : Tidy { pool with cache := room } := tidy.moves moves
    exact .of_tidy (tidy'.marked owner allocated (.inr roomy)) copies rfl
  · rw [eq] at copies ⊢
    exact .of_tidy (tidy.mark owner absent) copies rfl

theorem follows_installAll (txn owner : TransactionId) {copies : List CopyNo} {pool : Pool}
    (tidy : pool.Tidy) (allocated : ∀ no ∈ copies, no < pool.copies.size) :
  Follows txn pool (pool.installAll owner copies).2
  := by
  induction copies generalizing pool with
  | nil => apply Follows.refl tidy
  | cons no copies ih =>
    have first := follows_install tidy txn owner (allocated no List.mem_cons_self)
    unfold installAll
    rcases eq : pool.install owner no with ⟨failure | _, after⟩
    · rw [eq] at first
      exact first
    · rw [eq] at first
      apply first.trans
      apply ih first.tidy
      intro other member
      apply Nat.lt_of_lt_of_le (allocated other (List.mem_cons_of_mem _ member)) first.copies

theorem follows_markDirty (tidy : pool.Tidy) (txn owner : TransactionId)
    (allocated : no < pool.copies.size) :
  Follows txn pool (pool.markDirty owner no).2
  := by
  obtain ⟨-, eq⟩ | ⟨cause, eq⟩ := pool.markDirty_cases owner no
  · rw [eq]
    apply follows_install tidy txn owner allocated
  · rw [eq]
    apply Follows.refl tidy

/-! ### Ending transactions -/

/-- `pool.complete txn commits` leaves `settled` locks: it faults, or releases those of `txn` at
last. -/
theorem complete_cases (tidy : pool.Tidy) (txn : TransactionId) (commits : Bool) :
  ∃ settled, Follows txn pool settled
    ∧ ((∃ fault, pool.complete txn commits = (.error (.fault fault), settled))
      ∨ (pool.complete txn commits).2 = settled.releaseAll txn)
  := by
  let storing : Freedom := ⟨fun _ _ => False, fun _ => False, True, False⟩
  have writes : commits = true → storing.writes := fun _ => trivial
  obtain ⟨settled, moves, ended⟩ := moves_complete tidy (fun _ => id) txn commits writes
  use settled, .of_moves tidy moves nofun
  rcases ended with faulted | ⟨-, released, -⟩
  · left
    apply faulted
  · right
    apply released

/-- `pool.complete txn commits` releases the locks of `txn` at most: it `Follows txn`. -/
theorem follows_complete (tidy : pool.Tidy) (txn : TransactionId) (commits : Bool) :
  Follows txn pool (pool.complete txn commits).2
  := by
  obtain ⟨settled, settles, ⟨fault, eq⟩ | eq⟩ := complete_cases tidy txn commits
  · rw [eq]
    exact settles
  · rw [eq]
    refine settles.trans ⟨?_, Nat.le_refl _, LockTable.onlyBy_releaseAll _ _⟩
    obtain ⟨capacity, bounded, distinct, framed⟩ := settles.tidy
    exact ⟨capacity, bounded, distinct, framed⟩

/-! ### Storing changes -/

/-- `writeBackAll selects` of the whole cache leaves the locks: it `Follows` any `txn`. -/
theorem follows_writeBackAll (tidy : pool.Tidy) (txn : TransactionId)
    (selects : TransactionId → Bool) :
  Follows txn pool (pool.writeBackAll selects (pool.cache.frames.map Frame.copy)).2
  := by
  let storing : Freedom := ⟨fun _ _ => False, fun _ => False, True, False⟩
  have writes : storing.writes := trivial
  exact .of_moves tidy (moves_flush tidy writes (fun _ => id) selects).1 nofun

theorem follows_flushPage (tidy : pool.Tidy) (txn : TransactionId) (page : PageId) :
  Follows txn pool (pool.flushPage page).2
  := by
  let storing : Freedom := ⟨fun _ _ => False, fun _ => False, True, False⟩
  have writes : storing.writes := trivial
  exact .of_moves tidy (moves_flushPage tidy writes page) nofun

end Pool

variable {pool : Pool} {txn : TransactionId}

/-! ### Calls -/

/-- The call that is under way after a round. -/
def Round.pending? : Round → Option Call
  | .done _ => none
  | .waiting call | .next call | .grown _ call => some call

@[simp]
theorem Round.mem_pending?_last {progress : Progress × Pool} {next : Call} :
  next ∈ (Round.last progress).1.pending? ↔ progress.1 = .waiting next
  := by
  rcases progress with ⟨outcome | call, pool⟩
  · simp [Round.last, Round.pending?]
  · simp [Round.last, Round.pending?]

/-- Whether a round `ends` its call in one of certain ways, or `goes` to one of certain calls. -/
def Round.Comes (ends : Outcome → Prop) (goes : Call → Prop) : Round → Prop
  | .done outcome => ends outcome
  | .waiting call | .next call | .grown _ call => goes call

namespace Round.Comes

variable {ends ends' : Outcome → Prop} {goes goes' : Call → Prop} {round : Round}

theorem pending (comes : round.Comes ends goes) {call : Call} (under : call ∈ round.pending?) :
  goes call
  := by
  cases round <;> cases under
  all_goals exact comes

theorem elim (comes : round.Comes ends goes) {p : Prop} (ended : ∀ outcome, ends outcome → p)
    (gone : ∀ call, goes call → p) :
  p
  := by
  cases round with
  | done outcome => exact ended outcome comes
  | waiting call | next call | grown page call => exact gone call comes

theorem imp (comes : round.Comes ends goes) (ended : ∀ outcome, ends outcome → ends' outcome)
    (gone : ∀ call, goes call → goes' call) :
  round.Comes ends' goes'
  := by
  cases round with
  | done outcome => exact ended outcome comes
  | waiting call | next call | grown page call => exact gone call comes

end Round.Comes

namespace Call

/-- Whether `call` has `touched` no other copies than there are in `pool`. -/
def Allocated (call : Call) (pool : Pool) : Prop := ∀ no ∈ call.touched, no < pool.copies.size

/-- The counter pages that a tuple names are counted up one after another. -/
theorem follows_runCount (table : TableId) {touched : List CopyNo} {record : Option RecordId}
    {rest : Bytes} {pool : Pool} (tidy : pool.Tidy)
    (allocated : ∀ no ∈ touched, no < pool.copies.size) :
  pool.Follows txn (runCount txn table touched record rest pool).2
    ∧ ∀ call, (runCount txn table touched record rest pool).1 = .waiting call →
        call.Allocated (runCount txn table touched record rest pool).2
  := by
  induction rest generalizing pool touched record with
  | nil =>
    simp only [runCount, pool_finish]
    use Pool.follows_installAll txn txn tidy allocated
    intro call waits
    generalize pool.installAll txn touched = marked at waits
    rcases marked with ⟨failure | _, after⟩
    · cases waits
    · cases waits
  | cons no rest ih =>
    obtain ⟨fetches, within⟩ :=
      Pool.follows_fetch tidy txn ⟨table, UInt32.ofNat no.toNat⟩ .readWrite
    unfold runCount
    dsimp only
    rcases fetched : pool.fetch txn ⟨table, UInt32.ofNat no.toNat⟩ .readWrite with
      ⟨copy | _ | failure, after⟩
    · rw [fetched] at fetches within
      dsimp only
      rcases countUp (after.copy copy).bytes with fault | bytes
      · use fetches
        rintro call ⟨⟩
      · have edited := fetches.trans (Pool.follows_edit fetches.tidy txn copy bytes)
        obtain ⟨goes, waits⟩ := @ih (touched ++ [copy])
          (some ⟨⟨table, UInt32.ofNat no.toNat⟩, UInt32.ofNat (touched.length + 1)⟩)
          _ edited.tidy (by
            intro other member
            rcases List.mem_append.mp member with old | new
            · apply Nat.lt_of_lt_of_le (allocated other old) edited.copies
            · obtain rfl := List.mem_singleton.mp new
              simpa [Pool.setCopy] using within other rfl)
        exact ⟨edited.trans goes, waits⟩
    · rw [fetched] at fetches
      use fetches
      rintro call ⟨⟩ other member
      apply Nat.lt_of_lt_of_le (allocated other member) fetches.copies
    · rw [fetched] at fetches
      use fetches
      rintro call ⟨⟩

theorem follows_runDelete (tidy : pool.Tidy) (record : RecordId) (marks : Bool) :
  pool.Follows txn (runDelete txn record marks pool).2
  := by
  obtain ⟨fetches, within⟩ := Pool.follows_fetch tidy txn record.page .readWrite
  rcases eq : runDelete txn record marks pool with ⟨progress, after⟩
  cases Deleting.of_runDelete eq with
  | waiting fetched | failed fetched =>
    rw [fetched] at fetches
    exact fetches
  | @refused copy _ _ bytes fetched | @erased copy _ bytes _ fetched =>
    rw [fetched] at fetches
    exact fetches.trans (Pool.follows_edit fetches.tidy txn copy bytes)
  | @unmarked copy _ _ bytes _ _ fetched _ marked | @deleted copy _ _ bytes _ fetched _ marked =>
    rw [fetched] at fetches within
    have edited := fetches.trans (Pool.follows_edit fetches.tidy txn copy bytes)
    have installs := Pool.follows_install edited.tidy txn txn
      (by simpa [Pool.setCopy] using within copy rfl)
    rw [marked] at installs
    exact edited.trans installs

/-- A round of `call` changes the locks of `txn` alone: it `Follows txn`. -/
theorem follows_round (tidy : pool.Tidy) {call : Call} (allocated : call.Allocated pool) :
  pool.Follows txn (call.round txn pool).2
  := by
  by_cases marks : call.marks
  · have moves : Pool.Moves (Pool.acting txn) pool (call.round txn pool).2 := by
      apply moves_round tidy marks trivial
      · intro page mode
        apply LockTable.onlyBy_request
      · intro _ _ _ _ _ locks _
        apply LockTable.onlyBy_release
      · exact fun _ => trivial
    exact .of_moves tidy moves fun _ _ => id
  · cases call with
    | delete record marked =>
      simp only [round, run, pool_last]
      apply follows_runDelete tidy
    | count table touched record no rest =>
      simp only [round, run, pool_last]
      apply (follows_runCount table tidy allocated).1
    | _ => cases marks trivial

/-- Whether a call counts up counter pages, as `.count` does. -/
def counts : Call → Bool
  | .count .. => true
  | _ => false

/-- What goes on to look for room has changed nothing. -/
theorem touched_entering {no : StoreNo} {tuple : Bytes} {rest : List PageNo} {stage : Round}
    {next : Call} (entering : Entering txn no tuple pool rest stage after)
    (goes : next ∈ stage.pending?) :
  next.touched = []
  := by
  cases entering with
  | refused => cases goes
  | grown | next =>
    cases goes
    rfl

/-- Only a `call` that counts up counter pages has `touched` copies that it has not marked. -/
theorem touched_round {call next : Call} (other : call.counts = false)
    (goes : next ∈ (call.round txn pool).1.pending?) :
  next.touched = []
  := by
  cases call with
  | lock page mode =>
    simp only [round, Round.mem_pending?_last, run, runLock] at goes
    split at goes <;> cases goes
    rfl
  | fetch page access =>
    simp only [round, Round.mem_pending?_last, run, runFetch] at goes
    split at goes <;> cases goes
    rfl
  | probe no tuple pageNo alreadyHeld rest =>
    rcases eq : (probe no tuple pageNo alreadyHeld rest).round txn pool with ⟨stage, after⟩
    rw [eq] at goes
    cases Probing.of_round eq with
    | failed | broken => cases goes
    | waiting | roomy =>
      cases goes
      rfl
    | full _ _ entering => exact touched_entering entering goes
  | place page tuple =>
    simp only [round, Round.mem_pending?_last, run] at goes
    rcases eq : runPlace txn page tuple pool with ⟨progress, after⟩
    rw [eq] at goes
    cases Placing.of_runPlace eq with
    | waiting =>
      cases goes
      rfl
    | failed => cases goes
    | fetched _ storing => cases storing <;> cases goes
  | count => cases other
  | delete record marked =>
    simp only [round, Round.mem_pending?_last, run] at goes
    rcases eq : runDelete txn record marked pool with ⟨progress, after⟩
    rw [eq] at goes
    cases Deleting.of_runDelete eq with
    | waiting =>
      cases goes
      rfl
    | failed | refused | erased | unmarked | deleted => cases goes
  | scan table found no rest =>
    rcases eq : (scan table found no rest).round txn pool with ⟨stage, after⟩
    rw [eq] at goes
    cases Listing.of_round eq with
    | waiting =>
      cases goes
      rfl
    | failed | broken => cases goes
    | listed =>
      cases rest with
      | nil => cases goes
      | cons no rest =>
        cases goes
        rfl

/-- The `next` call after a round has `touched` allocated copies alone. -/
theorem allocated_round (tidy : pool.Tidy) {call next : Call} (allocated : call.Allocated pool)
    (goes : next ∈ (call.round txn pool).1.pending?) :
  next.Allocated (call.round txn pool).2
  := by
  have none : next.touched = [] → next.Allocated (call.round txn pool).2 := by
    intro none no member
    simp [none] at member
  cases call with
  | count table touched record no rest =>
    simp only [round, Round.mem_pending?_last, pool_last, run] at goes ⊢
    apply (follows_runCount table tidy allocated).2 next goes
  | _ => apply none (touched_round rfl goes)

end Call

/-! ### Requests -/

/-- To enter `request` `Follows txn`, and the `next` call has `touched` allocated copies alone. -/
theorem Request.follows_enter (tidy : pool.Tidy) (request : Request) :
  pool.Follows txn (request.enter txn pool).2
    ∧ ∀ next ∈ (request.enter txn pool).1.pending?, next.Allocated (request.enter txn pool).2
  := by
  have none : ∀ (next : Call) (after : Pool), next.touched = [] → next.Allocated after := by
    intro next after none no member
    simp [none] at member
  cases request with
  | insert table tuple =>
    simp only [enter]
    rcases eq : Call.enterInsert txn table tuple pool with ⟨stage, after⟩
    cases Call.Beginning.of_enterInsert eq with
    | unknown | unfit | uncounted =>
      use .refl tidy txn
      rintro next ⟨⟩
    | counters _ _ counted =>
      simp only [Round.mem_pending?_last]
      obtain ⟨rfl, rfl⟩ := Prod.ext_iff.mp counted
      apply Call.follows_runCount _ tidy (List.forall_mem_nil _)
    | entering _ _ _ _ entering =>
      have moves : Pool.Moves (Pool.acting txn) pool after := Call.moves_entering entering
      use .of_moves tidy moves fun _ _ => id
      intro next goes
      apply none next _ (Call.touched_entering entering goes)
  | delete record =>
    use .refl tidy txn
    intro next goes
    apply none
    rcases Call.enterDelete_cases record pool with ⟨failure, eq⟩ | ⟨record', -, eq⟩
    · rw [enter, eq] at goes
      cases goes
    · rw [enter, eq] at goes
      cases goes
      rfl
  | erase store record =>
    use .refl tidy txn
    intro next goes
    apply none
    simp only [enter, Call.enterDeleteIn] at goes
    repeat' split at goes
    all_goals cases goes
    rfl
  | scan no =>
    simp only [enter]
    cases (pool.store no).pageNos with
    | error fault =>
      use .refl tidy txn
      rintro next ⟨⟩
    | ok pages =>
      use .refl tidy txn
      intro next goes
      apply none
      cases pages with
      | nil => cases goes
      | cons no rest =>
        cases goes
        rfl
  | lock page mode =>
    use .refl tidy txn
    rintro next ⟨⟩
    apply none
    rfl
  | fetch page access =>
    use .refl tidy txn
    rintro next ⟨⟩
    apply none
    rfl

/-! ### Whatever is asked of a pool -/

/-- The transaction whose locks a step may change. -/
def PoolAct.locker? : PoolAct → Option TransactionId
  | enter txn _ | round txn _ | complete txn _ | release txn _ => some txn
  | update .. | mark .. | flushPage _ | flushTransaction _ | flushAll | discard _
  | disrupt .. => none

/-- The transaction whose locks a step may change. -/
def TableAct.locker? : TableAct → Option TransactionId
  | .use act => act.locker?
  | .edit .. | .addTable _ | .removeTable _ | .alter .. => none

namespace Pool

variable {config : PoolConfig} {catalog : Registry TableId StoreNo} {stores : Array Store}
  {start : Pool}

/-- Whether a step can be taken on `pool`: the copies that are marked are there, and so are those
that a call under way has changed. -/
def admits (pool : Pool) : TableAct → Prop
  | .use (.round _ call) => call.Allocated pool
  | .use (.update _ no _) => no < pool.copies.size
  | .use (.mark _ no) => no < pool.copies.size
  | _ => True

/-- What becomes of stores and tables has nothing to do with the cache and the locks. -/
theorem follows_around (tidy : pool.Tidy) (catalog : Registry TableId StoreNo)
    (stores : Array Store) :
  Follows txn pool { pool with catalog, stores }
  := .of_tidy ⟨tidy.capacity, tidy.bounded, tidy.distinct, tidy.framed⟩ (Nat.le_refl _) rfl

/-- An `act` that is admitted `Follows` its locker `txn`, or any if it has none. -/
theorem follows_performTable (tidy : pool.Tidy) {act : TableAct} (admitted : pool.admits act)
    (own : ∀ actor ∈ act.locker?, actor = txn) :
  Follows txn pool (pool.performTable act)
  := by
  cases act with
  | use act =>
    cases act with
    | enter actor request =>
      obtain rfl := own actor rfl
      apply (Request.follows_enter tidy request).1
    | round actor call =>
      obtain rfl := own actor rfl
      apply Call.follows_round tidy admitted
    | update actor no bytes =>
      have edited := follows_edit tidy txn no bytes
      apply edited.trans
      apply follows_markDirty edited.tidy txn actor (Nat.lt_of_lt_of_le admitted edited.copies)
    | mark actor no => apply follows_markDirty tidy txn actor admitted
    | complete actor commits =>
      obtain rfl := own actor rfl
      apply follows_complete tidy
    | flushPage page => apply follows_flushPage tidy
    | flushTransaction actor => apply follows_writeBackAll tidy
    | flushAll => apply follows_writeBackAll tidy
    | discard page =>
      have moves : Moves (acting txn) pool (pool.discard page) := .single (.remove page)
      exact .of_moves tidy moves fun _ _ => id
    | release actor page =>
      obtain rfl := own actor rfl
      have moves : Moves (acting actor) pool (pool.releasePage actor page) :=
        .single (.relock (LockTable.onlyBy_release _ _ _))
      exact .of_moves tidy moves fun _ _ => id
    | disrupt no failingReads failingWrites failingCount appendLimit =>
      have moves : Moves (acting txn) pool
          (pool.perform (.disrupt no failingReads failingWrites failingCount appendLimit)) :=
        .single (.disrupt no failingReads failingWrites failingCount appendLimit)
      exact .of_moves tidy moves fun _ _ => id
  | edit no bytes => apply follows_edit tidy
  | addTable store => apply follows_around tidy
  | removeTable table => apply follows_around tidy
  | alter no store => apply follows_around tidy

/-- The pools that steps of any transactions in any order lead to from `start`. -/
inductive Reached (start : Pool) : Pool → Prop where
  | start : Reached start start
  | act {pool : Pool} (before : Reached start pool) (act : TableAct) (admitted : pool.admits act) :
      Reached start (pool.performTable act)

/-- Whether `pool` and its lock table are `Tidy`. -/
structure Sound (pool : Pool) : Prop where
  tidy : pool.Tidy
  locks : pool.locks.Tidy

theorem Follows.sound (follows : Follows txn pool after) (sound : pool.Sound) :
  after.Sound
  := ⟨follows.tidy, (follows.locks sound.locks).1⟩

/-- `pool.complete txn commits` keeps a pool `Sound` and leaves `txn` `Unlocked`, whatever
fails. -/
theorem Sound.complete (sound : pool.Sound) (laid : pool.Laid) (txn : TransactionId)
    (commits : Bool) :
  (pool.complete txn commits).2.Sound ∧ (pool.complete txn commits).2.locks.Unlocked txn
  := by
  use (follows_complete sound.tidy txn commits).sound sound
  obtain ⟨settled, settles, ⟨fault, eq⟩ | eq⟩ := complete_cases sound.tidy txn commits
  · cases laid.complete txn commits fault (congrArg Prod.fst eq)
  · rw [eq]
    apply (settles.sound sound).locks.unlocked_releaseAll

/-- A pool that `create` returns is `Sound`. -/
theorem sound_create (created : create config catalog stores = .ok pool) :
  pool.Sound
  := by
  use tidy_create created
  rw [(create_eq_ok created).2]
  apply LockTable.tidy_empty

/-- `pool.performTable act` is `Sound` if `pool` is and admits `act`. -/
theorem Sound.performTable (sound : pool.Sound) {act : TableAct} (admitted : pool.admits act) :
  (pool.performTable act).Sound
  := by
  have follows : Follows (act.locker?.getD default) pool (pool.performTable act) := by
    apply follows_performTable sound.tidy admitted
    intro actor acts
    rw [Option.mem_def.mp acts]
    rfl
  exact follows.sound sound

/-- Whatever is asked of a `Sound` pool, it stays so. -/
theorem Reached.sound (reached : start.Reached pool) (sound : start.Sound) :
  pool.Sound
  := by
  induction reached with
  | start => apply sound
  | act _ act admitted ih => apply ih.performTable admitted

end Pool

end StorageEngine

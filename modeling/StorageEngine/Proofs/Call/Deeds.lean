import StorageEngine.Proofs.Call.Cases
import StorageEngine.Proofs.SlottedPage.Layout

/-!
# What calls do to pools

A call does few things to a pool: it requests and releases locks, fetches pages, overwrites copies
by as many bytes, marks copies that it has at hand, and appends pages to tables.  `Pool.Does` says
that a pool becomes another one by such deeds in a row.  Every round of a call is made of them
(`Call.does_round`), as is what a request comes to before its first round (`Request.does_enter`).
So what each of them keeps is kept by every call, with a case for every deed and none for the
calls.
-/

namespace StorageEngine

namespace Pool

variable {txn : TransactionId} {hand : List CopyNo} {pool middle after : Pool}

/-- The copy that is handed out where `result` is what becomes of a request for a page, if one
is. -/
def Fetched.copies (result : Fetched) : List CopyNo :=
  match result with
  | .page copy => [copy]
  | .waiting | .failed _ => []

/-- `Does txn hand pool after` says that `pool` becomes `after` by the deeds of a call of `txn` that
has the copies `hand` at hand, and those that it fetches from then on. -/
inductive Does (txn : TransactionId) : List CopyNo → Pool → Pool → Prop where
  | nothing (hand : List CopyNo) (pool : Pool) : Does txn hand pool pool
  /-- Locks are granted, denied or released. -/
  | relock {hand : List CopyNo} {pool after : Pool} (locks : LockTable)
      (rest : Does txn hand { pool with locks } after) : Does txn hand pool after
  | fetch {hand : List CopyNo} {pool after : Pool} (page : PageId) (access : Access)
      (rest : Does txn ((pool.fetch txn page access).1.copies ++ hand)
        (pool.fetch txn page access).2 after) :
      Does txn hand pool after
  /-- A copy is overwritten by as many bytes. -/
  | edit {hand : List CopyNo} {pool after : Pool} (no : CopyNo) {bytes : Bytes}
      (length : bytes.length = (pool.copy no).bytes.length)
      (rest : Does txn hand (pool.setCopy no { pool.copy no with bytes }) after) :
      Does txn hand pool after
  /-- A copy at hand is marked as changed and put into the cache. -/
  | install {hand : List CopyNo} {pool after : Pool} {no : CopyNo} (held : no ∈ hand)
      (rest : Does txn hand (pool.install txn no).2 after) : Does txn hand pool after
  /-- An empty page is appended to a table, whatever comes of it. -/
  | append {hand : List CopyNo} {pool after : Pool} (no : StoreNo)
      (rest : Does txn hand (pool.setStore no (pool.store no).allocate.2) after) :
      Does txn hand pool after

/-- The copies `copies` are marked one by one if they are at hand. -/
theorem does_installAll {copies : List CopyNo} (held : copies ⊆ hand) (pool : Pool) :
  Does txn hand pool (pool.installAll txn copies).2
  := by
  induction copies generalizing pool with
  | nil => exact .nothing hand pool
  | cons no copies ih =>
    obtain ⟨here, others⟩ := List.cons_subset.mp held
    apply Does.install here
    unfold installAll
    rcases pool.install txn no with ⟨failure | _, after⟩
    · exact .nothing hand after
    · apply ih others

end Pool

variable {txn : TransactionId} {hand : List CopyNo}

namespace Call

/-- The copies that a call has changed and not marked yet, which a `.count` has. -/
def touched : Call → List CopyNo
  | .count _ touched .. => touched
  | _ => []

/-- `countUp` changes one byte. -/
theorem length_countUp {bytes grown : Bytes} (eq : countUp bytes = .ok grown) :
  grown.length = bytes.length
  := by
  cases bytes with
  | nil => cases eq
  | cons value rest =>
    cases eq
    rfl

/-- To overwrite a fetched copy with as many `bytes` and to mark it is made of deeds of `txn`. -/
theorem does_change {copy : CopyNo} {bytes : Bytes} {pool : Pool} (held : copy ∈ hand)
    (length : bytes.length = (pool.copy copy).bytes.length) :
  pool.Does txn hand
    ((pool.setCopy copy { pool.copy copy with bytes }).install txn copy).2
  := .edit copy length (.install held (.nothing _ _))

theorem does_runPlace (page : PageId) (tuple : Bytes) (pool : Pool) :
  pool.Does txn hand (runPlace txn page tuple pool).2
  := by
  apply Pool.Does.fetch page .readWrite
  rcases eq : runPlace txn page tuple pool with ⟨progress, after⟩
  cases Placing.of_runPlace eq with
  | waiting fetched | failed fetched =>
    rw [fetched]
    exact .nothing _ after
  | @fetched copy middle _ _ fetched storing =>
    rw [fetched]
    have length := SlottedPage.length_insert (middle.copy copy).bytes tuple
    cases storing with
    | refused inserted =>
      rw [inserted] at length
      exact .edit copy length (.nothing _ _)
    | unmarked inserted marked | stored inserted marked =>
      rw [inserted] at length
      have changes : middle.Does txn (copy :: hand) _ := does_change List.mem_cons_self length
      rw [marked] at changes
      exact changes

theorem does_runDelete (record : RecordId) (marks : Bool) (pool : Pool) :
  pool.Does txn hand (runDelete txn record marks pool).2
  := by
  apply Pool.Does.fetch record.page .readWrite
  rcases eq : runDelete txn record marks pool with ⟨progress, after⟩
  cases Deleting.of_runDelete eq with
  | waiting fetched | failed fetched =>
    rw [fetched]
    exact .nothing _ after
  | @refused copy middle _ _ fetched deleted | @erased copy middle _ _ fetched deleted =>
    have length := SlottedPage.length_delete (middle.copy copy).bytes record.slot
    rw [deleted] at length
    rw [fetched]
    exact .edit copy length (.nothing _ _)
  | @unmarked copy middle _ _ _ _ fetched deleted marked
  | @deleted copy middle _ _ _ fetched deleted marked =>
    have length := SlottedPage.length_delete (middle.copy copy).bytes record.slot
    rw [deleted] at length
    have changes : middle.Does txn (copy :: hand) _ := does_change List.mem_cons_self length
    rw [marked] at changes
    rw [fetched]
    exact changes

theorem does_runCount (table : TableId) {touched : List CopyNo} (held : touched ⊆ hand)
    (record : Option RecordId) (rest : Bytes) (pool : Pool) :
  pool.Does txn hand (runCount txn table touched record rest pool).2
  := by
  induction rest generalizing pool touched record hand with
  | nil =>
    unfold runCount
    rw [pool_finish]
    apply Pool.does_installAll held
  | cons no rest ih =>
    apply Pool.Does.fetch ⟨table, UInt32.ofNat no.toNat⟩ .readWrite
    unfold runCount
    dsimp only
    rcases pool.fetch txn ⟨table, UInt32.ofNat no.toNat⟩ .readWrite with
      ⟨copy | _ | failure, after⟩
    · dsimp only
      rcases counted : countUp (after.copy copy).bytes with fault | bytes
      · exact .nothing _ after
      · apply Pool.Does.edit copy (length_countUp counted)
        apply ih
        have fetched : touched ++ [copy] ⊆ copy :: hand := by
          simp [List.subset_cons_of_subset copy held]
        apply fetched
    · exact .nothing _ after
    · exact .nothing _ after

theorem does_entering {no : StoreNo} {tuple : Bytes} {rest : List PageNo} {round : Round}
    {pool after : Pool} (entering : Entering txn no tuple pool rest round after) :
  pool.Does txn hand after
  := by
  cases entering with
  | refused allocated | grown allocated =>
    apply Pool.Does.append no
    rw [allocated]
    exact .nothing _ _
  | next => exact .nothing _ pool

theorem does_probe (no : StoreNo) (tuple : Bytes) (pageNo : PageNo) (alreadyHeld : Bool)
    (rest : List PageNo) (pool : Pool) :
  pool.Does txn hand ((probe no tuple pageNo alreadyHeld rest).round txn pool).2
  := by
  apply Pool.Does.fetch ⟨(pool.store no).table, pageNo⟩ .readOnly
  rcases eq : (probe no tuple pageNo alreadyHeld rest).round txn pool with ⟨round, after⟩
  cases Probing.of_round eq with
  | waiting fetched | failed fetched | broken fetched | roomy fetched =>
    rw [fetched]
    exact .nothing _ after
  | full fetched _ entering =>
    rw [fetched]
    cases alreadyHeld with
    | true => exact does_entering entering
    | false => exact .relock _ (does_entering entering)

/-- A round of `call` is made of deeds, and marks no copies but those in `call.touched` and those
that it fetches. -/
theorem does_round (txn : TransactionId) (call : Call) (pool : Pool) :
  pool.Does txn call.touched (call.round txn pool).2
  := by
  cases call with
  | probe no tuple pageNo alreadyHeld rest => apply does_probe
  | scan table found no rest =>
    rw [pool_round_scan]
    exact .fetch _ _ (.nothing _ _)
  | lock page mode =>
    rw [pool_round_lock]
    exact .relock _ (.nothing _ _)
  | fetch page access =>
    rw [pool_round_fetch]
    exact .fetch _ _ (.nothing _ _)
  | place page tuple =>
    simp only [round, pool_last, run]
    apply does_runPlace
  | count table touched record no rest =>
    simp only [round, pool_last, run]
    apply does_runCount table (List.Subset.refl _)
  | delete record marks =>
    simp only [round, pool_last, run]
    apply does_runDelete

end Call

/-- What `request` comes to before its first round is made of deeds. -/
theorem Request.does_enter (txn : TransactionId) (request : Request) (pool : Pool) :
  pool.Does txn [] (request.enter txn pool).2
  := by
  cases request with
  | insert table tuple =>
    simp only [enter]
    rcases eq : Call.enterInsert txn table tuple pool with ⟨round, after⟩
    cases Call.Beginning.of_enterInsert eq with
    | unknown | unfit | uncounted => exact .nothing _ pool
    | @counters no _ _ _ _ _ counted =>
      have does : pool.Does txn [] (Call.runCount txn (pool.store no).table [] none tuple pool).2 :=
        Call.does_runCount _ (List.Subset.refl _) none tuple pool
      rw [counted] at does
      exact does
    | entering _ _ _ _ entering => exact Call.does_entering entering
  | scan no =>
    simp only [enter]
    split
    · exact .nothing _ pool
    · exact .nothing _ pool
  | _ => exact .nothing _ pool

end StorageEngine

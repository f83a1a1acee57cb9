import StorageEngine.Proofs.Pool.Reading
import StorageEngine.Proofs.System.ShortPages
import StorageEngine.Proofs.System.Snapshot

/-!
# Calls that fail

A tuple is stored or deleted in memory before its page is marked as changed.  What comes before may
fail in many ways, but changes no data; what comes after cannot fail, since the page is cached by
then; and a slotted page that refuses the change is left as it was, as long as a word can tell its
length.  So an insertion or a deletion that fails has changed nothing, whatever others did while it
waited for locks, except that an insertion may have appended an empty page
(`Attempt.changes_nothing`).
-/

namespace StorageEngine

variable {pool middle after : Pool} {txn : TransactionId} {page : PageId} {tuple : Bytes}
  {no : StoreNo} {table : TableId} {progress : Progress}

/-! ### How calls come out -/

/-- Whether a call has succeeded, by its `progress`. -/
def Progress.Succeeds (progress : Progress) : Prop :=
  ∃ answer record, progress = .done { result := .ok answer, record }

/-- Whether a call has failed without naming a record, or `waits` in one of certain ways. -/
inductive Progress.Fruitless (waits : Call → Prop) : Progress → Prop where
  | failed (failure : Failure PoolError) : Fruitless waits (.done (.failure failure))
  | waiting {call : Call} (way : waits call) : Fruitless waits (.waiting call)

theorem Progress.Fruitless.imp {waits waits' : Call → Prop} (fruitless : progress.Fruitless waits)
    (more : ∀ call, waits call → waits' call) :
  progress.Fruitless waits'
  := by
  cases fruitless with
  | failed failure => exact .failed failure
  | waiting way => exact .waiting (more _ way)

theorem Pool.Reads.numbered (reads : pool.Reads after) (numbered : (pool.store no).Numbered) :
  (after.store no).Numbered
  := by
  rw [Store.Numbered, Store.length, reads.media.medium]
  exact numbered

/-- Whether what was done to a pool was to read pages, to append an empty one to the store `no`, or
a part of it, and to read pages again. -/
def Pool.GrowsIn (no : StoreNo) (pool after : Pool) : Prop :=
  ∃ middle grown, pool.Reads middle ∧ middle.Appends no grown ∧ grown.Reads after

theorem Pool.Reads.grows (reads : pool.Reads middle) (grows : middle.GrowsIn no after) :
  pool.GrowsIn no after
  := by
  obtain ⟨found, grown, first, appends, second⟩ := grows
  exact ⟨found, grown, reads.trans first, appends, second⟩

namespace Call

/-- How an insertion of `tuple` waits that has found room for it or has made some. -/
inductive Places (tuple : Bytes) : Call → Prop where
  | place (page : PageId) : Places tuple (.place page tuple)

/-- How an insertion of `tuple` waits that has appended no page to the store `no`. -/
inductive Seeks (no : StoreNo) (tuple : Bytes) : Call → Prop where
  | probe (pageNo : PageNo) (held : Bool) (rest : List PageNo) :
      Seeks no tuple (.probe no tuple pageNo held rest)
  | place (page : PageId) : Seeks no tuple (.place page tuple)

theorem Places.seeks {call : Call} (places : call.Places tuple) (no : StoreNo) :
  call.Seeks no tuple
  := by
  cases places with
  | place page => exact .place page

/-- How a deletion of `record` waits. -/
inductive Deletes (record : RecordId) : Call → Prop where
  | delete : Deletes record (.delete record true)

/-- A copy that is cached can be marked. -/
theorem install_cached {copy : CopyNo} (allocated : copy < pool.copies.size)
    (cached : (pool.cache.frame? (pool.copy copy).id).isSome) (txn : TransactionId)
    (bytes : Bytes) :
  ((pool.setCopy copy { pool.copy copy with bytes }).install txn copy).1 = .ok ()
  := by
  have same : (pool.setCopy copy { pool.copy copy with bytes }).copy copy
      = { pool.copy copy with bytes } := by
    rw [Pool.copy_setCopy, if_pos ⟨rfl, allocated⟩]
  obtain ⟨-, eq⟩ | ⟨absent, -⟩ :=
    (pool.setCopy copy { pool.copy copy with bytes }).install_cases txn copy
  · rw [eq]
  · rw [same] at absent
    have absent : pool.cache.frame? (pool.copy copy).id = none := absent
    simp [absent] at cached

/-- To store a tuple in `copy` succeeds where the page of `copy` is cached, or fails and leaves
`pool`. -/
theorem Storing.succeeds_or_fails {copy : CopyNo} {progress : Progress}
    (storing : Storing txn tuple copy pool progress after) (allocated : copy < pool.copies.size)
    (cached : (pool.cache.frame? (pool.copy copy).id).isSome)
    (short : (pool.copy copy).bytes.length < UInt32.size) :
  progress.Succeeds ∨ ∃ failure, progress = .done (.failure failure) ∧ after = pool
  := by
  cases storing with
  | refused inserted =>
    right
    obtain rfl := SlottedPage.insert_failure short inserted
    exact ⟨_, rfl, Pool.setCopy_self ..⟩
  | @unmarked _ bytes _ _ _ marked =>
    have marks := install_cached allocated cached txn bytes
    rw [marked] at marks
    cases marks
  | stored =>
    left
    exact ⟨_, _, rfl⟩

/-- A `page` that was fetched is cached, and `copy` is an allocated copy of it. -/
theorem cached_fetch (tidy : pool.Tidy) {access : Access} {copy : CopyNo}
    (fetched : pool.fetch txn page access = (.page copy, after)) :
  copy < after.copies.size ∧ (after.copy copy).id = page ∧ (after.cache.frame? page).isSome
  := by
  have relocks : Pool.anything.relocks pool.locks
      (pool.locks.request page txn access.lockMode).2 := trivial
  obtain ⟨moves, -, cached⟩ := Pool.moves_fetch tidy txn page access relocks
  rw [fetched] at moves cached
  obtain ⟨-, frame, found, rfl⟩ := cached copy rfl
  obtain ⟨allocated, named, -⟩ := (tidy.moves moves).framed page frame found
  exact ⟨allocated, named, Option.isSome_of_mem found⟩

/-- `runPlace txn page tuple pool` succeeds, or it changes no data, `Reads`, and is `Fruitless`. -/
theorem runPlace_cases (tidy : pool.Tidy) (short : pool.Short) (txn : TransactionId) (page : PageId)
    (tuple : Bytes) :
  (runPlace txn page tuple pool).1.Succeeds
    ∨ pool.Reads (runPlace txn page tuple pool).2
      ∧ (runPlace txn page tuple pool).1.Fruitless (Places tuple)
  := by
  have reads := Pool.reads_fetch tidy txn page .readWrite
  have short' := short.fetch txn page .readWrite
  rcases eq : runPlace txn page tuple pool with ⟨progress, after⟩
  cases Placing.of_runPlace eq with
  | waiting fetched =>
    rw [fetched] at reads
    right
    exact ⟨reads, .waiting (.place page)⟩
  | failed fetched =>
    rw [fetched] at reads
    right
    exact ⟨reads, .failed _⟩
  | fetched fetched storing =>
    rw [fetched] at reads short'
    obtain ⟨allocated, named, cached⟩ := cached_fetch tidy fetched
    obtain succeeds | ⟨failure, rfl, rfl⟩ :=
      storing.succeeds_or_fails allocated (named.symm ▸ cached) (short'.copies _ allocated)
    · left
      exact succeeds
    · right
      exact ⟨reads, .failed failure⟩

/-- `runDelete txn record` succeeds, or it changes no data, `Reads`, and is `Fruitless`. -/
theorem runDelete_cases (tidy : pool.Tidy) (txn : TransactionId) (record : RecordId) :
  (runDelete txn record true pool).1.Succeeds
    ∨ pool.Reads (runDelete txn record true pool).2
      ∧ (runDelete txn record true pool).1.Fruitless (Deletes record)
  := by
  have reads := Pool.reads_fetch tidy txn record.page .readWrite
  rcases eq : runDelete txn record true pool with ⟨progress, after⟩
  cases Deleting.of_runDelete eq with
  | waiting fetched =>
    rw [fetched] at reads
    right
    exact ⟨reads, .waiting .delete⟩
  | failed fetched =>
    rw [fetched] at reads
    right
    exact ⟨reads, .failed _⟩
  | refused fetched deleted =>
    rw [fetched] at reads
    obtain rfl := SlottedPage.delete_error deleted
    right
    rw [Pool.setCopy_self]
    exact ⟨reads, .failed _⟩
  | erased silent => cases silent
  | @unmarked _ _ _ bytes _ _ fetched _ marked =>
    obtain ⟨allocated, named, cached⟩ := cached_fetch tidy fetched
    have marks := install_cached allocated (named.symm ▸ cached) txn bytes
    rw [marked] at marks
    cases marks
  | deleted =>
    left
    exact ⟨_, _, rfl⟩

/-- To give up the lock of `page`, unless `alreadyHeld`, changes no data and is made of moves. -/
theorem reads_leave (pool : Pool) (txn : TransactionId) (page : PageId) (alreadyHeld : Bool) :
  pool.Reads (if alreadyHeld then pool else pool.releasePage txn page)
    ∧ Pool.Moves Pool.anything pool (if alreadyHeld then pool else pool.releasePage txn page)
  := by
  cases alreadyHeld with
  | true => exact ⟨.refl pool, .refl⟩
  | false => exact ⟨pool.reads_relock _, .single (.relock trivial)⟩

/-- `runPlace txn page tuple pool` is made of moves. -/
theorem moves_place (tidy : pool.Tidy) (txn : TransactionId) (page : PageId) (tuple : Bytes) :
  Pool.Moves Pool.anything pool (runPlace txn page tuple pool).2
  := moves_runPlace tidy trivial trivial tuple fun _ => trivial

/-- `runProbe txn no tuple known rest pool` is made of moves. -/
theorem moves_runProbe (txn : TransactionId) (no : StoreNo) (tuple : Bytes) :
  ∀ (rest : List PageNo) (known : Option Bool) {pool : Pool}, pool.Tidy →
    Pool.Moves Pool.anything pool (runProbe txn no tuple known rest pool).2
  | [], known, pool, tidy => by
    simp only [runProbe, append]
    rcases allocated : (pool.store no).allocate with ⟨failure | page, store⟩
    · exact .single (.append allocated)
    · have appended : Pool.Moves Pool.anything pool (pool.setStore no store) :=
        .single (.append allocated)
      apply appended.trans
      apply moves_place (tidy.moves appended)
  | pageNo :: rest, known, pool, tidy => by
    have fetches : Pool.Moves Pool.anything pool
        (pool.fetch txn ⟨(pool.store no).table, pageNo⟩ .readOnly).2 :=
      (Pool.moves_fetch tidy txn _ .readOnly trivial).1
    unfold runProbe
    dsimp only
    rcases fetched : pool.fetch txn ⟨(pool.store no).table, pageNo⟩ .readOnly with
      ⟨copy | _ | failure, after⟩
    · rw [fetched] at fetches
      have tidy' := tidy.moves fetches
      dsimp only
      rcases SlottedPage.hasRoom (after.copy copy).bytes tuple.length with fault | _ | _
      · exact fetches
      · obtain ⟨-, leaves⟩ := reads_leave after txn ⟨(pool.store no).table, pageNo⟩
          (known.getD (pool.holdsLock txn ⟨(pool.store no).table, pageNo⟩))
        apply (fetches.trans leaves).trans
        apply moves_runProbe txn no tuple rest none (tidy'.moves leaves)
      · apply fetches.trans
        apply moves_place tidy'
    · rw [fetched] at fetches
      exact fetches
    · rw [fetched] at fetches
      exact fetches

/-- `runProbe txn no tuple known rest pool` succeeds; or it changes no data, `Reads`, and is
`Fruitless`; or it `GrowsIn` the store `no` by a page at most, and is fruitless but for that
page. -/
theorem runProbe_cases (txn : TransactionId) (no : StoreNo) (tuple : Bytes) :
  ∀ (rest : List PageNo) (known : Option Bool) {pool : Pool}, pool.Tidy → pool.Short →
      (pool.store no).Numbered →
    (runProbe txn no tuple known rest pool).1.Succeeds
      ∨ pool.Reads (runProbe txn no tuple known rest pool).2
        ∧ (runProbe txn no tuple known rest pool).1.Fruitless (Seeks no tuple)
      ∨ pool.GrowsIn no (runProbe txn no tuple known rest pool).2
        ∧ (runProbe txn no tuple known rest pool).1.Fruitless (Places tuple)
  | [], known, pool, tidy, short, numbered => by
    simp only [runProbe, append]
    rcases allocated : (pool.store no).allocate with ⟨failure | page, store⟩
    all_goals have grows := Pool.appends_allocate allocated numbered
    · rcases grows with reads | appends
      · right; left
        exact ⟨reads, .failed failure⟩
      · right; right
        exact ⟨⟨pool, _, .refl pool, appends, .refl _⟩, .failed failure⟩
    · have tidy' : (pool.setStore no store).Tidy :=
        ⟨tidy.capacity, tidy.bounded, tidy.distinct, tidy.framed⟩
      have short' := short.setStore ((short.stores no).allocate allocated) no
      rcases runPlace_cases tidy' short' txn page tuple with succeeds | ⟨reads, fruitless⟩
      · left
        exact succeeds
      · right
        rcases grows with same | appends
        · left
          exact ⟨same.trans reads, fruitless.imp fun call way => way.seeks no⟩
        · right
          exact ⟨⟨pool, _, .refl pool, appends, reads⟩, fruitless⟩
  | pageNo :: rest, known, pool, tidy, short, numbered => by
    have fetches : Pool.Moves Pool.anything pool
        (pool.fetch txn ⟨(pool.store no).table, pageNo⟩ .readOnly).2 :=
      (Pool.moves_fetch tidy txn _ .readOnly trivial).1
    have reads := Pool.reads_fetch tidy txn ⟨(pool.store no).table, pageNo⟩ .readOnly
    unfold runProbe
    dsimp only
    rcases fetched : pool.fetch txn ⟨(pool.store no).table, pageNo⟩ .readOnly with
      ⟨copy | _ | failure, after⟩
    · rw [fetched] at fetches reads
      have tidy' := tidy.moves fetches
      have short' := short.moves fetches
      dsimp only
      rcases SlottedPage.hasRoom (after.copy copy).bytes tuple.length with fault | _ | _
      · right; left
        exact ⟨reads, .failed (.fault fault)⟩
      · obtain ⟨left, leaves⟩ := reads_leave after txn ⟨(pool.store no).table, pageNo⟩
          (known.getD (pool.holdsLock txn ⟨(pool.store no).table, pageNo⟩))
        have reads' := reads.trans left
        rcases runProbe_cases txn no tuple rest none (tidy'.moves leaves) (short'.moves leaves)
            (reads'.numbered numbered) with
          succeeds | ⟨more, fruitless⟩ | ⟨grows, fruitless⟩
        · exact .inl succeeds
        · exact .inr (.inl ⟨reads'.trans more, fruitless⟩)
        · exact .inr (.inr ⟨reads'.grows grows, fruitless⟩)
      · rcases runPlace_cases tidy' short' txn ⟨(pool.store no).table, pageNo⟩ tuple with
          succeeds | ⟨more, fruitless⟩
        · exact .inl succeeds
        · exact .inr (.inl ⟨reads.trans more, fruitless.imp fun call way => way.seeks no⟩)
    · rw [fetched] at reads
      right; left
      exact ⟨reads, .waiting (.probe ..)⟩
    · rw [fetched] at reads
      right; left
      exact ⟨reads, .failed failure⟩

end Call

/-! ### Requests -/

/-- An insertion of `tuple` into a heap `table` succeeds; or it changes no data, `Reads`, and is
`Fruitless`; or it `GrowsIn` the store of `table` by a page at most. -/
theorem Request.insert_cases (tidy : pool.Tidy) (short : pool.Short)
    (heap : pool.serves (.insert table tuple)) (numbered : ∀ no, (pool.store no).Numbered)
    (txn : TransactionId) :
  ((Request.insert table tuple).start txn pool).1.Succeeds
    ∨ pool.Reads ((Request.insert table tuple).start txn pool).2
      ∧ ((Request.insert table tuple).start txn pool).1.Fruitless
        (fun call => ∃ no, pool.catalog.get? table = some no ∧ call.Seeks no tuple)
    ∨ ∃ no, pool.catalog.get? table = some no
      ∧ pool.GrowsIn no ((Request.insert table tuple).start txn pool).2
      ∧ ((Request.insert table tuple).start txn pool).1.Fruitless (Call.Places tuple)
  := by
  simp only [start, Call.startInsert]
  cases kept : pool.storeOf table with
  | error failure =>
    right; left
    exact ⟨.refl pool, .failed failure⟩
  | ok no =>
    have found := Pool.storeOf_eq_ok kept
    obtain ⟨file, medium⟩ := heap no found
    dsimp only
    rw [medium]
    dsimp only
    split
    · cases (pool.store no).pageNos with
      | error failure =>
        right; left
        exact ⟨.refl pool, .failed failure⟩
      | ok pages =>
        rcases Call.runProbe_cases txn no tuple pages none tidy short (numbered no) with
          succeeds | ⟨reads, fruitless⟩ | ⟨grows, fruitless⟩
        · exact .inl succeeds
        · exact .inr (.inl ⟨reads, fruitless.imp fun call seeks => ⟨no, found, seeks⟩⟩)
        · exact .inr (.inr ⟨no, found, grows, fruitless⟩)
    · right; left
      exact ⟨.refl pool, .failed (.error (.page .insufficientSpace))⟩

/-- A deletion of `record` succeeds, or it changes no data, `Reads`, and is `Fruitless`. -/
theorem Request.delete_cases (tidy : pool.Tidy) (txn : TransactionId) (record : Option RecordId) :
  ((Request.delete record).start txn pool).1.Succeeds
    ∨ pool.Reads ((Request.delete record).start txn pool).2
      ∧ ((Request.delete record).start txn pool).1.Fruitless
        (fun call => ∃ record' ∈ record, call.Deletes record')
  := by
  rw [Request.start_eq_proceed]
  rcases Call.enterDelete_cases record pool with ⟨failure, eq⟩ | ⟨record, rfl, eq⟩
  · right
    simp only [enter, eq, Round.proceed]
    exact ⟨.refl pool, .failed failure⟩
  · simp only [enter, eq, Round.proceed, Call.run]
    rcases Call.runDelete_cases tidy txn record with succeeds | ⟨reads, fruitless⟩
    · exact .inl succeeds
    · exact .inr ⟨reads, fruitless.imp fun call deletes => ⟨record, rfl, deletes⟩⟩

/-- An insertion into a heap table and a deletion start in moves. -/
theorem Request.moves_start (tidy : pool.Tidy) {request : Request} (txn : TransactionId)
    (served : pool.serves request) (tuples : (∃ table tuple, request = .insert table tuple)
      ∨ ∃ record, request = .delete record) :
  Pool.Moves Pool.anything pool (request.start txn pool).2
  := by
  rcases tuples with ⟨table, tuple, rfl⟩ | ⟨record, rfl⟩
  · simp only [start, Call.startInsert]
    cases kept : pool.storeOf table with
    | error failure => exact .refl
    | ok no =>
      obtain ⟨file, medium⟩ := served no (Pool.storeOf_eq_ok kept)
      dsimp only
      rw [medium]
      dsimp only
      split
      · cases (pool.store no).pageNos with
        | error fault => exact .refl
        | ok pages => apply Call.moves_runProbe txn no tuple pages none tidy
      · exact .refl
  · rw [Request.start_eq_proceed]
    rcases Call.enterDelete_cases record pool with ⟨failure, eq⟩ | ⟨record, rfl, eq⟩
    · simp only [enter, eq, Round.proceed]
      exact .refl
    · simp only [enter, eq, Round.proceed, Call.run]
      apply Call.moves_runDelete tidy trivial trivial

/-! ### Calls that wait -/

/-- A stretch of a call in which nobody else does anything: the pool `before` it and `after` it. -/
structure Stretch where
  before : Pool
  after : Pool

/-- A call of `txn` by `request` that nobody interrupts except where it waits for a lock, where
others take any steps; its stretches, how far it has come, and the pool. -/
inductive Attempt (txn : TransactionId) (request : Request) (before : Pool) :
    List Stretch → Progress → Pool → Prop where
  | start : Attempt txn request before [⟨before, (request.start txn before).2⟩]
      (request.start txn before).1 (request.start txn before).2
  | others {stretches : List Stretch} {call : Call} {pool : Pool}
      (attempt : Attempt txn request before stretches (.waiting call) pool) (act : TableAct)
      (admitted : pool.admits act) (brings : act.Short) :
      Attempt txn request before stretches (.waiting call) (pool.performTable act)
  | resume {stretches : List Stretch} {call : Call} {pool : Pool}
      (attempt : Attempt txn request before stretches (.waiting call) pool) :
      Attempt txn request before (stretches ++ [⟨pool, (call.run txn pool).2⟩])
        (call.run txn pool).1 (call.run txn pool).2

/-- Whether no data has changed in any of `stretches`. -/
def ReadOnly (stretches : List Stretch) : Prop :=
  ∀ stretch ∈ stretches, stretch.before.Reads stretch.after

/-- Whether no data has changed in any of some stretches, but for one in which a page was appended
to the store `no`, or a part of it. -/
def GrownOnce (no : StoreNo) (stretches : List Stretch) : Prop :=
  ∃ first grown last, stretches = first ++ grown :: last ∧ ReadOnly first ∧ ReadOnly last
    ∧ grown.before.GrowsIn no grown.after

theorem ReadOnly.append {stretches : List Stretch} {stretch : Stretch} (only : ReadOnly stretches)
    (reads : stretch.before.Reads stretch.after) :
  ReadOnly (stretches ++ [stretch])
  := by
  intro other member
  rcases List.mem_append.mp member with old | new
  · apply only other old
  · obtain rfl := List.mem_singleton.mp new
    apply reads

theorem ReadOnly.grownOnce {stretches : List Stretch} {stretch : Stretch}
    (only : ReadOnly stretches) (grows : stretch.before.GrowsIn no stretch.after) :
  GrownOnce no (stretches ++ [stretch])
  := ⟨stretches, stretch, [], rfl, only, List.forall_mem_nil _, grows⟩

theorem GrownOnce.append {stretches : List Stretch} {stretch : Stretch}
    (once : GrownOnce no stretches) (reads : stretch.before.Reads stretch.after) :
  GrownOnce no (stretches ++ [stretch])
  := by
  obtain ⟨first, grown, last, rfl, before, after, grows⟩ := once
  exact ⟨first, grown, last ++ [stretch], by simp, before, after.append reads, grows⟩

namespace Attempt

variable {before : Pool} {stretches : List Stretch} {record : Option RecordId}

/-- An `attempt` at an insertion into a heap `table` has succeeded; or it is `ReadOnly` and goes on
to look for room; or a page was appended, and only that page may still take `tuple`. -/
theorem insert_cases (tidy : before.Tidy) (short : before.Short)
    (heap : before.serves (.insert table tuple))
    (attempt : Attempt txn (.insert table tuple) before stretches progress pool)
    (numbered : ∀ stretch ∈ stretches, ∀ no, (stretch.before.store no).Numbered) :
  (pool.Tidy ∧ pool.Short)
    ∧ (progress.Succeeds
      ∨ ReadOnly stretches ∧ progress.Fruitless
          (fun call => ∃ no, before.catalog.get? table = some no ∧ call.Seeks no tuple)
      ∨ ∃ no, before.catalog.get? table = some no ∧ GrownOnce no stretches
          ∧ progress.Fruitless (Call.Places tuple))
  := by
  induction attempt with
  | start =>
    have moves := Request.moves_start tidy txn heap (.inl ⟨table, tuple, rfl⟩)
    use ⟨tidy.moves moves, short.moves moves⟩
    have numbered := numbered _ (List.mem_singleton_self _)
    rcases Request.insert_cases tidy short heap numbered txn with
      succeeds | ⟨reads, fruitless⟩ | ⟨no, found, grows, fruitless⟩
    · exact .inl succeeds
    · exact .inr (.inl ⟨List.forall_mem_singleton.mpr reads, fruitless⟩)
    · have none : ReadOnly [] := List.forall_mem_nil _
      exact .inr (.inr ⟨no, found, none.grownOnce grows, fruitless⟩)
  | others _ act admitted brings ih =>
    obtain ⟨⟨tidy, short⟩, comes⟩ := ih numbered
    exact ⟨⟨tidy.performTable admitted, short.performTable tidy brings⟩, comes⟩
  | @resume stretches call pool _ ih =>
    have last := numbered _ (List.mem_append_right _ (List.mem_singleton_self _))
    obtain ⟨⟨tidy, short⟩, comes⟩ := ih fun stretch member =>
      numbered stretch (List.mem_append_left _ member)
    rcases comes with ⟨answer, record, ended⟩ | ⟨only, fruitless⟩ | ⟨no, found, once, fruitless⟩
    · cases ended
    · cases fruitless with
      | waiting way =>
      obtain ⟨no, found, way⟩ := way
      cases way with
      | probe pageNo held rest =>
        have moves := Call.moves_runProbe txn no tuple (pageNo :: rest) (some held) tidy
        use ⟨tidy.moves moves, short.moves moves⟩
        rcases Call.runProbe_cases txn no tuple (pageNo :: rest) (some held) tidy short (last no)
          with
          succeeds | ⟨reads, fruitless⟩ | ⟨grows, fruitless⟩
        · exact .inl succeeds
        · refine .inr (.inl ⟨only.append reads, fruitless.imp ?_⟩)
          exact fun call seeks => ⟨no, found, seeks⟩
        · exact .inr (.inr ⟨no, found, only.grownOnce grows, fruitless⟩)
      | place page =>
        have moves := Call.moves_place tidy txn page tuple
        use ⟨tidy.moves moves, short.moves moves⟩
        rcases Call.runPlace_cases tidy short txn page tuple with succeeds | ⟨reads, fruitless⟩
        · exact .inl succeeds
        · refine .inr (.inl ⟨only.append reads, fruitless.imp ?_⟩)
          exact fun call places => ⟨no, found, places.seeks no⟩
    · cases fruitless with
      | waiting way =>
      cases way with
      | place page =>
        have moves := Call.moves_place tidy txn page tuple
        use ⟨tidy.moves moves, short.moves moves⟩
        rcases Call.runPlace_cases tidy short txn page tuple with succeeds | ⟨reads, fruitless⟩
        · exact .inl succeeds
        · exact .inr (.inr ⟨no, found, once.append reads, fruitless⟩)

/-- An `attempt` at a deletion has succeeded, or it is `ReadOnly` and `Fruitless`. -/
theorem delete_cases (tidy : before.Tidy) (short : before.Short)
    (attempt : Attempt txn (.delete record) before stretches progress pool) :
  (pool.Tidy ∧ pool.Short)
    ∧ (progress.Succeeds
      ∨ ReadOnly stretches
        ∧ progress.Fruitless (fun call => ∃ record' ∈ record, call.Deletes record'))
  := by
  induction attempt with
  | start =>
    have served : before.serves (.delete record) := trivial
    have moves := Request.moves_start tidy txn served (.inr ⟨record, rfl⟩)
    use ⟨tidy.moves moves, short.moves moves⟩
    rcases Request.delete_cases tidy txn record with succeeds | ⟨reads, fruitless⟩
    · exact .inl succeeds
    · exact .inr ⟨List.forall_mem_singleton.mpr reads, fruitless⟩
  | others _ act admitted brings ih =>
    obtain ⟨⟨tidy, short⟩, comes⟩ := ih
    exact ⟨⟨tidy.performTable admitted, short.performTable tidy brings⟩, comes⟩
  | @resume stretches call pool _ ih =>
    obtain ⟨⟨tidy, short⟩, comes⟩ := ih
    rcases comes with ⟨answer, record, ended⟩ | ⟨only, fruitless⟩
    · cases ended
    · cases fruitless with
      | waiting way =>
      obtain ⟨record', named, way⟩ := way
      cases way with
      | delete =>
        have moves : Pool.Moves Pool.anything pool (Call.runDelete txn record' true pool).2 :=
          Call.moves_runDelete tidy trivial trivial
        use ⟨tidy.moves moves, short.moves moves⟩
        rcases Call.runDelete_cases tidy txn record' with succeeds | ⟨reads, fruitless⟩
        · exact .inl succeeds
        · refine .inr ⟨only.append reads, fruitless.imp ?_⟩
          exact fun call deletes => ⟨record', named, deletes⟩

/-- Whatever was asked of `start` before, whatever fails, and whatever others do while it waits:
where an insertion into a heap table or a deletion ends in a `failure`, it names no record, and in
none of its `stretches` has it changed a copy of a page in memory, with the transaction that has
changed it, or what is stored.  Only an insertion may have appended an empty page, once, right
after the whole pages of its table, or so much of it as the store could take.  This takes that a
word can tell the lengths of pages and their numbers. -/
theorem changes_nothing {config : PoolConfig} {catalog : Registry TableId StoreNo}
    {stores : Array Store} {start : Pool} {request : Request} {outcome : Outcome}
    {failure : Failure CallError} (created : Pool.create config catalog stores = .ok start)
    (short : start.Short) (reached : start.ReachedShort before)
    (tuples : (∃ table tuple, request = .insert table tuple) ∨ ∃ record, request = .delete record)
    (heap : before.serves request)
    (attempt : Attempt txn request before stretches (.done outcome) pool)
    (numbered : ∀ stretch ∈ stretches, ∀ no, (stretch.before.store no).Numbered)
    (failed : outcome.result = .error failure) :
  outcome.record = none
    ∧ (ReadOnly stretches
      ∨ ∃ table tuple no, request = .insert table tuple ∧ before.catalog.get? table = some no
        ∧ GrownOnce no stretches)
  := by
  obtain ⟨tidy, short⟩ := reached.short (Pool.tidy_create created) short
  have unanswered : ¬ (Progress.done outcome).Succeeds := by
    rintro ⟨answer, record, ended⟩
    cases ended
    cases failed
  have unnamed : ∀ waits, (Progress.done outcome).Fruitless waits → outcome.record = none := by
    intro waits fruitless
    cases fruitless
    rfl
  rcases tuples with ⟨table, tuple, rfl⟩ | ⟨record, rfl⟩
  · obtain ⟨-, succeeds | ⟨only, fruitless⟩ | ⟨no, found, once, fruitless⟩⟩ :=
      attempt.insert_cases tidy short heap numbered
    · cases unanswered succeeds
    · exact ⟨unnamed _ fruitless, .inl only⟩
    · exact ⟨unnamed _ fruitless, .inr ⟨table, tuple, no, rfl, found, once⟩⟩
  · obtain ⟨-, succeeds | ⟨only, fruitless⟩⟩ := attempt.delete_cases tidy short
    · cases unanswered succeeds
    · exact ⟨unnamed _ fruitless, .inl only⟩

end Attempt

/-! ### An insertion that appends a page in vain -/

namespace System

theorem short_noPages :
  noPages.Short
  := by
  refine ⟨by decide, ?_, nofun⟩
  rintro (_ | no)
  · show 24 < UInt32.size
    decide
  · nofun

/-- `noPagesInserted` is reached from `noPages`: a transaction has inserted a tuple, and there is
no room for another one beside it. -/
theorem reachedShort_noPagesInserted :
  noPages.ReachedShort noPagesInserted
  := by
  apply Pool.ReachedShort.act (Pool.ReachedShort.act Pool.ReachedShort.start
    (.use (.enter ⟨0⟩ (.insert 1 [7]))) trivial trivial) (.use (.round ⟨0⟩ (.place ⟨1, 0⟩ [7])))
  · apply List.forall_mem_nil
  · trivial

/-- In `noPagesInserted`, another insertion waits until the first transaction commits, appends a
page, which then fails to be read, and fails. -/
theorem changes_nothing_noPages :
  Pool.create noPages.config noPages.catalog noPages.stores = .ok noPages
    ∧ noPages.Short
    ∧ noPages.ReachedShort noPagesInserted
    ∧ noPagesInserted.serves (.insert 1 [8])
    ∧ ∃ stretches outcome pool,
      Attempt ⟨1⟩ (.insert 1 [8]) noPagesInserted stretches (.done outcome) pool
        ∧ outcome.result = .error (.error (.pool Store.injectedFailure))
        ∧ outcome.record = none
        ∧ GrownOnce 0 stretches
  := by
  have created : Pool.create noPages.config noPages.catalog noPages.stores = .ok noPages := rfl
  have heap : noPagesInserted.serves (.insert 1 [8]) := serves_insert_of_one_table rfl rfl _ _
  have waits : Attempt ⟨1⟩ (.insert 1 [8]) noPagesInserted [⟨noPagesInserted, noPagesAwaited⟩]
      (.waiting (.probe 0 [8] 0 false [])) noPagesAwaited := .start
  have committed := (waits.others (.use (.complete ⟨0⟩ true)) trivial trivial).others
    (.use (.disrupt 0 [1] [])) trivial trivial
  have resumed := committed.resume
  obtain ⟨unnamed, effect⟩ := Attempt.changes_nothing created short_noPages
    reachedShort_noPagesInserted (.inl ⟨1, [8], rfl⟩) heap resumed
    (by
      intro stretch member
      rcases List.mem_append.mp member with first | second
      · obtain rfl := List.mem_singleton.mp first
        exact numbered_of_one_store rfl (by decide)
      · obtain rfl := List.mem_singleton.mp second
        exact numbered_of_one_store rfl (by decide)) rfl
  refine ⟨created, short_noPages, reachedShort_noPagesInserted, heap, _, _, _, resumed, rfl,
    unnamed, ?_⟩
  rcases effect with only | ⟨table, tuple, no, same, found, grown⟩
  · have same := (only _ (List.mem_append_right _ (List.mem_singleton_self _))).media.medium 0
    have lengths := congrArg (fun medium => Store.length { table := 1, medium }) same
    exact absurd lengths (by decide)
  · cases same
    cases found
    exact grown

/-- An insertion into `tuplePages` fails, and has replaced the first page, with the tuple in it. -/
theorem changes_page_tuplePages :
  Pool.create (Pool.ofFile 1 tuplePages).config (Pool.ofFile 1 tuplePages).catalog
      (Pool.ofFile 1 tuplePages).stores = .ok (Pool.ofFile 1 tuplePages)
    ∧ (Pool.ofFile 1 tuplePages).Short
    ∧ (Pool.ofFile 1 tuplePages).serves (.insert 1 [8])
    ∧ ∃ stretches pool,
      Attempt ⟨0⟩ (.insert 1 [8]) (.ofFile 1 tuplePages) stretches
          (.done (.failure (.error (.disk (.invalidPageNo 0))))) pool
        ∧ (Pool.ofFile 1 tuplePages).kept? ⟨1, 0⟩ = some filledPage
        ∧ pool.kept? ⟨1, 0⟩ = some emptyPage
  := by
  have outgrown := outgrown_tuplePages
  have created := Pool.create_ofFile Nat.one_pos (by decide) tuplePages
  have fits : Call.fits 24 [8] = true := rfl
  have empty : Store.emptyHeapPage 24 = .ok emptyPage := rfl
  have short : (Pool.ofFile 1 tuplePages).Short := by
    refine ⟨by decide, ?_, nofun⟩
    rintro (_ | no)
    · show 24 < UInt32.size
      decide
    · nofun
  obtain ⟨fails, kept⟩ := outgrown.insert_fails (Pool.tidy_create created) fits empty rfl ⟨0⟩
    rfl rfl rfl
  have attempt := @Attempt.start ⟨0⟩ (.insert 1 [8]) (.ofFile 1 tuplePages)
  rw [fails] at attempt
  exact ⟨created, short, serves_insert_of_one_table rfl rfl _ _, _, _, attempt, kept?_tuplePages 0,
    kept 0⟩

end System

end StorageEngine

import StorageEngine.Proofs.Pool.Current
import StorageEngine.Proofs.Pool.Outgrown
import StorageEngine.Proofs.System.Moves

/-!
# Changes are not stored early

A pool may be asked for anything by any transaction at any time, and its stores may fail to read and
to write.  Its cache keeps no more pages than it may, each once, and knows which of them are dirty;
the others are what is stored of them (`Use.no_steal`).  So a page that makes room for another is
not lost, and nothing is stored but where transactions commit or where it is asked for.
-/

namespace StorageEngine

/-! ### The use of a pool -/

/-- A step in the use of a pool. -/
inductive PoolAct where
  /-- A call begins. -/
  | enter (txn : TransactionId) (request : Request)
  /-- A call goes on, up to its next lock request. -/
  | round (txn : TransactionId) (call : Call)
  /-- A copy is overwritten and marked. -/
  | update (txn : TransactionId) (no : CopyNo) (bytes : Bytes)
  | mark (txn : TransactionId) (no : CopyNo)
  | complete (txn : TransactionId) (commits : Bool)
  | flushPage (page : PageId)
  | flushTransaction (txn : TransactionId)
  | flushAll
  | discard (page : PageId)
  | release (txn : TransactionId) (page : PageId)
  /-- A store is told which pages fail to be read and to be written, whether its pages fail to be
  counted, and how much of a page can be appended. -/
  | disrupt (no : StoreNo) (failingReads failingWrites : List PageNo) (failingCount : Bool := false)
      (appendLimit : Option Nat := none)

namespace PoolAct

/-- Whether a step is one that stores changes. -/
def stores : PoolAct → Bool
  | complete _ commits => commits
  | flushPage _ => true
  | flushTransaction _ => true
  | flushAll => true
  | _ => false

/-- The transaction that changes pages in a step. -/
def changer? : PoolAct → Option TransactionId
  | round txn _ => some txn
  | update txn _ _ => some txn
  | mark txn _ => some txn
  | _ => none

end PoolAct

namespace Pool

variable {start pool : Pool} {act : PoolAct} {config : PoolConfig}
  {catalog : Registry TableId StoreNo} {stores : Array Store}

/-- Whether a step on `pool` is one that clients take.  Copies are overwritten by transactions that
have locked their pages exclusively, and a call breaks off only in pages whose length a word can
tell: what is left of a longer one is not told. -/
def allows (pool : Pool) : PoolAct → Prop
  | .enter _ request => pool.serves request
  | .round txn call => call.marks
    ∧ ((call.round txn pool).1.leadsTo = .faulted → pool.config.pageSize < UInt32.size)
  | .update txn no bytes => no < pool.copies.size
    ∧ bytes.length = (pool.copy no).bytes.length
    ∧ pool.locks.modeOf? (pool.copy no).id txn = some .exclusive
  | .mark _ no => no < pool.copies.size
  | _ => True

/-- `pool` after a step. -/
def perform (pool : Pool) : PoolAct → Pool
  | .enter txn request => (request.enter txn pool).2
  | .round txn call => (call.round txn pool).2
  | .update txn no bytes => ((pool.setCopy no { pool.copy no with bytes }).markDirty txn no).2
  | .mark txn no => (pool.markDirty txn no).2
  | .complete txn commits => (pool.complete txn commits).2
  | .flushPage page => (pool.flushPage page).2
  | .flushTransaction txn => (pool.flushTransaction txn).2
  | .flushAll => pool.flushAll.2
  | .discard page => pool.discard page
  | .release txn page => pool.releasePage txn page
  | .disrupt no failingReads failingWrites failingCount appendLimit =>
    pool.setStore no
      { pool.store no with failingReads, failingWrites, failingCount, appendLimit }

/-- The pools that steps in any order lead to from `start`. -/
inductive Use (start : Pool) : Pool → Prop where
  | start : Use start start
  | act {pool : Pool} (before : Use start pool) (act : PoolAct) (allowed : pool.allows act) :
      Use start (pool.perform act)

/-! ### Steps -/

/-- What the moves of `act` may do. -/
def freedom (pool : Pool) (act : PoolAct) : Freedom where
  relocks _ _ := True
  changes txn := act.changer? = some txn
  writes := act.stores = true
  spoils := pool.config.pageSize < UInt32.size

theorem idle_freedom (idle : act.changer? = none) (txn : TransactionId) :
  ¬ (pool.freedom act).changes txn
  := by
  simp [freedom, idle]

/-- The copy `no`, overwritten with `bytes` under an exclusive lock of `txn`, is installed by
`markDirty`. -/
theorem markDirty_setCopy {txn : TransactionId} {no : CopyNo} {bytes : Bytes}
    (allocated : no < pool.copies.size)
    (exclusive : pool.locks.modeOf? (pool.copy no).id txn = some .exclusive) :
  (pool.setCopy no { pool.copy no with bytes }).markDirty txn no
    = (pool.setCopy no { pool.copy no with bytes }).install txn no
  := by
  have copy : (pool.setCopy no { pool.copy no with bytes }).copy no
      = { pool.copy no with bytes } := by
    rw [copy_setCopy, if_pos ⟨rfl, allocated⟩]
  rw [markDirty, copy]
  exact if_pos exclusive

/-- `pool.perform act` is made of moves of `pool.freedom act`. -/
theorem moves_perform (tidy : pool.Tidy) (allowed : pool.allows act) :
  Moves (pool.freedom act) pool (pool.perform act)
  := by
  cases act with
  | enter txn request => exact Request.moves_enter txn allowed
  | round txn call =>
    apply Call.moves_round tidy allowed.1 rfl
    · intro _ _
      trivial
    · intro _ _ _ _ _ _ _
      trivial
    · apply allowed.2
  | update txn no bytes =>
    obtain ⟨allocated, length, exclusive⟩ := allowed
    rw [perform, markDirty_setCopy allocated exclusive]
    apply moves_change tidy rfl allocated length exclusive
  | mark txn no => exact moves_markDirty tidy rfl allowed
  | complete txn commits =>
    have idle := @idle_freedom pool (.complete txn commits) rfl
    obtain ⟨settled, moves, ⟨fault, eq⟩ | ⟨-, eq, -⟩⟩ := moves_complete tidy idle txn commits id
    · rw [perform, eq]
      exact moves
    · rw [perform, eq]
      exact moves.tail (.relock trivial)
  | flushPage page => exact moves_flushPage tidy rfl page
  | flushTransaction txn => exact (moves_flush tidy rfl (idle_freedom rfl) _).1
  | flushAll => exact (moves_flush tidy rfl (idle_freedom rfl) _).1
  | discard page => exact .single (.remove page)
  | release txn page => exact .single (.relock trivial)
  | disrupt => exact .single (.disrupt ..)

/-- A pool that `create` returns is `Tidy`. -/
theorem tidy_create (created : create config catalog stores = .ok pool) :
  pool.Tidy
  := by
  rw [(create_eq_ok created).2]
  refine ⟨rfl, Nat.zero_le _, List.nodup_nil, ?_⟩
  intro page frame found
  cases found

/-- A pool that `create` returns is `Imaged`: it has no copies. -/
theorem imaged_create (created : create config catalog stores = .ok pool)
    (catalogued : pool.Catalogued) :
  pool.Imaged
  := by
  use catalogued
  rw [(create_eq_ok created).2]
  intro no old
  cases old

/-- A pool that `create` returns is `Current`. -/
theorem current_create (created : create config catalog stores = .ok pool)
    (catalogued : pool.Catalogued) :
  pool.Current
  := by
  refine ⟨imaged_create created catalogued, ?_⟩
  rw [(create_eq_ok created).2]
  intro page frame found
  cases found

namespace Use

theorem tidy (use : start.Use pool) (tidy : start.Tidy) :
  pool.Tidy
  := by
  induction use with
  | start => apply tidy
  | act _ act allowed ih => apply ih.moves (moves_perform ih allowed)

theorem current (use : start.Use pool) (tidy : start.Tidy) (current : start.Current)
    (numbered : ∀ no, (pool.store no).Numbered) :
  pool.Current
  := by
  induction use with
  | start => apply current
  | act before act allowed ih =>
    have moves := moves_perform (before.tidy tidy) allowed
    apply (ih (Moves.grows moves |>.numbered numbered)).moves (before.tidy tidy) moves numbered id

theorem config_eq (use : start.Use pool) (tidy : start.Tidy) :
  pool.config = start.config
  := by
  induction use with
  | start => rfl
  | act before act allowed ih =>
    rw [(Moves.fixed (moves_perform (before.tidy tidy) allowed)).1, ih]

end Use

/-! ### Fetching -/

/-- A `page` that is not cached fails to be fetched with `.poolFull`, once its lock is granted,
exactly if the cache is full and every frame is dirty. -/
theorem Tidy.fetch_poolFull_iff (tidy : pool.Tidy) {txn : TransactionId} {page : PageId}
    {access : Access} (absent : pool.isResident page = false)
    (granted : (pool.locks.request page txn access.lockMode).1 = .granted) :
  (pool.fetch txn page access).1 = .failed (.error .poolFull)
    ↔ pool.residentCount = pool.config.poolSize
      ∧ ∀ frame ∈ pool.cache.frames, frame.dirty = true
  := by
  have absent : pool.cache.frame? page = none := by
    simpa [isResident, Cache.contains] using absent
  have full : pool.cache.makeRoom? = none
      ↔ pool.residentCount = pool.config.poolSize
        ∧ ∀ frame ∈ pool.cache.frames, frame.dirty = true := by
    have bounded := tidy.bounded
    rw [Cache.makeRoom?_eq_none_iff, residentCount, ← tidy.capacity]
    apply and_congr_left
    intro _
    omega
  rw [← full]
  obtain ⟨locks, asked, -⟩ | ⟨locks, asked, -⟩ | ⟨locks, -, fetched⟩ :=
    pool.fetch_cases txn page access
  · rw [asked] at granted
    cases granted
  · rw [asked] at granted
    cases granted
  obtain ⟨frame, found, -⟩ | ⟨-, made, eq⟩ | ⟨room, stores, -, made, -, -, loaded⟩ :=
    Pool.load_cases { pool with locks } page
  · cases absent.symm.trans found
  · have made : pool.cache.makeRoom? = none := made
    rcases fetched with ⟨copy, after, loaded, -⟩ | ⟨failure, after, loaded, fetched⟩
    · cases eq.symm.trans loaded
    · cases eq.symm.trans loaded
      simp [fetched, made]
  · have made : pool.cache.makeRoom? = some room := made
    rw [made]
    rcases fetched with ⟨copy, after, -, fetched⟩ | ⟨failure, after, failed, fetched⟩
    · simp [fetched]
    · rcases loaded with ⟨failure', ofStore, eq⟩ | ⟨bytes, -, -, eq⟩
      · cases eq.symm.trans failed
        have other : failure ≠ .error .poolFull := fun full => ofStore _ full
        simp [fetched, other]
      · cases eq.symm.trans failed

/-- A pool in `Use` has at most `config.poolSize` pages in its cache, each once, and knows which of
them are dirty.  The clean ones are what is stored of them, as long as every store is `Numbered`.
Room is made by giving up clean pages, and there is none exactly if the cache is full of dirty
pages.  Nothing is stored but where a transaction commits or where it is asked for. -/
theorem Use.no_steal (created : create config catalog stores = .ok start)
    (catalogued : start.Catalogued) (use : start.Use pool) :
  pool.residentCount ≤ config.poolSize
    ∧ pool.cache.Distinct
    ∧ (∀ frame ∈ pool.cache.frames,
        (pool.copy frame.copy).id = frame.page ∧ frame.dirty = (pool.copy frame.copy).isDirty)
    ∧ ((∀ no, (pool.store no).Numbered) →
        ∀ frame ∈ pool.cache.frames, (pool.copy frame.copy).isDirty = false →
          pool.stored frame.page = some (pool.copy frame.copy).bytes)
    ∧ (∀ room, pool.cache.makeRoom? = some room →
        ∀ frame ∈ pool.cache.frames, (pool.copy frame.copy).isDirty = true → frame ∈ room.frames)
    ∧ (∀ txn page access, pool.isResident page = false →
        (pool.locks.request page txn access.lockMode).1 = .granted →
        ((pool.fetch txn page access).1 = .failed (.error .poolFull)
          ↔ pool.residentCount = config.poolSize
            ∧ ∀ frame ∈ pool.cache.frames, (pool.copy frame.copy).isDirty = true))
    ∧ ∀ act, pool.allows act → act.stores = false → pool.SameWrites (pool.perform act)
  := by
  have tidy := use.tidy (tidy_create created)
  have size : pool.config.poolSize = config.poolSize := by
    rw [use.config_eq (tidy_create created), (create_eq_ok created).2]
  have framed : ∀ frame ∈ pool.cache.frames, pool.cache.frame? frame.page = some frame
      ∧ (pool.copy frame.copy).id = frame.page
      ∧ frame.dirty = (pool.copy frame.copy).isDirty := by
    intro frame member
    have found := (Cache.mem_frames_iff tidy.distinct).mp member
    exact ⟨found, (tidy.framed _ frame found).2⟩
  refine ⟨?_, tidy.distinct, fun frame member => (framed frame member).2, ?_, ?_, ?_, ?_⟩
  · rw [← size, ← tidy.capacity]
    apply tidy.bounded
  · intro numbered frame member clean
    obtain ⟨found, -, dirty⟩ := framed frame member
    have current := use.current (tidy_create created) (current_create created catalogued) numbered
    apply current.clean frame.page frame found (dirty.trans clean)
  · intro room made frame member dirty
    obtain ⟨found, -, same⟩ := framed frame member
    obtain ⟨-, -, stay⟩ := Cache.makeRoom?_spec tidy.distinct made
    apply Cache.mem_of_frame? (stay frame.page frame found (same.trans dirty))
  · intro txn page access absent granted
    rw [tidy.fetch_poolFull_iff absent granted, size]
    apply and_congr_right
    intro _
    apply forall₂_congr
    intro frame member
    rw [(framed frame member).2.2]
  · intro act allowed quiet
    apply Moves.sameWrites (moves_perform tidy allowed)
    simp [freedom, quiet]

/-- A pool with room for one page, over a table of two. -/
def roomForOne : Pool :=
  { config := ⟨1, 4, .ofMillis 1⟩, cache := ⟨1, []⟩, copies := #[], locks := .empty
    catalog := ⟨[(1, 0)]⟩
    stores := #[{ table := 1, medium := .counters #[[1, 2, 3, 4], [5, 6, 7, 8]] }] }

/-- `roomForOne` after a transaction has fetched the first page and changed it. -/
def roomTaken : Pool :=
  (roomForOne.perform (.round ⟨0⟩ (.fetch ⟨1, 0⟩ .readWrite))).perform (.update ⟨0⟩ 0 [9, 2, 3, 4])

/-- In `roomTaken` the changed page keeps the other one out, and is not stored. -/
theorem no_steal_roomForOne :
  Pool.create roomForOne.config roomForOne.catalog roomForOne.stores = .ok roomForOne
    ∧ roomForOne.Catalogued
    ∧ roomForOne.Use roomTaken
    ∧ (roomTaken.fetch ⟨1⟩ ⟨1, 1⟩ .readOnly).1 = .failed (.error .poolFull)
    ∧ roomTaken.SameWrites (roomTaken.perform (.complete ⟨0⟩ false))
  := by
  have created : Pool.create roomForOne.config roomForOne.catalog roomForOne.stores
      = .ok roomForOne := rfl
  have catalogued : roomForOne.Catalogued := by
    intro table no found
    obtain ⟨rfl, rfl⟩ : 1 = table ∧ 0 = no := by
      simpa [roomForOne, Registry.get?, Registry.lookup] using found
    decide
  have use : roomForOne.Use roomTaken := by
    apply Use.act (Use.act Use.start _ _)
    · exact ⟨by decide, rfl, rfl⟩
    · use trivial
      intro faulted
      cases faulted
  obtain ⟨-, -, -, -, -, full, quiet⟩ := Use.no_steal created catalogued use
  refine ⟨created, catalogued, use, ?_, quiet _ trivial rfl⟩
  exact (full ⟨1⟩ ⟨1, 1⟩ .readOnly rfl rfl).mpr ⟨rfl, by decide⟩

/-! ### A clean page that is not read -/

/-- A page of 33 bytes with a tuple of four, which has no room for another one of four. -/
def spacedPage : Bytes :=
  [16, 0, 0, 0, 9, 0, 0, 0, 1, 0, 0, 0, 1, 2, 3, 4, 0, 0, 0, 0, 0, 0, 0, 0, 0,
    12, 0, 0, 0, 4, 0, 0, 0]

/-- An empty page of 33 bytes. -/
def blankPage : Bytes :=
  [12, 0, 0, 0, 21, 0, 0, 0, 0, 0, 0, 0, 0, 0, 0, 0, 0, 0, 0, 0, 0, 0, 0, 0, 0, 0, 0, 0, 0, 0,
    0, 0, 0]

/-- The pool after a transaction has read the first page of `file`. -/
def spacedPagesRead (file : PageFile) : Pool :=
  { ofFile 2 file with
    cache := ⟨2, [⟨⟨1, 0⟩, 0, false⟩]⟩
    copies := #[⟨⟨1, 0⟩, spacedPage, none⟩]
    locks := (LockTable.empty.request ⟨1, 0⟩ ⟨0⟩ .shared).2
    stores := #[{ table := 1, medium := .heap file, accesses := [⟨0, false, false⟩] }] }

/-- The pool over `file` after another transaction has found no room in the last page. -/
def spacedPagesProbed (file : PageFile) : Pool :=
  { ofFile 2 file with
    cache := ⟨2, [⟨⟨1, 0⟩, 0, false⟩, ⟨⟨1, 4294967294⟩, 1, false⟩]⟩
    copies := #[⟨⟨1, 0⟩, spacedPage, none⟩, ⟨⟨1, 4294967294⟩, spacedPage, none⟩]
    locks := ((spacedPagesRead file).locks.request ⟨1, 4294967294⟩ ⟨1⟩ .shared).2
    stores := #[
      { table := 1, medium := .heap file
        accesses := [⟨4294967294, false, false⟩, ⟨0, false, false⟩] }] }

/-- `spacedPagesProbed` after that transaction has appended a page. -/
def spacedPagesGrown (file : PageFile) : Pool :=
  { spacedPagesProbed file with
    locks := (spacedPagesProbed file).locks.release ⟨1, 4294967294⟩ ⟨1⟩
    stores := #[
      { table := 1, medium := .heap (file.store (UInt32.ofNat file.pages) blankPage)
        accesses := [⟨4294967294, false, false⟩, ⟨0, false, false⟩] }] }

section

variable {file : PageFile}

theorem perform_ofFile (size : file.pageSize = 33) (read : file.read 0 = .ok spacedPage) :
  (ofFile 2 file).perform (.round ⟨0⟩ (.fetch ⟨1, 0⟩ .readOnly)) = spacedPagesRead file
  := by
  have image : ((ofFile 2 file).store 0).image ⟨1, 0⟩ = .ok spacedPage :=
    Store.image_of_read rfl rfl read
  have fetched : (ofFile 2 file).fetch ⟨0⟩ ⟨1, 0⟩ .readOnly = (.page 0, spacedPagesRead file) :=
    fetch_eq_entered rfl rfl rfl rfl rfl image size.symm
  simp only [perform, Call.round, Call.run, Call.runFetch, fetched]
  rfl

theorem perform_spacedPagesRead (size : file.pageSize = 33)
    (read : file.read 4294967294 = .ok spacedPage) :
  (spacedPagesRead file).perform (.round ⟨1⟩ (.probe 0 [1, 2, 3, 4] 4294967294 false []))
    = spacedPagesGrown file
  := by
  have image : ((spacedPagesRead file).store 0).image ⟨1, 4294967294⟩ = .ok spacedPage :=
    Store.image_of_read rfl rfl read
  have fetched : (spacedPagesRead file).fetch ⟨1⟩ ⟨1, 4294967294⟩ .readOnly
      = (.page 1, spacedPagesProbed file) :=
    fetch_eq_entered rfl rfl rfl rfl rfl image size.symm
  have empty : Store.emptyHeapPage file.pageSize = .ok blankPage := by
    rw [size]
    rfl
  have appended : (((spacedPagesProbed file).releasePage ⟨1⟩ ⟨1, 4294967294⟩).store 0).allocate
      = (.ok ⟨1, UInt32.ofNat file.pages⟩, (spacedPagesGrown file).store 0) :=
    Store.allocate_eq_whole rfl empty rfl rfl
  have round : (Call.probe 0 [1, 2, 3, 4] 4294967294 false []).round ⟨1⟩ (spacedPagesRead file)
      = Call.enterProbe ⟨1⟩ 0 [1, 2, 3, 4] []
          ((spacedPagesProbed file).releasePage ⟨1⟩ ⟨1, 4294967294⟩) :=
    Call.round_probe_full fetched rfl false []
  simp only [perform, round, Call.enterProbe, appended]
  rfl

/-- The page that is appended to `file` takes the last number. -/
theorem outgrown_spacedPagesGrown (size : file.pageSize = 33)
    (last : file.pages + 1 = UInt32.size) :
  (spacedPagesGrown file).Outgrown 1 0 (file.store (UInt32.ofNat file.pages) blankPage)
  := by
  have fits : blankPage.length = file.pageSize := size.symm
  have positive : 0 < file.pageSize := by
    rw [size]
    decide
  have numbered : file.pages < UInt32.size := Nat.lt_of_succ_le (Nat.le_of_eq last)
  obtain ⟨-, longer, -⟩ := PageFile.store_appends positive fits numbered
  rw [last] at longer
  exact ⟨rfl, Nat.one_pos, rfl, rfl, ⟨Nat.le_of_eq longer.symm, longer ▸ rfl⟩, rfl, rfl⟩

/-- Where `file` has as many equal pages as can be counted, one of them can be in the cache when
another one is appended. -/
theorem use_spacedPagesGrown (size : file.pageSize = 33) (last : file.pages + 1 = UInt32.size)
    (same : ∀ no : PageNo, no.toNat < file.pages → file.page no = spacedPage) :
  (ofFile 2 file).Use (spacedPagesGrown file)
  := by
  have last : file.pages = 4294967295 := Nat.succ.inj last
  have read : ∀ no : PageNo, no.toNat < file.pages → file.read no = .ok spacedPage := by
    intro no within
    have numbered : file.pages < UInt32.size := by
      rw [last]
      decide
    apply (PageFile.read_eq_ok_iff numbered).mpr
    refine ⟨?_, within, same no within⟩
    rw [size]
    decide
  have short : file.pageSize < UInt32.size := by
    rw [size]
    decide
  have reads := perform_ofFile size (read 0 (by rw [last]; decide))
  have appends := perform_spacedPagesRead size (read 4294967294 (by rw [last]; decide))
  have use : (ofFile 2 file).Use (spacedPagesRead file) :=
    reads ▸ .act .start (.round ⟨0⟩ (.fetch ⟨1, 0⟩ .readOnly)) ⟨trivial, fun _ => short⟩
  exact appends ▸ .act use (.round ⟨1⟩ (.probe 0 [1, 2, 3, 4] 4294967294 false []))
    ⟨trivial, fun _ => short⟩

end

/-- A file of as many `spacedPage`s as can be counted. -/
def spacedPages : PageFile := .repeated 4294967295 spacedPage

theorem pages_spacedPages :
  spacedPages.pages + 1 = UInt32.size
  := by
  rw [spacedPages, PageFile.pages_repeated (by decide)]

theorem page_spacedPages {no : PageNo} (within : no.toNat < spacedPages.pages) :
  spacedPages.page no = spacedPage
  := by
  apply PageFile.page_repeated
  rw [← PageFile.pages_repeated (by decide : 0 < spacedPage.length) 4294967295]
  exact within

/-- A transaction has read the first of `spacedPages`, and an insertion of another one has appended
a page.  The first page is in the cache and clean, and cannot be read from the file any more. -/
theorem unread_spacedPages :
  create (ofFile 2 spacedPages).config (ofFile 2 spacedPages).catalog (ofFile 2 spacedPages).stores
      = .ok (ofFile 2 spacedPages)
    ∧ (ofFile 2 spacedPages).Catalogued
    ∧ (ofFile 2 spacedPages).Use (spacedPagesGrown spacedPages)
    ∧ ∃ frame ∈ (spacedPagesGrown spacedPages).cache.frames,
      ((spacedPagesGrown spacedPages).copy frame.copy).isDirty = false
        ∧ (spacedPagesGrown spacedPages).stored frame.page = none
  := by
  have catalogued : (ofFile 2 spacedPages).Catalogued := by
    intro table no found
    obtain ⟨rfl, rfl⟩ : 1 = table ∧ 0 = no := by
      simpa [ofFile, Registry.get?, Registry.lookup] using found
    exact ⟨Nat.one_pos, rfl⟩
  have outgrown := outgrown_spacedPagesGrown rfl pages_spacedPages
  refine ⟨create_ofFile Nat.two_pos (by decide) spacedPages, catalogued,
    use_spacedPagesGrown rfl pages_spacedPages fun no => page_spacedPages,
    ⟨⟨1, 0⟩, 0, false⟩, List.mem_cons_self, rfl, ?_⟩
  exact outgrown.stored (by decide) 0

end Pool

end StorageEngine

import StorageEngine.Proofs.Pool.Cases
import StorageEngine.Proofs.Workspace.Faithful

/-!
# Operations on faithful pools

Loading, editing and marking pages, requesting locks and releasing them keep a pool faithful
(`Faithful.load`, `Faithful.edit`, `Faithful.install`, `Faithful.fetch`, `Faithful.releasePage`).
Each statement also says what the operation leaves alone.
-/

namespace StorageEngine.Pool

variable {pool after : Pool} {spaces spaces' : Workspaces} {loose : PageId → Prop}
  {txn other : TransactionId} {page : PageId} {frame : Frame} {no : CopyNo} {bytes : Bytes}

/-! ### Loading -/

theorem onlyAt_entered (pool : Pool) (spaces : Workspaces) (page : PageId) (bytes : Bytes) :
  OnlyAt page pool spaces (pool.entered page bytes) spaces
  where
  catalog := rfl
  config := rfl
  tables _ := rfl
  locks := rfl
  scans := rfl
  allocated := by simp [entered]
  frame other distinct := by
    rw [entered, Cache.frame?_put, if_neg distinct]
  copy no allocated _ := by
    rw [copy_entered, if_neg (Nat.ne_of_lt allocated)]
  committed _ _ := rfl
  overlay _ _ _ := rfl

/-- A `Faithful` pool stays so with a copy of a stored `page` in a new frame. -/
theorem Faithful.entered (faithful : pool.Faithful spaces loose)
    (absent : pool.cache.frame? page = none) (stored : pool.stored page = some bytes)
    (size : bytes.length = pool.config.pageSize) :
  (pool.entered page bytes).Faithful spaces loose
  := by
  have image : spaces.committed page = some bytes := by
    rw [faithful.committed, stored]
  have unchanged : ∀ txn, spaces.overlay txn page = none := by
    intro txn
    by_contra changed
    obtain ⟨frame, found, -⟩ := faithful.overlay txn page (Option.isSome_iff_ne_none.mpr changed)
    simp [absent] at found
  have new : (pool.entered page bytes).copy pool.copies.size = .clean page bytes := by
    rw [copy_entered, if_pos rfl]
  have found : ∀ frame, (pool.entered page bytes).cache.frame? page = some frame →
      ⟨page, pool.copies.size, false⟩ = frame := by
    intro frame found
    simpa [Pool.entered, Cache.frame?_put] using found
  apply faithful.update (onlyAt_entered pool spaces page bytes)
  · exact ⟨faithful.well.catalogued, faithful.well.numbered, faithful.well.willing⟩
  · apply Cache.distinct_put faithful.distinct
  · apply faithful.committed
  · intro other _ old
    apply old
  · intro frame here
    rw [← found frame here]
    refine ⟨by simp [Pool.entered], ?_, ?_, ?_, ?_, bytes, image, size⟩
    · simp [new, Page.clean]
    · simp [new, Page.clean, Page.isDirty]
    · simp [new, Page.clean]
    · rw [new]
      apply size
  · intro frame here _
    rw [← found frame here, new]
    apply image
  · intro txn changed
    simp [unchanged txn] at changed

/-- `pool.load page` keeps a pool `Faithful` and the locks, and a copy that it answers is the
cached one. -/
theorem Faithful.load (faithful : pool.Faithful spaces loose)
    (alone : ∀ other, pool.locks.modeOf? page other = some .exclusive → other = txn) :
  (pool.load page).2.Faithful spaces loose
    ∧ pool.Leaves txn spaces (pool.load page).2 spaces
    ∧ (pool.load page).2.locks = pool.locks
    ∧ ∀ copy, (pool.load page).1 = .ok copy →
        ∃ frame, (pool.load page).2.cache.frame? page = some frame ∧ frame.copy = copy
  := by
  obtain ⟨frame, found, eq⟩ | ⟨-, -, eq⟩ | ⟨room, stores, absent, made, same, -, loaded⟩ :=
    pool.load_cases page
  · rw [eq]
    obtain rfl := Cache.page_of_frame? found
    have put : ∀ place, (pool.cache.put frame).frame? place = pool.cache.frame? place := by
      intro place
      rw [Cache.frame?_put]
      split
      · rename_i here
        rw [here, found]
      · rfl
    have same : pool.SameStores { pool with cache := pool.cache.put frame } :=
      ⟨rfl, rfl, fun _ => ⟨rfl, rfl, rfl⟩⟩
    refine ⟨?_, ?_, rfl, ?_⟩
    · apply faithful.reframe same (Cache.distinct_put faithful.distinct frame)
      · intro place frame here
        rw [← put, here]
      · intro place frame here _
        rw [put, here]
    · apply leaves_of_fewer same
      intro place frame here
      rw [← put, here]
    · intro copy answer
      use frame, put frame.page ▸ found
      simpa using answer
  · rw [eq]
    exact ⟨faithful, Leaves.refl txn pool spaces, rfl, by simp⟩
  · obtain ⟨distinct, fewer, dirty⟩ := Cache.makeRoom?_spec faithful.distinct made
    have roomy := faithful.reframe same distinct fewer dirty
    have left : pool.Leaves txn spaces { pool with cache := room, stores } spaces :=
      leaves_of_fewer same fewer
    rcases loaded with ⟨failure, -, eq⟩ | ⟨bytes, stored, size, eq⟩
    · rw [eq]
      exact ⟨roomy, left, rfl, by simp⟩
    · rw [eq]
      have absent : room.frame? page = none := by
        apply Option.eq_none_iff_forall_ne_some.mpr
        intro frame stays
        have old := fewer page frame stays
        simp [absent] at old
      have stored : Pool.stored { pool with cache := room, stores } page = some bytes := by
        rw [same.stored, stored]
      refine ⟨roomy.entered absent stored size, ?_, rfl, ?_⟩
      · have only := onlyAt_entered { pool with cache := room, stores } spaces page bytes
        apply left.trans (only.leaves alone ?_ ?_)
        · intro other _
          rfl
        · intro other _ _
          rfl
      · intro copy answer
        refine ⟨⟨page, pool.copies.size, false⟩, ?_, by simpa using answer⟩
        simp [Pool.entered, Cache.frame?_put]

/-! ### Editing -/

/-- A `page` that is not cached is changed by nobody. -/
theorem Faithful.overlay_of_absent (faithful : pool.Faithful spaces loose)
    (absent : pool.cache.frame? page = none) (txn : TransactionId) :
  spaces.overlay txn page = none
  := by
  by_contra changed
  obtain ⟨frame, found, -⟩ := faithful.overlay txn page (Option.isSome_iff_ne_none.mpr changed)
  simp [absent] at found

theorem onlyAt_setCopy (pool : Pool) (spaces : Workspaces) (no : CopyNo) (page : Page) :
  OnlyAt (pool.copy no).id pool spaces (pool.setCopy no page) spaces
  where
  catalog := rfl
  config := rfl
  tables _ := rfl
  locks := rfl
  scans := rfl
  allocated := by simp [setCopy]
  frame _ _ := rfl
  copy other _ elsewhere := by
    rw [copy_setCopy, if_neg]
    rintro ⟨rfl, -⟩
    apply elsewhere rfl
  committed _ _ := rfl
  overlay _ _ _ := rfl

/-- Other `bytes` of the same length in the copy `no` make its page loose. -/
theorem Faithful.edit (faithful : pool.Faithful spaces loose)
    (size : bytes.length = (pool.copy no).bytes.length) :
  (pool.setCopy no { pool.copy no with bytes }).Faithful spaces
    fun page => loose page ∨ page = (pool.copy no).id
  := by
  have copy : ∀ other, ((pool.setCopy no { pool.copy no with bytes }).copy other).id
        = (pool.copy other).id
      ∧ ((pool.setCopy no { pool.copy no with bytes }).copy other).dirtiedBy
        = (pool.copy other).dirtiedBy
      ∧ ((pool.setCopy no { pool.copy no with bytes }).copy other).bytes.length
        = (pool.copy other).bytes.length := by
    intro other
    rw [copy_setCopy]
    split
    · rename_i here
      rw [here.1]
      exact ⟨rfl, rfl, size⟩
    · exact ⟨rfl, rfl, rfl⟩
  apply faithful.update (onlyAt_setCopy pool spaces no _)
  · exact ⟨faithful.well.catalogued, faithful.well.numbered, faithful.well.willing⟩
  · apply faithful.distinct
  · apply faithful.committed
  · intro other _ old
    left
    apply old
  · intro frame found
    obtain ⟨allocated, named, dirty, owned, size, stored⟩ := faithful.resident _ frame found
    obtain ⟨id, dirtied, length⟩ := copy frame.copy
    refine ⟨by simpa [setCopy] using allocated, ?_, ?_, ?_, ?_, stored⟩
    · rw [id, named]
    · rw [Page.isDirty, dirtied, dirty, Page.isDirty]
    · rw [dirtied]
      apply owned
    · rw [length, size]
      rfl
  · intro frame _ tight
    exfalso
    apply tight
    right
    rfl
  · intro txn changed
    obtain ⟨frame, found, dirtied⟩ := faithful.overlay txn _ changed
    use frame, found
    rw [(copy frame.copy).2.1, dirtied]

/-! ### Marking -/

/-- To mark the copy `no` makes its bytes the private image of its page, and concerns that page
alone: `OnlyAt`. -/
theorem onlyAt_marked (pool : Pool) (spaces : Workspaces) (txn : TransactionId)
    (allocated : no < pool.copies.size) :
  OnlyAt (pool.copy no).id pool spaces (pool.marked txn no)
    (spaces.put txn (pool.copy no).id (some (pool.copy no).bytes))
  where
  catalog := rfl
  config := rfl
  tables _ := rfl
  locks := rfl
  scans := rfl
  allocated := by simp [marked, setCopy]
  frame other elsewhere := by
    rw [marked, Cache.frame?_put, if_neg elsewhere]
  copy other _ elsewhere := by
    rw [copy_marked allocated, if_neg]
    rintro rfl
    apply elsewhere rfl
  committed _ _ := rfl
  overlay _ other elsewhere := by
    rw [Workspaces.overlay_put, if_neg (by tauto)]

theorem Faithful.marked (faithful : pool.Faithful spaces loose) (allocated : no < pool.copies.size)
    (exclusive : pool.locks.modeOf? (pool.copy no).id txn = some .exclusive)
    (size : (pool.copy no).bytes.length = pool.config.pageSize)
    (stored : ∃ image, spaces.committed (pool.copy no).id = some image
      ∧ image.length = pool.config.pageSize) :
  (pool.marked txn no).Faithful
    (spaces.put txn (pool.copy no).id (some (pool.copy no).bytes))
    fun page => loose page ∧ page ≠ (pool.copy no).id
  := by
  have new : (pool.marked txn no).copy no = (pool.copy no).mark (some txn) := by
    rw [copy_marked allocated, if_pos rfl]
  have put : (pool.marked txn no).cache.frame? (pool.copy no).id
      = some ⟨(pool.copy no).id, no, true⟩ := by
    rw [Pool.marked, Cache.frame?_put, if_pos rfl]
  apply faithful.update (onlyAt_marked pool spaces txn allocated)
  · exact ⟨faithful.well.catalogued, faithful.well.numbered, faithful.well.willing⟩
  · apply Cache.distinct_put faithful.distinct
  · apply faithful.committed
  · intro other elsewhere old
    use old, elsewhere
  · intro frame found
    obtain rfl : ⟨(pool.copy no).id, no, true⟩ = frame := by simpa [put] using found
    refine ⟨by simpa [Pool.marked, setCopy] using allocated, ?_, ?_, ?_, ?_, stored⟩
    · rw [new]
      rfl
    · rw [new]
      rfl
    · rw [new]
      intro owner dirtied
      obtain rfl : txn = owner := by simpa [Page.mark] using dirtied
      use exclusive
      simp
    · rw [new]
      apply size
  · intro frame found _
    obtain rfl : ⟨(pool.copy no).id, no, true⟩ = frame := by simpa [put] using found
    rw [new]
    simp [Workspaces.image, Page.mark]
  · intro other changed
    by_cases mine : other = txn
    · subst mine
      use ⟨(pool.copy no).id, no, true⟩, put
      rw [new]
      rfl
    · have holds := Option.isSome_of_mem exclusive
      simp [mine, faithful.overlay_eq_none holds mine] at changed

/-- If `txn` holds `page`, then no `other` transaction has it locked exclusively. -/
theorem Faithful.alone (faithful : pool.Faithful spaces loose)
    (holds : (pool.locks.modeOf? page txn).isSome) :
  ∀ other, pool.locks.modeOf? page other = some .exclusive → other = txn
  := by
  intro other exclusive
  apply (faithful.eq_of_exclusive exclusive holds).symm

/-- What `install` keeps and leaves alone: the bytes of the copy `no` become the private image of
its page, or else the page is not cached, and the pool stays `Faithful` to `spaces`. -/
theorem Faithful.install (faithful : pool.Faithful spaces loose)
    (allocated : no < pool.copies.size)
    (exclusive : pool.locks.modeOf? (pool.copy no).id txn = some .exclusive)
    (size : (pool.copy no).bytes.length = pool.config.pageSize)
    (stored : ∃ image, spaces.committed (pool.copy no).id = some image
      ∧ image.length = pool.config.pageSize) :
  (pool.install txn no).2.locks = pool.locks
    ∧ ((pool.install txn no).1 = .ok ()
        ∧ (pool.install txn no).2.Faithful
          (spaces.put txn (pool.copy no).id (some (pool.copy no).bytes))
          (fun page => loose page ∧ page ≠ (pool.copy no).id)
        ∧ pool.Leaves txn spaces (pool.install txn no).2
          (spaces.put txn (pool.copy no).id (some (pool.copy no).bytes))
      ∨ pool.cache.frame? (pool.copy no).id = none
        ∧ (pool.install txn no).1 = .error (.error .poolFull)
        ∧ (pool.install txn no).2.Faithful spaces
          (fun page => loose page ∧ page ≠ (pool.copy no).id)
        ∧ pool.Leaves txn spaces (pool.install txn no).2 spaces)
  := by
  have alone := faithful.alone (Option.isSome_of_mem exclusive)
  have overlay : ∀ other, other ≠ txn →
      (spaces.put txn (pool.copy no).id (some (pool.copy no).bytes)).overlay other (pool.copy no).id
        = spaces.overlay other (pool.copy no).id := by
    intro other distinct
    rw [Workspaces.overlay_put, if_neg (by tauto)]
  rcases pool.install_cases txn no with ⟨-, eq⟩ | ⟨absent, ⟨room, made, eq⟩ | eq⟩
  · rw [eq]
    use rfl
    left
    use rfl, faithful.marked allocated exclusive size stored
    apply (onlyAt_marked pool spaces txn allocated).leaves alone overlay
    intro _ _ _
    rfl
  · rw [eq]
    use rfl
    left
    have same : pool.SameStores { pool with cache := room } :=
      ⟨rfl, rfl, fun _ => ⟨rfl, rfl, rfl⟩⟩
    obtain ⟨distinct, fewer, dirty⟩ := Cache.makeRoom?_spec faithful.distinct made
    have roomy : Faithful { pool with cache := room } spaces loose :=
      faithful.reframe same distinct fewer dirty
    have left : pool.Leaves txn spaces { pool with cache := room } spaces :=
      leaves_of_fewer same fewer
    use rfl, roomy.marked allocated exclusive size stored
    have only := onlyAt_marked { pool with cache := room } spaces txn allocated
    apply left.trans (only.leaves alone overlay ?_)
    intro _ _ _
    rfl
  · rw [eq]
    use rfl
    right
    have only := onlyAt_setCopy pool spaces no ((pool.copy no).mark (some txn))
    refine ⟨absent, rfl, ?_, ?_⟩
    · apply faithful.update only
      · exact ⟨faithful.well.catalogued, faithful.well.numbered, faithful.well.willing⟩
      · apply faithful.distinct
      · apply faithful.committed
      · intro other elsewhere old
        use old, elsewhere
      · intro frame found
        cases absent.symm.trans found
      · intro frame found
        cases absent.symm.trans found
      · intro other changed
        simp [faithful.overlay_of_absent absent other] at changed
    · apply only.leaves alone
      · intro _ _
        rfl
      · intro _ _ _
        rfl

/-- Other `bytes` in a cached copy, installed at once, are the private image of its `page`. -/
theorem Faithful.rewrite (faithful : pool.Faithful spaces loose)
    (found : pool.cache.frame? page = some frame)
    (exclusive : pool.locks.modeOf? page txn = some .exclusive)
    (size : bytes.length = (pool.copy frame.copy).bytes.length) :
  ∃ after, (pool.setCopy frame.copy { pool.copy frame.copy with bytes }).installAll txn [frame.copy]
      = (.ok (), after)
    ∧ after.Faithful (spaces.put txn page (some bytes)) loose
    ∧ pool.Leaves txn spaces after (spaces.put txn page (some bytes))
    ∧ after.locks = pool.locks
  := by
  obtain ⟨allocated, named, -, -, length, stored⟩ := faithful.resident page frame found
  have only := onlyAt_setCopy pool spaces frame.copy { pool.copy frame.copy with bytes }
  have new : (pool.setCopy frame.copy { pool.copy frame.copy with bytes }).copy frame.copy
      = { pool.copy frame.copy with bytes } := by
    rw [copy_setCopy, if_pos ⟨rfl, allocated⟩]
  have cache : (pool.setCopy frame.copy { pool.copy frame.copy with bytes }).cache = pool.cache :=
    rfl
  rw [installAll_singleton]
  subst named
  have edited := faithful.edit size
  generalize pool.setCopy frame.copy { pool.copy frame.copy with bytes } = pool' at *
  have id : (pool'.copy frame.copy).id = (pool.copy frame.copy).id := by
    rw [new]
  have bytes' : (pool'.copy frame.copy).bytes = bytes := by
    rw [new]
  have exclusive' : pool'.locks.modeOf? (pool'.copy frame.copy).id txn = some .exclusive := by
    rw [id, only.locks, exclusive]
  have size' : (pool'.copy frame.copy).bytes.length = pool'.config.pageSize := by
    rw [bytes', only.config, size, length]
  have stored' : ∃ image, spaces.committed (pool'.copy frame.copy).id = some image
      ∧ image.length = pool'.config.pageSize := by
    rw [id, only.config]
    apply stored
  have allocated' := Nat.lt_of_lt_of_le allocated only.allocated
  have installed := edited.install allocated' exclusive' size' stored'
  rw [id, bytes'] at installed
  rcases installed with ⟨locks, ⟨ok, faithful', left⟩ | ⟨absent, -⟩⟩
  · use (pool'.install txn frame.copy).2
    refine ⟨Prod.ext ok rfl, ?_, ?_, locks.trans only.locks⟩
    · apply faithful'.mono
      rintro place kept - ⟨old | here, distinct⟩
      · apply old
      · contradiction
    · apply Leaves.trans _ left
      apply only.leaves (faithful.alone (Option.isSome_of_mem exclusive))
      · intro _ _
        rfl
      · intro _ _ _
        rfl
  · rw [cache, found] at absent
    cases absent

/-! ### Locks -/

/-- With other `locks` a pool stays `Faithful`, if whoever has changed a page still holds it
exclusively. -/
theorem Faithful.relock (faithful : pool.Faithful spaces loose) {locks : LockTable}
    (sound : locks.Sound)
    (exclusive : ∀ txn page, (spaces.overlay txn page).isSome →
      locks.modeOf? page txn = some .exclusive) :
  Faithful { pool with locks } spaces loose
  where
  well := ⟨faithful.well.catalogued, faithful.well.numbered, faithful.well.willing⟩
  sound := sound
  distinct := faithful.distinct
  committed := faithful.committed
  resident page frame found := by
    obtain ⟨allocated, named, dirty, owned, size, stored⟩ := faithful.resident page frame found
    refine ⟨allocated, named, dirty, ?_, size, stored⟩
    intro txn dirtied
    obtain ⟨-, changed⟩ := owned txn dirtied
    use exclusive txn page changed, changed
  content := faithful.content
  overlay := faithful.overlay

/-- Other `locks` of `txn` alone leave what concerns others: `Leaves`. -/
theorem leaves_relock {locks : LockTable}
    (modes : ∀ other, other ≠ txn → ∀ page,
      locks.modeOf? page other = pool.locks.modeOf? page other) :
  pool.Leaves txn spaces { pool with locks } spaces
  where
  catalog := rfl
  config := rfl
  tables _ := rfl
  copies := Nat.le_refl _
  modes := modes
  overlay _ _ := rfl
  scans _ _ := rfl
  committed _ _ _ _ _ := rfl
  spares _ _ _ _ := ⟨fun _ found => found, fun _ _ _ => rfl⟩

/-- A request for `page` keeps a pool `Faithful`. -/
theorem Faithful.request (faithful : pool.Faithful spaces loose) (page : PageId)
    (txn : TransactionId) (mode : LockMode) :
  Faithful { pool with locks := (pool.locks.request page txn mode).2 } spaces loose
  := by
  apply faithful.relock faithful.sound.request
  intro other place changed
  have exclusive := faithful.exclusive_of_overlay changed
  by_cases here : place = page ∧ other = txn
  · obtain ⟨rfl, rfl⟩ := here
    obtain ⟨kept, holds, covers⟩ := pool.locks.modeOf?_request_of_held exclusive
    cases kept with
    | exclusive => apply holds
    | shared => cases covers
  · rw [LockTable.modeOf?_request_of_ne _ _ here, exclusive]

/-- `pool.fetch txn page access` keeps a pool `Faithful`, and a copy that it answers is the cached
one and locked. -/
theorem Faithful.fetch (faithful : pool.Faithful spaces loose) (txn : TransactionId)
    (page : PageId) (access : Access) :
  (pool.fetch txn page access).2.Faithful spaces loose
    ∧ pool.Leaves txn spaces (pool.fetch txn page access).2 spaces
    ∧ (∀ place, place ≠ page → (pool.fetch txn page access).2.locks.modeOf? place txn
        = pool.locks.modeOf? place txn)
    ∧ ((pool.locks.modeOf? page txn).isSome →
        ((pool.fetch txn page access).2.locks.modeOf? page txn).isSome)
    ∧ ∀ copy, (pool.fetch txn page access).1 = .page copy →
        ∃ frame held, (pool.fetch txn page access).2.cache.frame? page = some frame
          ∧ frame.copy = copy
          ∧ (pool.fetch txn page access).2.locks.modeOf? page txn = some held
          ∧ held.satisfies access.lockMode = true
  := by
  have requested := faithful.request page txn access.lockMode
  have left : pool.Leaves txn spaces
      { pool with locks := (pool.locks.request page txn access.lockMode).2 } spaces := by
    apply leaves_relock
    intro other distinct place
    apply LockTable.modeOf?_request_of_ne
    tauto
  have elsewhere : ∀ place, place ≠ page →
      (pool.locks.request page txn access.lockMode).2.modeOf? place txn
        = pool.locks.modeOf? place txn := by
    intro place distinct
    apply LockTable.modeOf?_request_of_ne
    tauto
  have kept : (pool.locks.modeOf? page txn).isSome →
      ((pool.locks.request page txn access.lockMode).2.modeOf? page txn).isSome := by
    intro holds
    obtain ⟨held, holds⟩ := Option.isSome_iff_exists.mp holds
    obtain ⟨kept, keeps, -⟩ := pool.locks.modeOf?_request_of_held holds
    rw [keeps]
    rfl
  have granted := pool.locks.modeOf?_request_of_granted page txn access.lockMode
  obtain ⟨locks, asked, eq⟩ | ⟨locks, asked, eq⟩
    | ⟨locks, asked, ⟨copy, after, loaded, eq⟩ | ⟨failure, after, loaded, eq⟩⟩ :=
    pool.fetch_cases txn page access
  all_goals
    rw [asked] at requested left elsewhere kept granted
    rw [eq]
  · exact ⟨requested, left, elsewhere, kept, nofun⟩
  · exact ⟨requested, left, elsewhere, kept, nofun⟩
  all_goals
    obtain ⟨held, holds, covers⟩ := granted rfl
    obtain ⟨faithful', left', same, found⟩ :=
      requested.load (requested.alone (Option.isSome_of_mem holds))
    rw [loaded] at faithful' left' same found
    have elsewhere' : ∀ place, place ≠ page →
        after.locks.modeOf? place txn = pool.locks.modeOf? place txn := by
      intro place distinct
      rw [same, elsewhere place distinct]
    have kept' : (pool.locks.modeOf? page txn).isSome →
        (after.locks.modeOf? page txn).isSome := same ▸ kept
    refine ⟨faithful', left.trans left', elsewhere', kept', ?_⟩
  · rintro no ⟨⟩
    obtain ⟨frame, here, copied⟩ := found copy rfl
    use frame, held, here, copied
    rw [same]
    use holds, covers
  · nofun

/-- A `txn` that waits for `page` holds what it held before. -/
theorem modeOf?_fetch_of_waiting {access : Access}
    (waits : (pool.fetch txn page access).1 = .waiting) :
  (pool.fetch txn page access).2.locks.modeOf? page txn = pool.locks.modeOf? page txn
  := by
  obtain ⟨asked, eq⟩ := fetch_waiting waits
  rw [eq]
  apply LockTable.modeOf?_request_of_waiting _ _ _ _ asked

/-- To release the lock of a `page` that `txn` has not changed keeps a pool `Faithful`. -/
theorem Faithful.releasePage (faithful : pool.Faithful spaces loose)
    (unchanged : spaces.overlay txn page = none) :
  (pool.releasePage txn page).Faithful spaces loose
    ∧ pool.Leaves txn spaces (pool.releasePage txn page) spaces
  := by
  constructor
  · apply faithful.relock (faithful.sound.release page txn)
    intro other place changed
    rw [LockTable.modeOf?_release, if_neg]
    · apply faithful.exclusive_of_overlay changed
    · rintro ⟨rfl, rfl⟩
      simp [unchanged] at changed
  · apply leaves_relock
    intro other distinct place
    rw [LockTable.modeOf?_release, if_neg (by tauto)]

/-! ### Scans and growth -/

/-- That a scan begins in `spaces` keeps a pool `Faithful`. -/
theorem Faithful.scan (faithful : pool.Faithful spaces loose) (txn : TransactionId)
    (table : TableId) (pages : Nat) :
  pool.Faithful (spaces.scan txn table pages) loose
    ∧ pool.Leaves txn spaces pool (spaces.scan txn table pages)
  := by
  have left := Leaves.refl txn pool spaces
  refine ⟨?_, { left with scans := fun other distinct => Function.update_of_ne distinct .. }⟩
  refine { faithful with resident := ?_, content := ?_ }
  · intro page frame found
    obtain ⟨allocated, named, dirty, owned, size, stored⟩ := faithful.resident page frame found
    exact ⟨allocated, named, dirty, owned, size, stored⟩
  · intro page frame found tight
    rw [← faithful.content page frame found tight]
    cases (pool.copy frame.copy).dirtiedBy <;> rfl

/-- A pool stays faithful where `store` takes the place of a store and the same pages are stored. -/
theorem Faithful.restock (faithful : pool.Faithful spaces loose) {no : StoreNo} {store : Store}
    (well : (pool.setStore no store).WellStored)
    (tables : ∀ other, ((pool.setStore no store).store other).table = (pool.store other).table)
    (stored : (pool.setStore no store).stored = pool.stored) :
  (pool.setStore no store).Faithful spaces loose
    ∧ pool.Leaves txn spaces (pool.setStore no store) spaces
  := by
  constructor
  · refine ⟨well, faithful.sound, faithful.distinct, faithful.committed.trans stored.symm, ?_,
      faithful.content, faithful.overlay⟩
    intro page frame found
    obtain ⟨allocated, named, dirty, owned, size, stored⟩ := faithful.resident page frame found
    exact ⟨allocated, named, dirty, owned, size, stored⟩
  · exact ⟨rfl, rfl, tables, Nat.le_refl _, fun _ _ _ => rfl, fun _ _ => rfl, fun _ _ => rfl,
      fun _ _ _ _ _ => rfl, fun _ _ _ _ => ⟨fun _ found => found, fun _ _ _ => rfl⟩⟩

/-- A pool in which `page` is stored that was not stored before is `Faithful` to the grown spaces,
and nobody has changed `page`. -/
theorem Faithful.grow (faithful : pool.Faithful spaces loose) {no : StoreNo} {store : Store}
    (well : (pool.setStore no store).WellStored)
    (tables : ∀ other, ((pool.setStore no store).store other).table = (pool.store other).table)
    (new : pool.stored page = none)
    (stored : ∀ other, (pool.setStore no store).stored other
      = if other = page then some bytes else pool.stored other) :
  (pool.setStore no store).Faithful (spaces.grow page bytes) loose
    ∧ pool.Leaves txn spaces (pool.setStore no store) (spaces.grow page bytes)
    ∧ ∀ other, spaces.overlay other page = none
  := by
  have missing : spaces.committed page = none := by
    rw [faithful.committed, new]
  have absent : pool.cache.frame? page = none := by
    by_contra cached
    obtain ⟨frame, found⟩ := Option.ne_none_iff_exists'.mp cached
    obtain ⟨image, present, -⟩ := (faithful.resident page frame found).stored
    cases missing.symm.trans present
  have elsewhere : ∀ other, other ≠ page →
      (spaces.grow page bytes).committed other = spaces.committed other := by
    intro other distinct
    apply Function.update_of_ne distinct
  refine ⟨?_, ?_, faithful.overlay_of_absent absent⟩
  · have only : OnlyAt page pool spaces (pool.setStore no store) (spaces.grow page bytes) :=
      ⟨rfl, rfl, tables, rfl, rfl, Nat.le_refl _, fun _ _ => rfl, fun _ _ _ => rfl, elsewhere,
        fun _ _ _ => rfl⟩
    apply faithful.update only well faithful.distinct
    · funext other
      rw [stored]
      by_cases here : other = page
      · simp [Workspaces.grow, here]
      · simp [here, faithful.committed]
    · intro other _ old
      apply old
    · intro frame found
      cases absent.symm.trans found
    · intro frame found
      cases absent.symm.trans found
    · intro other changed
      have unchanged : spaces.overlay other page = none := faithful.overlay_of_absent absent other
      have changed : (spaces.overlay other page).isSome := changed
      simp [unchanged] at changed
  · refine ⟨rfl, rfl, tables, Nat.le_refl _, fun _ _ _ => rfl, fun _ _ => rfl, fun _ _ => rfl, ?_,
      fun _ _ _ _ => ⟨fun _ found => found, fun _ _ _ => rfl⟩⟩
    intro other place distinct holds present
    apply elsewhere
    rintro rfl
    simp [missing] at present

end StorageEngine.Pool

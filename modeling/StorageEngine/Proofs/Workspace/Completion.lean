import StorageEngine.Proofs.Workspace.Operations

/-!
# Ending transactions on faithful pools

A transaction ends page by page: each of its private images becomes the committed one or is
forgotten, while the cached copy is stored or read again.  Settling one page keeps a pool faithful
(`Faithful.cleaned`, `Faithful.dropped`), so settling all pages does, and then the transaction has
committed or aborted (`Faithful.commit`, `Faithful.abort`).
-/

namespace StorageEngine

/-! ### Settling pages -/

namespace Workspaces

variable {spaces : Workspaces} {txn other : TransactionId} {commits : Bool}
  {page place : PageId} {pages : List PageId}

/-- Makes the private images that `txn` has of `pages` the committed ones, if it `commits`, and
forgets them. -/
def settle (spaces : Workspaces) (txn : TransactionId) (commits : Bool) (pages : List PageId) :
    Workspaces where
  committed page := if commits ∧ page ∈ pages then spaces.view txn page else spaces.committed page
  overlay other page := if other = txn ∧ page ∈ pages then none else spaces.overlay other page
  scans := spaces.scans

@[simp]
theorem settle_nil :
  spaces.settle txn commits [] = spaces
  := by
  simp [settle]

/-- To settle `page :: pages` is to settle `page` and then `pages`. -/
theorem settle_cons (spaces : Workspaces) (txn : TransactionId) (commits : Bool) (page : PageId)
    (pages : List PageId) :
  spaces.settle txn commits (page :: pages)
    = (spaces.settle txn commits [page]).settle txn commits pages
  := by
  simp only [settle, view, mk.injEq, and_true]
  constructor
  · funext place
    by_cases commits <;> by_cases here : place = page <;> by_cases later : place ∈ pages <;>
      simp_all
  · funext other place
    by_cases mine : other = txn <;> by_cases here : place = page <;>
      by_cases later : place ∈ pages <;> simp_all

/-- To settle a `page` that `txn` has not changed leaves `spaces`. -/
theorem settle_of_unchanged (unchanged : spaces.overlay txn page = none) :
  spaces.settle txn commits [page] = spaces
  := by
  obtain ⟨committed, overlay, scans⟩ := spaces
  simp only [settle, view, mk.injEq, and_true] at unchanged ⊢
  constructor
  · funext place
    by_cases here : place = page <;> simp_all
  · funext other place
    by_cases mine : other = txn <;> by_cases here : place = page <;> simp_all

/-- To settle all pages that `txn` has changed, with `true`, is to commit. -/
theorem settle_eq_commit
    (all : ∀ page, (spaces.overlay txn page).isSome → page ∈ pages) :
  spaces.settle txn true pages = spaces.commit txn
  := by
  have unchanged : ∀ page, page ∉ pages → spaces.overlay txn page = none := by
    intro page absent
    by_contra changed
    apply absent (all page (Option.isSome_iff_ne_none.mpr changed))
  simp only [settle, commit, drop, mk.injEq, and_true]
  constructor
  · funext page
    by_cases listed : page ∈ pages
    · simp [listed]
    · simp [listed, view, unchanged page listed]
  · funext other page
    by_cases mine : other = txn
    · subst mine
      by_cases listed : page ∈ pages
      · simp [listed]
      · simp [listed, unchanged page listed]
    · simp [mine]

/-- To settle all pages that `txn` has changed, with `false`, is to drop its images. -/
theorem settle_eq_drop
    (all : ∀ page, (spaces.overlay txn page).isSome → page ∈ pages) :
  spaces.settle txn false pages = spaces.drop txn
  := by
  simp only [settle, drop, mk.injEq, and_true]
  constructor
  · funext page
    simp
  · funext other page
    by_cases mine : other = txn
    · subst mine
      by_cases listed : page ∈ pages
      · simp [listed]
      · have unchanged : spaces.overlay other page = none := by
          by_contra changed
          apply listed (all page (Option.isSome_iff_ne_none.mpr changed))
        simp [listed, unchanged]
    · simp [mine]

end Workspaces

namespace Pool

variable {pool after : Pool} {spaces : Workspaces} {loose : PageId → Prop}
  {txn other : TransactionId} {commits : Bool} {page : PageId} {frame : Frame} {no : CopyNo}
  {bytes : Bytes} {stores : Array Store}

/-! ### Settling one page -/

/-- To settle `page`, and to replace its copy `no` and its frame, concerns that page alone:
`OnlyAt`. -/
theorem onlyAt_settle (named : (pool.copy no).id = page) (new : Page) {cache : Cache}
    (tables : ∀ store, (Pool.store { pool with stores } store).table = (pool.store store).table)
    (frames : ∀ other, other ≠ page → cache.frame? other = pool.cache.frame? other) :
  OnlyAt page pool spaces { pool.setCopy no new with cache, stores }
    (spaces.settle txn commits [page])
  where
  catalog := rfl
  config := rfl
  tables := tables
  locks := rfl
  scans := rfl
  allocated := by simp [setCopy]
  frame := frames
  copy other _ elsewhere := by
    have set := pool.copy_setCopy no other new
    rw [if_neg] at set
    · apply set
    · rintro ⟨rfl, -⟩
      apply elsewhere named
  committed other elsewhere := by
    simp [Workspaces.settle, elsewhere]
  overlay _ other elsewhere := by
    simp [Workspaces.settle, elsewhere]

/-- A pool with a clean copy of the committed image of `page` is `Faithful` to the spaces in which
`page` is settled. -/
theorem Faithful.cleaned (faithful : pool.Faithful spaces loose)
    (found : pool.cache.frame? page = some frame) (well : WellStored { pool with stores })
    (tables : ∀ store, (Pool.store { pool with stores } store).table = (pool.store store).table)
    (committed : (spaces.settle txn commits [page]).committed = Pool.stored { pool with stores })
    (image : (spaces.settle txn commits [page]).committed page = some bytes)
    (size : bytes.length = pool.config.pageSize)
    (alone : ∀ other, other ≠ txn → spaces.overlay other page = none) :
  (pool.cleaned page frame.copy bytes stores).Faithful (spaces.settle txn commits [page])
    fun place => loose place ∧ place ≠ page
  := by
  obtain ⟨allocated, named, -⟩ := faithful.resident page frame found
  have new : (pool.cleaned page frame.copy bytes stores).copy frame.copy = .clean page bytes := by
    have set := pool.copy_setCopy frame.copy frame.copy (.clean page bytes)
    rw [if_pos ⟨rfl, allocated⟩] at set
    apply set
  have clean : (pool.cleaned page frame.copy bytes stores).cache.frame? page
      = some { frame with dirty := false } := by
    simp [Pool.cleaned, Cache.frame?_setDirty, found]
  have settled : ∀ other, (spaces.settle txn commits [page]).overlay other page = none := by
    intro other
    by_cases mine : other = txn
    · simp [Workspaces.settle, mine]
    · simp [Workspaces.settle, mine, alone other mine]
  have only : OnlyAt page pool spaces (pool.cleaned page frame.copy bytes stores)
      (spaces.settle txn commits [page]) := by
    apply onlyAt_settle named (.clean page bytes) tables
    intro other elsewhere
    rw [Cache.frame?_setDirty, if_neg elsewhere]
  apply faithful.update only
  · exact ⟨well.catalogued, well.numbered, well.willing⟩
  · apply Cache.distinct_setDirty faithful.distinct
  · apply committed
  · intro other elsewhere old
    use old, elsewhere
  · intro frame' here
    obtain rfl := Option.some.inj (clean.symm.trans here)
    refine ⟨by simpa [Pool.cleaned, setCopy] using allocated, ?_, ?_, ?_, ?_, bytes, image, size⟩
    · rw [new]
      rfl
    · rw [new]
      rfl
    · rw [new]
      intro owner dirtied
      cases dirtied
    · rw [new]
      apply size
  · intro frame' here _
    obtain rfl := Option.some.inj (clean.symm.trans here)
    rw [new]
    apply image
  · intro other changed
    simp [settled other] at changed

/-- A pool that has dropped a cached `page` is `Faithful` to the spaces in which `page` is settled,
and `page` is loose no more. -/
theorem Faithful.dropped (faithful : pool.Faithful spaces loose)
    (found : pool.cache.frame? page = some frame) (same : pool.SameStores { pool with stores })
    (alone : ∀ other, other ≠ txn → spaces.overlay other page = none) :
  (pool.dropped page frame.copy stores).Faithful (spaces.settle txn false [page])
    fun place => loose place ∧ place ≠ page
  := by
  obtain ⟨-, named, -⟩ := faithful.resident page frame found
  have well := same.wellStored faithful.well
  have absent : (pool.dropped page frame.copy stores).cache.frame? page = none := by
    simp [Pool.dropped, Cache.frame?_remove]
  have only : OnlyAt page pool spaces (pool.dropped page frame.copy stores)
      (spaces.settle txn false [page]) := by
    apply onlyAt_settle named _ fun store => (same.alike store).table
    intro other elsewhere
    rw [Cache.frame?_remove, if_neg elsewhere]
  apply faithful.update only
  · exact ⟨well.catalogued, well.numbered, well.willing⟩
  · apply Cache.distinct_remove faithful.distinct
  · have kept : (spaces.settle txn false [page]).committed = spaces.committed := by
      simp [Workspaces.settle]
    rw [kept]
    apply faithful.committed.trans same.stored.symm
  · intro other elsewhere old
    use old, elsewhere
  · intro frame' here
    cases absent.symm.trans here
  · intro frame' here
    cases absent.symm.trans here
  · intro other changed
    by_cases mine : other = txn
    · simp [Workspaces.settle, mine] at changed
    · simp [Workspaces.settle, mine, alone other mine] at changed

/-! ### Commits -/

/-- A `txn` has changed a cached `page` exactly if it has dirtied its copy. -/
theorem Faithful.overlay_isSome_iff (faithful : pool.Faithful spaces loose)
    (found : pool.cache.frame? page = some frame) :
  (spaces.overlay txn page).isSome ↔ (pool.copy frame.copy).dirtiedBy = some txn
  := by
  constructor
  · intro changed
    obtain ⟨frame', found', dirtied⟩ := faithful.overlay txn page changed
    obtain rfl := Option.some.inj (found.symm.trans found')
    apply dirtied
  · intro dirtied
    apply ((faithful.resident page frame found).owned txn dirtied).2

/-- To write a cached copy back succeeds and settles its `page`. -/
theorem Faithful.writeBack (faithful : pool.Faithful spaces loose)
    (found : pool.cache.frame? page = some frame)
    (tight : (spaces.overlay txn page).isSome → ¬ loose page) :
  ∃ after, pool.writeBack (· = txn) frame.copy = (.ok (), after)
    ∧ after.Faithful (spaces.settle txn true [page]) loose
    ∧ pool.Leaves txn spaces after (spaces.settle txn true [page])
    ∧ after.locks = pool.locks
    ∧ ∀ other kept, pool.cache.frame? other = some kept →
        ∃ dirty, after.cache.frame? other = some { kept with dirty }
  := by
  by_cases dirtied : (pool.copy frame.copy).dirtiedBy = some txn
  · obtain ⟨-, named, -, owned, size, old, image, length⟩ := faithful.resident page frame found
    obtain ⟨exclusive, changed⟩ := owned txn dirtied
    have own : spaces.overlay txn page = some (pool.copy frame.copy).bytes := by
      have content := faithful.content page frame found (tight changed)
      rw [dirtied] at content
      apply content
    have stored : pool.stored page = some old := faithful.committed ▸ image
    obtain ⟨stores, eq, well, tables, written⟩ :=
      writeStored_spec faithful.well stored (size.trans length.symm)
    have holds := Option.isSome_of_mem exclusive
    have others : ∀ other, other ≠ txn → spaces.overlay other page = none :=
      fun other distinct => faithful.overlay_eq_none holds distinct
    have committed : (spaces.settle txn true [page]).committed
        = Pool.stored { pool with stores } := by
      funext other
      rw [written]
      by_cases here : other = page
      · simp [Workspaces.settle, Workspaces.view, here, own]
      · simp [Workspaces.settle, here, faithful.committed]
    have settled : (spaces.settle txn true [page]).committed page
        = some (pool.copy frame.copy).bytes := by
      simp [Workspaces.settle, Workspaces.view, own]
    have only : OnlyAt page pool spaces
        (pool.cleaned page frame.copy (pool.copy frame.copy).bytes stores)
        (spaces.settle txn true [page]) := by
      apply onlyAt_settle named _ tables
      intro other elsewhere
      rw [Cache.frame?_setDirty, if_neg elsewhere]
    use pool.cleaned page frame.copy (pool.copy frame.copy).bytes stores
    refine ⟨?_, ?_, ?_, rfl, ?_⟩
    · simp only [Pool.writeBack, dirtied, Option.any_some, decide_true, if_true, named, eq]
      simp [Pool.cleaned, setCopy, Page.mark, Page.clean, named]
    · apply (faithful.cleaned found well tables committed settled size others).mono
      rintro place kept - ⟨old, -⟩
      apply old
    · apply only.leaves (faithful.alone holds)
      · intro other distinct
        simp [Workspaces.settle, distinct]
      · intro other distinct holds'
        cases distinct (faithful.eq_of_exclusive exclusive holds')
    · intro other kept here
      by_cases same : other = page
      · use false
        simp [Pool.cleaned, Cache.frame?_setDirty, same ▸ here, same]
      · use kept.dirty
        simp [Pool.cleaned, Cache.frame?_setDirty, here, same]
  · have unchanged : spaces.overlay txn page = none := by
      by_contra changed
      apply dirtied
      apply (faithful.overlay_isSome_iff found).mp (Option.isSome_iff_ne_none.mpr changed)
    use pool
    rw [Workspaces.settle_of_unchanged unchanged]
    refine ⟨?_, faithful, Leaves.refl txn pool spaces, rfl, ?_⟩
    · have skipped : (pool.copy frame.copy).dirtiedBy.any (· = txn) = false := by
        cases owner : (pool.copy frame.copy).dirtiedBy with
        | none => rfl
        | some other => simpa [owner] using dirtied
      simp [Pool.writeBack, skipped]
    · intro other kept here
      use kept.dirty

/-- To write the copies of cached `frames` back succeeds and settles their pages. -/
theorem Faithful.writeBackAll (txn : TransactionId) :
  ∀ (frames : List Frame) {pool : Pool} {spaces : Workspaces}, pool.Faithful spaces loose →
    (∀ frame ∈ frames, ∃ dirty, pool.cache.frame? frame.page = some { frame with dirty }) →
    (∀ page, (spaces.overlay txn page).isSome → ¬ loose page) →
      ∃ after, pool.writeBackAll (· = txn) (frames.map Frame.copy) = (.ok (), after)
        ∧ after.Faithful (spaces.settle txn true (frames.map Frame.page)) loose
        ∧ pool.Leaves txn spaces after (spaces.settle txn true (frames.map Frame.page))
        ∧ after.locks = pool.locks
  | [], pool, spaces, faithful, _, _ => by
    use pool, rfl
    rw [List.map_nil, Workspaces.settle_nil]
    use faithful, Leaves.refl txn pool spaces
  | frame :: frames, pool, spaces, faithful, found, tight => by
    obtain ⟨dirty, here⟩ := found frame (List.mem_cons_self ..)
    obtain ⟨next, eq, faithful', left, locks, kept⟩ := faithful.writeBack here (tight frame.page)
    have found' : ∀ other ∈ frames, ∃ dirty,
        next.cache.frame? other.page = some { other with dirty } := by
      intro other member
      obtain ⟨dirty, here⟩ := found other (List.mem_cons_of_mem _ member)
      apply kept _ _ here
    have tight' : ∀ page, ((spaces.settle txn true [frame.page]).overlay txn page).isSome →
        ¬ loose page := by
      intro page changed
      apply tight page
      by_cases same : page = frame.page
      · simp [Workspaces.settle, same] at changed
      · simpa [Workspaces.settle, same] using changed
    obtain ⟨after, eq', faithful'', left', locks'⟩ :=
      Faithful.writeBackAll txn frames faithful' found' tight'
    use after
    rw [List.map_cons, List.map_cons, Workspaces.settle_cons]
    refine ⟨?_, faithful'', left.trans left', locks'.trans locks⟩
    simp only [Pool.writeBackAll, eq, eq']

/-- To release the locks of a `txn` without private images keeps a pool `Faithful`. -/
theorem Faithful.releaseAll (faithful : pool.Faithful spaces loose)
    (unchanged : ∀ page, spaces.overlay txn page = none) :
  (pool.releaseAll txn).Faithful spaces loose
    ∧ pool.Leaves txn spaces (pool.releaseAll txn) spaces
    ∧ ∀ page, (pool.releaseAll txn).locks.modeOf? page txn = none
  := by
  refine ⟨?_, ?_, ?_⟩
  · apply faithful.relock faithful.sound.releaseAll
    intro other page changed
    rw [faithful.sound.modeOf?_releaseAll, if_neg]
    · apply faithful.exclusive_of_overlay changed
    · rintro rfl
      simp [unchanged page] at changed
  · apply leaves_relock
    intro other distinct page
    rw [faithful.sound.modeOf?_releaseAll, if_neg distinct]
  · intro page
    apply (faithful.sound.modeOf?_releaseAll ..).trans (if_pos rfl)

/-- A `page` that `txn` has changed is cached. -/
theorem Faithful.mem_pages (faithful : pool.Faithful spaces loose)
    (changed : (spaces.overlay txn page).isSome) :
  page ∈ pool.cache.frames.map Frame.page
  := by
  obtain ⟨frame, found, -⟩ := faithful.overlay txn page changed
  rw [← Cache.page_of_frame? found]
  apply List.mem_map_of_mem (Cache.mem_of_frame? found)

/-- A commit on a `Faithful` pool never fails: it makes the private images of `txn` the committed
ones, `spaces.commit txn`, and leaves it without locks. -/
theorem Faithful.commit (faithful : pool.Faithful spaces loose)
    (tight : ∀ page, (spaces.overlay txn page).isSome → ¬ loose page) :
  ∃ after, pool.complete txn true = (.ok (), after)
    ∧ after.Faithful (spaces.commit txn) loose
    ∧ pool.Leaves txn spaces after (spaces.commit txn)
    ∧ ∀ page, after.locks.modeOf? page txn = none
  := by
  have found : ∀ frame ∈ pool.cache.frames, ∃ dirty,
      pool.cache.frame? frame.page = some { frame with dirty } := by
    intro frame member
    use frame.dirty, (Cache.mem_frames_iff faithful.distinct).mp member
  obtain ⟨stored, eq, faithful', left, -⟩ :=
    Faithful.writeBackAll txn pool.cache.frames faithful found tight
  rw [Workspaces.settle_eq_commit fun page => faithful.mem_pages] at faithful' left
  have unchanged : ∀ page, (spaces.commit txn).overlay txn page = none := by
    intro page
    simp [Workspaces.commit]
  obtain ⟨released, left', free⟩ := faithful'.releaseAll unchanged
  use stored.releaseAll txn
  refine ⟨?_, released, left.trans left', free⟩
  simp [complete, flushTransaction, eq]

/-! ### Aborts -/

/-- To restore a cached `page` settles it, whether or not it can be read. -/
theorem Faithful.restore (faithful : pool.Faithful spaces loose)
    (found : pool.cache.frame? page = some frame)
    (holds : (pool.locks.modeOf? page txn).isSome) :
  ∃ outcome after, pool.restore page frame.copy = (.ok outcome, after)
    ∧ after.Faithful (spaces.settle txn false [page]) (fun place => loose place ∧ place ≠ page)
    ∧ pool.Leaves txn spaces after (spaces.settle txn false [page])
    ∧ after.locks = pool.locks
    ∧ ∀ other, other ≠ page → after.cache.frame? other = pool.cache.frame? other
  := by
  obtain ⟨-, named, -, -, -, old, image, length⟩ := faithful.resident page frame found
  have stored : pool.stored page = some old := faithful.committed ▸ image
  have others : ∀ other, other ≠ txn → spaces.overlay other page = none :=
    fun other distinct => faithful.overlay_eq_none holds distinct
  have overlay : ∀ other, other ≠ txn →
      (spaces.settle txn false [page]).overlay other page = spaces.overlay other page := by
    intro other distinct
    simp [Workspaces.settle, distinct]
  have kept : (spaces.settle txn false [page]).committed = spaces.committed := by
    simp [Workspaces.settle]
  obtain ⟨stores, same, -, ⟨fault, missing, -⟩ | ⟨cause, eq⟩ | ⟨bytes, answer, eq⟩⟩ :=
    pool.restore_cases page frame.copy
  all_goals have tables := fun store => (same.alike store).table
  · simp [stored] at missing
  · have only : OnlyAt page pool spaces (pool.dropped page frame.copy stores)
        (spaces.settle txn false [page]) := by
      apply onlyAt_settle named _ tables
      intro other elsewhere
      rw [Cache.frame?_remove, if_neg elsewhere]
    use .error cause, pool.dropped page frame.copy stores, eq, faithful.dropped found same others
    refine ⟨only.leaves (faithful.alone holds) overlay ?_, rfl, only.frame⟩
    intro other _ _
    rw [kept]
  · obtain rfl : old = bytes := by simpa [stored] using answer
    have only : OnlyAt page pool spaces (pool.cleaned page frame.copy old stores)
        (spaces.settle txn false [page]) := by
      apply onlyAt_settle named _ tables
      intro other elsewhere
      rw [Cache.frame?_setDirty, if_neg elsewhere]
    have committed : (spaces.settle txn false [page]).committed
        = Pool.stored { pool with stores } := by
      rw [kept, same.stored, faithful.committed]
    use .ok (), pool.cleaned page frame.copy old stores, eq
    refine ⟨?_, only.leaves (faithful.alone holds) overlay ?_, rfl, only.frame⟩
    · apply faithful.cleaned found (same.wellStored faithful.well) tables committed _ length others
      rw [kept, image]
    · intro other _ _
      rw [kept]

/-- To restore cached `frames` settles their pages, and those in `held` are loose no more. -/
theorem Faithful.restoreAll (txn : TransactionId) (held : List PageId) :
  ∀ (frames : List Frame) (outcome : Except PoolError Unit) {pool : Pool} {spaces : Workspaces}
      {loose : PageId → Prop}, pool.Faithful spaces loose →
    (frames.map Frame.page).Nodup →
    (∀ frame ∈ frames, pool.cache.frame? frame.page = some frame) →
    (∀ page, page ∈ held ↔ (pool.locks.modeOf? page txn).isSome) →
      ∃ (outcome' : Except PoolError Unit) (after : Pool),
        pool.restoreAll txn held frames outcome = (outcome'.mapError .error, after)
        ∧ after.Faithful (spaces.settle txn false (frames.map Frame.page))
          (fun page => loose page ∧ ¬ (page ∈ held ∧ page ∈ frames.map Frame.page))
        ∧ pool.Leaves txn spaces after (spaces.settle txn false (frames.map Frame.page))
        ∧ after.locks = pool.locks
        ∧ ∀ page, (after.cache.frame? page).isSome → (pool.cache.frame? page).isSome
  | [], outcome, pool, spaces, loose, faithful, _, _, _ => by
    use outcome, pool, rfl
    rw [List.map_nil, Workspaces.settle_nil]
    refine ⟨?_, Leaves.refl txn pool spaces, rfl, fun _ resident => resident⟩
    apply faithful.mono
    intro page frame _ old
    use old
    simp
  | frame :: frames, outcome, pool, spaces, loose, faithful, nodup, found, indexed => by
    rw [List.map_cons, List.nodup_cons] at nodup
    have here := found frame (List.mem_cons_self ..)
    have later := fun other member => found other (List.mem_cons_of_mem _ member)
    have condition : (held.contains frame.page
        || decide ((pool.copy frame.copy).dirtiedBy = some txn))
        = held.contains frame.page := by
      by_cases dirtied : (pool.copy frame.copy).dirtiedBy = some txn
      · have exclusive := ((faithful.resident _ frame here).owned txn dirtied).1
        have listed := (indexed frame.page).mpr (Option.isSome_of_mem exclusive)
        simp [listed]
      · simp [dirtied]
    rw [List.map_cons, Workspaces.settle_cons, Pool.restoreAll, condition]
    by_cases listed : frame.page ∈ held
    · obtain ⟨restored, next, eq, faithful', left, locks, elsewhere⟩ :=
        faithful.restore here ((indexed frame.page).mp listed)
      have found' : ∀ other ∈ frames, next.cache.frame? other.page = some other := by
        intro other member
        rw [elsewhere other.page, later other member]
        intro same
        apply nodup.1
        rw [← same]
        apply List.mem_map_of_mem member
      obtain ⟨outcome', after, eq', faithful'', left', locks', fewer⟩ :=
        Faithful.restoreAll txn held frames (firstError outcome restored) faithful' nodup.2 found'
          (locks ▸ indexed)
      use outcome', after
      refine ⟨?_, ?_, left.trans left', locks'.trans locks, ?_⟩
      · simp only [List.contains_iff_mem.mpr listed, if_true, eq, eq']
      · apply faithful''.mono
        rintro page kept - ⟨⟨old, distinct⟩, before⟩
        use old
        rintro ⟨member, _ | ⟨_, later⟩⟩
        · apply distinct rfl
        · apply before ⟨member, later⟩
      · intro page resident
        by_cases same : page = frame.page
        · rw [same, here]
          rfl
        · rw [← elsewhere page same]
          apply fewer page resident
    · have unchanged : spaces.overlay txn frame.page = none := by
        by_contra changed
        have exclusive := faithful.exclusive_of_overlay (Option.isSome_iff_ne_none.mpr changed)
        apply listed ((indexed frame.page).mpr (Option.isSome_of_mem exclusive))
      rw [Workspaces.settle_of_unchanged unchanged]
      obtain ⟨outcome', after, eq, faithful', left, locks, fewer⟩ :=
        Faithful.restoreAll txn held frames outcome faithful nodup.2 later indexed
      use outcome', after
      refine ⟨by simpa [listed] using eq, ?_, left, locks, fewer⟩
      apply faithful'.mono
      rintro page kept - ⟨old, before⟩
      use old
      rintro ⟨member, _ | ⟨_, later⟩⟩
      · apply listed member
      · apply before ⟨member, later⟩

/-- An abort on a `Faithful` pool forgets the private images of `txn`, `spaces.drop txn`, also if
pages cannot be read again, and leaves it without locks.  No page that `txn` held is loose after
it. -/
theorem Faithful.abort (faithful : pool.Faithful spaces loose) (txn : TransactionId) :
  ∃ (outcome : Except PoolError Unit) (after : Pool),
    pool.complete txn false = (outcome.mapError .error, after)
    ∧ after.Faithful (spaces.drop txn)
      (fun page => loose page ∧ pool.locks.modeOf? page txn = none)
    ∧ pool.Leaves txn spaces after (spaces.drop txn)
    ∧ ∀ page, after.locks.modeOf? page txn = none
  := by
  have indexed : ∀ page, page ∈ pool.locks.heldPages txn
      ↔ (pool.locks.modeOf? page txn).isSome := faithful.sound.indexed txn
  have found : ∀ frame ∈ pool.cache.frames, pool.cache.frame? frame.page = some frame :=
    fun frame member => (Cache.mem_frames_iff faithful.distinct).mp member
  obtain ⟨outcome, restored, eq, faithful', left, -, fewer⟩ :=
    Faithful.restoreAll txn _ pool.cache.frames (.ok ()) faithful faithful.distinct found indexed
  rw [Workspaces.settle_eq_drop fun page => faithful.mem_pages] at faithful' left
  have unchanged : ∀ page, (spaces.drop txn).overlay txn page = none := by
    intro page
    simp
  obtain ⟨released, left', free⟩ := faithful'.releaseAll unchanged
  use outcome, restored.releaseAll txn
  refine ⟨?_, ?_, left.trans left', free⟩
  · simp only [complete, Bool.false_eq_true, if_false, rollback, eq]
    cases outcome with
    | ok _ => rfl
    | error cause => rfl
  · apply released.mono
    rintro page frame here ⟨old, before⟩
    use old
    by_contra holds
    apply before
    use (indexed page).mpr (Option.isSome_iff_ne_none.mpr holds)
    obtain ⟨frame, found⟩ := Option.isSome_iff_exists.mp (fewer page (Option.isSome_of_mem here))
    rw [← Cache.page_of_frame? found]
    apply List.mem_map_of_mem (Cache.mem_of_frame? found)

end Pool

end StorageEngine

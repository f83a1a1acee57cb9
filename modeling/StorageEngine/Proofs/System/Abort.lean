import StorageEngine.Proofs.System.Following

/-!
# Aborts

A transaction that aborts reads again every cached page that it has locked or changed, one after
another in the order of the cache, also after some of them could not be read.  Each is restored or
given up (`Pool.Restored`), and the rest of the cache stays as it is.  So nothing is left of the
transaction in the pool, whichever pages are refused when they are read (`Pool.Reached.undone`);
that is all that can go wrong on stores that are laid out (`Pool.Laid.readStored`).
-/

namespace StorageEngine

/-- What `read` answers of an `other` page is the same after a read of `page`. -/
theorem Store.read_read (store : Store) (page other : PageId) :
  ((store.read page).2.read other).1 = (store.read other).1
  := by
  obtain ⟨access, noted⟩ : ∃ access, (store.read page).2 = store.note access := by
    unfold read
    split
    · exact ⟨_, rfl⟩
    · exact ⟨_, rfl⟩
  rw [noted]
  by_cases failing : store.failingReads.contains other.no = true
  · have failing' : (store.note access).failingReads.contains other.no = true := failing
    rw [read, read, if_pos failing, if_pos failing']
  · have failing' : ¬ (store.note access).failingReads.contains other.no = true := failing
    rw [read, read, if_neg failing, if_neg failing']
    rfl

namespace Pool

variable {pool middle after : Pool} {page other : PageId} {frame : Frame} {txn : TransactionId}

/-! ### Reading pages again -/

/-- What `readStored` answers of `page` depends on the catalog and the stores alone. -/
theorem readStored_congr (catalog : after.catalog = pool.catalog)
    (stores : after.stores = pool.stores) (page : PageId) :
  (after.readStored page).1 = (pool.readStored page).1
  := by
  simp only [readStored, storeOf, store, catalog, stores]
  cases pool.catalog.get? page.table <;> rfl

/-- Whether nothing was done to the stores of `pool` up to `after` but to read pages. -/
structure OnlyReads (pool after : Pool) : Prop where
  media : pool.SameMedia after
  writes : pool.SameWrites after
  reads : ∀ page, (after.readStored page).1 = (pool.readStored page).1

theorem OnlyReads.refl (pool : Pool) :
  pool.OnlyReads pool
  := ⟨⟨rfl, rfl, fun _ => rfl, fun _ => rfl⟩, fun _ => rfl, fun _ => rfl⟩

theorem OnlyReads.trans (first : pool.OnlyReads middle) (second : middle.OnlyReads after) :
  pool.OnlyReads after
  where
  media := ⟨second.media.catalog.trans first.media.catalog,
    second.media.size.trans first.media.size,
    fun no => (second.media.table no).trans (first.media.table no),
    fun no => (second.media.medium no).trans (first.media.medium no)⟩
  writes := first.writes.trans second.writes
  reads page := (second.reads page).trans (first.reads page)

/-- Between pools of the same catalog and stores, whatever else differs, `pool.OnlyReads`. -/
theorem OnlyReads.of_stores (reads : pool.OnlyReads middle)
    (catalog : after.catalog = middle.catalog)
    (stores : after.stores = middle.stores) :
  pool.OnlyReads after
  := by
  have same : middle.OnlyReads after := by
    have store : ∀ no, after.store no = middle.store no := fun no => by
      rw [Pool.store, Pool.store, stores]
    refine ⟨⟨catalog, by rw [stores], ?_, ?_⟩, .of_stores stores, readStored_congr catalog stores⟩
    · intro no
      rw [store]
    · intro no
      rw [store]
  exact reads.trans same

theorem onlyReads_readStored (pool : Pool) (page : PageId) :
  pool.OnlyReads (pool.readStored page).2
  := by
  obtain ⟨stores, eq, same, -⟩ := pool.readStored_spec page
  refine ⟨eq ▸ same.media, pool.sameWrites_readStored page, ?_⟩
  intro other
  unfold readStored storeOf
  cases found : pool.catalog.get? page.table with
  | none => rfl
  | some no =>
    dsimp only [setStore]
    cases found' : pool.catalog.get? other.table with
    | none => rfl
    | some no' =>
      have set := pool.store_setStore no no' ((pool.store no).read page).2
      simp only [setStore] at set
      dsimp only
      rw [set]
      split
      · rename_i here
        rw [here.1]
        apply Store.read_read
      · rfl

/-! ### Restoring one page -/

/-- Whether `page` is cached in `after` as in `pool`, in the same copy, if it is cached. -/
def Untouched (page : PageId) (pool after : Pool) : Prop :=
  after.cache.frame? page = pool.cache.frame? page
    ∧ ∀ frame, pool.cache.frame? page = some frame → after.copy frame.copy = pool.copy frame.copy

theorem Untouched.refl (page : PageId) (pool : Pool) :
  Untouched page pool pool
  := ⟨rfl, fun _ _ => rfl⟩

theorem Untouched.trans (first : Untouched page pool middle)
    (second : Untouched page middle after) :
  Untouched page pool after
  := by
  refine ⟨second.1.trans first.1, ?_⟩
  intro frame found
  rw [second.2 frame (first.1.trans found), first.2 frame found]

theorem Elsewhere.untouched (elsewhere : Elsewhere page pool after) (tidy : pool.Tidy)
    (distinct : other ≠ page) :
  Untouched other pool after
  := ⟨elsewhere.frame other distinct, fun _ found => tidy.copy_elsewhere elsewhere distinct found⟩

/-- What has become of the cached page of `frame` that is read again: its copy is what is stored,
or it has left the cache and the outcome says why. -/
inductive Restored (frame : Frame) (pool : Pool) : Except PoolError Unit → Pool → Prop where
  /-- Its copy is what is stored. -/
  | read {after : Pool} {bytes : Bytes} (read : (pool.readStored frame.page).1 = .ok bytes)
      (found : after.cache.frame? frame.page = some { frame with dirty := false })
      (copy : after.copy frame.copy = .clean frame.page bytes) : Restored frame pool (.ok ()) after
  /-- It could not be read and is not cached any more. -/
  | givenUp {after : Pool} {cause : PoolError}
      (failed : (pool.readStored frame.page).1 = .error (.error cause))
      (absent : after.cache.frame? frame.page = none) : Restored frame pool (.error cause) after

/-- What reading the cached page of `frame` again does to `pool`. -/
structure Restores (frame : Frame) (pool : Pool) (outcome : Except PoolError Unit)
    (after : Pool) : Prop where
  tidy : after.Tidy
  elsewhere : Elsewhere frame.page pool after
  reads : pool.OnlyReads after
  order : (after.cache.frames.map Frame.page).Sublist (pool.cache.frames.map Frame.page)
  restored : Restored frame pool outcome after

/-- A cached page is read again, and restored or given up. -/
theorem restores_restore (tidy : pool.Tidy) (readable : Faultless (pool.readStored frame.page).1)
    (found : pool.cache.frame? frame.page = some frame) :
  ∃ outcome after, pool.restore frame.page frame.copy = (.ok outcome, after)
    ∧ Restores frame pool outcome after
  := by
  obtain ⟨allocated, named, -⟩ := tidy.framed _ frame found
  obtain ⟨stores, eq, -, answers, -⟩ := pool.readStored_spec frame.page
  have reads := pool.onlyReads_readStored frame.page
  unfold restore
  rcases read : pool.readStored frame.page with ⟨(cause | fault) | bytes, next⟩
  all_goals
    rw [read] at readable eq answers reads
    obtain rfl : next = { pool with stores } := eq
    have read : (pool.readStored frame.page).1 = _ := congrArg Prod.fst read
  · have elsewhere : Elsewhere frame.page pool (pool.dropped frame.page frame.copy stores) :=
      elsewhere_setCopy (pool.cache.sameBut_remove frame.page) named (.inl ⟨named, rfl⟩)
    have absent : (pool.dropped frame.page frame.copy stores).cache.frame? frame.page = none := by
      rw [dropped, Cache.frame?_remove, if_pos rfl]
    refine ⟨.error cause, pool.dropped frame.page frame.copy stores, rfl, ?_, elsewhere, ?_,
      List.filter_sublist.map _, .givenUp read absent⟩
    · apply tidy.elsewhere elsewhere
      intro frame' found'
      cases absent.symm.trans found'
    · exact reads.of_stores rfl rfl
  · cases readable fault rfl
  · have elsewhere : Elsewhere frame.page pool (pool.cleaned frame.page frame.copy bytes stores) :=
      elsewhere_cleaned named (.inr (answers bytes rfl))
    have clean : (pool.cleaned frame.page frame.copy bytes stores).cache.frame? frame.page
        = some { frame with dirty := false } := by
      simp [cleaned, Cache.frame?_setDirty, found]
    have copy : (pool.cleaned frame.page frame.copy bytes stores).copy frame.copy
        = .clean frame.page bytes := by
      rw [copy_cleaned, if_pos ⟨rfl, allocated⟩]
    refine ⟨.ok (), pool.cleaned frame.page frame.copy bytes stores, rfl, ?_, elsewhere, ?_, ?_,
       .read read clean copy⟩
    · apply tidy.elsewhere elsewhere
      intro frame' found'
      cases clean.symm.trans found'
      rw [copy]
      exact ⟨Nat.lt_of_lt_of_le allocated elsewhere.copies, rfl, rfl⟩
    · exact reads.of_stores rfl rfl
    · rw [cleaned, Cache.pages_setDirty]

/-- A `frame` that was `Restored` is so still where its page is `Untouched`. -/
theorem Restored.untouched {outcome : Except PoolError Unit}
    (restored : Restored frame pool outcome middle)
    (untouched : Untouched frame.page middle after) :
  Restored frame pool outcome after
  := by
  cases restored with
  | read read found copy =>
    apply Restored.read read (untouched.1.trans found)
    rw [untouched.2 _ found, copy]
  | givenUp failed absent => apply Restored.givenUp failed (untouched.1.trans absent)

/-- A `frame` that is `Restored` after a step that `OnlyReads` is so with that step. -/
theorem Restored.after_reads {outcome : Except PoolError Unit} (reads : pool.OnlyReads middle)
    (restored : Restored frame middle outcome after) :
  Restored frame pool outcome after
  := by
  cases restored with
  | read read found copy => apply Restored.read ((reads.reads _).symm.trans read) found copy
  | givenUp failed absent => apply Restored.givenUp ((reads.reads _).symm.trans failed) absent

/-! ### Restoring one page after another -/

instance (pool : Pool) (txn : TransactionId) (held : List PageId) (frame : Frame) :
    Decidable (pool.rereads txn held frame) :=
  inferInstanceAs (Decidable (_ ∨ _))

/-- Why the page of `frame` is not restored that an abort of `txn` reads again. -/
def refusal? (pool : Pool) (txn : TransactionId) (held : List PageId) (frame : Frame) :
    Option PoolError :=
  if pool.rereads txn held frame then
    match (pool.readStored frame.page).1 with
    | .error (.error cause) => some cause
    | _ => none
  else none

/-- The outcome with an error, or without. -/
def report : Option PoolError → Except PoolError Unit
  | none => .ok ()
  | some cause => .error cause

theorem Restored.refusal {outcome : Except PoolError Unit} {held : List PageId}
    (restored : Restored frame pool outcome after) (again : pool.rereads txn held frame) :
  outcome = report (pool.refusal? txn held frame)
  := by
  cases restored with
  | read read => simp [refusal?, again, read, report]
  | givenUp failed => simp [refusal?, again, failed, report]

/-- What restoring the pages of `frames` one after another does to `pool`. -/
structure RestoresAll (txn : TransactionId) (held : List PageId) (frames : List Frame)
    (pool after : Pool) : Prop where
  tidy : after.Tidy
  locks : after.locks = pool.locks
  reads : pool.OnlyReads after
  order : (after.cache.frames.map Frame.page).Sublist (pool.cache.frames.map Frame.page)
  apart : ∀ page, page ∉ frames.map Frame.page → Untouched page pool after
  restored : ∀ frame ∈ frames, pool.rereads txn held frame →
    ∃ outcome, Restored frame pool outcome after
  spared : ∀ frame ∈ frames, ¬ pool.rereads txn held frame → Untouched frame.page pool after

/-- What comes later is chosen and read as it would have been before. -/
theorem Restores.later {outcome : Except PoolError Unit} {held : List PageId} {later : Frame}
    (restores : Restores frame pool outcome middle) (tidy : pool.Tidy)
    (cached : pool.cache.frame? later.page = some later) (apart : later.page ≠ frame.page) :
  Untouched later.page pool middle
    ∧ (middle.rereads txn held later ↔ pool.rereads txn held later)
    ∧ middle.refusal? txn held later = pool.refusal? txn held later
  := by
  have untouched := restores.elsewhere.untouched tidy apart
  have same : middle.rereads txn held later ↔ pool.rereads txn held later := by
    rw [rereads, rereads, untouched.2 later cached]
  refine ⟨untouched, same, ?_⟩
  simp only [refusal?, same, restores.reads.reads]

/-- Where `frame` is read again and `Restores`, and then `frames` are restored, all of `frame ::
frames` are. -/
theorem RestoresAll.cons_restored {outcome : Except PoolError Unit} {held : List PageId}
    {frames : List Frame} (restores : Restores frame pool outcome middle) (tidy : pool.Tidy)
    (cached : ∀ later ∈ frames, pool.cache.frame? later.page = some later)
    (absent : frame.page ∉ frames.map Frame.page) (again : pool.rereads txn held frame)
    (rest : RestoresAll txn held frames middle after) :
  RestoresAll txn held (frame :: frames) pool after
  := by
  have later : ∀ later ∈ frames, Untouched later.page pool middle
      ∧ (middle.rereads txn held later ↔ pool.rereads txn held later) := by
    intro later member
    have apart : later.page ≠ frame.page := fun same =>
      absent (same ▸ List.mem_map_of_mem member)
    obtain ⟨untouched, same, -⟩ := restores.later tidy (cached later member) apart
    exact ⟨untouched, same⟩
  refine ⟨rest.tidy, rest.locks.trans restores.elsewhere.locks, restores.reads.trans rest.reads,
    rest.order.trans restores.order, ?_, ?_, ?_⟩
  · intro page absent
    simp only [List.map_cons, List.mem_cons, not_or] at absent
    apply (restores.elsewhere.untouched tidy absent.1).trans (rest.apart page absent.2)
  · intro other member chosen
    rcases List.mem_cons.mp member with rfl | member
    · use outcome
      apply restores.restored.untouched (rest.apart _ absent)
    · obtain ⟨outcome, restored⟩ :=
        rest.restored other member ((later other member).2.mpr chosen)
      use outcome
      apply restored.after_reads restores.reads
  · intro other member alien
    rcases List.mem_cons.mp member with rfl | member
    · cases alien again
    · apply (later other member).1.trans
      apply rest.spared other member (mt (later other member).2.mp alien)

/-- Where `frame` is not read again, and `frames` are restored, all of `frame :: frames` are. -/
theorem RestoresAll.cons_spared {held : List PageId} {frames : List Frame}
    (absent : frame.page ∉ frames.map Frame.page) (alien : ¬ pool.rereads txn held frame)
    (rest : RestoresAll txn held frames pool after) :
  RestoresAll txn held (frame :: frames) pool after
  := by
  refine ⟨rest.tidy, rest.locks, rest.reads, rest.order, ?_, ?_, ?_⟩
  · intro page absent
    simp only [List.map_cons, List.mem_cons, not_or] at absent
    apply rest.apart page absent.2
  · intro other member chosen
    rcases List.mem_cons.mp member with rfl | member
    · cases alien chosen
    · apply rest.restored other member chosen
  · intro other member spared
    rcases List.mem_cons.mp member with rfl | member
    · apply rest.apart _ absent
    · apply rest.spared other member spared

/-- `pool.restoreAll txn held frames` `RestoresAll` of `frames`, one after another, and reports the
first error. -/
theorem restoresAll (txn : TransactionId) (held : List PageId) {frames : List Frame} {pool : Pool}
    (tidy : pool.Tidy)
    (readable : ∀ frame ∈ frames, pool.rereads txn held frame →
      Faultless (pool.readStored frame.page).1)
    (cached : ∀ frame ∈ frames, pool.cache.frame? frame.page = some frame)
    (distinct : (frames.map Frame.page).Nodup) (outcome : Except PoolError Unit) :
  RestoresAll txn held frames pool (pool.restoreAll txn held frames outcome).2
    ∧ (pool.restoreAll txn held frames outcome).1
      = (firstError outcome (report (frames.findSome? (pool.refusal? txn held)))).mapError .error
  := by
  induction frames generalizing pool outcome with
  | nil =>
    constructor
    · exact ⟨tidy, rfl, .refl pool, .refl _, fun page _ => .refl page pool, nofun, nofun⟩
    · cases outcome <;> rfl
  | cons frame frames ih =>
    rw [List.map_cons, List.nodup_cons] at distinct
    obtain ⟨absent, distinct⟩ := distinct
    have cached' : ∀ later ∈ frames, pool.cache.frame? later.page = some later :=
      fun later member => cached later (List.mem_cons_of_mem _ member)
    have readable' : ∀ later ∈ frames, pool.rereads txn held later →
        Faultless (pool.readStored later.page).1 :=
      fun later member => readable later (List.mem_cons_of_mem _ member)
    by_cases again : pool.rereads txn held frame
    -- The rest of the pages is restored in the pool after this one, where they are still cached,
    -- and chosen and read in the same way.
    · obtain ⟨first, next, eq, restores⟩ :=
        restores_restore tidy (readable frame List.mem_cons_self again)
          (cached frame List.mem_cons_self)
      have later : ∀ later ∈ frames, next.cache.frame? later.page = some later
          ∧ (next.rereads txn held later ↔ pool.rereads txn held later)
          ∧ next.refusal? txn held later = pool.refusal? txn held later := by
        intro later member
        have apart : later.page ≠ frame.page := fun same =>
          absent (same ▸ List.mem_map_of_mem member)
        obtain ⟨untouched, same, refusal⟩ := restores.later tidy (cached' later member) apart
        exact ⟨untouched.1.trans (cached' later member), same, refusal⟩
      have refusals : frames.findSome? (next.refusal? txn held)
          = frames.findSome? (pool.refusal? txn held) := by
        rw [← List.head?_filterMap, ← List.head?_filterMap]
        congr 1
        apply List.filterMap_congr fun other member => (later other member).2.2
      have readable : ∀ later ∈ frames, next.rereads txn held later →
          Faultless (next.readStored later.page).1 := by
        intro other member chosen
        rw [restores.reads.reads]
        apply readable' other member ((later other member).2.1.mp chosen)
      obtain ⟨rest, result⟩ := ih restores.tidy readable
        (fun other member => (later other member).1) distinct (firstError outcome first)
      rw [restoreAll, if_pos (by simpa [rereads] using again), eq]
      use .cons_restored restores tidy cached' absent again rest
      dsimp only
      rw [result, refusals, restores.restored.refusal again, List.findSome?_cons]
      cases outcome <;> cases pool.refusal? txn held frame <;> rfl
    · obtain ⟨rest, result⟩ := ih tidy readable' cached' distinct outcome
      rw [restoreAll, if_neg (by simpa [rereads] using again)]
      use .cons_spared absent again rest
      rw [result, List.findSome?_cons, refusal?, if_neg again]

/-! ### Aborts -/

/-- Whether `txn` has locked the cached page of `frame` or changed it. -/
def Concerns (pool : Pool) (txn : TransactionId) (frame : Frame) : Prop :=
  (pool.locks.modeOf? frame.page txn).isSome ∨ (pool.copy frame.copy).dirtiedBy = some txn

/-- The frames that an abort of `txn` reads again are those that it `Concerns`: `txn` has locked or
changed their pages. -/
theorem rereads_iff (sound : pool.locks.Sound) :
  pool.rereads txn (pool.locks.heldPages txn) frame ↔ pool.Concerns txn frame
  := by
  rw [rereads, Concerns, sound.indexed]

/-- What is left of `txn` on `pool` after it aborted, where `ended` is what comes of it. -/
structure Undone (txn : TransactionId) (pool : Pool) (ended : Result Unit) : Prop where
  /-- A page that it had locked or changed is what is stored, or it could not be read and is not
  cached any more. -/
  restored : ∀ page frame, pool.cache.frame? page = some frame → pool.Concerns txn frame →
    (∃ bytes, (pool.readStored page).1 = .ok bytes
        ∧ ended.2.cache.frame? page = some { frame with dirty := false }
        ∧ ended.2.copy frame.copy = .clean page bytes
        ∧ ended.2.stored page = some bytes)
      ∨ ∃ cause, (pool.readStored page).1 = .error (.error cause)
        ∧ ended.2.cache.frame? page = none
  /-- Another page is cached as before. -/
  spared : ∀ page frame, pool.cache.frame? page = some frame → ¬ pool.Concerns txn frame →
    ended.2.cache.frame? page = some frame ∧ ended.2.copy frame.copy = pool.copy frame.copy
  /-- Cached pages are in the order in which they were. -/
  order : (ended.2.cache.frames.map Frame.page).Sublist (pool.cache.frames.map Frame.page)
  /-- Nothing is written to a store. -/
  unwritten : pool.SameMedia ended.2 ∧ pool.SameWrites ended.2
  /-- It has no locks and waits for none. -/
  unlocked : ended.2.locks.Unlocked txn
  /-- Other transactions have the locks and the waits that they had. -/
  others : ∀ other, other ≠ txn →
    (∀ page, ended.2.locks.modeOf? page other = pool.locks.modeOf? page other)
      ∧ ended.2.locks.held.get? other = pool.locks.held.get? other
      ∧ ended.2.locks.graph.waitOf? other = pool.locks.graph.waitOf? other
  /-- Its changes are not cached. -/
  clean : ∀ page frame, ended.2.cache.frame? page = some frame →
    (ended.2.copy frame.copy).dirtiedBy ≠ some txn
  /-- All pages could be read again, or the first that could not tells the error. -/
  result : (ended.1 = .ok ()
      ∧ ∀ frame ∈ pool.cache.frames, pool.Concerns txn frame →
        ∃ bytes, (pool.readStored frame.page).1 = .ok bytes)
    ∨ ∃ before frame later cause, pool.cache.frames = before ++ frame :: later
      ∧ pool.Concerns txn frame
      ∧ (pool.readStored frame.page).1 = .error (.error cause)
      ∧ ended.1 = .error (.error cause)
      ∧ ∀ other ∈ before, pool.Concerns txn other →
        ∃ bytes, (pool.readStored other.page).1 = .ok bytes

/-- A page is read again without a fault, so it is read or tells why not. -/
theorem refusal?_eq_none {held : List PageId} (none : pool.refusal? txn held frame = none)
    (again : pool.rereads txn held frame)
    (readable : Faultless (pool.readStored frame.page).1) :
  ∃ bytes, (pool.readStored frame.page).1 = .ok bytes
  := by
  rw [refusal?, if_pos again] at none
  rcases read : (pool.readStored frame.page).1 with (cause | fault) | bytes
  · rw [read] at none
    cases none
  · cases readable fault read
  · use bytes

theorem refusal?_eq_some {held : List PageId} {cause : PoolError}
    (some : pool.refusal? txn held frame = some cause) :
  pool.rereads txn held frame ∧ (pool.readStored frame.page).1 = .error (.error cause)
  := by
  unfold refusal? at some
  split at some
  · rename_i again
    use again
    rcases read : (pool.readStored frame.page).1 with (other | fault) | bytes
    all_goals
      rw [read] at some
      cases some
    rfl
  · cases some

/-- Of `frames` that are read again without a fault, all could be read, or the first one that could
not tells the `cause`. -/
theorem refusals_cases {held : List PageId} {frames : List Frame}
    (readable : ∀ frame ∈ frames, pool.rereads txn held frame →
      Faultless (pool.readStored frame.page).1) :
  (frames.findSome? (pool.refusal? txn held) = none
      ∧ ∀ frame ∈ frames, pool.rereads txn held frame →
        ∃ bytes, (pool.readStored frame.page).1 = .ok bytes)
    ∨ ∃ before frame later cause, frames = before ++ frame :: later
      ∧ pool.rereads txn held frame
      ∧ (pool.readStored frame.page).1 = .error (.error cause)
      ∧ frames.findSome? (pool.refusal? txn held) = some cause
      ∧ ∀ other ∈ before, pool.rereads txn held other →
        ∃ bytes, (pool.readStored other.page).1 = .ok bytes
  := by
  cases refusals : frames.findSome? (pool.refusal? txn held) with
  | none =>
    left
    use rfl
    intro frame member again
    apply refusal?_eq_none (List.findSome?_eq_none_iff.mp refusals frame member) again
    apply readable frame member again
  | some cause =>
    right
    obtain ⟨before, frame, later, split, refused, fine⟩ :=
      List.findSome?_eq_some_iff.mp refusals
    obtain ⟨again, failed⟩ := refusal?_eq_some refused
    refine ⟨before, frame, later, cause, split, again, failed, rfl, ?_⟩
    intro other member again
    apply refusal?_eq_none (fine other member) again
    apply readable other (split ▸ List.mem_append_left _ member) again

/-- An abort of `txn` on a `Sound` pool leaves it `Undone`, whatever cannot be read. -/
theorem Sound.undone_complete (sound : pool.Sound)
    (readable : ∀ frame ∈ pool.cache.frames, pool.Concerns txn frame →
      Faultless (pool.readStored frame.page).1) :
  Undone txn pool (pool.complete txn false)
  := by
  obtain ⟨tidy, locks⟩ := sound
  have again : ∀ frame, pool.rereads txn (pool.locks.heldPages txn) frame
      ↔ pool.Concerns txn frame := fun _ => rereads_iff locks.toSound
  have readable : ∀ frame ∈ pool.cache.frames,
      pool.rereads txn (pool.locks.heldPages txn) frame →
        Faultless (pool.readStored frame.page).1 :=
    fun frame member chosen => readable frame member ((again frame).mp chosen)
  obtain ⟨all, result⟩ : RestoresAll txn (pool.locks.heldPages txn) pool.cache.frames pool
        (pool.rollback txn).2
      ∧ (pool.rollback txn).1 = (firstError (.ok ()) (report (pool.cache.frames.findSome?
        (pool.refusal? txn (pool.locks.heldPages txn))))).mapError .error :=
    restoresAll txn (pool.locks.heldPages txn) tidy readable
      (fun frame => (Cache.mem_frames_iff tidy.distinct).mp) tidy.distinct (.ok ())
  have ended : pool.complete txn false
      = ((pool.rollback txn).1, (pool.rollback txn).2.releaseAll txn) := by
    apply complete_eq
    change Faultless (pool.rollback txn).1
    rw [result]
    cases pool.cache.frames.findSome? (pool.refusal? txn (pool.locks.heldPages txn)) with
    | none => apply Faultless.ok ()
    | some cause => apply Faultless.error cause
  have reads : pool.OnlyReads ((pool.rollback txn).2.releaseAll txn) :=
    all.reads.of_stores rfl rfl
  have unlocked : ((pool.rollback txn).2.releaseAll txn).locks = pool.locks.releaseAll txn :=
    congrArg (LockTable.releaseAll · txn) all.locks
  have restored : ∀ page frame, pool.cache.frame? page = some frame → pool.Concerns txn frame →
      ∃ outcome, Restored frame pool outcome (pool.rollback txn).2 :=
    fun page frame found concerned =>
      all.restored frame (Cache.mem_of_frame? found) ((again frame).mpr concerned)
  have spared : ∀ page frame, pool.cache.frame? page = some frame → ¬ pool.Concerns txn frame →
      Untouched frame.page pool (pool.rollback txn).2 :=
    fun page frame found alien =>
      all.spared frame (Cache.mem_of_frame? found) (mt (again frame).mp alien)
  rw [ended]
  refine ⟨?restored, ?spared, all.order, ⟨reads.media, reads.writes⟩, ?unlocked, ?others,
    ?clean, ?result⟩
  case restored =>
    intro page frame found concerned
    obtain rfl := Cache.page_of_frame? found
    obtain ⟨_, ⟨read, found', copy⟩ | ⟨failed, absent⟩⟩ := restored _ frame found concerned
    · left
      refine ⟨_, read, found', copy, ?_⟩
      obtain ⟨stores, -, -, answers, -⟩ := pool.readStored_spec frame.page
      rw [reads.media.stored]
      apply answers _ read
    · right
      exact ⟨_, failed, absent⟩
  case spared =>
    intro page frame found alien
    obtain rfl := Cache.page_of_frame? found
    obtain ⟨found', copy⟩ := spared _ frame found alien
    exact ⟨found'.trans found, copy frame found⟩
  case unlocked =>
    rw [unlocked]
    apply locks.unlocked_releaseAll
  case others =>
    rw [unlocked]
    apply (LockTable.onlyBy_releaseAll pool.locks txn locks).2
  case clean =>
    intro page frame found
    have found : (pool.rollback txn).2.cache.frame? page = some frame := found
    obtain ⟨old, member, rfl⟩ : ∃ old ∈ pool.cache.frames, old.page = page := by
      apply List.mem_map.mp
      apply all.order.subset
      rw [← Cache.page_of_frame? found]
      apply List.mem_map_of_mem (Cache.mem_of_frame? found)
    have found' := (Cache.mem_frames_iff tidy.distinct).mp member
    by_cases concerned : pool.Concerns txn old
    · obtain ⟨_, ⟨-, same, copy⟩ | ⟨-, absent⟩⟩ := restored _ old found' concerned
      · obtain rfl := Option.some.inj (found.symm.trans same)
        intro dirtied
        cases (congrArg Page.dirtiedBy copy).symm.trans dirtied
      · cases found.symm.trans absent
    · obtain ⟨same, copy⟩ := spared _ old found' concerned
      obtain rfl := Option.some.inj (found.symm.trans (same.trans found'))
      intro dirtied
      apply concerned
      right
      rw [← copy frame found']
      apply dirtied
  case result =>
    rw [result]
    simp only [← again]
    obtain ⟨none, fine⟩ | ⟨before, frame, later, cause, split, refused⟩ :=
      refusals_cases readable
    · left
      rw [none]
      exact ⟨rfl, fine⟩
    · right
      refine ⟨before, frame, later, cause, split, refused.1, refused.2.1, ?_, refused.2.2.2⟩
      rw [refused.2.2.1]
      rfl

/-- Whatever was asked of a pool before, and whatever has failed, it is `Undone` after an abort of
`txn`, whatever cannot be read again. -/
theorem Reached.undone {config : PoolConfig} {catalog : Registry TableId StoreNo}
    {stores : Array Store} {start : Pool} (created : create config catalog stores = .ok start)
    (reached : start.Reached pool)
    (readable : ∀ frame ∈ pool.cache.frames, pool.Concerns txn frame →
      Faultless (pool.readStored frame.page).1) :
  Undone txn pool (pool.complete txn false)
  := (reached.sound (sound_create created)).undone_complete readable

/-- `roomTaken` after the transaction that has changed a page has failed to commit: the page can
neither be written nor read any more. -/
def commitFailed : Pool :=
  (roomTaken.performTable (.use (.disrupt 0 [0] [0]))).performTable (.use (.complete ⟨0⟩ true))

/-- In `commitFailed` the transaction has lost its lock when it aborts, and what it has changed
leaves the cache all the same. -/
theorem undone_commitFailed :
  create roomForOne.config roomForOne.catalog roomForOne.stores = .ok roomForOne
    ∧ roomForOne.Reached commitFailed
    ∧ (commitFailed.readStored ⟨1, 0⟩).1 = .error (.error Store.injectedFailure)
    ∧ commitFailed.locks.modeOf? ⟨1, 0⟩ ⟨0⟩ = none
    ∧ commitFailed.cache.frame? ⟨1, 0⟩ = some ⟨⟨1, 0⟩, 0, true⟩
    ∧ (commitFailed.complete ⟨0⟩ false).1 = .error (.error Store.injectedFailure)
    ∧ (commitFailed.complete ⟨0⟩ false).2.cache.frame? ⟨1, 0⟩ = none
  := by
  have created : create roomForOne.config roomForOne.catalog roomForOne.stores
      = .ok roomForOne := rfl
  have reached : roomForOne.Reached commitFailed := by
    apply Reached.act (Reached.act (Reached.act (Reached.act Reached.start
      (.use (.round ⟨0⟩ (.fetch ⟨1, 0⟩ .readWrite))) _) (.use (.update ⟨0⟩ 0 [9, 2, 3, 4])) _) _ _)
    · trivial
    · apply List.forall_mem_nil
    · exact (by decide : 0 < (roomForOne.perform
        (.round ⟨0⟩ (.fetch ⟨1, 0⟩ .readWrite))).copies.size)
    · trivial
  have frames : commitFailed.cache.frames = [⟨⟨1, 0⟩, 0, true⟩] := by decide
  have cached : commitFailed.cache.frame? ⟨1, 0⟩ = some ⟨⟨1, 0⟩, 0, true⟩ := by decide
  have changed : commitFailed.Concerns ⟨0⟩ ⟨⟨1, 0⟩, 0, true⟩ := .inr (by decide)
  have failed : (commitFailed.readStored ⟨1, 0⟩).1 = .error (.error Store.injectedFailure) := rfl
  have readable : ∀ frame ∈ commitFailed.cache.frames, commitFailed.Concerns ⟨0⟩ frame →
      Faultless (commitFailed.readStored frame.page).1 := by
    intro frame member _
    rw [frames, List.mem_singleton] at member
    subst member
    rw [failed]
    apply Faultless.error
  have undone := Reached.undone created reached readable
  refine ⟨created, reached, failed, by decide, cached, ?_, ?_⟩
  · obtain ⟨-, fine⟩ | ⟨before, frame, later, cause, split, -, failed', ended, -⟩ := undone.result
    · obtain ⟨bytes, read⟩ := fine _ (Cache.mem_of_frame? cached) changed
      cases failed.symm.trans read
    · have only : frame ∈ commitFailed.cache.frames := by simp [split]
      rw [frames, List.mem_singleton] at only
      subst only
      cases failed'.symm.trans failed
      exact ended
  · obtain ⟨bytes, read, -⟩ | ⟨cause, -, absent⟩ := undone.restored _ _ cached changed
    · cases failed.symm.trans read
    · exact absent

end Pool

end StorageEngine

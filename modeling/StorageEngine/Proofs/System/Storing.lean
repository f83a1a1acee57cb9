import StorageEngine.Proofs.Pool.Kept
import StorageEngine.Proofs.System.Arranged

/-!
# Storing changes

Where changes are stored, the cached pages that are selected are written one after another in the
order of the cache, up to the first that cannot be written.  The pages before it are kept as they
are cached and are clean; it and the pages after it stay as they are, and so does everything else
(`Pool.Flushed`).  That is so wherever changes are stored, whatever was asked of the pool before and
whichever writes fail (`Pool.Ordered.flushed_in_order`); a transaction that commits loses its locks
in any case.
-/

namespace StorageEngine

namespace Pool

variable {pool middle after : Pool} {page : PageId} {bytes : Bytes} {frame : Frame}
  {frames stored rest : List Frame} {selects : TransactionId → Bool} {txn : TransactionId}

/-! ### Writing pages one after another -/

/-- What `writeStored page bytes` answers, and the stores that it leaves, depend on the catalog and
the stores alone. -/
theorem writeStored_congr (catalog : after.catalog = pool.catalog)
    (stores : after.stores = pool.stores) (page : PageId) (bytes : Bytes) :
  (after.writeStored page bytes).1 = (pool.writeStored page bytes).1
    ∧ (after.writeStored page bytes).2.stores = (pool.writeStored page bytes).2.stores
  := by
  simp only [writeStored, storeOf, store, catalog]
  cases pool.catalog.get? page.table with
  | none => exact ⟨rfl, stores⟩
  | some no => simp [setStore, stores]

/-- `writeStored page bytes` leaves the catalog. -/
theorem catalog_writeStored (pool : Pool) (page : PageId) (bytes : Bytes) :
  (pool.writeStored page bytes).2.catalog = pool.catalog
  := by
  obtain ⟨stores, eq, -⟩ := pool.writeStored_eq page bytes
  rw [eq]

/-- `pool` after `pages` were written to their stores, one after another. -/
def storing (pool : Pool) (pages : List (PageId × Bytes)) : Pool :=
  pages.foldl (fun pool page => (pool.writeStored page.1 page.2).2) pool

theorem storing_append (pool : Pool) (pages later : List (PageId × Bytes)) :
  pool.storing (pages ++ later) = (pool.storing pages).storing later
  := List.foldl_append

theorem catalog_storing (pages : List (PageId × Bytes)) (pool : Pool) :
  (pool.storing pages).catalog = pool.catalog
  := by
  induction pages generalizing pool with
  | nil => rfl
  | cons page pages ih => exact (ih _).trans (pool.catalog_writeStored ..)

/-- The stores that `storing pages` leaves depend on the catalog and the stores alone. -/
theorem stores_storing_congr (pages : List (PageId × Bytes)) {pool after : Pool}
    (catalog : after.catalog = pool.catalog) (stores : after.stores = pool.stores) :
  (after.storing pages).stores = (pool.storing pages).stores
  := by
  induction pages generalizing pool after with
  | nil => apply stores
  | cons page pages ih =>
    apply ih
    · rw [catalog_writeStored, catalog_writeStored, catalog]
    · apply (writeStored_congr catalog stores ..).2

/-- `pool.storing pages` notes a write of each of `pages`. -/
theorem notesWrites_storing (pages : List (PageId × Bytes)) (pool : Pool) :
  NotesWrites (pages.map Prod.fst) pool (pool.storing pages)
  := by
  induction pages generalizing pool with
  | nil => apply NotesWrites.refl
  | cons page pages ih =>
    exact (pool.notesWrites_writeStored page.1 page.2).trans (ih _) (pool.catalog_writeStored ..)

/-- `writeStored page bytes` leaves every table in its store: `pool.Unmoved`. -/
theorem unmoved_writeStored (pool : Pool) (page : PageId) (bytes : Bytes) :
  pool.Unmoved (pool.writeStored page bytes).2
  := by
  unfold writeStored
  cases pool.storeOf page.table with
  | error failure => apply Unmoved.refl
  | ok no =>
    have same : ∀ other,
        ((pool.setStore no ((pool.store no).write page bytes).2).store other).table
            = (pool.store other).table
          ∧ ((pool.setStore no ((pool.store no).write page bytes).2).store other).shape
            = (pool.store other).shape := by
      intro other
      rw [store_setStore]
      split
      · rename_i here
        rw [here.1]
        exact ⟨Store.table_write .., Store.shape_write ..⟩
      · exact ⟨rfl, rfl⟩
    exact ⟨⟨rfl, fun other => (same other).1, fun other => (same other).2⟩,
      Array.size_setIfInBounds ..⟩

/-- In a pool that is `Arranged`, `writeStored page bytes` is `Faultless`. -/
theorem Arranged.faultless_writeStored (arranged : pool.Arranged) (page : PageId) (bytes : Bytes) :
  Faultless (pool.writeStored page bytes).1
  := by
  unfold writeStored storeOf
  cases pool.catalog.get? page.table with
  | none => apply Faultless.error
  | some no => apply (arranged.paged no).write

theorem Arranged.storing (arranged : pool.Arranged) (pages : List (PageId × Bytes)) :
  (pool.storing pages).Arranged
  := by
  induction pages generalizing pool with
  | nil => apply arranged
  | cons page pages ih => exact ih (arranged.unmoved (pool.unmoved_writeStored ..))

/-- Whether pages can be written to the stores of `pool` one after another. -/
def Writable (pool : Pool) : List (PageId × Bytes) → Prop
  | [] => True
  | page :: pages => (pool.writeStored page.1 page.2).1 = .ok ()
    ∧ (pool.writeStored page.1 page.2).2.Writable pages

/-- Whether pages can be written depends on the catalog and the stores. -/
theorem Writable.congr {pages : List (PageId × Bytes)} {pool after : Pool}
    (writable : pool.Writable pages) (catalog : after.catalog = pool.catalog)
    (stores : after.stores = pool.stores) :
  after.Writable pages
  := by
  induction pages generalizing pool after with
  | nil => trivial
  | cons page pages ih =>
    obtain ⟨first, later⟩ := writable
    obtain ⟨result, stores'⟩ := writeStored_congr catalog stores page.1 page.2
    use result.trans first
    apply ih later _ stores'
    rw [catalog_writeStored, catalog_writeStored, catalog]

/-- After `storing pages` that are `Writable`, `kept?` finds each of them as it was written, and
the others as before. -/
theorem Writable.kept? {pages : List (PageId × Bytes)} {pool : Pool}
    (writable : pool.Writable pages) (arranged : pool.Arranged)
    (distinct : (pages.map Prod.fst).Nodup) :
  (∀ page ∈ pages, (pool.storing pages).kept? page.1 = some page.2)
    ∧ ∀ page, page ∉ pages.map Prod.fst → (pool.storing pages).kept? page = pool.kept? page
  := by
  induction pages generalizing pool with
  | nil => exact ⟨nofun, fun _ _ => rfl⟩
  | cons page pages ih =>
    obtain ⟨first, later⟩ := writable
    rw [List.map_cons, List.nodup_cons] at distinct
    have written : ∀ other, (pool.writeStored page.1 page.2).2.kept? other
        = if other = page.1 then some page.2 else pool.kept? other :=
      kept?_writeStored arranged.catalogued (Prod.ext first rfl)
    obtain ⟨kept, others⟩ := ih later (arranged.unmoved (pool.unmoved_writeStored ..)) distinct.2
    constructor
    · intro other member
      rcases List.mem_cons.mp member with rfl | member
      · exact (others _ distinct.1).trans ((written _).trans (if_pos rfl))
      · exact kept other member
    · intro other apart
      simp only [List.map_cons, List.mem_cons, not_or] at apart
      exact (others other apart.2).trans ((written other).trans (if_neg apart.1))

/-! ### The loop -/

/-- Whether a flush of what `selects` is to store the page of `frame`. -/
def chooses (pool : Pool) (selects : TransactionId → Bool) (frame : Frame) : Bool :=
  (pool.copy frame.copy).dirtiedBy.any selects

/-- The page of `frame` with its cached bytes. -/
def content (pool : Pool) (frame : Frame) : PageId × Bytes :=
  (frame.page, (pool.copy frame.copy).bytes)

/-- `frame` after the pages of `stored` were stored. -/
def settled (stored : List Frame) (frame : Frame) : Frame :=
  if frame.page ∈ stored.map Frame.page then { frame with dirty := false } else frame

/-- What the loop of a flush does: of the pages of `frames` that are chosen those of `stored` are
stored, and the first of `rest`, if there is one, is refused. -/
structure Flushing (selects : TransactionId → Bool) (frames : List Frame) (pool : Pool)
    (stored rest : List Frame) (ended : Result Unit) : Prop where
  chosen : frames.filter (pool.chooses selects) = stored ++ rest
  writable : pool.Writable (stored.map pool.content)
  result : rest = [] ∧ ended.1 = .ok ()
    ∨ ∃ frame later failure, rest = frame :: later
      ∧ ((pool.storing (stored.map pool.content)).writeStored frame.page
          (pool.copy frame.copy).bytes).1 = .error failure
      ∧ ended.1 = .error failure
  catalog : ended.2.catalog = pool.catalog
  locks : ended.2.locks = pool.locks
  stores : ended.2.stores = (pool.storing ((stored ++ rest.take 1).map pool.content)).stores
  size : ended.2.copies.size = pool.copies.size
  copy : ∀ no, ended.2.copy no
    = if no ∈ stored.map Frame.copy then (pool.copy no).mark none else pool.copy no
  cache : ended.2.cache = { pool.cache with frames := pool.cache.frames.map (settled stored) }

/-- Where no page was stored, all frames are as before. -/
theorem map_settled_nil (frames : List Frame) :
  frames.map (settled []) = frames
  := by
  have same : settled [] = id := by
    funext frame
    simp [settled]
  rw [same, List.map_id]

theorem writeBack_written {stores : Array Store} (chosen : pool.chooses selects frame = true)
    (named : (pool.copy frame.copy).id = frame.page)
    (eq : pool.writeStored frame.page (pool.copy frame.copy).bytes
      = (.ok (), { pool with stores })) :
  pool.writeBack selects frame.copy
    = (.ok (), pool.cleaned frame.page frame.copy (pool.copy frame.copy).bytes stores)
  := by
  have selected : (pool.copy frame.copy).dirtiedBy.any selects = true := chosen
  simp only [writeBack, if_pos selected, named, eq]
  simp [cleaned, setCopy, Page.mark, Page.clean, named]

theorem writeBack_refused {failure : Failure PoolError}
    (chosen : pool.chooses selects frame = true)
    (named : (pool.copy frame.copy).id = frame.page)
    (eq : pool.writeStored frame.page (pool.copy frame.copy).bytes = (.error failure, after)) :
  pool.writeBack selects frame.copy = (.error failure, after)
  := by
  have selected : (pool.copy frame.copy).dirtiedBy.any selects = true := chosen
  simp only [writeBack, if_pos selected, named, eq]

theorem writeBack_alien (alien : pool.chooses selects frame = false) :
  pool.writeBack selects frame.copy = (.ok (), pool)
  := by
  have alien : (pool.copy frame.copy).dirtiedBy.any selects = false := alien
  simp [writeBack, alien]

/-- `Flushing` passes over a `frame` that is not chosen. -/
theorem Flushing.skip {ended : Result Unit}
    (flushing : Flushing selects frames pool stored rest ended)
    (alien : pool.chooses selects frame = false) :
  Flushing selects (frame :: frames) pool stored rest ended
  := by
  refine { flushing with chosen := ?_ }
  rw [List.filter_cons_of_neg (by simp [alien]), flushing.chosen]

/-- `Flushing` ends at a chosen `frame` whose write is refused. -/
theorem flushing_refused {failure : Failure PoolError} (chosen : pool.chooses selects frame = true)
    (eq : pool.writeStored frame.page (pool.copy frame.copy).bytes = (.error failure, after))
    (frames : List Frame) :
  Flushing selects (frame :: frames) pool []
    (frame :: frames.filter (pool.chooses selects)) (.error failure, after)
  := by
  obtain ⟨stores, same, -⟩ := pool.writeStored_eq frame.page (pool.copy frame.copy).bytes
  rw [eq] at same
  obtain rfl : after = { pool with stores } := same
  constructor
  · rw [List.filter_cons_of_pos chosen, List.nil_append]
  · trivial
  · right
    exact ⟨frame, _, failure, rfl, congrArg Prod.fst eq, rfl⟩
  · rfl
  · rfl
  · show stores = (pool.writeStored frame.page (pool.copy frame.copy).bytes).2.stores
    rw [eq]
  · rfl
  · exact fun _ => rfl
  · simp only [map_settled_nil]

/-- After `cleaned`, the copy of `frame` has its bytes and is clean, and the other copies are as
before. -/
theorem copy_written (allocated : frame.copy < pool.copies.size)
    (named : (pool.copy frame.copy).id = frame.page) (stores : Array Store) (no : CopyNo) :
  (pool.cleaned frame.page frame.copy (pool.copy frame.copy).bytes stores).copy no
    = if no = frame.copy then (pool.copy frame.copy).mark none else pool.copy no
  := by
  rw [copy_cleaned]
  simp only [allocated, and_true, Page.mark, Page.clean, named]

/-- To settle `other` for the page of `frame`, and then for those of `stored`, is to settle it for
`frame :: stored`. -/
theorem settled_settled (frame : Frame) (stored : List Frame) (other : Frame) :
  settled stored (if other.page = frame.page then { other with dirty := false } else other)
    = settled (frame :: stored) other
  := by
  by_cases here : other.page = frame.page
  · simp [settled, here]
  · simp [settled, here]

/-- `Flushing` stores the page of a chosen `frame`, and goes on with `frames`. -/
theorem Flushing.cons {stores : Array Store} {ended : Result Unit}
    (chosen : pool.chooses selects frame = true) (allocated : frame.copy < pool.copies.size)
    (named : (pool.copy frame.copy).id = frame.page)
    (apart : ∀ later ∈ frames, later.copy ≠ frame.copy)
    (eq : pool.writeStored frame.page (pool.copy frame.copy).bytes = (.ok (), { pool with stores }))
    (flushing : Flushing selects frames
      (pool.cleaned frame.page frame.copy (pool.copy frame.copy).bytes stores) stored rest ended) :
  Flushing selects (frame :: frames) pool (frame :: stored) rest ended
  := by
  let next := pool.cleaned frame.page frame.copy (pool.copy frame.copy).bytes stores
  have same : ∀ later ∈ frames, next.copy later.copy = pool.copy later.copy := by
    intro later member
    rw [copy_written allocated named, if_neg (apart later member)]
  -- The pages of the loop that goes on are chosen and have bytes as before.
  have choices : frames.filter (pool.chooses selects) = frames.filter (next.chooses selects) := by
    apply List.filter_congr
    intro later member
    rw [chooses, chooses, same later member]
  have within : ∀ later ∈ stored ++ rest, later ∈ frames := by
    intro later member
    rw [← flushing.chosen] at member
    apply List.mem_of_mem_filter member
  have contents : ∀ part : List Frame, (∀ later ∈ part, later ∈ stored ++ rest) →
      part.map pool.content = part.map next.content := by
    intro part inside
    apply List.map_congr_left
    intro later member
    rw [content, content, same later (within later (inside later member))]
  have before := contents stored fun _ => List.mem_append_left _
  have write : (pool.writeStored frame.page (pool.copy frame.copy).bytes).2.stores = next.stores :=
    by rw [eq]; rfl
  have catalog : (pool.writeStored frame.page (pool.copy frame.copy).bytes).2.catalog
      = next.catalog := by rw [eq]; rfl
  have storing : ∀ pages, (pool.storing (pool.content frame :: pages)).stores
      = (next.storing pages).stores :=
    fun pages => stores_storing_congr pages catalog write
  constructor
  case chosen => rw [List.filter_cons_of_pos chosen, choices, flushing.chosen, List.cons_append]
  case writable =>
    use congrArg Prod.fst eq
    rw [before]
    exact flushing.writable.congr catalog write
  case result =>
    obtain ⟨none, ok⟩ | ⟨refused, later, failure, first, failed, ended⟩ := flushing.result
    · left
      exact ⟨none, ok⟩
    · right
      refine ⟨refused, later, failure, first, ?_, ended⟩
      have member : refused ∈ frames := within refused (by simp [first])
      rw [← failed, same refused member, List.map_cons, before]
      refine (writeStored_congr ?_ (storing _) ..).1
      rw [catalog_storing, catalog_storing]
      rfl
  case catalog => exact flushing.catalog
  case locks => exact flushing.locks
  case stores =>
    rw [flushing.stores, List.cons_append, List.map_cons, storing,
      contents _ fun later member => ?_]
    apply (List.Sublist.append (.refl _) (List.take_sublist 1 rest)).subset member
  case size =>
    rw [flushing.size]
    simp [Pool.cleaned, setCopy]
  case copy =>
    intro no
    rw [flushing.copy, copy_written allocated named]
    by_cases here : no = frame.copy
    · subst here
      simp [Page.mark]
    · simp [here]
  case cache =>
    rw [flushing.cache]
    simp only [Pool.cleaned, Cache.setDirty, List.map_map]
    congr 1
    apply List.map_congr_left
    intro other _
    apply settled_settled

/-- `writeBackAll selects` of the copies of `frames` is `Flushing` them: it stores those that are
chosen, one after another, up to one that is refused. -/
theorem flushing_writeBackAll (selects : TransactionId → Bool) (frames : List Frame) {pool : Pool}
    (framed : ∀ frame ∈ frames, frame.copy < pool.copies.size
      ∧ (pool.copy frame.copy).id = frame.page)
    (distinct : (frames.map Frame.page).Nodup) :
  ∃ stored rest, Flushing selects frames pool stored rest
    (pool.writeBackAll selects (frames.map Frame.copy))
  := by
  induction frames generalizing pool with
  | nil =>
    refine ⟨[], [], rfl, trivial, .inl ⟨rfl, rfl⟩, rfl, rfl, rfl, rfl, fun _ => rfl, ?_⟩
    simp only [map_settled_nil]
    rfl
  | cons frame frames ih =>
    obtain ⟨allocated, named⟩ := framed frame List.mem_cons_self
    rw [List.map_cons, List.nodup_cons] at distinct
    have apart : ∀ later ∈ frames, later.copy ≠ frame.copy := by
      intro later member same
      apply distinct.1
      rw [← named, ← same, (framed later (List.mem_cons_of_mem _ member)).2]
      apply List.mem_map_of_mem member
    have later : ∀ later ∈ frames, later.copy < pool.copies.size
        ∧ (pool.copy later.copy).id = later.page :=
      fun other member => framed other (List.mem_cons_of_mem _ member)
    rw [List.map_cons, writeBackAll]
    cases chosen : pool.chooses selects frame with
    | false =>
      rw [writeBack_alien chosen]
      obtain ⟨stored, rest, flushing⟩ := ih later distinct.2
      exact ⟨stored, rest, flushing.skip chosen⟩
    | true =>
      rcases written : pool.writeStored frame.page (pool.copy frame.copy).bytes with
        ⟨failure | _, after⟩
      · rw [writeBack_refused chosen named written]
        exact ⟨[], _, flushing_refused chosen written frames⟩
      · obtain ⟨stores, same, -⟩ := pool.writeStored_eq frame.page (pool.copy frame.copy).bytes
        rw [written] at same
        obtain rfl : after = { pool with stores } := same
        rw [writeBack_written chosen named written]
        have framed' : ∀ later ∈ frames,
            later.copy < (pool.cleaned frame.page frame.copy (pool.copy frame.copy).bytes
                stores).copies.size
              ∧ ((pool.cleaned frame.page frame.copy (pool.copy frame.copy).bytes stores).copy
                later.copy).id = later.page := by
          intro other member
          rw [copy_cleaned, if_neg fun here => apart other member here.1]
          simpa [cleaned, setCopy] using later other member
        obtain ⟨stored, rest, flushing⟩ := ih framed' distinct.2
        exact ⟨frame :: stored, rest, flushing.cons chosen allocated named apart written⟩

/-! ### What a flush leaves -/

@[simp]
theorem page_settled (stored : List Frame) (frame : Frame) :
  (settled stored frame).page = frame.page
  := by
  unfold settled
  split <;> rfl

@[simp]
theorem copy_settled (stored : List Frame) (frame : Frame) :
  (settled stored frame).copy = frame.copy
  := by
  unfold settled
  split <;> rfl

/-- In a cache whose frames are `settled stored`, `frame?` finds the settled frame of `page`. -/
theorem frame?_settled (cache : Cache) (stored : List Frame) (page : PageId) :
  Cache.frame? { cache with frames := cache.frames.map (settled stored) } page
    = (cache.frame? page).map (settled stored)
  := by
  simp only [Cache.frame?, List.find?_map]
  congr 2
  funext frame
  simp

/-- How a flush of what `selects` ends: of the cached pages that were changed, those of `stored`
are stored and those of `rest` are not. -/
structure Flushed (selects : TransactionId → Bool) (pool : Pool) (stored rest : List Frame)
    (ended : Result Unit) : Prop where
  /-- These are the pages to store, in the order of the cache. -/
  chosen : pool.cache.frames.filter (pool.chooses selects) = stored ++ rest
  /-- The first of them can be written one after another. -/
  writable : pool.Writable (stored.map pool.content)
  /-- They are all of them, or the next one cannot be written after them and tells the error. -/
  result : rest = [] ∧ ended.1 = .ok ()
    ∨ ∃ frame later cause, rest = frame :: later
      ∧ ((pool.storing (stored.map pool.content)).writeStored frame.page
          (pool.copy frame.copy).bytes).1 = .error (.error cause)
      ∧ ended.1 = .error (.error cause)
  /-- A page that is stored is kept as it was cached, and is clean. -/
  kept : ∀ frame ∈ stored, ended.2.kept? frame.page = some (pool.copy frame.copy).bytes
    ∧ ended.2.cache.frame? frame.page = some { frame with dirty := false }
    ∧ ended.2.copy frame.copy = (pool.copy frame.copy).mark none
  /-- A page that is not stored is dirty, as it was. -/
  left : ∀ frame ∈ rest, frame.dirty = true ∧ ended.2.cache.frame? frame.page = some frame
    ∧ ended.2.copy frame.copy = pool.copy frame.copy
  /-- A page that was not to be stored is cached as it was. -/
  spared : ∀ frame ∈ pool.cache.frames, pool.chooses selects frame = false →
    ended.2.cache.frame? frame.page = some frame ∧ ended.2.copy frame.copy = pool.copy frame.copy
  /-- Of other pages than the stored ones the same is kept as before. -/
  others : ∀ page, page ∉ stored.map Frame.page → ended.2.kept? page = pool.kept? page
  /-- Nothing else was written, but for a page that was refused. -/
  noted : NotesWrites ((stored ++ rest.take 1).map Frame.page) pool ended.2
  /-- All copies of pages have their bytes. -/
  bytes : ∀ no, (ended.2.copy no).id = (pool.copy no).id
    ∧ (ended.2.copy no).bytes = (pool.copy no).bytes
  /-- The same pages are cached, in the same copies and in the same order. -/
  order : ended.2.cache.frames.map (fun frame => (frame.page, frame.copy))
    = pool.cache.frames.map fun frame => (frame.page, frame.copy)

/-- A page that is refused leaves what is kept. -/
theorem Flushing.kept? {ended : Result Unit} (arranged : pool.Arranged)
    (flushing : Flushing selects frames pool stored rest ended)
    (distinct : (stored.map Frame.page).Nodup) :
  (∀ frame ∈ stored, ended.2.kept? frame.page = some (pool.copy frame.copy).bytes)
    ∧ ∀ page, page ∉ stored.map Frame.page → ended.2.kept? page = pool.kept? page
  := by
  have pages : (stored.map pool.content).map Prod.fst = stored.map Frame.page := by
    simp [content, Function.comp_def]
  obtain ⟨kept, others⟩ := flushing.writable.kept? arranged (pages ▸ distinct)
  have last : ∀ page, ended.2.kept? page = (pool.storing (stored.map pool.content)).kept? page := by
    intro page
    have stores := flushing.stores
    obtain ⟨rfl, -⟩ | ⟨refused, later, failure, rfl, failed, -⟩ := flushing.result
    · rw [List.take_nil, List.append_nil] at stores
      exact kept?_congr (flushing.catalog.trans (catalog_storing ..).symm) stores page
    · rw [List.take_succ_cons, List.take_zero, List.map_append, storing_append] at stores
      have tried : ((pool.storing (stored.map pool.content)).storing
          [pool.content refused]).kept? page
            = (pool.storing (stored.map pool.content)).kept? page := by
        apply SameMedia.kept?
        exact writeStored_error (Prod.ext failed rfl)
      rw [← tried]
      apply kept?_congr _ stores
      rw [flushing.catalog, catalog_storing, catalog_storing]
  constructor
  · intro frame member
    rw [last]
    apply kept _ (List.mem_map_of_mem member)
  · intro page apart
    rw [last]
    apply others page (pages.symm ▸ apart)

/-- In a pool that is `Arranged`, `Flushing` reports errors of stores, but is `Faultless`. -/
theorem Flushing.faultless {ended : Result Unit} (arranged : pool.Arranged)
    (flushing : Flushing selects frames pool stored rest ended) :
  Faultless ended.1
  := by
  intro fault faults
  obtain ⟨-, ok⟩ | ⟨refused, later, failure, -, failed, eq⟩ := flushing.result
  · cases ok.symm.trans faults
  · rw [eq] at faults
    cases faults
    cases (arranged.storing (stored.map pool.content)).faultless_writeStored refused.page
      (pool.copy refused.copy).bytes fault failed

theorem Flushing.chosen_of_mem {ended : Result Unit}
    (flushing : Flushing selects frames pool stored rest ended) (listed : frame ∈ stored ++ rest) :
  frame ∈ frames ∧ pool.chooses selects frame = true
  := by
  rw [← flushing.chosen] at listed
  exact List.mem_filter.mp listed

/-- After `Flushing` the cache, the frame of a cached page is `settled stored frame`. -/
theorem Flushing.frame? {ended : Result Unit} (tidy : pool.Tidy)
    (flushing : Flushing selects pool.cache.frames pool stored rest ended)
    (cached : frame ∈ pool.cache.frames) :
  ended.2.cache.frame? frame.page = some (settled stored frame)
  := by
  rw [flushing.cache, frame?_settled, (Cache.mem_frames_iff tidy.distinct).mp cached,
    Option.map_some]

/-- After `Flushing` the cache, the `frame` and the copy of a page that is not `stored` are as
before. -/
theorem Flushing.spared {ended : Result Unit} (tidy : pool.Tidy)
    (flushing : Flushing selects pool.cache.frames pool stored rest ended)
    (cached : frame ∈ pool.cache.frames) (alien : frame.page ∉ stored.map Frame.page) :
  ended.2.cache.frame? frame.page = some frame ∧ ended.2.copy frame.copy = pool.copy frame.copy
  := by
  have named : ∀ frame ∈ pool.cache.frames, (pool.copy frame.copy).id = frame.page :=
    fun frame member =>
      (tidy.framed _ frame ((Cache.mem_frames_iff tidy.distinct).mp member)).2.1
  have apart : frame.copy ∉ stored.map Frame.copy := by
    intro listed
    obtain ⟨other, done, same⟩ := List.mem_map.mp listed
    apply alien
    rw [← named frame cached, ← same,
      named other (flushing.chosen_of_mem (List.mem_append_left _ done)).1]
    apply List.mem_map_of_mem done
  rw [flushing.frame? tidy cached, settled, if_neg alien, flushing.copy, if_neg apart]
  exact ⟨rfl, rfl⟩

/-- `Flushing` the frames of the cache leaves the pool `Flushed`. -/
theorem Flushing.flushed {ended : Result Unit} (tidy : pool.Tidy) (arranged : pool.Arranged)
    (flushing : Flushing selects pool.cache.frames pool stored rest ended) :
  Flushed selects pool stored rest ended
  := by
  have found : ∀ frame ∈ pool.cache.frames, pool.cache.frame? frame.page = some frame :=
    fun frame => (Cache.mem_frames_iff tidy.distinct).mp
  have pages : (stored.map Frame.page ++ rest.map Frame.page).Nodup := by
    rw [← List.map_append, ← flushing.chosen]
    apply tidy.distinct.sublist (List.filter_sublist.map _)
  obtain ⟨distinct, -, apart⟩ := List.nodup_append.mp pages
  obtain ⟨kept, others⟩ := flushing.kept? arranged distinct
  refine ⟨flushing.chosen, flushing.writable, ?result, ?kept, ?left, ?spared, others, ?noted,
    ?bytes, ?order⟩
  case result =>
    obtain done | ⟨refused, later, (cause | fault), first, failed, eq⟩ := flushing.result
    · left
      exact done
    · right
      exact ⟨refused, later, cause, first, failed, eq⟩
    · cases flushing.faultless arranged fault eq
  case kept =>
    intro frame done
    have listed : frame.page ∈ stored.map Frame.page := List.mem_map_of_mem done
    refine ⟨kept frame done, ?_, ?_⟩
    · rw [flushing.frame? tidy (flushing.chosen_of_mem (List.mem_append_left _ done)).1, settled,
        if_pos listed]
    · rw [flushing.copy, if_pos (List.mem_map_of_mem done)]
  case left =>
    intro frame waits
    obtain ⟨cached, chosen⟩ := flushing.chosen_of_mem (List.mem_append_right _ waits)
    refine ⟨?_, flushing.spared tidy cached fun done => ?_⟩
    · rw [(tidy.framed _ frame (found frame cached)).2.2, Page.isDirty]
      cases dirtied : (pool.copy frame.copy).dirtiedBy with
      | none => simp [chooses, dirtied] at chosen
      | some owner => rfl
    · exact apart _ done _ (List.mem_map_of_mem waits) rfl
  case spared =>
    intro frame cached alien
    apply flushing.spared tidy cached
    intro done
    obtain ⟨other, done, same⟩ := List.mem_map.mp done
    obtain ⟨cached', chosen⟩ := flushing.chosen_of_mem (List.mem_append_left _ done)
    have equal := found other cached'
    rw [same, found frame cached] at equal
    cases equal
    cases alien.symm.trans chosen
  case noted =>
    have notes := notesWrites_storing ((stored ++ rest.take 1).map pool.content) pool
    rw [List.map_map] at notes
    intro no
    rw [store, flushing.stores]
    exact notes no
  case bytes =>
    intro no
    rw [flushing.copy]
    split
    · exact ⟨rfl, rfl⟩
    · exact ⟨rfl, rfl⟩
  case order =>
    simp [flushing.cache, Function.comp_def]

/-- In a pool that is `Arranged`, `writeBackAll selects` of the whole cache leaves it `Flushed`, is
`Faultless` and keeps the locks. -/
theorem flushed_writeBackAll (tidy : pool.Tidy) (arranged : pool.Arranged)
    (selects : TransactionId → Bool) :
  (∃ stored rest, Flushed selects pool stored rest
      (pool.writeBackAll selects (pool.cache.frames.map Frame.copy)))
    ∧ Faultless (pool.writeBackAll selects (pool.cache.frames.map Frame.copy)).1
    ∧ (pool.writeBackAll selects (pool.cache.frames.map Frame.copy)).2.locks = pool.locks
  := by
  have framed : ∀ frame ∈ pool.cache.frames, frame.copy < pool.copies.size
      ∧ (pool.copy frame.copy).id = frame.page := by
    intro frame member
    obtain ⟨allocated, named, -⟩ :=
      tidy.framed _ frame ((Cache.mem_frames_iff tidy.distinct).mp member)
    exact ⟨allocated, named⟩
  obtain ⟨stored, rest, flushing⟩ :=
    flushing_writeBackAll selects pool.cache.frames framed tidy.distinct
  exact ⟨⟨stored, rest, flushing.flushed tidy arranged⟩, flushing.faultless arranged,
    flushing.locks⟩

/-- Whatever was asked of a pool, and whatever fails to be written: changes are stored page after
page in the order of the cache, up to the first page that is refused, and nothing else happens,
`Flushed`; and a `txn` that commits has no locks after that. -/
theorem Ordered.flushed_in_order {config : PoolConfig} {catalog : Registry TableId StoreNo}
    {stores : Array Store} {start : Pool} (created : create config catalog stores = .ok start)
    (arranged : start.Arranged) (ordered : start.Ordered pool) (txn : TransactionId) :
  ((∃ stored rest, Flushed (· = txn) pool stored rest (pool.flushTransaction txn))
      ∧ (pool.flushTransaction txn).2.locks = pool.locks)
    ∧ ((∃ stored rest, Flushed (fun _ => true) pool stored rest pool.flushAll)
      ∧ pool.flushAll.2.locks = pool.locks)
    ∧ (∃ stored rest, Flushed (· = txn) pool stored rest (pool.complete txn true))
    ∧ (pool.complete txn true).2.locks.Unlocked txn
    ∧ ∀ other, other ≠ txn →
      (∀ page, (pool.complete txn true).2.locks.modeOf? page other = pool.locks.modeOf? page other)
        ∧ (pool.complete txn true).2.locks.held.get? other = pool.locks.held.get? other
        ∧ (pool.complete txn true).2.locks.graph.waitOf? other = pool.locks.graph.waitOf? other
  := by
  have sound := sound_create created
  obtain ⟨tidy, locks⟩ := ordered.reached.sound sound
  have arranged := ordered.arranged sound arranged
  obtain ⟨flushed, faultless, same⟩ := flushed_writeBackAll tidy arranged (· = txn)
  obtain ⟨all, -, same'⟩ := flushed_writeBackAll tidy arranged fun _ => true
  have ended : pool.complete txn true
      = ((pool.flushTransaction txn).1, (pool.flushTransaction txn).2.releaseAll txn) :=
    @complete_eq pool txn true faultless
  have unlocked : ((pool.flushTransaction txn).2.releaseAll txn).locks
      = pool.locks.releaseAll txn := congrArg (LockTable.releaseAll · txn) same
  refine ⟨⟨flushed, same⟩, ⟨all, same'⟩, ?_, ?_, ?_⟩
  · obtain ⟨stored, rest, flushed⟩ := flushed
    rw [ended]
    exact ⟨stored, rest, { flushed with }⟩
  · rw [ended, unlocked]
    apply locks.unlocked_releaseAll
  · rw [ended, unlocked]
    apply (LockTable.onlyBy_releaseAll pool.locks txn locks).2

/-- A pool with room for two pages, over a table of two. -/
def roomForTwo : Pool :=
  { config := ⟨2, 4, .ofMillis 1⟩, cache := ⟨2, []⟩, copies := #[], locks := .empty
    catalog := ⟨[(1, 0)]⟩
    stores := #[{ table := 1, medium := .counters #[[1, 2, 3, 4], [5, 6, 7, 8]] }] }

theorem arranged_roomForTwo :
  roomForTwo.Arranged
  := by
  constructor
  · intro table no found
    obtain ⟨rfl, rfl⟩ := System.eq_of_one_table rfl found
    decide
  · rintro (_ | no) pageSize shape
    · cases shape
    · cases shape

/-- `roomForTwo` after a transaction has changed the first page. -/
def firstChanged : Pool :=
  (roomForTwo.performTable (.use (.round ⟨0⟩ (.fetch ⟨1, 0⟩ .readWrite)))).performTable
    (.use (.update ⟨0⟩ 0 [9, 2, 3, 4]))

/-- `firstChanged` after the transaction has changed the second page as well, which can no longer
be written. -/
def secondRefused : Pool :=
  ((firstChanged.performTable (.use (.round ⟨0⟩ (.fetch ⟨1, 1⟩ .readWrite)))).performTable
    (.use (.update ⟨0⟩ 1 [9, 6, 7, 8]))).performTable (.use (.disrupt 0 [] [1]))

theorem ordered_secondRefused :
  roomForTwo.Ordered secondRefused
  := by
  have first : roomForTwo.Ordered firstChanged := by
    apply Ordered.act (Ordered.act Ordered.start (.use (.round ⟨0⟩ (.fetch ⟨1, 0⟩ .readWrite))) _ _)
    · exact (by decide : 0 < (roomForTwo.performTable
        (.use (.round ⟨0⟩ (.fetch ⟨1, 0⟩ .readWrite)))).copies.size)
    · trivial
    · apply List.forall_mem_nil
    · trivial
  apply Ordered.act (Ordered.act (Ordered.act first
    (.use (.round ⟨0⟩ (.fetch ⟨1, 1⟩ .readWrite))) _ _) (.use (.update ⟨0⟩ 1 [9, 6, 7, 8])) _ _) _ _
  · trivial
  · apply List.forall_mem_nil
  · trivial
  · exact (by decide : 1 < (firstChanged.performTable
      (.use (.round ⟨0⟩ (.fetch ⟨1, 1⟩ .readWrite)))).copies.size)
  · trivial
  · trivial

/-- In `secondRefused` page 0 is stored and page 1 is not, and transaction 0 loses its locks. -/
theorem flushed_secondRefused :
  create roomForTwo.config roomForTwo.catalog roomForTwo.stores = .ok roomForTwo
    ∧ roomForTwo.Arranged
    ∧ roomForTwo.Ordered secondRefused
    ∧ (secondRefused.complete ⟨0⟩ true).1 = .error (.error Store.injectedFailure)
    ∧ (secondRefused.complete ⟨0⟩ true).2.kept? ⟨1, 0⟩ = some [9, 2, 3, 4]
    ∧ (secondRefused.complete ⟨0⟩ true).2.cache.frame? ⟨1, 0⟩ = some ⟨⟨1, 0⟩, 0, false⟩
    ∧ (secondRefused.complete ⟨0⟩ true).2.kept? ⟨1, 1⟩ = some [5, 6, 7, 8]
    ∧ (secondRefused.complete ⟨0⟩ true).2.cache.frame? ⟨1, 1⟩ = some ⟨⟨1, 1⟩, 1, true⟩
    ∧ (secondRefused.complete ⟨0⟩ true).2.copy 1 = ⟨⟨1, 1⟩, [9, 6, 7, 8], some ⟨0⟩⟩
    ∧ (secondRefused.complete ⟨0⟩ true).2.locks.Unlocked ⟨0⟩
  := by
  have created : create roomForTwo.config roomForTwo.catalog roomForTwo.stores
      = .ok roomForTwo := rfl
  obtain ⟨-, -, ⟨stored, rest, flushed⟩, unlocked, -⟩ :=
    Ordered.flushed_in_order created arranged_roomForTwo ordered_secondRefused ⟨0⟩
  have frames : secondRefused.cache.frames.filter (secondRefused.chooses (· = ⟨0⟩))
      = [⟨⟨1, 0⟩, 0, true⟩, ⟨⟨1, 1⟩, 1, true⟩] := by decide
  obtain ⟨rfl, rfl⟩ : stored = [⟨⟨1, 0⟩, 0, true⟩] ∧ rest = [⟨⟨1, 1⟩, 1, true⟩] := by
    have chosen := flushed.chosen
    rw [frames] at chosen
    rcases stored with _ | ⟨first, _ | ⟨second, stored⟩⟩
    · obtain ⟨rfl, -⟩ | ⟨refused, later, cause, rfl, failed, -⟩ := flushed.result
      · cases chosen
      · cases chosen
        cases failed
    · cases chosen
      exact ⟨rfl, rfl⟩
    · simp only [List.cons_append, List.cons.injEq] at chosen
      obtain ⟨rfl, rfl, -⟩ := chosen
      obtain ⟨-, failed, -⟩ := flushed.writable
      cases failed
  obtain ⟨⟨⟩, -⟩ | ⟨refused, later, cause, first, failed, ended⟩ := flushed.result
  cases first
  cases failed
  obtain ⟨kept, clean, -⟩ := flushed.kept _ List.mem_cons_self
  obtain ⟨-, cached, copy⟩ := flushed.left _ List.mem_cons_self
  refine ⟨created, arranged_roomForTwo, ordered_secondRefused, ended, kept, clean, ?_, cached, copy,
    unlocked⟩
  exact (flushed.others ⟨1, 1⟩ (by decide)).trans (by decide)

end Pool

end StorageEngine

import StorageEngine.Proofs.Pool.Cases
import StorageEngine.Proofs.Pool.Frames

/-!
# The order of cached pages

A page that is asked for comes to the end of its cache, from its place there or from a store; where
the cache is full, the first clean page goes before it (`Cache.Entry.pages`,
`Cache.Entry.pages_of_full`).  Fetching and marking a page are such entries (`Pool.entry_fetch`,
`Pool.entry_install`).  What stores changes moves no page (`Pool.pages_writeBackAll`).
-/

namespace StorageEngine

namespace Cache

variable {cache room after : Cache} {page : PageId} {frame : Frame} {entered : Option PageId}

/-- The pages in `cache`, the least recently accessed first. -/
def pages (cache : Cache) : List PageId := cache.frames.map Frame.page

theorem mem_pages_iff :
  page ∈ cache.pages ↔ (cache.frame? page).isSome
  := by
  simp [pages, frame?, List.find?_isSome]

theorem not_mem_pages_iff :
  page ∉ cache.pages ↔ cache.frame? page = none
  := by
  rw [mem_pages_iff, Option.not_isSome_iff_eq_none]

theorem pages_remove (distinct : cache.Distinct) (page : PageId) :
  (cache.remove page).pages = cache.pages.erase page
  := by
  rw [pages, pages, List.Nodup.erase_eq_filter distinct, List.filter_map, remove]
  congr 1
  apply List.filter_congr
  intro frame _
  by_cases here : frame.page = page <;> simp [here]

theorem mem_pages_remove {other : PageId} :
  other ∈ (cache.remove page).pages ↔ other ≠ page ∧ other ∈ cache.pages
  := by
  rw [mem_pages_iff, frame?_remove, mem_pages_iff]
  split
  · simp [*]
  · simp [*]

/-- `cache.put frame` has the page of `frame` at its end, and the other pages in their order. -/
theorem pages_put (distinct : cache.Distinct) (frame : Frame) :
  (cache.put frame).pages = cache.pages.erase frame.page ++ [frame.page]
  := by
  rw [← pages_remove distinct]
  simp [pages, put]

/-- `frame` is that of the least recently accessed page in `cache` that is clean. -/
structure Victim (cache : Cache) (frame : Frame) : Prop where
  clean : frame.dirty = false
  first : ∃ before later, cache.frames = before ++ frame :: later
    ∧ ∀ other ∈ before, other.dirty = true

/-- What becomes of `cache` where `page` is asked for, and the page that enters it: its frame is
put to the end; or there is no room; or room is made, and the page cannot be had or is put
there. -/
inductive Entry (cache : Cache) (page : PageId) : Option PageId → Cache → Prop where
  | again (found : (cache.frame? page).isSome) (frame : Frame) (same : frame.page = page) :
      Entry cache page (some page) (cache.put frame)
  | crowded (absent : cache.frame? page = none) (full : cache.makeRoom? = none) :
      Entry cache page none cache
  | missing {room : Cache} (absent : cache.frame? page = none)
      (made : cache.makeRoom? = some room) : Entry cache page none room
  | new {room : Cache} (absent : cache.frame? page = none) (made : cache.makeRoom? = some room)
      (frame : Frame) (same : frame.page = page) : Entry cache page (some page) (room.put frame)

/-- A cache that is not full has room. -/
theorem makeRoom?_of_roomy (roomy : cache.isFull = false) :
  cache.makeRoom? = some cache
  := by
  simp [makeRoom?, roomy]

/-- `room` that is made in a full `cache` is made by removing its `Victim`. -/
theorem victim_of_makeRoom? (full : cache.isFull = true) (made : cache.makeRoom? = some room) :
  ∃ frame, cache.Victim frame ∧ room = cache.remove frame.page
  := by
  rw [makeRoom?, if_pos full] at made
  obtain ⟨page, chosen, rfl⟩ := Option.map_eq_some_iff.mp made
  obtain ⟨frame, first, rfl⟩ := Option.map_eq_some_iff.mp chosen
  obtain ⟨clean, before, later, split, dirty⟩ := List.find?_eq_some_iff_append.mp first
  refine ⟨frame, ⟨by simpa using clean, before, later, split, ?_⟩, rfl⟩
  intro other member
  simpa using dirty other member

/-- A `page` that is asked for comes to the end if it enters, and all others stay, provided that it
was cached or there was room for it. -/
theorem Entry.pages (distinct : cache.Distinct) (entry : cache.Entry page entered after)
    (roomy : cache.isFull = true → page ∈ cache.pages) :
  after.pages = cache.pages.erase page ++ entered.toList
  := by
  have same : ∀ {room}, cache.frame? page = none → cache.makeRoom? = some room → room = cache := by
    intro room absent made
    cases full : cache.isFull with
    | true => cases not_mem_pages_iff.mpr absent (roomy full)
    | false => exact (Option.some.inj ((makeRoom?_of_roomy full).symm.trans made)).symm
  have apart : cache.frame? page = none → cache.pages.erase page = cache.pages :=
    fun absent => List.erase_of_not_mem (not_mem_pages_iff.mpr absent)
  cases entry with
  | again found frame here =>
    subst here
    apply pages_put distinct
  | crowded absent full => rw [apart absent, Option.toList_none, List.append_nil]
  | missing absent made =>
    rw [same absent made, apart absent, Option.toList_none, List.append_nil]
  | new absent made frame here =>
    subst here
    rw [same absent made]
    apply pages_put distinct

/-- A `page` that is cached is `entered`. -/
theorem Entry.of_mem (entry : cache.Entry page entered after) (member : page ∈ cache.pages) :
  entered = some page
  := by
  cases entry with
  | again | new => rfl
  | crowded absent | missing absent => cases not_mem_pages_iff.mpr absent member

/-- A `page` that is not cached enters a full `cache` in place of the `Victim`, which leaves also
if `page` cannot be had; only if all frames are dirty, `cache` stays. -/
theorem Entry.pages_of_full (distinct : cache.Distinct) (entry : cache.Entry page entered after)
    (full : cache.isFull = true) (absent : page ∉ cache.pages) :
  ((∀ frame ∈ cache.frames, frame.dirty = true) ∧ entered = none ∧ after = cache)
    ∨ ∃ frame, cache.Victim frame
      ∧ after.pages = cache.pages.erase frame.page ++ entered.toList
  := by
  cases entry with
  | again found => cases absent (mem_pages_iff.mpr found)
  | crowded _ none =>
    left
    exact ⟨(makeRoom?_eq_none_iff.mp none).2, rfl, rfl⟩
  | missing _ made =>
    right
    obtain ⟨frame, first, rfl⟩ := victim_of_makeRoom? full made
    use frame, first
    rw [pages_remove distinct, Option.toList_none, List.append_nil]
  | new _ made frame' here =>
    right
    subst here
    obtain ⟨frame, first, rfl⟩ := victim_of_makeRoom? full made
    use frame, first
    have absent' : frame'.page ∉ cache.pages.erase frame.page :=
      fun member => absent (List.mem_of_mem_erase member)
    rw [pages_put (distinct_remove distinct frame.page), pages_remove distinct,
      List.erase_of_not_mem absent']
    rfl

end Cache

/-- The copy that is handed out for a page. -/
def Pool.Fetched.copy? : Pool.Fetched → Option CopyNo
  | .page copy => some copy
  | _ => none

namespace Pool

variable {pool after : Pool} {txn : TransactionId} {page : PageId} {no : CopyNo}

/-- The cached pages of `pool`, the least recently accessed first. -/
def pages (pool : Pool) : List PageId := pool.cache.pages

/-! ### Pages that are asked for -/

/-- A page that is loaded enters the cache, if it can be had. -/
theorem entry_load (pool : Pool) (page : PageId) :
  pool.cache.Entry page ((pool.load page).1.toOption.map fun _ => page) (pool.load page).2.cache
  := by
  obtain ⟨frame, found, eq⟩ | ⟨absent, full, eq⟩ | ⟨room, stores, absent, made, -, -,
    ⟨failure, -, eq⟩ | ⟨bytes, -, -, eq⟩⟩ := pool.load_cases page
  · rw [eq]
    exact .again (by rw [found]; rfl) frame (Cache.page_of_frame? found)
  · rw [eq]
    exact .crowded absent full
  · rw [eq]
    exact .missing absent made
  · rw [eq]
    exact .new absent made _ rfl

/-- To fetch `page` with its lock granted is an `Entry` of `page`, which enters if a copy is
answered. -/
theorem entry_fetch {access : Access}
    (granted : (pool.locks.request page txn access.lockMode).1 = .granted) :
  pool.cache.Entry page ((pool.fetch txn page access).1.copy?.map fun _ => page)
    (pool.fetch txn page access).2.cache
  := by
  obtain ⟨locks, asked, -⟩ | ⟨locks, asked, -⟩
    | ⟨locks, -, ⟨copy, after, loaded, eq⟩ | ⟨failure, after, loaded, eq⟩⟩ :=
    pool.fetch_cases txn page access
  · rw [asked] at granted
    cases granted
  · rw [asked] at granted
    cases granted
  all_goals
    have entry := entry_load { pool with locks } page
    rw [loaded] at entry
    rw [eq]
    exact entry

/-- To fetch `page` with its lock denied answers no copy and leaves the cache. -/
theorem fetch_of_denied {access : Access}
    (denied : (pool.locks.request page txn access.lockMode).1 ≠ .granted) :
  (pool.fetch txn page access).1.copy? = none
    ∧ (pool.fetch txn page access).2.cache = pool.cache
  := by
  obtain ⟨locks, -, eq⟩ | ⟨locks, -, eq⟩ | ⟨locks, asked, -⟩ := pool.fetch_cases txn page access
  · rw [eq]
    exact ⟨rfl, rfl⟩
  · rw [eq]
    exact ⟨rfl, rfl⟩
  · rw [asked] at denied
    cases denied rfl

/-- To install the copy `no` is an `Entry` of its page, which enters if that succeeds. -/
theorem entry_install (pool : Pool) (txn : TransactionId) (no : CopyNo) :
  pool.cache.Entry (pool.copy no).id
    ((pool.install txn no).1.toOption.map fun _ => (pool.copy no).id)
    (pool.install txn no).2.cache
  := by
  unfold install
  cases found : pool.cache.frame? (pool.copy no).id with
  | some frame =>
    simp only [isResident, Cache.contains, setCopy, Page.mark, found]
    exact .again (by rw [found]; rfl) _ rfl
  | none =>
    cases made : pool.cache.makeRoom? with
    | none =>
      simp only [isResident, Cache.contains, setCopy, Page.mark, found, made]
      exact .crowded found made
    | some room =>
      simp only [isResident, Cache.contains, setCopy, Page.mark, found, made]
      exact .new found made _ rfl

/-! ### Storing changes -/

theorem pages_writeBack (pool : Pool) (selects : TransactionId → Bool) (no : CopyNo) :
  (pool.writeBack selects no).2.pages = pool.pages
  := by
  obtain ⟨-, eq⟩ | ⟨failure, stores, -, eq⟩ | ⟨stores, -, eq⟩ := pool.writeBack_cases selects rfl
  · rw [eq]
  · rw [eq]
    rfl
  · rw [eq]
    apply Cache.pages_setDirty

theorem pages_writeBackAll (selects : TransactionId → Bool) (copies : List CopyNo) (pool : Pool) :
  (pool.writeBackAll selects copies).2.pages = pool.pages
  := by
  let keeps (pool after : Pool) : Prop := after.pages = pool.pages
  have refl (pool : Pool) : keeps pool pool := rfl
  have trans {pool middle after : Pool} (first : keeps pool middle) (last : keeps middle after) :
      keeps pool after := Eq.trans last first
  exact writeBackAll_induction refl trans (fun pool => pool.pages_writeBack selects) pool copies

theorem pages_flushPage (pool : Pool) (page : PageId) :
  (pool.flushPage page).2.pages = pool.pages
  := by
  unfold flushPage
  split
  · rfl
  · apply pages_writeBack

end Pool

end StorageEngine

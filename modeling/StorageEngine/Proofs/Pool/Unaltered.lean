import StorageEngine.Proofs.Pool.Current
import StorageEngine.Proofs.Pool.Operations

/-!
# What operations leave of a page

What a pool is asked to do on other pages leaves the copies of a page alone, and its frame where it
is changed (`Pool.Unaltered`).  Where changes are stored, all copies keep their bytes, and a changed
page either stays as it is or is clean and stored as it is (`Pool.Settles`).
-/

namespace StorageEngine.Pool

variable {pool middle after : Pool} {page other : PageId} {frame : Frame} {no : CopyNo}
  {txn owner : TransactionId} {bytes : Bytes}

/-! ### Unaltered pages -/

/-- Whether what was done to `pool` up to `after` leaves the copies of `page`, and `page` in the
cache as long as it is changed there. -/
structure Unaltered (page : PageId) (pool after : Pool) : Prop where
  copies : pool.copies.size ≤ after.copies.size
  named : ∀ no < pool.copies.size, (after.copy no).id = (pool.copy no).id
  copy : ∀ no < pool.copies.size, (pool.copy no).id = page → after.copy no = pool.copy no
  dirty : ∀ frame, pool.cache.frame? page = some frame → frame.dirty = true →
    after.cache.frame? page = some frame
  clean : pool.changer? page = none → after.changer? page = none

theorem Unaltered.refl (page : PageId) (pool : Pool) :
  Unaltered page pool pool
  := ⟨Nat.le_refl _, fun _ _ => rfl, fun _ _ _ => rfl, fun _ found _ => found, id⟩

theorem Unaltered.trans (first : Unaltered page pool middle)
    (second : Unaltered page middle after) :
  Unaltered page pool after
  where
  copies := Nat.le_trans first.copies second.copies
  named no old :=
    (second.named no (Nat.lt_of_lt_of_le old first.copies)).trans (first.named no old)
  copy no old named := by
    have same := first.copy no old named
    rw [← same]
    apply second.copy no (Nat.lt_of_lt_of_le old first.copies)
    rw [same, named]
  dirty frame found dirty := second.dirty frame (first.dirty frame found dirty) dirty
  clean := second.clean ∘ first.clean

/-- The changer of an `Unaltered` page stays. -/
theorem Unaltered.changer?_eq (unaltered : Unaltered page pool after) (tidy : pool.Tidy) :
  after.changer? page = pool.changer? page
  := by
  cases changed : pool.changer? page with
  | none => apply unaltered.clean changed
  | some owner =>
    obtain ⟨frame, found, dirtied⟩ := changer?_eq_some_iff.mp changed
    obtain ⟨allocated, named, dirty⟩ := tidy.framed page frame found
    rw [Page.isDirty, dirtied] at dirty
    rw [changer?_of_frame? (unaltered.dirty frame found dirty),
      unaltered.copy _ allocated named, dirtied]

/-- Other `locks` and `stores` leave `page` `Unaltered`. -/
theorem unaltered_around (pool : Pool) (locks : LockTable) (stores : Array Store) :
  Unaltered page pool { pool with locks, stores }
  := ⟨Nat.le_refl _, fun _ _ => rfl, fun _ _ _ => rfl, fun _ found _ => found, id⟩

/-- A `cache` with fewer frames of `page`, and those that are dirty, leaves `page` `Unaltered`. -/
theorem unaltered_fewer {cache : Cache}
    (fewer : ∀ frame, cache.frame? page = some frame → pool.cache.frame? page = some frame)
    (kept : ∀ frame, pool.cache.frame? page = some frame → frame.dirty = true →
      cache.frame? page = some frame) :
  Unaltered page pool { pool with cache }
  where
  copies := Nat.le_refl _
  named _ _ := rfl
  copy _ _ _ := rfl
  dirty := kept
  clean clean := by
    apply Option.eq_none_iff_forall_ne_some.mpr
    intro owner changed
    obtain ⟨frame, found, dirtied⟩ := changer?_eq_some_iff.mp changed
    rw [changer?_of_frame? (fewer frame found)] at clean
    cases clean.symm.trans dirtied

theorem unaltered_remove (pool : Pool) (distinct : page ≠ other) :
  Unaltered page pool { pool with cache := pool.cache.remove other }
  := by
  apply unaltered_fewer
  all_goals
    intro frame
    rw [Cache.frame?_remove, if_neg distinct]
  · exact id
  · exact fun found _ => found

theorem unaltered_setDirty (pool : Pool) (distinct : page ≠ other) (dirty : Bool) :
  Unaltered page pool { pool with cache := pool.cache.setDirty other dirty }
  := by
  apply unaltered_fewer
  all_goals
    intro frame
    rw [Cache.frame?_setDirty, if_neg distinct]
  · exact id
  · exact fun found _ => found

/-! ### Fetching -/

theorem unaltered_load (tidy : pool.Tidy) (page other : PageId) :
  Unaltered page pool (pool.load other).2
  := by
  obtain ⟨frame, found, eq⟩ | ⟨-, -, eq⟩
    | ⟨room, stores, absent, made, -, -, ⟨failure, -, eq⟩ | ⟨bytes, -, -, eq⟩⟩ :=
    pool.load_cases other
  · rw [eq]
    have put : ∀ page, (pool.cache.put frame).frame? page = pool.cache.frame? page := by
      intro page
      obtain rfl := Cache.page_of_frame? found
      rw [Cache.frame?_put]
      split
      · rename_i here
        rw [here, found]
      · rfl
    apply unaltered_fewer
    · intro frame' found'
      rw [← put, found']
    · intro frame' found' _
      rw [put, found']
  · rw [eq]
    apply Unaltered.refl
  all_goals
    obtain ⟨-, fewer, kept⟩ := Cache.makeRoom?_spec tidy.distinct made
    have roomy : Unaltered page pool { pool with cache := room } :=
      unaltered_fewer (fewer page) (kept page)
    rw [eq]
  · exact roomy.trans (unaltered_around _ _ stores)
  · apply roomy.trans
    have copy : ∀ no < pool.copies.size,
        (Pool.entered { pool with cache := room, stores } other bytes).copy no = pool.copy no := by
      intro no old
      rw [copy_entered, if_neg (Nat.ne_of_lt old)]
      rfl
    constructor
    · simp [entered]
    · intro no old
      rw [copy no old]
      rfl
    · intro no old _
      apply copy no old
    · intro frame found _
      rw [entered, Cache.frame?_put, if_neg, found]
      rintro rfl
      cases absent.symm.trans (fewer _ frame found)
    · intro clean
      by_cases here : page = other
      · subst here
        have found : (Pool.entered { pool with cache := room, stores } page bytes).cache.frame? page
            = some ⟨page, pool.copies.size, false⟩ := by
          rw [entered, Cache.frame?_put, if_pos rfl]
        rw [changer?_of_frame? found, copy_entered, if_pos rfl]
        rfl
      · apply Option.eq_none_iff_forall_ne_some.mpr
        intro owner changed
        obtain ⟨frame, found, dirtied⟩ := changer?_eq_some_iff.mp changed
        rw [entered, Cache.frame?_put, if_neg here] at found
        rw [copy frame.copy (tidy.framed page frame (fewer page frame found)).1] at dirtied
        have found' : Pool.changer? { pool with cache := room } page
            = (pool.copy frame.copy).dirtiedBy := changer?_of_frame? found
        rw [found', dirtied] at clean
        cases clean

/-- To fetch any `other` page leaves `page` `Unaltered`. -/
theorem unaltered_fetch (tidy : pool.Tidy) (page : PageId) (txn : TransactionId) (other : PageId)
    (access : Access) :
  Unaltered page pool (pool.fetch txn other access).2
  := by
  have relock : ∀ locks, Unaltered page pool { pool with locks } :=
    fun locks => unaltered_around pool locks _
  have tidy' : ∀ locks, Tidy { pool with locks } :=
    fun _ => ⟨tidy.capacity, tidy.bounded, tidy.distinct, tidy.framed⟩
  obtain ⟨locks, -, eq⟩ | ⟨locks, -, eq⟩
    | ⟨locks, -, ⟨copy, after, loaded, eq⟩ | ⟨failure, after, loaded, eq⟩⟩ :=
    pool.fetch_cases txn other access
  · rw [eq]
    exact relock locks
  · rw [eq]
    exact relock locks
  all_goals
    have load := unaltered_load (tidy' locks) page other
    rw [loaded] at load
    rw [eq]
    exact (relock locks).trans load

/-! ### Changing other pages -/

/-- To replace a copy of another page leaves `page` `Unaltered`. -/
theorem unaltered_setCopy (tidy : pool.Tidy) {copy : Page} (id : copy.id = (pool.copy no).id)
    (apart : (pool.copy no).id ≠ page) :
  Unaltered page pool (pool.setCopy no copy)
  := by
  have elsewhere : ∀ other, (pool.copy other).id = page →
      (pool.setCopy no copy).copy other = pool.copy other := by
    intro other named
    rw [copy_setCopy, if_neg]
    rintro ⟨rfl, -⟩
    apply apart named
  constructor
  · simp [setCopy]
  · intro other _
    rw [copy_setCopy]
    split
    · rename_i here
      rw [id, here.1]
    · rfl
  · intro other _ named
    apply elsewhere other named
  · intro frame found _
    apply found
  · intro clean
    apply Option.eq_none_iff_forall_ne_some.mpr
    intro owner changed
    obtain ⟨frame, found, dirtied⟩ := changer?_eq_some_iff.mp changed
    have found : pool.cache.frame? page = some frame := found
    rw [elsewhere _ (tidy.framed page frame found).2.1] at dirtied
    rw [changer?_of_frame? found, dirtied] at clean
    cases clean

/-- To put a `frame` of another page into the cache leaves `page` `Unaltered`. -/
theorem unaltered_put (frame : Frame) (apart : page ≠ frame.page) :
  Unaltered page pool { pool with cache := pool.cache.put frame }
  := by
  apply unaltered_fewer
  all_goals
    intro frame'
    rw [Cache.frame?_put, if_neg apart]
  · exact id
  · exact fun found _ => found

/-- `pool.install txn no` marks the copy `no`, if there is one, and leaves every `other` copy. -/
theorem copy_install (pool : Pool) (txn : TransactionId) (no other : CopyNo) :
  (pool.install txn no).2.copies.size = pool.copies.size
    ∧ (pool.install txn no).2.copy other
      = if other = no ∧ no < pool.copies.size then (pool.copy no).mark (some txn)
        else pool.copy other
  := by
  have size : (pool.setCopy no ((pool.copy no).mark (some txn))).copies.size = pool.copies.size :=
    Array.size_setIfInBounds ..
  rw [← copy_setCopy]
  obtain ⟨-, eq⟩ | ⟨-, ⟨room, -, eq⟩ | eq⟩ := pool.install_cases txn no
  all_goals
    rw [eq]
    exact ⟨size, rfl⟩

theorem unaltered_install (tidy : pool.Tidy) (txn : TransactionId)
    (apart : (pool.copy no).id ≠ page) :
  Unaltered page pool (pool.install txn no).2
  := by
  have mark : ∀ pool : Pool, pool.Tidy → (pool.copy no).id ≠ page →
      Unaltered page pool (pool.setCopy no ((pool.copy no).mark (some txn))) :=
    fun pool tidy apart => unaltered_setCopy tidy rfl apart
  obtain ⟨-, eq⟩ | ⟨-, ⟨room, made, eq⟩ | eq⟩ := pool.install_cases txn no
  · rw [eq]
    exact (mark pool tidy apart).trans (unaltered_put _ apart.symm)
  · rw [eq]
    obtain ⟨distinct, fewer, kept⟩ := Cache.makeRoom?_spec tidy.distinct made
    have roomy : Unaltered page pool { pool with cache := room } :=
      unaltered_fewer (fewer page) (kept page)
    have marked := mark { pool with cache := room } ?_ apart
    · exact roomy.trans (marked.trans (unaltered_put _ apart.symm))
    · obtain ⟨moves, -⟩ := moves_makeRoom ⟨fun _ _ => False, fun _ => False, False, False⟩ tidy made
      apply tidy.moves moves
  · rw [eq]
    exact mark pool tidy apart

/-! ### Undoing changes to other pages -/

theorem unaltered_restore (tidy : pool.Tidy) (found : pool.cache.frame? other = some frame)
    (distinct : page ≠ other) :
  Unaltered page pool (pool.restore other frame.copy).2
  := by
  obtain ⟨-, named, -⟩ := tidy.framed other frame found
  have apart : (pool.copy frame.copy).id ≠ page := by
    rw [named]
    apply distinct.symm
  obtain ⟨stores, -, -, ⟨fault, -, eq⟩ | ⟨cause, eq⟩ | ⟨bytes, -, eq⟩⟩ :=
    pool.restore_cases other frame.copy
  · rw [eq]
    apply unaltered_around
  · rw [eq]
    have marked : Unaltered page pool
        (pool.setCopy frame.copy ((pool.copy frame.copy).mark none)) :=
      unaltered_setCopy tidy rfl apart
    exact (marked.trans (unaltered_remove _ distinct)).trans (unaltered_around _ _ stores)
  · rw [eq]
    have read : Unaltered page pool (pool.setCopy frame.copy (.clean other bytes)) :=
      unaltered_setCopy tidy named.symm apart
    exact (read.trans (unaltered_setDirty _ distinct false)).trans (unaltered_around _ _ stores)

/-- Where `txn` has neither locked nor changed `page`, `pool.restoreAll txn held frames` leaves it
`Unaltered`. -/
theorem unaltered_restoreAll {held : List PageId} (unheld : page ∉ held) :
  ∀ (frames : List Frame) (outcome : Except PoolError Unit) {pool : Pool}, pool.Tidy →
    (frames.map Frame.page).Nodup →
    (∀ frame ∈ frames, pool.cache.frame? frame.page = some frame) →
    pool.changer? page ≠ some txn →
      Unaltered page pool (pool.restoreAll txn held frames outcome).2
  | [], outcome, pool, _, _, _, _ => .refl page pool
  | frame :: frames, outcome, pool, tidy, nodup, found, innocent => by
    rw [List.map_cons, List.nodup_cons] at nodup
    have here := found frame (List.mem_cons_self ..)
    have later := fun other member => found other (List.mem_cons_of_mem _ member)
    simp only [restoreAll]
    split
    · rename_i chosen
      have distinct : page ≠ frame.page := by
        rintro rfl
        simp only [List.contains_eq_mem, Bool.or_eq_true, decide_eq_true_eq] at chosen
        rcases chosen with listed | dirtied
        · apply unheld listed
        · apply innocent
          rw [changer?_of_frame? here, dirtied]
      have first := unaltered_restore tidy here distinct
      obtain ⟨moves, kept, -⟩ :=
        moves_restore ⟨fun _ _ => False, fun _ => False, False, False⟩ tidy here
      rcases restored : pool.restore frame.page frame.copy with ⟨fault | result, next⟩
      · rw [restored] at first
        exact first
      · rw [restored] at first moves kept
        apply first.trans
        apply unaltered_restoreAll unheld frames _ (tidy.moves moves) nodup.2
        · intro other member
          rw [kept other.page, later other member]
          intro same
          apply nodup.1
          rw [← same]
          apply List.mem_map_of_mem member
        · rw [first.changer?_eq tidy]
          apply innocent
    · apply unaltered_restoreAll unheld frames outcome tidy nodup.2 later innocent

theorem unaltered_rollback (tidy : pool.Tidy) (unheld : page ∉ pool.locks.heldPages txn)
    (innocent : pool.changer? page ≠ some txn) :
  Unaltered page pool (pool.rollback txn).2
  := by
  apply unaltered_restoreAll unheld _ _ tidy tidy.distinct _ innocent
  intro frame member
  apply (Cache.mem_frames_iff tidy.distinct).mp member

/-! ### Storing changes -/

/-- Whether storing changes leaves all copies their bytes, and `page` as it is or, if it was
changed, clean and stored as it is. -/
structure Settles (page : PageId) (pool after : Pool) : Prop where
  copies : after.copies.size = pool.copies.size
  copy : ∀ no, (after.copy no).id = (pool.copy no).id ∧ (after.copy no).bytes = (pool.copy no).bytes
  fate : (after.cache.frame? page = pool.cache.frame? page
      ∧ (∀ frame, pool.cache.frame? page = some frame →
        after.copy frame.copy = pool.copy frame.copy)
      ∧ ∀ bytes, pool.stored page = some bytes → after.stored page = some bytes)
    ∨ (pool.changer? page).isSome ∧ after.changer? page = none
      ∧ ∀ frame, pool.cache.frame? page = some frame →
        after.stored page = some (pool.copy frame.copy).bytes

theorem Settles.refl (page : PageId) (pool : Pool) :
  Settles page pool pool
  := ⟨rfl, fun _ => ⟨rfl, rfl⟩, .inl ⟨rfl, fun _ _ => rfl, fun _ => id⟩⟩

theorem Settles.trans (first : Settles page pool middle) (second : Settles page middle after) :
  Settles page pool after
  := by
  refine ⟨second.copies.trans first.copies, ?_, ?_⟩
  · intro no
    exact ⟨(second.copy no).1.trans (first.copy no).1, (second.copy no).2.trans (first.copy no).2⟩
  · rcases first.fate with ⟨found, copy, stored⟩ | ⟨changed, clean, stored⟩
    · have same : middle.changer? page = pool.changer? page := by
        cases cached : pool.cache.frame? page with
        | none => rw [changer?, changer?, found, cached]; rfl
        | some frame =>
          rw [changer?_of_frame? cached, changer?_of_frame? (found.trans cached), copy frame cached]
      rcases second.fate with ⟨found', copy', stored'⟩ | ⟨changed', clean', stored'⟩
      · left
        refine ⟨found'.trans found, ?_, fun bytes image => stored' bytes (stored bytes image)⟩
        intro frame cached
        rw [copy' frame (found.trans cached), copy frame cached]
      · right
        refine ⟨same ▸ changed', clean', ?_⟩
        intro frame cached
        rw [stored' frame (found.trans cached), copy frame cached]
    · rcases second.fate with ⟨found', copy', stored'⟩ | ⟨changed', -, -⟩
      · right
        refine ⟨changed, ?_, fun frame cached => stored' _ (stored frame cached)⟩
        cases cached : middle.cache.frame? page with
        | none => rw [changer?, found', cached]; rfl
        | some frame =>
          rw [changer?_of_frame? cached] at clean
          rw [changer?_of_frame? (found'.trans cached), copy' frame cached, clean]
      · simp [clean] at changed'

theorem settles_writeBack (tidy : pool.Tidy) (imaged : pool.Imaged)
    (numbered : ∀ no, (pool.store no).Numbered) (page : PageId) (selects : TransactionId → Bool)
    (found : pool.cache.frame? other = some frame) :
  Settles page pool (pool.writeBack selects frame.copy).2
  := by
  obtain ⟨allocated, named, -⟩ := tidy.framed other frame found
  by_cases spared : (pool.copy frame.copy).dirtiedBy.any selects = false
  · have eq : pool.writeBack selects frame.copy = (.ok (), pool) := by
      simp [writeBack, spared]
    rw [eq]
    apply Settles.refl
  rcases pool.writeBack_cases selects named with
    ⟨spared', -⟩ | ⟨failure, stores, same, eq⟩ | ⟨stores, written, eq⟩
  · cases spared spared'
  · rw [eq]
    refine ⟨rfl, fun _ => ⟨rfl, rfl⟩, .inl ⟨rfl, fun _ _ => rfl, ?_⟩⟩
    intro bytes image
    rw [same.stored, image]
  · rw [eq]
    obtain ⟨length, old, image, size⟩ := imaged.imaged frame.copy allocated
    rw [named] at image
    obtain ⟨stores', eq', -, -, stored⟩ :=
      stored_writeStored imaged.catalogued numbered image (length.trans size.symm) written
    obtain rfl : stores = stores' := congrArg Pool.stores eq'
    have stored : ∀ page, (pool.cleaned other frame.copy (pool.copy frame.copy).bytes stores).stored
        page = if page = other then some (pool.copy frame.copy).bytes else pool.stored page :=
      stored
    refine ⟨by simp [cleaned, setCopy], ?_, ?_⟩
    · intro no
      rw [copy_cleaned]
      split
      · rename_i here
        rw [here.1]
        exact ⟨named.symm, rfl⟩
      · exact ⟨rfl, rfl⟩
    · by_cases here : page = other
      · subst here
        right
        refine ⟨?_, ?_, ?_⟩
        · rw [changer?_of_frame? found]
          cases dirtied : (pool.copy frame.copy).dirtiedBy with
          | none => simp [dirtied] at spared
          | some owner => rfl
        · have clean : (pool.cleaned page frame.copy (pool.copy frame.copy).bytes
              stores).cache.frame? page = some { frame with dirty := false } := by
            simp [cleaned, Cache.frame?_setDirty, found]
          rw [changer?_of_frame? clean, copy_cleaned, if_pos ⟨rfl, allocated⟩]
          rfl
        · intro frame' found'
          cases found.symm.trans found'
          rw [stored, if_pos rfl]
      · left
        refine ⟨?_, ?_, ?_⟩
        · simp [cleaned, Cache.frame?_setDirty, here]
        · intro frame' found'
          rw [copy_cleaned, if_neg]
          rintro ⟨same, -⟩
          apply here
          rw [← (tidy.framed page frame' found').2.1, same, named]
        · intro bytes image
          rw [stored, if_neg here, image]

/-- `pool.writeBackAll selects copies` of cached `copies` satisfies `Settles page`, as long as
every store is `Numbered`: no bytes change, and `page` is left alone or, if it was changed, stored
as it is. -/
theorem settles_writeBackAll (page : PageId) (selects : TransactionId → Bool) :
  ∀ (copies : List CopyNo) {pool : Pool}, pool.Tidy → pool.Imaged →
    (∀ no ∈ copies, ∃ page, (pool.cache.frame? page).map Frame.copy = some no) →
    (∀ no, ((pool.writeBackAll selects copies).2.store no).Numbered) →
      Settles page pool (pool.writeBackAll selects copies).2
  | [], pool, _, _, _, _ => .refl page pool
  | no :: copies, pool, tidy, imaged, cached, numbered => by
    have before := (pool.grows_writeBackAll selects (no :: copies)).numbered numbered
    obtain ⟨place, here⟩ := cached no (List.mem_cons_self ..)
    obtain ⟨frame, found, rfl⟩ := Option.map_eq_some_iff.mp here
    have first := settles_writeBack tidy imaged before page selects found
    let may : Freedom := ⟨fun _ _ => False, fun _ => False, True, False⟩
    have writes : may.writes := trivial
    obtain ⟨moves, kept, -⟩ := moves_writeBack tidy writes selects found
    rw [writeBackAll] at numbered ⊢
    rcases written : pool.writeBack selects frame.copy with ⟨failure | _, next⟩
    · rw [written] at first
      exact first
    · rw [written] at first moves kept numbered
      apply first.trans
      have middle := (next.grows_writeBackAll selects copies).numbered numbered
      apply settles_writeBackAll page selects copies (tidy.moves moves) (imaged.moves moves middle)
        _ numbered
      intro no later
      obtain ⟨place, here⟩ := cached no (List.mem_cons_of_mem _ later)
      use place
      rw [kept, here]

/-- All changes that are selected are stored. -/
theorem settles_flush (tidy : pool.Tidy) (imaged : pool.Imaged) (page : PageId)
    (selects : TransactionId → Bool)
    (numbered : ∀ no,
      ((pool.writeBackAll selects (pool.cache.frames.map Frame.copy)).2.store no).Numbered) :
  Settles page pool (pool.writeBackAll selects (pool.cache.frames.map Frame.copy)).2
  := settles_writeBackAll page selects _ tidy imaged tidy.cached_of_mem numbered

theorem settles_flushPage (tidy : pool.Tidy) (imaged : pool.Imaged)
    (numbered : ∀ no, (pool.store no).Numbered) (page other : PageId) :
  Settles page pool (pool.flushPage other).2
  := by
  unfold flushPage
  cases found : pool.cache.frame? other with
  | none => apply Settles.refl
  | some frame => exact settles_writeBack tidy imaged numbered page _ found

end StorageEngine.Pool

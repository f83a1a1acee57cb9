import StorageEngine.Proofs.Pool.Moves

/-!
# Operations as moves

What a tidy pool is asked to do, it does in moves: it makes room, loads and fetches pages, marks
copies, stores pages and reads them again, and ends transactions.
-/

namespace StorageEngine.Pool

variable {may : Freedom} {pool after : Pool} {page other : PageId} {frame : Frame} {no : CopyNo}
  {txn : TransactionId} {bytes : Bytes} {room : Cache} {selects : TransactionId → Bool}

/-! ### The changer of a page -/

/-- The transaction that has changed the cached copy of `page` since it was last stored. -/
def changer? (pool : Pool) (page : PageId) : Option TransactionId :=
  (pool.cache.frame? page).bind fun frame => (pool.copy frame.copy).dirtiedBy

theorem changer?_eq_some_iff :
  pool.changer? page = some txn
    ↔ ∃ frame, pool.cache.frame? page = some frame
      ∧ (pool.copy frame.copy).dirtiedBy = some txn
  := Option.bind_eq_some_iff

theorem changer?_of_frame? (found : pool.cache.frame? page = some frame) :
  pool.changer? page = (pool.copy frame.copy).dirtiedBy
  := by
  rw [changer?, found, Option.bind_some]

/-- Other `bytes` in the copy `no` leave `changer? page`. -/
theorem changer?_edit (pool : Pool) (no : CopyNo) (bytes : Bytes) :
  (pool.setCopy no { pool.copy no with bytes }).changer? page = pool.changer? page
  := by
  have dirtied : ∀ other, ((pool.setCopy no { pool.copy no with bytes }).copy other).dirtiedBy
      = (pool.copy other).dirtiedBy := by
    intro other
    rw [copy_setCopy]
    split
    · rename_i here
      rw [here.1]
    · rfl
  simp only [changer?, dirtied]
  rfl

/-- The changer of `page` after a `move` was its changer before, or may change pages and has `page`
locked exclusively. -/
theorem Tidy.changer?_move (tidy : pool.Tidy) (move : Move may pool after)
    (changed : after.changer? page = some txn) :
  pool.changer? page = some txn
    ∨ may.changes txn ∧ after.locks.modeOf? page txn = some .exclusive
  := by
  cases move with
  | relock | note | append =>
    left
    apply changed
  | spoil =>
    left
    rw [← changed, changer?_edit]
  | page touched elsewhere fate =>
    by_cases here : page = touched
    · subst here
      cases fate with
      | absent _ absent => simp [changer?, absent] at changed
      | kept _ copies kept =>
        left
        simpa only [changer?, kept, copy, copies] using changed
      | read _ _ _ copy read =>
        rw [changer?_of_frame? read, copy] at changed
        cases changed
      | written _ _ _ _ _ copy written =>
        rw [changer?_of_frame? written, copy] at changed
        cases changed
      | changed _ changes _ _ _ dirtied found exclusive =>
        right
        rw [changer?_of_frame? found, dirtied] at changed
        cases changed
        exact ⟨changes, elsewhere.locks ▸ exclusive⟩
    · left
      obtain ⟨frame, found, dirtied⟩ := changer?_eq_some_iff.mp changed
      rw [elsewhere.frame page here] at found
      apply changer?_eq_some_iff.mpr
      use frame, found
      rw [← tidy.copy_elsewhere elsewhere here found, dirtied]

/-- In `moves` that change no page, the changer of `page` was its changer before. -/
theorem Tidy.changer?_moves (tidy : pool.Tidy) (idle : ∀ txn, ¬ may.changes txn)
    (moves : Moves may pool after) (changed : after.changer? page = some txn) :
  pool.changer? page = some txn
  := by
  induction moves with
  | refl => apply changed
  | tail before move ih =>
    apply ih
    apply ((tidy.moves before).changer?_move move changed).resolve_right
    rintro ⟨changes, -⟩
    cases idle txn changes

/-! ### Fetching pages -/

/-- To make `room` is to remove a page at most, and leaves space for one. -/
theorem moves_makeRoom (may : Freedom) (tidy : pool.Tidy)
    (made : pool.cache.makeRoom? = some room) :
  Moves may pool { pool with cache := room } ∧ room.size < room.capacity
  := by
  rcases Cache.makeRoom?_cases tidy.distinct made with ⟨roomy, rfl⟩ | ⟨victim, found, -, rfl⟩
  · exact ⟨.refl, roomy⟩
  · use .single (.remove victim.page)
    apply Nat.lt_of_lt_of_le (Cache.size_remove_lt (Option.isSome_of_mem found)) tidy.bounded

/-- `pool.load page` is made of moves that leave the locks, and a copy that it answers is that of
the frame of `page`. -/
theorem moves_load (may : Freedom) (tidy : pool.Tidy) (page : PageId) :
  Moves may pool (pool.load page).2
    ∧ (pool.load page).2.locks = pool.locks
    ∧ ∀ no, (pool.load page).1 = .ok no →
        ∃ frame, (pool.load page).2.cache.frame? page = some frame ∧ frame.copy = no
  := by
  obtain ⟨frame, found, eq⟩ | ⟨-, -, eq⟩ | ⟨room, stores, -, made, same, quiet, loaded⟩ :=
    pool.load_cases page
  · rw [eq]
    obtain rfl := Cache.page_of_frame? found
    use .single (.touch found), rfl
    intro no answer
    cases answer
    use frame
    simp [Cache.frame?_put]
  · rw [eq]
    exact ⟨.refl, rfl, nofun⟩
  · obtain ⟨moves, roomy⟩ := moves_makeRoom may tidy made
    have media : Pool.SameMedia { pool with cache := room } { pool with cache := room, stores } :=
      ⟨same.catalog, same.size, same.media.table, same.media.medium⟩
    have noted : Moves may pool { pool with cache := room, stores } :=
      moves.tail (.note media (.inr quiet))
    rcases loaded with ⟨failure, -, eq⟩ | ⟨bytes, stored, size, eq⟩
    · rw [eq]
      exact ⟨noted, rfl, nofun⟩
    · rw [eq]
      have stored : Pool.stored { pool with cache := room, stores } page = some bytes := by
        rw [← stored]
        exact congrFun same.stored page
      use noted.tail (.enter roomy stored size), rfl
      intro no answer
      cases answer
      use ⟨page, pool.copies.size, false⟩
      simp [entered, Cache.frame?_put]

/-- `pool.fetch txn page access` is made of moves, and leaves the locks as their `request` does; if
it answers a copy, then the lock was granted, and the copy is that of the frame of `page`. -/
theorem moves_fetch (tidy : pool.Tidy) (txn : TransactionId) (page : PageId) (access : Access)
    (relocks : may.relocks pool.locks (pool.locks.request page txn access.lockMode).2) :
  Moves may pool (pool.fetch txn page access).2
    ∧ (pool.fetch txn page access).2.locks = (pool.locks.request page txn access.lockMode).2
    ∧ ∀ no, (pool.fetch txn page access).1 = .page no →
        (pool.locks.request page txn access.lockMode).1 = .granted
        ∧ ∃ frame, (pool.fetch txn page access).2.cache.frame? page = some frame
          ∧ frame.copy = no
  := by
  obtain ⟨locks, asked, eq⟩ | ⟨locks, asked, eq⟩
    | ⟨locks, asked, ⟨copy, after, loaded, eq⟩ | ⟨failure, after, loaded, eq⟩⟩ :=
    pool.fetch_cases txn page access
  all_goals
    rw [asked] at relocks ⊢
    rw [eq]
    have locked : Move may pool { pool with locks } := .relock relocks
  · exact ⟨.single locked, rfl, nofun⟩
  · exact ⟨.single locked, rfl, nofun⟩
  all_goals
    obtain ⟨moves, kept, cached⟩ := moves_load may (tidy.move locked) page
    rw [loaded] at moves kept cached
  · refine ⟨moves.head locked, kept, ?_⟩
    rintro no ⟨⟩
    exact ⟨rfl, cached copy rfl⟩
  · exact ⟨moves.head locked, kept, nofun⟩

/-! ### Changing pages -/

/-- To overwrite the copy `no` with as many `bytes` and to install it is made of moves, for a `txn`
that has its page locked exclusively. -/
theorem moves_change (tidy : pool.Tidy) (changes : may.changes txn)
    (allocated : no < pool.copies.size) (length : bytes.length = (pool.copy no).bytes.length)
    (exclusive : pool.locks.modeOf? (pool.copy no).id txn = some .exclusive) :
  Moves may pool ((pool.setCopy no { pool.copy no with bytes }).install txn no).2
  := by
  rcases pool.change_cases allocated txn bytes with
    ⟨resident, eq⟩ | ⟨absent, ⟨room, made, eq⟩ | eq⟩
  · rw [eq]
    exact .single (.change changes allocated length exclusive (.inl resident))
  · rw [eq]
    obtain ⟨moves, roomy⟩ := moves_makeRoom may tidy made
    exact moves.tail (Move.change changes allocated length exclusive (.inr roomy))
  · rw [eq]
    exact .single (.changeApart length absent)

/-- `pool.markDirty txn no` is made of moves. -/
theorem moves_markDirty (tidy : pool.Tidy) (changes : may.changes txn)
    (allocated : no < pool.copies.size) :
  Moves may pool (pool.markDirty txn no).2
  := by
  obtain ⟨exclusive, eq⟩ | ⟨cause, eq⟩ := pool.markDirty_cases txn no
  · have moves := moves_change tidy changes allocated rfl exclusive
    rw [setCopy_self] at moves
    rw [eq]
    apply moves
  · rw [eq]

/-! ### Storing changes -/

/-- `pool.writeBack selects` of a cached `page` is made of moves, and leaves every page cached in
its copy; if it succeeds, `selects` is `false` of an `owner` that `page` still has. -/
theorem moves_writeBack (tidy : pool.Tidy) (writes : may.writes) (selects : TransactionId → Bool)
    (found : pool.cache.frame? page = some frame) :
  Moves may pool (pool.writeBack selects frame.copy).2
    ∧ (∀ other, ((pool.writeBack selects frame.copy).2.cache.frame? other).map Frame.copy
        = (pool.cache.frame? other).map Frame.copy)
    ∧ ((pool.writeBack selects frame.copy).1 = .ok () →
        ∀ owner ∈ (pool.writeBack selects frame.copy).2.changer? page, selects owner = false)
  := by
  obtain ⟨allocated, named, -⟩ := tidy.framed page frame found
  rcases pool.writeBack_cases selects named with
    ⟨spared, eq⟩ | ⟨failure, stores, same, eq⟩ | ⟨stores, written, eq⟩
  · rw [eq]
    refine ⟨.refl, fun _ => rfl, ?_⟩
    intro _ owner changed
    rw [changer?_of_frame? found] at changed
    simpa [Option.mem_def.mp changed] using spared
  · rw [eq]
    exact ⟨.single (.note same (.inl writes)), fun _ => rfl, nofun⟩
  · rw [eq]
    refine ⟨.single (.store writes found allocated named written), ?_, ?_⟩
    · intro other
      rw [cleaned, Cache.frame?_setDirty]
      split
      · rename_i here
        rw [here]
        simp [Function.comp_def]
      · rfl
    · intro _ owner changed
      have clean : (pool.cleaned page frame.copy (pool.copy frame.copy).bytes
          stores).cache.frame? page = some { frame with dirty := false } := by
        simp [cleaned, Cache.frame?_setDirty, found]
      rw [changer?_of_frame? clean, copy_cleaned, if_pos ⟨rfl, allocated⟩] at changed
      cases changed

/-- `pool.writeBackAll selects copies` of cached `copies` is made of moves; if it succeeds,
`selects` is `false` of every `owner` that their pages still have. -/
theorem moves_writeBackAll (writes : may.writes) (idle : ∀ txn, ¬ may.changes txn)
    (selects : TransactionId → Bool) :
  ∀ (copies : List CopyNo) {pool : Pool}, pool.Tidy →
    (∀ no ∈ copies, ∃ page, (pool.cache.frame? page).map Frame.copy = some no) →
      Moves may pool (pool.writeBackAll selects copies).2
      ∧ ((pool.writeBackAll selects copies).1 = .ok () →
          ∀ page frame, pool.cache.frame? page = some frame → frame.copy ∈ copies →
            ∀ owner ∈ (pool.writeBackAll selects copies).2.changer? page, selects owner = false)
  | [], pool, _, _ => ⟨.refl, nofun⟩
  | no :: copies, pool, tidy, cached => by
    obtain ⟨page, here⟩ := cached no (List.mem_cons_self ..)
    obtain ⟨frame, found, rfl⟩ := Option.map_eq_some_iff.mp here
    obtain ⟨moves, kept, settled⟩ := moves_writeBack tidy writes selects found
    rcases first : pool.writeBack selects frame.copy with ⟨failure | _, next⟩
    · rw [first] at moves
      rw [writeBackAll, first]
      use moves
      intro ok
      cases ok
    · rw [first] at moves kept settled
      rw [writeBackAll, first]
      obtain ⟨moves', settled'⟩ :=
        moves_writeBackAll writes idle selects copies (tidy.moves moves) (by
          intro no later
          obtain ⟨page, here⟩ := cached no (List.mem_cons_of_mem _ later)
          use page
          rw [kept, here])
      use moves.trans moves'
      intro ok place frame' found' listed owner changed
      rcases List.mem_cons.mp listed with same | later
      · -- two pages are not cached in one copy
        obtain rfl : place = page := by
          rw [← (tidy.framed place frame' found').2.1, same, (tidy.framed page frame found).2.1]
        apply settled rfl owner
        apply (tidy.moves moves).changer?_moves idle moves' changed
      · have still : (next.cache.frame? place).map Frame.copy = some frame'.copy := by
          rw [kept, found', Option.map_some]
        obtain ⟨frame'', found'', same⟩ := Option.map_eq_some_iff.mp still
        apply settled' ok place frame'' found'' (same ▸ later) owner changed

/-- A copy `no` of a frame that is listed is the copy in which some `page` is cached. -/
theorem Tidy.cached_of_mem (tidy : pool.Tidy) (no : CopyNo)
    (listed : no ∈ pool.cache.frames.map Frame.copy) :
  ∃ page, (pool.cache.frame? page).map Frame.copy = some no
  := by
  obtain ⟨frame, member, rfl⟩ := List.mem_map.mp listed
  use frame.page
  rw [(Cache.mem_frames_iff tidy.distinct).mp member, Option.map_some]

/-- `writeBackAll selects` of the whole cache is made of moves; if it succeeds, `selects` is
`false` of every `owner` that a page still has. -/
theorem moves_flush (tidy : pool.Tidy) (writes : may.writes) (idle : ∀ txn, ¬ may.changes txn)
    (selects : TransactionId → Bool) :
  Moves may pool (pool.writeBackAll selects (pool.cache.frames.map Frame.copy)).2
    ∧ ((pool.writeBackAll selects (pool.cache.frames.map Frame.copy)).1 = .ok () →
        ∀ page, ∀ owner ∈ (pool.writeBackAll selects (pool.cache.frames.map Frame.copy)).2.changer?
          page, selects owner = false)
  := by
  obtain ⟨moves, settled⟩ :=
    moves_writeBackAll writes idle selects _ tidy tidy.cached_of_mem
  use moves
  intro ok page owner changed
  have before := tidy.changer?_moves idle moves changed
  obtain ⟨frame, found, -⟩ := changer?_eq_some_iff.mp before
  apply settled ok page frame found _ owner changed
  apply List.mem_map_of_mem (Cache.mem_of_frame? found)

theorem moves_flushPage (tidy : pool.Tidy) (writes : may.writes) (page : PageId) :
  Moves may pool (pool.flushPage page).2
  := by
  unfold flushPage
  cases found : pool.cache.frame? page with
  | none => exact .refl
  | some frame => exact (moves_writeBack tidy writes _ found).1

/-! ### Undoing changes -/

/-- `pool.restore` of a cached `page` is made of moves, and leaves the frames of `other` pages;
unless there is a fault, `page` has no changer after it. -/
theorem moves_restore (may : Freedom) (tidy : pool.Tidy)
    (found : pool.cache.frame? page = some frame) :
  Moves may pool (pool.restore page frame.copy).2
    ∧ (∀ other, other ≠ page →
        (pool.restore page frame.copy).2.cache.frame? other = pool.cache.frame? other)
    ∧ ((∃ outcome, (pool.restore page frame.copy).1 = .ok outcome) →
        (pool.restore page frame.copy).2.changer? page = none)
  := by
  obtain ⟨allocated, named, -⟩ := tidy.framed page frame found
  obtain ⟨stores, same, quiet, ⟨fault, -, eq⟩ | ⟨cause, eq⟩ | ⟨bytes, stored, eq⟩⟩ :=
    pool.restore_cases page frame.copy
  all_goals
    have noted : Move may pool { pool with stores } := .note same.media (.inr quiet)
    rw [eq]
  · exact ⟨.single noted, fun _ _ => rfl, nofun⟩
  · have given : Move may { pool with stores } (pool.dropped page frame.copy stores) :=
      .drop named
    refine ⟨.tail (.single noted) given, ?_, ?_⟩
    · intro other distinct
      rw [dropped, Cache.frame?_remove, if_neg distinct]
    · simp [changer?, dropped, Cache.frame?_remove]
  · have stored : Pool.stored { pool with stores } page = some bytes := by
      rw [← stored]
      exact congrFun same.stored page
    have restored : Move may { pool with stores } (pool.cleaned page frame.copy bytes stores) :=
      .restore found allocated named stored
    refine ⟨.tail (.single noted) restored, ?_, ?_⟩
    · intro other distinct
      rw [cleaned, Cache.frame?_setDirty, if_neg distinct]
    · intro _
      have clean : (pool.cleaned page frame.copy bytes stores).cache.frame? page
          = some { frame with dirty := false } := by
        simp [cleaned, Cache.frame?_setDirty, found]
      rw [changer?_of_frame? clean, copy_cleaned, if_pos ⟨rfl, allocated⟩]
      rfl

/-- `pool.restoreAll txn held frames` of cached `frames` is made of moves; unless there is a fault,
`txn` is the changer of none of their pages after it. -/
theorem moves_restoreAll (idle : ∀ txn, ¬ may.changes txn) (txn : TransactionId)
    (held : List PageId) :
  ∀ (frames : List Frame) (outcome : Except PoolError Unit) {pool : Pool}, pool.Tidy →
    (frames.map Frame.page).Nodup →
    (∀ frame ∈ frames, pool.cache.frame? frame.page = some frame) →
      Moves may pool (pool.restoreAll txn held frames outcome).2
      ∧ ((∀ fault, (pool.restoreAll txn held frames outcome).1 ≠ .error (.fault fault)) →
          ∀ frame ∈ frames,
            (pool.restoreAll txn held frames outcome).2.changer? frame.page ≠ some txn)
  | [], outcome, pool, _, _, _ => ⟨.refl, nofun⟩
  | frame :: frames, outcome, pool, tidy, nodup, found => by
    rw [List.map_cons, List.nodup_cons] at nodup
    have here := found frame (List.mem_cons_self ..)
    have later := fun other member => found other (List.mem_cons_of_mem _ member)
    simp only [restoreAll]
    split
    · obtain ⟨moves, kept, settled⟩ := moves_restore may tidy here
      rcases first : pool.restore frame.page frame.copy with ⟨fault | restored, next⟩
      · rw [first] at moves
        use moves
        intro faultless
        cases faultless fault rfl
      · rw [first] at moves kept settled
        obtain ⟨moves', settled'⟩ :=
          moves_restoreAll idle txn held frames (firstError outcome restored) (tidy.moves moves)
            nodup.2 (by
              intro other member
              rw [kept other.page, later other member]
              intro same
              apply nodup.1
              rw [← same]
              apply List.mem_map_of_mem member)
        use moves.trans moves'
        intro faultless other member changed
        rcases List.mem_cons.mp member with rfl | member
        · have before := (tidy.moves moves).changer?_moves idle moves' changed
          simp [settled ⟨_, rfl⟩] at before
        · apply settled' faultless other member changed
    · rename_i spared
      obtain ⟨moves, settled⟩ :=
        moves_restoreAll idle txn held frames outcome tidy nodup.2 later
      use moves
      intro faultless other member changed
      rcases List.mem_cons.mp member with rfl | member
      · have before := tidy.changer?_moves idle moves changed
        rw [changer?_of_frame? here] at before
        simp [before] at spared
      · apply settled faultless other member changed

/-- `pool.rollback txn` is made of moves; unless there is a fault, `txn` is the changer of no page
after it. -/
theorem moves_rollback (tidy : pool.Tidy) (idle : ∀ txn, ¬ may.changes txn) (txn : TransactionId) :
  Moves may pool (pool.rollback txn).2
    ∧ ((∀ fault, (pool.rollback txn).1 ≠ .error (.fault fault)) →
        ∀ page, (pool.rollback txn).2.changer? page ≠ some txn)
  := by
  have found : ∀ frame ∈ pool.cache.frames, pool.cache.frame? frame.page = some frame :=
    fun frame member => (Cache.mem_frames_iff tidy.distinct).mp member
  obtain ⟨moves, settled⟩ := moves_restoreAll idle txn (pool.locks.heldPages txn)
    pool.cache.frames (.ok ()) tidy tidy.distinct found
  use moves
  intro faultless page changed
  have before := tidy.changer?_moves idle moves changed
  obtain ⟨frame, found, -⟩ := changer?_eq_some_iff.mp before
  obtain rfl := Cache.page_of_frame? found
  apply settled faultless frame (Cache.mem_of_frame? found) changed

/-! ### Ending transactions -/

/-- `pool.complete txn commits` comes by moves to a pool `settled`, and then releases the locks of
`txn` unless there is a fault.  Unless it fails to store the changes of `txn`, `txn` is the changer
of no page after it. -/
theorem moves_complete (tidy : pool.Tidy) (idle : ∀ txn, ¬ may.changes txn) (txn : TransactionId)
    (commits : Bool) (writes : commits = true → may.writes) :
  ∃ settled, Moves may pool settled
    ∧ ((∃ fault, pool.complete txn commits = (.error (.fault fault), settled))
      ∨ (∀ fault, (pool.complete txn commits).1 ≠ .error (.fault fault))
        ∧ (pool.complete txn commits).2 = settled.releaseAll txn
        ∧ (commits = false ∨ (pool.complete txn commits).1 = .ok () →
            ∀ page, settled.changer? page ≠ some txn))
  := by
  obtain ⟨moves, clean⟩ : Moves may pool
        (if commits then pool.flushTransaction txn else pool.rollback txn).2
      ∧ ((∀ fault, (if commits then pool.flushTransaction txn else pool.rollback txn).1
            ≠ .error (.fault fault)) →
          commits = false ∨ (if commits then pool.flushTransaction txn else pool.rollback txn).1
            = .ok () →
          ∀ page, (if commits then pool.flushTransaction txn else pool.rollback txn).2.changer? page
            ≠ some txn) := by
    cases commits with
    | true =>
      obtain ⟨moves, settled⟩ := moves_flush tidy (writes rfl) idle (· = txn)
      use moves
      rintro - (no | ok) page changed
      · cases no
      · simpa using settled ok page txn changed
    | false =>
      obtain ⟨moves, settled⟩ := moves_rollback tidy idle txn
      use moves
      intro faultless _
      apply settled faultless
  obtain ⟨result, settled, ended, ⟨fault, rfl, eq⟩ | ⟨faultless, eq⟩⟩ :=
    pool.complete_settles txn commits
  all_goals
    rw [ended] at moves clean
    rw [eq]
    use settled, moves
  · left
    use fault
  · right
    exact ⟨faultless, rfl, clean faultless⟩

/-- Everything may be done at the end of a transaction. -/
def ending : Freedom where
  relocks _ _ := True
  changes _ := False
  writes := True
  spoils := False

/-- The end of a transaction is done in moves. -/
theorem moves_end (tidy : pool.Tidy) (txn : TransactionId) (commits : Bool) :
  Moves ending pool (pool.complete txn commits).2
  := by
  have idle : ∀ other, ¬ ending.changes other := fun _ => id
  obtain ⟨settled, moves, ⟨fault, eq⟩ | ⟨-, eq, -⟩⟩ :=
    moves_complete tidy idle txn commits fun _ => trivial
  · rw [eq]
    apply moves
  · rw [eq]
    exact moves.tail (.relock trivial)

end StorageEngine.Pool

import Mathlib.Data.List.Induction
import StorageEngine.Proofs.System.Unaltered
import StorageEngine.Proofs.System.Simulation

/-!
# Handles

A transaction that has a page locked exclusively may fetch it several times, and is handed another
copy whenever the page has left the cache unchanged in between.  To mark a copy is to put it into
the place of any other.  So what is stored in the end is the copy that was marked last, with
everything that was written through its handles (`PoolService.Turns.stored_of_marked`), and what
was written through handles of earlier copies is lost (`PoolService.lost_in_roomForOne`).
-/

namespace StorageEngine

/-! ### Edits -/

namespace Edit

/-- The byte that `edit` puts at the position `i`, if it reaches there. -/
def byte? (edit : Edit) (i : Nat) : Option UInt8 :=
  if edit.start ≤ i then edit.data[i - edit.start]? else none

/-- The byte that the last of `edits` that reach there puts at the position `i`. -/
def last? (edits : List Edit) (i : Nat) : Option UInt8 :=
  edits.foldl (fun last edit => (edit.byte? i).or last) none

theorem last?_concat (edits : List Edit) (edit : Edit) (i : Nat) :
  last? (edits ++ [edit]) i = (edit.byte? i).or (last? edits i)
  := by
  simp [last?]

theorem getElem?_overwrite? {edit : Edit} {bytes after : Bytes}
    (fits : bytes.overwrite? edit.start edit.data = some after) (i : Nat) :
  after[i]? = (edit.byte? i).or bytes[i]?
  := by
  unfold Bytes.overwrite? at fits
  split at fits
  · rename_i within
    cases fits
    rw [Bytes.getElem?_overwrite _ (by omega), byte?]
    by_cases reached : edit.start ≤ i
    · by_cases inside : i < edit.start + edit.data.length
      · have found : edit.data[i - edit.start]? = some edit.data[i - edit.start] :=
          List.getElem?_eq_getElem (by omega)
        rw [if_pos ⟨reached, inside⟩, if_pos reached, found, Option.some_or]
      · have beyond : edit.data[i - edit.start]? = none := List.getElem?_eq_none (by omega)
        rw [if_neg (by omega), if_pos reached, beyond, Option.none_or]
    · rw [if_neg (by omega), if_neg reached]
      rfl
  · cases fits

/-- The byte `i` after `edits` is what the last of them has put there, or that of `bytes`. -/
theorem getElem?_applyAll? {edits : List Edit} {bytes after : Bytes}
    (applied : applyAll? edits bytes = some after) (i : Nat) :
  after[i]? = (last? edits i).or bytes[i]?
  := by
  induction edits using List.reverseRecOn generalizing after with
  | nil =>
    cases applied
    rfl
  | append_singleton edits edit ih =>
    rw [applyAll?_concat] at applied
    obtain ⟨middle, before, fits⟩ := Option.bind_eq_some_iff.mp applied
    rw [getElem?_overwrite? fits, ih before, last?_concat, Option.or_assoc]

end Edit

namespace PoolService

open Pool

variable {pool after : Pool} {txn other : TransactionId} {page place : PageId} {no : CopyNo}
  {frame : Frame}
  {service middle last : PoolService} {notices notices' : List Notice}

/-! ### A page that is locked exclusively -/

/-- What a turn does to `page` that `txn` has locked exclusively and alters through handles
only. -/
inductive PageTurn (txn : TransactionId) (page : PageId) (pool : Pool) :
    List Notice → Pool → Prop where
  /-- Nothing is done to the page. -/
  | unaltered {notices : List Notice} {after : Pool} (unaltered : Unaltered page pool after)
      (stored : ∀ bytes, pool.stored page = some bytes → after.stored page = some bytes)
      (silent : ∀ no, Notice.writes txn page no notices = [] ∧ .marked txn page no ∉ notices) :
      PageTurn txn page pool notices after
  /-- Bytes of a copy are overwritten. -/
  | wrote {no : CopyNo} {edit : Edit} {bytes : Bytes} (allocated : no < pool.copies.size)
      (named : (pool.copy no).id = page)
      (fits : (pool.copy no).bytes.overwrite? edit.start edit.data = some bytes) :
      PageTurn txn page pool [.wrote txn page no edit]
        (pool.setCopy no { pool.copy no with bytes })
  /-- A copy is marked and cached. -/
  | marked {no : CopyNo} {after : Pool} (allocated : no < pool.copies.size)
      (named : (pool.copy no).id = page) (eq : pool.install txn no = (.ok (), after)) :
      PageTurn txn page pool [.marked txn page no] after
  /-- A copy is marked, but there is no room for it. -/
  | unmarked {no : CopyNo} (named : (pool.copy no).id = page)
      (absent : pool.cache.frame? page = none) :
      PageTurn txn page pool [] (pool.setCopy no ((pool.copy no).mark (some txn)))
  /-- Changes are stored. -/
  | settled {notices : List Notice} {after : Pool} (settles : Settles page pool after)
      (silent : ∀ no, Notice.writes txn page no notices = [] ∧ .marked txn page no ∉ notices) :
      PageTurn txn page pool notices after
  /-- The page is given up. -/
  | discarded : PageTurn txn page pool [.discarded page] (pool.discard page)

/-- Whether `txn` goes on holding `page` in `notices`, and alters it through handles only. -/
structure Notice.Holding (txn : TransactionId) (page : PageId) (notices : List Notice) : Prop where
  ended : .ended txn ∉ notices
  released : .released txn page ∉ notices
  altered : .altered txn page ∉ notices

/-- Nobody else holds a page that is locked exclusively. -/
theorem Owned.eq_of_exclusive (owned : service.Owned)
    (held : service.pool.locks.modeOf? page txn = some .exclusive)
    (holds : (service.pool.locks.modeOf? page other).isSome) :
  other = txn
  := by
  by_contra distinct
  have alone : service.pool.locks.modeOf? page other = none :=
    PageLocks.modeOf?_of_exclusive (owned.guarded.sound.consistent page) held distinct
  simp [alone] at holds

/-- An exclusive lock of `txn` on `page` is kept in a `turn` whose `notices` are `Holding`: it is
not released and `txn` does not end. -/
theorem Turn.held (turn : service.Turn notices last) (owned : service.Owned)
    (holding : Notice.Holding txn page notices)
    (held : service.pool.locks.modeOf? page txn = some .exclusive) :
  last.pool.locks.modeOf? page txn = some .exclusive
  := by
  have tidy := owned.guarded.tidy
  have still : ∀ {after : Pool}, Moves settling service.pool after →
      after.locks.modeOf? page txn = some .exclusive := by
    intro after moves
    rw [locks_of_moves moves fun _ _ => id, held]
  cases turn with
  | write => apply held
  | @enter other request free served =>
    have moves : Moves settling service.pool (request.enter other service.pool).2 :=
      Request.moves_enter other served
    apply still moves
  | @round other call under =>
    have keeps := keeps_of_moves (owned.guarded.moves_round under) fun _ _ => id
    apply keeps.exclusive held
  | @mark other no pool allocated eq | @unmarked other no _ pool allocated eq =>
    have moves : Moves { settling with changes := fun txn => txn = other } service.pool
        (service.pool.markDirty other no).2 := moves_markDirty tidy rfl allocated
    rw [eq] at moves
    dsimp only
    rw [locks_of_moves moves fun _ _ => id, held]
  | @complete other commits free ok =>
    have distinct : txn ≠ other := by
      rintro rfl
      apply holding.ended
      simp
    have idle : ∀ other, ¬ settling.changes other := fun _ => id
    have settled : (if commits then service.pool.flushTransaction other
        else service.pool.rollback other).2.locks = service.pool.locks := by
      cases commits with
      | true => apply locks_of_moves (moves_flush tidy trivial idle (· = other)).1 fun _ _ => id
      | false => apply locks_of_moves (moves_rollback tidy idle other).1 fun _ _ => id
    rw [pool_completed, (complete_ok ok).2, releaseAll]
    dsimp only
    rw [settled, owned.guarded.sound.modeOf?_releaseAll, if_neg distinct, held]
  | flushPage place => apply still (moves_flushPage tidy trivial place)
  | flushTransaction other => apply still (moves_flush tidy trivial (fun _ => id) _).1
  | flushAll => apply still (moves_flush tidy trivial (fun _ => id) _).1
  | discard place => apply held
  | @release other place unchanged =>
    have modes : (service.pool.releasePage other place).locks.modeOf? page txn
        = if page = place ∧ txn = other then none else service.pool.locks.modeOf? page txn :=
      LockTable.modeOf?_release
    dsimp only
    rw [modes, if_neg, held]
    rintro ⟨rfl, rfl⟩
    apply holding.released
    simp

/-- A `place` that `other` has locked exclusively is not the `page` that `txn` has, unless both are
the same. -/
theorem Owned.ne_of_exclusive (owned : service.Owned)
    (held : service.pool.locks.modeOf? page txn = some .exclusive)
    (exclusive : service.pool.locks.modeOf? place other = some .exclusive)
    (differs : ¬ (other = txn ∧ place = page)) :
  place ≠ page
  := by
  rintro rfl
  apply differs ⟨owned.eq_of_exclusive held (Option.isSome_of_mem exclusive), rfl⟩

/-- To mark the copy `no` is a `PageTurn` for a `page` that `txn` has locked exclusively. -/
theorem Owned.pageTurn_mark (owned : service.Owned) (imaged : service.pool.Imaged)
    (held : service.pool.locks.modeOf? page txn = some .exclusive)
    (allocated : no < service.pool.copies.size)
    (eq : service.pool.markDirty other no = (.ok (), after))
    (numbered : ∀ no, (after.store no).Numbered) :
  PageTurn txn page service.pool [.marked other (service.pool.copy no).id no] after
  := by
  have tidy := owned.guarded.tidy
  obtain ⟨exclusive, marks⟩ | ⟨cause, fails⟩ := service.pool.markDirty_cases other no
  · have installed := marks.symm.trans eq
    by_cases here : other = txn ∧ (service.pool.copy no).id = page
    · obtain ⟨rfl, rfl⟩ := here
      exact .marked allocated rfl installed
    · have moves : Moves (calling other) service.pool (service.pool.markDirty other no).2 :=
        moves_markDirty tidy rfl allocated
      have install := unaltered_install tidy other (owned.ne_of_exclusive held exclusive here)
      rw [eq] at moves
      rw [installed] at install
      refine .unaltered install ?_ ?_
      · intro bytes image
        apply imaged.stored_moves moves numbered id image
      · intro no'
        refine ⟨rfl, ?_⟩
        simp only [List.mem_singleton, Notice.marked.injEq]
        tauto
  · cases fails.symm.trans eq

/-- To fail to mark the copy `no` is a `PageTurn`: it is of another page, or there is no room for
it. -/
theorem Owned.pageTurn_unmarked {failure : Failure PoolError} (owned : service.Owned)
    (held : service.pool.locks.modeOf? page txn = some .exclusive)
    (eq : service.pool.markDirty other no = (.error failure, after)) :
  PageTurn txn page service.pool [] after
  := by
  have silent : ∀ no : CopyNo, Notice.writes txn page no [] = []
      ∧ Notice.marked txn page no ∉ ([] : List Notice) := fun _ => ⟨rfl, by simp⟩
  obtain ⟨exclusive, marks⟩ | ⟨cause, fails⟩ := service.pool.markDirty_cases other no
  · have installed := marks.symm.trans eq
    obtain ⟨-, eq'⟩ | ⟨absent, ⟨room, -, eq'⟩ | eq'⟩ := service.pool.install_cases other no
    · cases installed.symm.trans eq'
    · cases installed.symm.trans eq'
    · obtain rfl : after = _ := congrArg Prod.snd (installed.symm.trans eq')
      by_cases here : other = txn ∧ (service.pool.copy no).id = page
      · obtain ⟨rfl, rfl⟩ := here
        exact .unmarked rfl absent
      · have elsewhere := owned.ne_of_exclusive held exclusive here
        exact .unaltered (unaltered_setCopy owned.guarded.tidy rfl elsewhere) (fun _ => id) silent
  · cases fails.symm.trans eq
    exact .unaltered (.refl page _) (fun _ => id) silent

/-- What may be done where a transaction is undone. -/
def undoing : Freedom := ⟨fun _ _ => False, fun _ => False, False, False⟩

/-- The end of a transaction may store what was changed in the pages of others, and does nothing
else to them. -/
theorem Owned.pageTurn_complete {commits : Bool} (owned : service.Owned)
    (imaged : service.pool.Imaged)
    (held : service.pool.locks.modeOf? page txn = some .exclusive) (distinct : other ≠ txn)
    (ok : (service.pool.complete other commits).1 = .ok ())
    (numbered : ∀ no, ((service.pool.complete other commits).2.store no).Numbered) :
  PageTurn txn page service.pool [.ended other] (service.pool.complete other commits).2
  := by
  have tidy := owned.guarded.tidy
  have silent : ∀ no, Notice.writes txn page no [.ended other] = []
      ∧ .marked txn page no ∉ [Notice.ended other] := fun _ => ⟨rfl, by simp⟩
  obtain ⟨-, eq⟩ := complete_ok ok
  rw [eq] at numbered ⊢
  cases commits with
  | true =>
    apply PageTurn.settled _ silent
    have settles := settles_flush tidy imaged page (· = other) numbered
    exact ⟨settles.copies, settles.copy, settles.fate⟩
  | false =>
    have unheld : page ∉ service.pool.locks.heldPages other := by
      rw [owned.guarded.sound.indexed]
      intro holds
      apply distinct (owned.eq_of_exclusive held holds)
    have innocent : service.pool.changer? page ≠ some other := by
      intro changed
      apply distinct (owned.eq_of_exclusive held (Option.isSome_of_mem (owned.exclusive changed)))
    have moves : Moves undoing service.pool (service.pool.rollback other).2 :=
      (moves_rollback tidy (fun _ => id) other).1
    refine .unaltered ((unaltered_rollback tidy unheld innocent).trans (unaltered_around ..)) ?_
      silent
    intro bytes image
    apply imaged.stored_moves moves numbered id image

/-- A `turn` is a `PageTurn` for a `page` that `txn` has locked exclusively. -/
theorem Turn.pageTurn (turn : service.Turn notices last) (owned : service.Owned)
    (imaged : service.pool.Imaged) (numbered : ∀ no, (last.pool.store no).Numbered)
    (holding : Notice.Holding txn page notices)
    (held : service.pool.locks.modeOf? page txn = some .exclusive) :
  PageTurn txn page service.pool notices last.pool
  := by
  have tidy := owned.guarded.tidy
  have before := (turn.grows owned).numbered numbered
  cases turn with
  | @enter other request free served =>
    have moves : Moves (calling other) service.pool (request.enter other service.pool).2 :=
      Request.moves_enter other served
    refine .unaltered (Request.unaltered_enter page other served) ?_ fun _ => ⟨rfl, by simp⟩
    intro bytes image
    apply imaged.stored_moves moves numbered id image
  | @round other call under =>
    have marks := (owned.guarded.calls other call under).marks
    refine .unaltered (Call.unaltered_round tidy marks ?_) ?_ ?_
    · intro altered
      apply LockTable.request_ne_granted owned.guarded.sound held
      rintro rfl
      apply holding.altered altered
    · intro bytes image
      apply imaged.stored_moves (owned.guarded.moves_round under) numbered id image
    · intro no
      cases call <;> simp [Call.alters, Notice.writes]
  | @write other no edit bytes allocated exclusive fits =>
    by_cases here : other = txn ∧ (service.pool.copy no).id = page
    · obtain ⟨rfl, rfl⟩ := here
      exact .wrote allocated rfl fits
    · have elsewhere := owned.ne_of_exclusive held exclusive here
      refine .unaltered (unaltered_setCopy tidy rfl elsewhere) (fun _ => id) ?_
      intro no'
      simp only [Notice.writes, List.filterMap_cons, List.filterMap_nil, List.mem_singleton,
        reduceCtorEq, not_false_eq_true, and_true]
      rw [if_neg (by tauto)]
  | mark allocated eq => exact owned.pageTurn_mark imaged held allocated eq numbered
  | unmarked allocated eq => exact owned.pageTurn_unmarked held eq
  | @complete other commits free ok =>
    have distinct : other ≠ txn := by
      rintro rfl
      apply holding.ended
      simp
    rw [pool_completed] at numbered ⊢
    exact owned.pageTurn_complete imaged held distinct ok numbered
  | flushPage place =>
    exact .settled (settles_flushPage tidy imaged before page place) fun _ => ⟨rfl, by simp⟩
  | flushTransaction other =>
    exact .settled (settles_flush tidy imaged page _ numbered) fun _ => ⟨rfl, by simp⟩
  | flushAll =>
    exact .settled (settles_flush tidy imaged page _ numbered) fun _ => ⟨rfl, by simp⟩
  | discard place =>
    by_cases here : place = page
    · subst here
      exact .discarded
    · refine .unaltered (unaltered_remove _ (Ne.symm here)) (fun _ => id) fun _ => ⟨rfl, by simp⟩
  | release unchanged =>
    exact .unaltered (unaltered_around ..) (fun _ => id) fun _ => ⟨rfl, by simp⟩

/-! ### Copies and what was written to them -/

theorem Notice.writes_append (txn : TransactionId) (page : PageId) (no : CopyNo)
    (notices notices' : List Notice) :
  Notice.writes txn page no (notices ++ notices')
    = Notice.writes txn page no notices ++ Notice.writes txn page no notices'
  := List.filterMap_append

/-- In a `turn` no copy goes, and each stays a copy of the same page. -/
theorem PageTurn.named (turn : PageTurn txn page pool notices after) :
  pool.copies.size ≤ after.copies.size
    ∧ ∀ no < pool.copies.size, (after.copy no).id = (pool.copy no).id
  := by
  have set : ∀ no (copy : Page), copy.id = (pool.copy no).id →
      pool.copies.size ≤ (pool.setCopy no copy).copies.size
        ∧ ∀ other < pool.copies.size, ((pool.setCopy no copy).copy other).id
          = (pool.copy other).id := by
    intro no copy same
    refine ⟨by simp [setCopy], ?_⟩
    intro other _
    rw [copy_setCopy]
    split
    · rename_i here
      rw [same, here.1]
    · rfl
  cases turn with
  | unaltered unaltered => exact ⟨unaltered.copies, unaltered.named⟩
  | wrote => exact set _ _ rfl
  | @marked no after allocated named eq =>
    have install := fun other => pool.copy_install txn no other
    rw [eq] at install
    refine ⟨Nat.le_of_eq (install no).1.symm, ?_⟩
    intro other _
    rw [(install other).2]
    split
    · rename_i here
      rw [here.1]
      rfl
    · rfl
  | unmarked => exact set _ _ rfl
  | settled settles => exact ⟨Nat.le_of_eq settles.copies.symm, fun no _ => (settles.copy no).1⟩
  | discarded => exact ⟨Nat.le_refl _, fun _ _ => rfl⟩

/-- After a `turn`, a copy `no` of `page` has its bytes from before with the writes in `notices`
applied. -/
theorem PageTurn.written (turn : PageTurn txn page pool notices after)
    (allocated : no < pool.copies.size) (named : (pool.copy no).id = page) :
  Edit.applyAll? (Notice.writes txn page no notices) (pool.copy no).bytes
    = some (after.copy no).bytes
  := by
  cases turn with
  | unaltered unaltered stored silent =>
    rw [(silent no).1, unaltered.copy no allocated named]
    rfl
  | @wrote no' edit bytes allocated' named' fits =>
    rw [copy_setCopy]
    by_cases here : no = no'
    · subst here
      simp [Notice.writes, Edit.applyAll?, allocated, fits]
    · simp [Notice.writes, Edit.applyAll?, here, Ne.symm here]
  | @marked no' after allocated' named' eq =>
    have install := (pool.copy_install txn no' no).2
    rw [eq] at install
    dsimp only at install
    rw [install]
    split
    · rename_i here
      rw [here.1]
      rfl
    · rfl
  | @unmarked no' =>
    rw [copy_setCopy]
    split
    · rename_i here
      rw [here.1]
      rfl
    · rfl
  | settled settles silent =>
    rw [(silent no).1, (settles.copy no).2]
    rfl
  | discarded => rfl

/-- In a `turn` nothing is written to a copy `no` that is not allocated yet. -/
theorem PageTurn.unwritten (turn : PageTurn txn page pool notices after)
    (new : pool.copies.size ≤ no) :
  Notice.writes txn page no notices = []
  := by
  cases turn with
  | unaltered _ _ silent | settled _ silent => apply (silent no).1
  | @wrote no' _ _ allocated =>
    have other : no' ≠ no := Nat.ne_of_lt (Nat.lt_of_lt_of_le allocated new)
    simp [Notice.writes, other]
  | marked | unmarked | discarded => rfl

/-! ### The copy that was marked last -/

/-- Whether the copy `no` of `page` is the one that `txn` has marked last: it is cached with its
changes, or it is what is stored. -/
structure Standing (txn : TransactionId) (page : PageId) (no : CopyNo) (pool : Pool) : Prop where
  allocated : no < pool.copies.size
  named : (pool.copy no).id = page
  last : (pool.cache.frame? page = some ⟨page, no, true⟩ ∧ (pool.copy no).dirtiedBy = some txn)
    ∨ pool.changer? page = none ∧ pool.stored page = some (pool.copy no).bytes

/-- A copy that is marked is the one marked last. -/
theorem PageTurn.standing_marked
    (turn : PageTurn txn page pool [.marked txn page no] after) :
  Standing txn page no after
  := by
  cases turn with
  | unaltered _ _ silent => cases (silent no).2 (List.mem_singleton_self _)
  | settled _ silent => cases (silent no).2 (List.mem_singleton_self _)
  | marked allocated named eq =>
    obtain ⟨size, copy⟩ := pool.copy_install txn no no
    rw [if_pos ⟨rfl, allocated⟩] at copy
    have found : after.cache.frame? page = some ⟨page, no, true⟩ := by
      obtain ⟨-, eq'⟩ | ⟨-, ⟨room, -, eq'⟩ | eq'⟩ := pool.install_cases txn no
      · obtain rfl : after = _ := congrArg Prod.snd (eq.symm.trans eq')
        rw [Pool.marked, Cache.frame?_put, named, if_pos rfl]
      · obtain rfl : after = _ := congrArg Prod.snd (eq.symm.trans eq')
        have named : (Pool.copy { pool with cache := room } no).id = page := named
        rw [Pool.marked, Cache.frame?_put, named, if_pos rfl]
      · cases eq.symm.trans eq'
    rw [eq] at size copy
    dsimp only at size copy
    refine ⟨size ▸ allocated, ?_, .inl ⟨found, ?_⟩⟩
    · rw [copy]
      apply named
    · rw [copy]
      rfl

/-- The copy `no` stays `Standing` in a `turn` that marks no other, writes nothing else to it, and
does not discard `page`. -/
theorem PageTurn.standing (turn : PageTurn txn page pool notices after)
    (standing : Standing txn page no pool) (unmarked : ∀ other, .marked txn page other ∉ notices)
    (followed : ∀ edit, .wrote txn page no edit ∉ notices) (kept : .discarded page ∉ notices) :
  Standing txn page no after
  := by
  obtain ⟨allocated, named, last⟩ := standing
  obtain ⟨copies, ids⟩ := turn.named
  refine ⟨Nat.lt_of_lt_of_le allocated copies, (ids no allocated).trans named, ?_⟩
  cases turn with
  | unaltered unaltered stored silent =>
    rw [unaltered.copy no allocated named]
    rcases last with ⟨found, dirtied⟩ | ⟨clean, image⟩
    · exact .inl ⟨unaltered.dirty _ found rfl, dirtied⟩
    · exact .inr ⟨unaltered.clean clean, stored _ image⟩
  | @wrote no' edit bytes =>
    have other : no ≠ no' := by
      rintro rfl
      apply followed edit
      simp
    rw [copy_setCopy, if_neg (by tauto), changer?_edit]
    apply last
  | marked =>
    exfalso
    apply unmarked _ (List.mem_singleton_self _)
  | @unmarked no' _ absent =>
    rcases last with ⟨found, -⟩ | ⟨-, image⟩
    · cases absent.symm.trans found
    · right
      constructor
      · have absent : (pool.setCopy no' ((pool.copy no').mark (some txn))).cache.frame? page
            = none := absent
        rw [changer?, absent]
        rfl
      · rw [copy_setCopy]
        split
        · rename_i here
          rw [here.1] at image
          apply image
        · apply image
  | settled settles =>
    rcases settles.fate with ⟨frame, copy, stored⟩ | ⟨changed, clean, stored⟩
    · rcases last with ⟨found, dirtied⟩ | ⟨clean, image⟩
      · left
        have same := copy _ found
        dsimp only at same
        rw [frame, same]
        exact ⟨found, dirtied⟩
      · right
        rw [(settles.copy no).2]
        refine ⟨?_, stored _ image⟩
        cases cached : pool.cache.frame? page with
        | none =>
          rw [changer?, frame, cached]
          rfl
        | some frame' =>
          rw [changer?_of_frame? cached] at clean
          rw [changer?_of_frame? (frame.trans cached), copy _ cached, clean]
    · rcases last with ⟨found, -⟩ | ⟨clean', -⟩
      · right
        rw [(settles.copy no).2]
        exact ⟨clean, stored _ found⟩
      · simp [clean'] at changed
  | discarded =>
    exfalso
    apply kept (List.mem_singleton_self _)

/-- A commit of `txn` stores the bytes of the copy `no` that is `Standing`. -/
theorem Standing.stored (standing : Standing txn page no pool) (tidy : pool.Tidy)
    (imaged : pool.Imaged) (ok : (pool.complete txn true).1 = .ok ())
    (numbered : ∀ no, ((pool.complete txn true).2.store no).Numbered) :
  (pool.complete txn true).2.stored page = some (pool.copy no).bytes
  := by
  obtain ⟨flushed, eq⟩ := complete_ok ok
  have flushed : (pool.flushTransaction txn).1 = .ok () := flushed
  have eq : (pool.complete txn true).2 = (pool.flushTransaction txn).2.releaseAll txn := eq
  rw [eq] at numbered ⊢
  have settles : Settles page pool (pool.flushTransaction txn).2 :=
    settles_flush tidy imaged page (· = txn) numbered
  have idle : ∀ other, ¬ ending.changes other := fun _ => id
  have clean := (moves_flush tidy trivial idle (· = txn)).2 flushed page
  have clean : (pool.flushTransaction txn).2.changer? page ≠ some txn := by
    intro changed
    simpa using clean txn changed
  show (pool.flushTransaction txn).2.stored page = _
  rcases standing.last with ⟨found, dirtied⟩ | ⟨unchanged, image⟩
  · rcases settles.fate with ⟨frame, copy, -⟩ | ⟨-, -, stored⟩
    · exfalso
      apply clean
      rw [changer?_of_frame? (frame.trans found), copy _ found, dirtied]
    · apply stored _ found
  · rcases settles.fate with ⟨-, -, stored⟩ | ⟨changed, -, -⟩
    · apply stored _ image
    · simp [unchanged] at changed

/-! ### Turns in a row -/

theorem Turns.owned (turns : service.Turns notices last) (owned : service.Owned) :
  last.Owned
  := by
  induction turns with
  | start => apply owned
  | turn _ turn ih => apply ih.turn turn

theorem Turns.grows (turns : service.Turns notices last) (owned : service.Owned) :
  service.pool.Grows last.pool
  := by
  induction turns with
  | start => apply Grows.of_stores rfl
  | turn before turn ih => apply ih.trans (turn.grows (before.owned owned))

theorem Turns.imaged (turns : service.Turns notices last) (owned : service.Owned)
    (imaged : service.pool.Imaged) (numbered : ∀ no, (last.pool.store no).Numbered) :
  last.pool.Imaged
  := by
  induction turns with
  | start => apply imaged
  | turn before turn ih =>
    have owned' := before.owned owned
    apply turn.imaged owned' (ih ((turn.grows owned').numbered numbered)) numbered

theorem Notice.Holding.append (holding : Notice.Holding txn page (notices ++ notices')) :
  Notice.Holding txn page notices ∧ Notice.Holding txn page notices'
  := by
  obtain ⟨ended, released, altered⟩ := holding
  simp only [List.mem_append, not_or] at ended released altered
  exact ⟨⟨ended.1, released.1, altered.1⟩, ⟨ended.2, released.2, altered.2⟩⟩

/-- An exclusive lock of `txn` on `page` is kept in `turns` whose `notices` are `Holding`. -/
theorem Turns.held (turns : service.Turns notices last) (owned : service.Owned)
    (holding : Notice.Holding txn page notices)
    (held : service.pool.locks.modeOf? page txn = some .exclusive) :
  last.pool.locks.modeOf? page txn = some .exclusive
  := by
  induction turns with
  | start => apply held
  | turn before turn ih =>
    apply turn.held (before.owned owned) holding.append.2 (ih holding.append.1)

/-- After `turns`, every copy `no` of a `page` that is locked exclusively has some bytes with the
writes in `notices` applied. -/
theorem Turns.written (turns : service.Turns notices last) (owned : service.Owned)
    (imaged : service.pool.Imaged) (numbered : ∀ no, (last.pool.store no).Numbered)
    (holding : Notice.Holding txn page notices)
    (held : service.pool.locks.modeOf? page txn = some .exclusive) (no : CopyNo) :
  (last.pool.copies.size ≤ no → Notice.writes txn page no notices = [])
    ∧ ((last.pool.copy no).id = page → ∃ bytes,
      Edit.applyAll? (Notice.writes txn page no notices) bytes = some (last.pool.copy no).bytes)
  := by
  induction turns with
  | start => exact ⟨fun _ => rfl, fun _ => ⟨_, rfl⟩⟩
  | @turn old new middle last before turn ih =>
    have owned' := before.owned owned
    have numbered' := (turn.grows owned').numbered numbered
    obtain ⟨unwritten, written⟩ := ih numbered' holding.append.1
    have held' := before.held owned holding.append.1 held
    have turned := turn.pageTurn owned' (before.imaged owned imaged numbered') numbered
      holding.append.2 held'
    obtain ⟨copies, named⟩ := turned.named
    rw [Notice.writes_append]
    constructor
    · intro new
      rw [unwritten (Nat.le_trans copies new), turned.unwritten (Nat.le_trans copies new)]
      rfl
    · intro id
      by_cases allocated : no < middle.pool.copies.size
      · rw [named no allocated] at id
        obtain ⟨bytes, applied⟩ := written id
        use bytes
        rw [Edit.applyAll?, List.foldlM_append]
        exact (congrArg (· >>= _) applied).trans (turned.written allocated id)
      · rw [unwritten (Nat.not_lt.mp allocated), turned.unwritten (Nat.not_lt.mp allocated)]
        exact ⟨_, rfl⟩

/-- A copy `no` that is marked is `Standing` after the `rest` of the turns, which mark no other,
write nothing else to it, and do not discard `page`. -/
theorem Turns.standing {first rest : List Notice}
    (turns : service.Turns (first ++ .marked txn page no :: rest) last) (owned : service.Owned)
    (imaged : service.pool.Imaged) (numbered : ∀ no, (last.pool.store no).Numbered)
    (holding : Notice.Holding txn page (first ++ .marked txn page no :: rest))
    (held : service.pool.locks.modeOf? page txn = some .exclusive)
    (unmarked : ∀ other, .marked txn page other ∉ rest)
    (followed : ∀ edit, .wrote txn page no edit ∉ rest) (kept : .discarded page ∉ rest) :
  Standing txn page no last.pool
  := by
  generalize told : first ++ .marked txn page no :: rest = notices at turns holding
  induction turns generalizing rest with
  | start => cases List.append_ne_nil_of_right_ne_nil first (List.cons_ne_nil _ rest) told
  | @turn old new middle last before turn ih =>
    have owned' := before.owned owned
    have numbered' := (turn.grows owned').numbered numbered
    have turned := turn.pageTurn owned' (before.imaged owned imaged numbered') numbered
      holding.append.2 (before.held owned holding.append.1 held)
    match new, turn.length_le with
    | [], _ =>
      rw [List.append_nil] at told
      have standing := ih numbered' unmarked followed kept told holding.append.1
      exact turned.standing standing (fun _ => List.not_mem_nil) (fun _ => List.not_mem_nil)
        List.not_mem_nil
    | [notice], _ =>
      rcases rest.eq_nil_or_concat with rfl | ⟨rest, final, rfl⟩
      · obtain ⟨rfl, same⟩ := List.append_inj' told rfl
        cases same
        exact turned.standing_marked
      · rw [List.concat_eq_append] at told unmarked followed kept
        rw [← List.cons_append, ← List.append_assoc] at told
        simp only [List.mem_append, not_or] at unmarked followed kept
        obtain ⟨rfl, same⟩ := List.append_inj' told rfl
        cases same
        have standing := ih numbered' (fun other => (unmarked other).1)
          (fun edit => (followed edit).1) kept.1 rfl holding.append.1
        exact turned.standing standing (fun other => (unmarked other).2)
          (fun edit => (followed edit).2) kept.2

/-- While changes of `page` are not stored, the copy `no` that is `Standing` is handed out to
whoever fetches `page`. -/
theorem Standing.handed (standing : Standing txn page no pool) (tidy : pool.Tidy)
    (changed : (pool.changer? page).isSome) {access : Access} {handed : CopyNo}
    (answer : (pool.fetch other page access).1 = .page handed) :
  handed = no
  := by
  rcases standing.last with ⟨found, -⟩ | ⟨clean, -⟩
  · have relocks : Call.requesting.relocks pool.locks
        (pool.locks.request page other access.lockMode).2 := trivial
    obtain ⟨-, -, cached⟩ := moves_fetch tidy other page access relocks
    obtain ⟨-, frame, found', rfl⟩ := cached handed answer
    have stays := (unaltered_fetch tidy page other page access).dirty _ found rfl
    cases found'.symm.trans stays
    rfl
  · simp [clean] at changed

/-- What a transaction that has `page` locked exclusively writes through the handles of the copy
`no` that it marks last is stored when it commits: every byte is the one that was written there
last.  Handles that it is handed while its changes are not stored yet are of that copy.  The
transaction alters `page` through handles only and marks what it has written, and `page` is not
given up after that. -/
theorem Turns.stored_of_marked {config : PoolConfig} {catalog : Registry TableId StoreNo}
    {stores : Array Store} {start : Pool} {told first rest : List Notice}
    (created : Pool.create config catalog stores = .ok start) (catalogued : start.Catalogued)
    (before : (PoolService.start start).Turns told service)
    (held : service.pool.locks.modeOf? page txn = some .exclusive)
    (turns : service.Turns (first ++ .marked txn page no :: rest) last)
    (holding : Notice.Holding txn page (first ++ .marked txn page no :: rest))
    (unmarked : ∀ other, .marked txn page other ∉ rest)
    (followed : ∀ edit, .wrote txn page no edit ∉ rest) (kept : .discarded page ∉ rest)
    (ok : (last.pool.complete txn true).1 = .ok ())
    (numbered : ∀ no, ((last.pool.complete txn true).2.store no).Numbered) :
  (∃ image, (last.pool.complete txn true).2.stored page = some image
      ∧ ∀ i byte,
        Edit.last? (Notice.writes txn page no (first ++ .marked txn page no :: rest)) i
          = some byte →
        image[i]? = some byte)
    ∧ ∀ access handed, (last.pool.changer? page).isSome →
        (last.pool.fetch txn page access).1 = .page handed → handed = no
  := by
  have owned : service.Owned := before.owned ⟨guarded_start created, fun _ => rfl⟩
  have numbered' := (last.pool.grows_complete txn true).numbered numbered
  have imaged : service.pool.Imaged :=
    before.imaged ⟨guarded_start created, fun _ => rfl⟩ (imaged_create created catalogued)
      ((turns.grows owned).numbered numbered')
  have owned' := turns.owned owned
  obtain ⟨-, written⟩ := turns.written owned imaged numbered' holding held no
  have standing := turns.standing owned imaged numbered' holding held unmarked followed kept
  constructor
  · obtain ⟨bytes, applied⟩ := written standing.named
    use (last.pool.copy no).bytes
    use standing.stored owned'.guarded.tidy (turns.imaged owned imaged numbered') ok numbered
    intro i byte put
    rw [Edit.getElem?_applyAll? applied, put, Option.some_or]
  · intro access handed changed answer
    apply standing.handed owned'.guarded.tidy changed answer

/-! ### Two handles of a page -/

/-- `roomForOne` after a transaction has fetched the first page to change it, the second one, and
the first one again, so that it has two copies of it. -/
def twoHandles : Pool :=
  let first := ((Call.fetch ⟨1, 0⟩ .readWrite).round ⟨0⟩ Pool.roomForOne).2
  let second := ((Call.fetch ⟨1, 1⟩ .readOnly).round ⟨0⟩ first).2
  ((Call.fetch ⟨1, 0⟩ .readWrite).round ⟨0⟩ second).2

/-- `twoHandles` after the transaction has then written to both copies and marked each. -/
def bothMarked : Pool :=
  (twoHandles.perform (.update ⟨0⟩ 0 [9, 2, 3, 4])).perform (.update ⟨0⟩ 2 [1, 8, 3, 4])

/-- A transaction `alone` fetches `page` in turns, if it is in no other call and does not have to
wait. -/
theorem turns_fetch (pool : Pool) {before : Option Activity}
    (free : ∀ call, before ≠ some (.calling call)) (page : PageId) (access : Access)
    (answered : (((Call.fetch page access).round ⟨0⟩ pool).1.leadsTo) = .idle) :
  (alone pool before).Turns [] (alone ((Call.fetch page access).round ⟨0⟩ pool).2 (some .idle))
  := by
  let call : Call := .fetch page access
  have entered : Turn (alone pool before) [] (alone pool (some (.calling call))) := by
    have enter := @Turn.enter (alone pool before) ⟨0⟩ (.fetch page access)
      (by simpa [Free, alone] using free) trivial
    rw [moved_alone] at enter
    exact enter
  have fetched : Turn (alone pool (some (.calling call))) []
      (alone (call.round ⟨0⟩ pool).2 (some .idle)) := by
    have round := @Turn.round (alone pool (some (.calling call))) ⟨0⟩ call (by simp [alone])
    rw [moved_alone] at round
    exact answered ▸ round
  exact (Turns.start.turn entered).turn fetched

theorem Turns.trans {notices notices' : List Notice} (first : service.Turns notices middle)
    (second : middle.Turns notices' last) :
  service.Turns (notices ++ notices') last
  := by
  induction second with
  | start =>
    rw [List.append_nil]
    apply first
  | turn _ turn ih =>
    rw [← List.append_assoc]
    apply ih.turn turn

theorem turns_twoHandles :
  (PoolService.start Pool.roomForOne).Turns [] (alone twoHandles (some .idle))
  := by
  have start : PoolService.start Pool.roomForOne = alone Pool.roomForOne none := by
    simp [PoolService.start, alone]
  rw [start]
  have fresh : ∀ call, none ≠ some (Activity.calling call) := by simp
  have free : ∀ call, some Activity.idle ≠ some (.calling call) := by simp
  have first := turns_fetch Pool.roomForOne fresh ⟨1, 0⟩ .readWrite rfl
  exact (first.trans (turns_fetch _ free ⟨1, 1⟩ .readOnly rfl)).trans
    (turns_fetch _ free ⟨1, 0⟩ .readWrite rfl)

theorem turns_bothMarked :
  (alone twoHandles (some .idle)).Turns
    [.wrote ⟨0⟩ ⟨1, 0⟩ 0 ⟨0, [9]⟩, .marked ⟨0⟩ ⟨1, 0⟩ 0,
      .wrote ⟨0⟩ ⟨1, 0⟩ 2 ⟨1, [8]⟩, .marked ⟨0⟩ ⟨1, 0⟩ 2]
    (alone bothMarked (some .idle))
  := by
  have wrote := Turns.start.turn (@Turn.write (alone twoHandles (some .idle)) ⟨0⟩ 0 ⟨0, [9]⟩
    [9, 2, 3, 4] (by decide) rfl rfl)
  have marked := wrote.turn (@Turn.mark _ ⟨0⟩ 0 _ (by decide) rfl)
  have wrote' := marked.turn (@Turn.write _ ⟨0⟩ 2 ⟨1, [8]⟩ [1, 8, 3, 4] (by decide) rfl rfl)
  exact wrote'.turn (@Turn.mark _ ⟨0⟩ 2 _ (by decide) rfl)

/-- In `roomForOne`, what was written through the handle that was marked last, of copy 2, is
stored. -/
theorem stored_of_marked_roomForOne :
  Pool.create Pool.roomForOne.config Pool.roomForOne.catalog Pool.roomForOne.stores
      = .ok Pool.roomForOne
    ∧ ∃ service last, (PoolService.start Pool.roomForOne).Turns [] service
      ∧ service.Turns
        [.wrote ⟨0⟩ ⟨1, 0⟩ 0 ⟨0, [9]⟩, .marked ⟨0⟩ ⟨1, 0⟩ 0,
          .wrote ⟨0⟩ ⟨1, 0⟩ 2 ⟨1, [8]⟩, .marked ⟨0⟩ ⟨1, 0⟩ 2] last
      ∧ ∃ image, (last.pool.complete ⟨0⟩ true).2.stored ⟨1, 0⟩ = some image
        ∧ image[1]? = some 8
  := by
  have created : Pool.create Pool.roomForOne.config Pool.roomForOne.catalog Pool.roomForOne.stores
      = .ok Pool.roomForOne := rfl
  have catalogued : Pool.roomForOne.Catalogued := by
    intro table no found
    obtain ⟨rfl, rfl⟩ : 1 = table ∧ 0 = no := by
      simpa [Pool.roomForOne, Registry.get?, Registry.lookup] using found
    decide
  refine ⟨created, _, _, turns_twoHandles, turns_bothMarked, ?_⟩
  have numbered : ∀ no, ((bothMarked.complete ⟨0⟩ true).2.store no).Numbered :=
    System.numbered_of_one_store rfl (by decide)
  let first : List Notice :=
    [.wrote ⟨0⟩ ⟨1, 0⟩ 0 ⟨0, [9]⟩, .marked ⟨0⟩ ⟨1, 0⟩ 0, .wrote ⟨0⟩ ⟨1, 0⟩ 2 ⟨1, [8]⟩]
  have turns : (alone twoHandles (some .idle)).Turns (first ++ .marked ⟨0⟩ ⟨1, 0⟩ 2 :: [])
      (alone bothMarked (some .idle)) := turns_bothMarked
  obtain ⟨⟨image, stored, put⟩, -⟩ :=
    Turns.stored_of_marked created catalogued turns_twoHandles rfl turns
      ⟨by decide, by decide, by decide⟩ (fun _ => List.not_mem_nil) (fun _ => List.not_mem_nil)
      List.not_mem_nil rfl numbered
  exact ⟨image, stored, put 1 8 rfl⟩

/-- In `roomForOne`, what was written through the other handle, of copy 0, and marked as well is
lost. -/
theorem lost_in_roomForOne :
  ∃ service last, (PoolService.start Pool.roomForOne).Turns [] service
    ∧ service.pool.locks.modeOf? ⟨1, 0⟩ ⟨0⟩ = some .exclusive
    ∧ service.Turns
      [.wrote ⟨0⟩ ⟨1, 0⟩ 0 ⟨0, [9]⟩, .marked ⟨0⟩ ⟨1, 0⟩ 0,
        .wrote ⟨0⟩ ⟨1, 0⟩ 2 ⟨1, [8]⟩, .marked ⟨0⟩ ⟨1, 0⟩ 2] last
    ∧ (last.pool.complete ⟨0⟩ true).1 = .ok ()
    ∧ (last.pool.complete ⟨0⟩ true).2.stored ⟨1, 0⟩ = some [1, 8, 3, 4]
  := ⟨_, _, turns_twoHandles, rfl, turns_bothMarked, rfl, rfl⟩

end PoolService

end StorageEngine

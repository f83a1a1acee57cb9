import StorageEngine.Proofs.System.Calling

/-!
# Room for a tuple

An insertion into a heap table asks whether a page has room before it waits for the lock under
which it stores its tuple, or it appends a page before it locks it.  A page that was found to have
room has it until the tuple is stored: the transaction holds it, so nobody else changes it.  And so
has a page that was appended, unless another transaction has put something into it in between
(`Calling.finds_room`).  That may happen where the other one was once told that there is no such
page, and has kept its lock (`System.insufficientSpace_noPages`).
-/

namespace StorageEngine

/-! ### Pages as they were appended -/

/-- Whether an event puts something into `page`. -/
def Event.fills (page : PageId) : Event → Prop
  | .updated _ other _ => other = page
  | .inserted _ record _ => record.page = page
  | _ => False

namespace Workspaces

variable {spaces after : Workspaces} {page : PageId} {size : Nat} {event : Event}
  {events : List Event}

/-- Whether `page` is as it was appended with `size` bytes, for all transactions. -/
structure Blank (spaces : Workspaces) (page : PageId) (size : Nat) : Prop where
  committed : ∃ bytes, spaces.committed page = some bytes ∧ Store.emptyHeapPage size = .ok bytes
  overlay : ∀ txn, spaces.overlay txn page = none

theorem Blank.view_eq (blank : spaces.Blank page size) (txn : TransactionId) :
  spaces.view txn page = spaces.committed page
  := by
  rw [view, blank.overlay, Option.none_or]

/-- A `Blank` page stays so in a `step` whose `event` does not fill it. -/
theorem Step.blank (step : spaces.Step event after) (blank : spaces.Blank page size)
    (unfilled : ¬ event.fills page) :
  after.Blank page size
  := by
  obtain ⟨bytes, committed, empty⟩ := blank.committed
  cases step with
  | fetched | scanning | scanned => exact ⟨⟨bytes, committed, empty⟩, blank.overlay⟩
  | updated | inserted =>
    refine ⟨⟨bytes, committed, empty⟩, ?_⟩
    intro other
    rw [overlay_put, if_neg, blank.overlay]
    rintro ⟨-, rfl⟩
    apply unfilled rfl
  | @deleted txn record before after seen deleted =>
    refine ⟨⟨bytes, committed, empty⟩, ?_⟩
    intro other
    rw [overlay_put, if_neg, blank.overlay]
    rintro ⟨-, rfl⟩
    -- There is nothing to delete in the page.
    rw [blank.view_eq, committed] at seen
    cases seen
    rw [SlottedPage.delete_init (Store.init_of_emptyHeapPage empty)] at deleted
    cases deleted
  | @grown place image _ new =>
    refine ⟨⟨bytes, ?_, empty⟩, blank.overlay⟩
    rw [committed_grow, if_neg, committed]
    rintro rfl
    cases new.symm.trans committed
  | @committed txn =>
    refine ⟨⟨bytes, (blank.view_eq txn).trans committed, empty⟩, ?_⟩
    intro other
    rw [commit, overlay_drop, blank.overlay, ite_self]
  | aborted =>
    refine ⟨⟨bytes, committed, empty⟩, ?_⟩
    intro other
    rw [overlay_drop, blank.overlay, ite_self]

theorem Run.blank (run : spaces.Run events after) (blank : spaces.Blank page size)
    (unfilled : ∀ event ∈ events, ¬ event.fills page) :
  after.Blank page size
  := by
  induction run with
  | stop => apply blank
  | step step rest ih =>
    rw [List.forall_mem_cons] at unfilled
    apply ih (step.blank blank unfilled.1) unfilled.2

/-- A `page` that was just appended is `Blank`. -/
theorem Run.blank_of_grown {bytes : Bytes} (run : spaces.Run [.grown page bytes] after)
    (empty : Store.emptyHeapPage size = .ok bytes) :
  after.Blank page size
  := by
  cases run with
  | step step rest =>
    cases rest
    cases step with
    | grown new unseen =>
      refine ⟨⟨bytes, ?_, empty⟩, unseen⟩
      rw [committed_grow, if_pos rfl]

end Workspaces

/-! ### Failures for lack of room -/

/-- Whether a call has failed for lack of room in a page, by its `outcome`. -/
def Outcome.LacksRoom (outcome : Outcome) : Prop :=
  outcome.result = .error (.error (.pool (.page .insufficientSpace)))

theorem Outcome.lacksRoom_failure_iff {failure : Failure PoolError} :
  (Outcome.failure failure).LacksRoom ↔ failure = .error (.page .insufficientSpace)
  := by
  cases failure <;> simp [Outcome.failure, LacksRoom, Failure.map]

variable {pool after : Pool} {txn : TransactionId} {page : PageId} {tuple : Bytes}

/-- No `cause` with `cause.OfStore` is an error of a page. -/
theorem PoolError.OfStore.ne_page {cause : PoolError} (ofStore : cause.OfStore)
    (error : PageError) :
  cause ≠ .page error
  := by
  rintro rfl
  apply ofStore

/-- `pool.fetch` fails with no error of a page, whatever is in it. -/
theorem Pool.fetch_ne_page {access : Access} {failure : Failure PoolError}
    (eq : pool.fetch txn page access = (.failed failure, after)) (error : PageError) :
  failure ≠ .error (.page error)
  := by
  obtain ⟨locks, -, eq'⟩ | ⟨locks, -, eq'⟩
    | ⟨locks, -, ⟨copy, after', loaded, eq'⟩ | ⟨failure', after', loaded, eq'⟩⟩ :=
    pool.fetch_cases txn page access
  all_goals cases eq.symm.trans eq'
  · rintro ⟨⟩
  · rintro rfl
    obtain ⟨frame, -, eq''⟩ | ⟨-, -, eq''⟩
      | ⟨room, stores, -, -, -, -, ⟨failure, ofStore, eq''⟩ | ⟨bytes, -, -, eq''⟩⟩ :=
      Pool.load_cases { pool with locks } page
    all_goals cases loaded.symm.trans eq''
    apply (ofStore _ rfl).ne_page error rfl

/-- `store` of a `tuple` that the page `hasRoom` for does not end for lack of room. -/
theorem Call.Storing.not_lacksRoom {copy : CopyNo} {outcome : Outcome}
    (storing : Storing txn tuple copy pool (.done outcome) after)
    (room : SlottedPage.hasRoom (pool.copy copy).bytes tuple.length = .ok true)
    (some : tuple ≠ []) :
  ¬ outcome.LacksRoom
  := by
  cases storing with
  | @refused failure _ inserted =>
    have roomy := SlottedPage.insert_ne_insufficientSpace room some
    rw [inserted] at roomy
    rw [Outcome.lacksRoom_failure_iff]
    cases failure with
    | error cause =>
      rintro ⟨⟩
      apply roomy rfl
    | fault fault => rintro ⟨⟩
  | @unmarked _ bytes _ _ _ marked =>
    obtain ⟨-, installed⟩ | ⟨-, ⟨cache, -, installed⟩ | installed⟩ := Pool.install_cases
      (pool.setCopy copy { pool.copy copy with bytes }) txn copy
    all_goals
      cases marked.symm.trans installed
    rintro ⟨⟩
  | stored => rintro ⟨⟩

/-! ### What an insertion knows of the room for its tuple -/

/-- Whether the insertion of `tuple` by `txn` that began in `begun` has appended `page`, and
`since` has happened after that. -/
def Appended (txn : TransactionId) (table : TableId) (tuple : Bytes) (begun : System)
    (events : List Event) (page : PageId) (since : List Event) : Prop :=
  ∃ earlier paused, Calling txn (.insert table tuple) begun earlier
      (.grown page (.place page tuple)) paused
    ∧ events = earlier ++ since

/-- Whether another transaction has put something into `page` since the insertion by `txn` has
appended it. -/
def Crowded (txn : TransactionId) (table : TableId) (tuple : Bytes) (begun : System)
    (events : List Event) (page : PageId) : Prop :=
  ∃ since, Appended txn table tuple begun events page since
    ∧ ∃ event ∈ since, event.fills page ∧ event.actor? ≠ some txn

/-- What an insertion knows of `page`, where it is to store its tuple: `txn` holds it and sees room
in it; or the insertion has appended it, and it is still `Blank` or `Crowded`. -/
inductive Finds (txn : TransactionId) (table : TableId) (tuple : Bytes) (begun : System)
    (size : Nat)
    (pool : Pool) (spaces : Workspaces) (events : List Event) (page : PageId) : Prop where
  | held {bytes : Bytes} (holds : (pool.locks.modeOf? page txn).isSome)
      (seen : spaces.view txn page = some bytes)
      (room : SlottedPage.hasRoom bytes tuple.length = .ok true)
  | appended {since : List Event} (appended : Appended txn table tuple begun events page since)
      (blank : spaces.Blank page size)
  | crowded (crowded : Crowded txn table tuple begun events page)

section

variable {table : TableId} {begun system : System} {size : Nat} {spaces spaces' : Workspaces}
  {events more since : List Event} {stage next : Round} {no : StoreNo} {rest : List PageNo}

theorem Appended.append (appended : Appended txn table tuple begun events page since)
    (more : List Event) :
  Appended txn table tuple begun (events ++ more) page (since ++ more)
  := by
  obtain ⟨earlier, paused, calling, rfl⟩ := appended
  exact ⟨earlier, paused, calling, List.append_assoc ..⟩

theorem Crowded.append (crowded : Crowded txn table tuple begun events page)
    (more : List Event) :
  Crowded txn table tuple begun (events ++ more) page
  := by
  obtain ⟨since, appended, event, member, filled⟩ := crowded
  exact ⟨since ++ more, appended.append more, event, List.mem_append_left _ member, filled⟩

/-- In a `Crowded` page, somebody else than `txn` has put something. -/
theorem Crowded.exists_mem (crowded : Crowded txn table tuple begun events page) :
  ∃ event ∈ events, event.fills page ∧ event.actor? ≠ some txn
  := by
  obtain ⟨since, ⟨earlier, paused, -, rfl⟩, event, member, filled⟩ := crowded
  exact ⟨event, List.mem_append_right _ member, filled⟩

/-- What `txn` sees in the page that it `Finds` `hasRoom` for `tuple`, unless the page is
`Crowded`. -/
theorem Finds.hasRoom {bytes : Bytes}
    (finds : Finds txn table tuple begun size pool spaces events page)
    (short : size - SlottedPage.headerSize < UInt32.size)
    (fits : tuple.length + SlottedPage.slotSize ≤ size - SlottedPage.headerSize)
    (seen : spaces.view txn page = some bytes) :
  SlottedPage.hasRoom bytes tuple.length = .ok true ∨ Crowded txn table tuple begun events page
  := by
  cases finds with
  | held _ seen' room =>
    left
    cases seen.symm.trans seen'
    apply room
  | appended _ blank =>
    left
    obtain ⟨empty, committed, made⟩ := blank.committed
    rw [blank.view_eq, committed] at seen
    cases seen
    apply SlottedPage.hasRoom_init (Store.init_of_emptyHeapPage made)
    · simpa using short
    · simpa using fits
  | crowded crowded =>
    right
    apply crowded

/-- A page that `txn` `Finds` stays so in a step of others, which leave its room, or crowd it. -/
theorem Finds.others {after : System}
    (finds : Finds txn table tuple begun size system.pool spaces events page)
    (tracks : system.Tracks spaces) (step : System.Step system more after)
    (run : spaces.Run more spaces') (foreign : ∀ event ∈ more, event.actor? ≠ some txn) :
  Finds txn table tuple begun size after.pool spaces' (events ++ more) page
  := by
  cases finds with
  | held holds seen room =>
    have unaltered : ∀ event ∈ more, ¬ event.alters txn :=
      fun event member => Event.not_alters (foreign event member)
    have unended : ∀ commits result, .ended txn commits result ∉ more :=
      fun commits result member => unaltered _ member rfl
    -- The lock keeps others from changing what the transaction sees.
    apply Finds.held (tracks.mirrors.holds tracks.tidy step unended holds) _ room
    rw [tracks.mirrors.view_of_step step run unaltered holds (Option.isSome_of_mem seen), seen]
  | appended appended blank =>
    by_cases filled : ∃ event ∈ more, event.fills page
    · obtain ⟨event, member, fills⟩ := filled
      apply Finds.crowded
      exact ⟨_, appended.append more, event, List.mem_append_right _ member, fills,
        foreign event member⟩
    · apply Finds.appended (appended.append more)
      apply run.blank blank
      rintro event member fills
      apply filled ⟨event, member, fills⟩
  | crowded crowded => apply Finds.crowded (crowded.append more)

/-- What is known of an insertion of `tuple` into `table`, whose pages have `size` bytes. -/
def Call.Roomy (txn : TransactionId) (table : TableId) (tuple : Bytes) (begun : System) (size : Nat)
    (pool : Pool) (spaces : Workspaces) (events : List Event) : Call → Prop
  | .probe no tuple' _ _ _ => tuple' = tuple ∧ (pool.store no).shape = .inl size
  | .place page tuple' =>
    tuple' = tuple ∧ Finds txn table tuple begun size pool spaces events page
  | _ => False

/-- What is known of an insertion of `tuple` at any time: it fails for lack of room only if the
page that it has appended is `Crowded`. -/
def Round.Roomy (txn : TransactionId) (table : TableId) (tuple : Bytes) (begun : System)
    (size : Nat) (pool : Pool) (spaces : Workspaces) (events : List Event) : Round → Prop :=
  Round.Comes (fun outcome => outcome.LacksRoom → ∃ page, Crowded txn table tuple begun events page)
    (Call.Roomy txn table tuple begun size pool spaces events)

theorem Round.roomy_failure {failure : Failure PoolError}
    (other : ∀ error, failure ≠ .error (.page error)) :
  (Round.done (.failure failure)).Roomy txn table tuple begun size pool spaces events
  := by
  intro lacks
  cases other _ (Outcome.lacksRoom_failure_iff.mp lacks)

/-- A `stage` that is `Roomy` stays so in a step of others. -/
theorem Round.Roomy.others {after : System}
    (roomy : stage.Roomy txn table tuple begun size system.pool spaces events)
    (tracks : system.Tracks spaces) (step : System.Step system more after)
    (run : spaces.Run more spaces') (foreign : ∀ event ∈ more, event.actor? ≠ some txn) :
  stage.Roomy txn table tuple begun size after.pool spaces' (events ++ more)
  := by
  apply Comes.imp roomy
  · intro outcome roomy lacks
    obtain ⟨page, crowded⟩ := roomy lacks
    exact ⟨page, crowded.append more⟩
  · intro call roomy
    cases call with
    | probe no =>
      have same := (tracks.mirrors.sameTables tracks.tidy step).shape no
      exact ⟨roomy.1, same.trans roomy.2⟩
    | place => exact ⟨roomy.1, roomy.2.others tracks step run foreign⟩
    | _ => cases roomy

/-! ### Rounds of an insertion -/

/-- Where a call goes on to look for room or appends an empty page, the stage is `Roomy`. -/
theorem Call.roomy_entering (well : pool.WellStored)
    (catalogued : pool.catalog.get? (pool.store no).table = some no)
    (shape : (pool.store no).shape = .inl size)
    (entering : Entering txn no tuple pool rest stage after)
    (numbered : ∀ no, (after.store no).Numbered) (run : spaces.Run (stage.appended after) spaces')
    (calling : Calling txn (.insert table tuple) begun events stage system) :
  stage.Roomy txn table tuple begun size after spaces' events
  := by
  cases entering with
  | next => exact ⟨rfl, shape⟩
  | refused allocated =>
    apply Round.roomy_failure
    rintro error rfl
    apply (Store.ofStore_allocate allocated).ne_page error rfl
  | @grown page store allocated =>
    have inside := (well.catalogued _ _ catalogued).1
    have numbered := numbered no
    rw [Pool.store_setStore, if_pos ⟨rfl, inside⟩] at numbered
    obtain ⟨-, -, -, file, bytes, medium, empty, stored⟩ :=
      Pool.allocate_spec well catalogued allocated numbered
    have paged : file.pageSize = size :=
      Sum.inl.inj ((Store.shape_heap medium).symm.trans shape)
    have image : (pool.setStore no store).stored page = some bytes := by
      rw [stored, if_pos rfl]
    rw [Round.appended, image] at run
    refine ⟨rfl, .appended ⟨events, system, calling, (List.append_nil _).symm⟩ ?_⟩
    apply run.blank_of_grown (paged ▸ empty)

/-- After a round of `.probe` the stage is `Roomy`: a page is found to have room, and `txn` holds
it, or the insertion goes on. -/
theorem Call.roomy_probe {pageNo : PageNo} {alreadyHeld : Bool} {paused : System}
    (tracks : system.Tracks spaces)
    (under : system.doing txn = .calling (.probe no tuple pageNo alreadyHeld rest))
    (shape : (system.pool.store no).shape = .inl size)
    (eq : (probe no tuple pageNo alreadyHeld rest).round txn system.pool = (next, after))
    (numbered : ∀ no, (after.store no).Numbered) (run : spaces.Run (next.appended after) spaces')
    (calling : Calling txn (.insert table tuple) begun events next paused) :
  next.Roomy txn table tuple begun size after spaces' events
  := by
  have suits := tracks.mirrors.suits txn
  rw [under] at suits
  obtain ⟨catalogued, -⟩ := suits
  have same : system.pool.SameTables
      (system.pool.fetch txn ⟨(system.pool.store no).table, pageNo⟩ .readOnly).2 :=
    (Pool.keeps_fetch _ _ _ _ tracks.tidy).2
  obtain ⟨pool, faithful, -, -, -, fetched⟩ :=
    tracks.mirrors.fetch_cases under ⟨(system.pool.store no).table, pageNo⟩ .readOnly
  simp only [round] at eq
  rcases fetched with ⟨answer, -⟩ | ⟨failure, answer⟩ | ⟨frame, held, answer, -, holds, -, view⟩
  all_goals
    rw [answer] at eq same
    dsimp only at eq
  · cases eq
    exact ⟨rfl, (same.shape no).trans shape⟩
  · cases eq
    apply Round.roomy_failure (Pool.fetch_ne_page answer)
  · cases room : SlottedPage.hasRoom (pool.copy frame.copy).bytes tuple.length with
    | error fault =>
      rw [room] at eq
      cases eq
      apply Round.roomy_failure
      rintro error ⟨⟩
    | ok roomy =>
      rw [room] at eq
      cases roomy with
      | true =>
        cases eq
        -- Nothing has happened, so the transaction sees what it saw.
        cases run
        exact ⟨rfl, .held (Option.isSome_of_mem holds) view room⟩
      | false =>
        have catalogued : pool.catalog.get? (pool.store no).table = some no := by
          rw [same.catalog, same.table, catalogued]
        have shape := (same.shape no).trans shape
        dsimp only at eq
        cases alreadyHeld with
        | true =>
          have entering := Entering.of_enterProbe eq
          apply roomy_entering faithful.well catalogued shape entering numbered run calling
        | false =>
          have well : (pool.releasePage txn ⟨(system.pool.store no).table, pageNo⟩).WellStored :=
            ⟨faithful.well.catalogued, faithful.well.numbered, faithful.well.willing⟩
          have entering := Entering.of_enterProbe eq
          apply roomy_entering well catalogued shape entering numbered run calling

/-- After a round of `.place` the stage is `Roomy`: `tuple` is stored in `page`, if that is not
crowded. -/
theorem Call.roomy_place (tracks : system.Tracks spaces)
    (under : system.doing txn = .calling (.place page tuple))
    (finds : Finds txn table tuple begun size system.pool spaces events page)
    (short : size - SlottedPage.headerSize < UInt32.size) (some : tuple ≠ [])
    (fits : tuple.length + SlottedPage.slotSize ≤ size - SlottedPage.headerSize)
    (eq : (place page tuple).round txn system.pool = (next, after))
    (run : spaces.Run ((place page tuple).events txn after next) spaces') :
  next.Roomy txn table tuple begun size after spaces'
    (events ++ (place page tuple).events txn after next)
  := by
  obtain ⟨pool, -, -, -, -, fetched⟩ := tracks.mirrors.fetch_cases under page .readWrite
  simp only [round, Call.run, runPlace] at eq
  rcases fetched with ⟨answer, kept⟩ | ⟨failure, answer⟩ | ⟨frame, held, answer, -, -, -, view⟩
  all_goals
    rw [answer] at eq
    dsimp only at eq
  · cases eq
    cases run
    refine ⟨rfl, ?_⟩
    cases finds with
    | held holds seen room => exact .held (kept ▸ holds) seen room
    | appended appended blank => exact .appended (appended.append _) blank
    | crowded crowded => exact .crowded (crowded.append _)
  · cases eq
    apply Round.roomy_failure (Pool.fetch_ne_page answer)
  · rcases stored : store txn tuple frame.copy pool with ⟨progress, last⟩
    rw [stored] at eq
    have storing := Storing.of_store stored
    obtain ⟨outcome, rfl⟩ : ∃ outcome, progress = .done outcome := by
      cases storing with
      | refused | unmarked | stored => exact ⟨_, rfl⟩
    cases eq
    intro lacks
    -- What the transaction sees is what it stores the tuple in.
    rcases finds.hasRoom short fits view with room | crowded
    · cases storing.not_lacksRoom room some lacks
    · exact ⟨page, crowded.append _⟩

/-! ### Insertions -/

/-- Every `stage` of an insertion into a table with pages of `size` bytes is `Roomy`. -/
theorem Calling.roomy (tracks : begun.Tracks spaces)
    (found : begun.pool.catalog.get? table = some no)
    (shape : (begun.pool.store no).shape = .inl size)
    (short : size - SlottedPage.headerSize < UInt32.size) (some : tuple ≠ [])
    (fits : tuple.length + SlottedPage.slotSize ≤ size - SlottedPage.headerSize)
    (calling : Calling txn (.insert table tuple) begun events stage system)
    (numbered : ∀ no, (system.pool.store no).Numbered) :
  ∃ spaces', system.Tracks spaces'
    ∧ stage.Roomy txn table tuple begun size system.pool spaces' events
  := by
  induction calling with
  | @enter stage after free served eq =>
    obtain ⟨spaces', run, tracks'⟩ := tracks.step (.enter free served eq) numbered
    use spaces', tracks'
    have calling := Calling.enter free served eq
    have well := tracks.mirrors.faithful.well
    have own := (well.catalogued _ _ found).2
    obtain ⟨file, medium⟩ := served no found
    have paged : file.pageSize = size :=
      Sum.inl.inj ((Store.shape_heap medium).symm.trans shape)
    have fit : Call.fits file.pageSize tuple = true := by
      simp [Call.fits, some, paged, fits]
    simp only [Request.enter, Call.enterInsert, Pool.storeOf, found, medium, fit, if_true] at eq
    cases listed : (begun.pool.store no).pageNos with
    | error failure =>
      rw [listed] at eq
      cases eq
      apply Round.roomy_failure
      rintro error rfl
      apply (Store.ofStore_pageNos listed).ne_page error rfl
    | ok pages =>
      rw [listed] at eq
      have entering := Call.Entering.of_enterProbe eq
      apply Call.roomy_entering well (own ▸ found) shape entering numbered run calling
  | @round events stage next system call after calling goes eq ih =>
    have step := System.Step.round (calling.doing goes) eq
    obtain ⟨spaces', tracks', roomy⟩ := ih (step.grows.numbered numbered)
    obtain ⟨spaces'', run, tracks''⟩ := tracks'.step step numbered
    use spaces'', tracks''
    have roomy := Round.Comes.pending roomy goes
    cases call with
    | probe =>
      obtain ⟨rfl, shape⟩ := roomy
      apply Call.roomy_probe tracks' (calling.doing goes) shape eq numbered run
      apply calling.round goes eq
    | place =>
      obtain ⟨rfl, finds⟩ := roomy
      apply Call.roomy_place tracks' (calling.doing goes) finds short some fits eq run
    | _ => cases roomy
  | others _ step _ foreign ih =>
    obtain ⟨spaces', tracks', roomy⟩ := ih (step.grows.numbered numbered)
    obtain ⟨spaces'', run, tracks''⟩ := tracks'.step step numbered
    exact ⟨spaces'', tracks'', roomy.others tracks' step run foreign⟩

/-- Whatever transactions on a pool have done before, and whatever others do during an insertion
into a heap table of a `tuple` that fits an empty page: unless another transaction puts something
into a page that the insertion has appended, so that it is `Crowded`, the page where `tuple` is to
be stored has room for it whenever its exclusive lock is obtained, and the insertion does not fail
for lack of room. -/
theorem Calling.finds_room {config : PoolConfig} {catalog : Registry TableId StoreNo}
    {stores : Array Store} {start : Pool} (created : Pool.create config catalog stores = .ok start)
    (well : start.WellStored) {before : List Event} (run : (System.start start).Run before begun)
    {file : PageFile} (found : begun.pool.catalog.get? table = some no)
    (heap : (begun.pool.store no).medium = .heap file)
    (short : file.pageSize - SlottedPage.headerSize < UInt32.size) (some : tuple ≠ [])
    (fits : tuple.length + SlottedPage.slotSize ≤ file.pageSize - SlottedPage.headerSize)
    (calling : Calling txn (.insert table tuple) begun events stage system)
    (numbered : ∀ no, (system.pool.store no).Numbered)
    (alone : ∀ page, ¬ Crowded txn table tuple begun events page) :
  (∀ page, .place page tuple ∈ stage.pending? → ∀ copy after,
      system.pool.fetch txn page .readWrite = (.page copy, after) →
        SlottedPage.hasRoom (after.copy copy).bytes tuple.length = .ok true)
    ∧ ∀ outcome, stage = .done outcome →
        outcome.result ≠ .error (.error (.pool (.page .insufficientSpace)))
  := by
  have shape := Store.shape_heap heap
  obtain ⟨spaces, -, tracks⟩ :=
    (System.tracks_start created well).run run (calling.run.grows.numbered numbered)
  obtain ⟨spaces', tracks', roomy⟩ := calling.roomy tracks found shape short some fits numbered
  constructor
  · intro page goes copy after answer
    obtain ⟨-, finds⟩ := Round.Comes.pending roomy goes
    obtain ⟨pool, -, -, -, -, fetched⟩ :=
      tracks'.mirrors.fetch_cases (calling.doing goes) page .readWrite
    rcases fetched with ⟨answer', -⟩ | ⟨failure, answer'⟩ | ⟨frame, held, answer', -, -, -, view⟩
    all_goals cases answer.symm.trans answer'
    apply (finds.hasRoom short fits view).resolve_right (alone page)
  · rintro outcome rfl lacks
    obtain ⟨page, crowded⟩ := roomy lacks
    apply alone page crowded

end

/-! ### An insertion into a table without pages -/

namespace System

/-- `noPages` after a transaction was told that the table has no first page, whose lock it has
kept. -/
def noPagesAsked : Pool :=
  { noPages with
    locks := LockTable.empty.grant ⟨1, 0⟩ ⟨1⟩ .shared
    stores := #[{ noPages.store 0 with accesses := [⟨0, false, false⟩] }] }

/-- `noPagesAsked` when another transaction has appended the page. -/
def noPagesAppended : Pool :=
  { noPagesAsked with
    stores := #[{ noPagesGrown.store 0 with accesses := [⟨0, false, false⟩] }] }

/-- `noPagesAppended` when the other transaction waits for the page that it has appended. -/
def noPagesBlocked : Pool :=
  { noPagesAppended with locks := (noPagesAppended.locks.request ⟨1, 0⟩ ⟨0⟩ .exclusive).2 }

/-- `noPagesBlocked` after the first transaction has found room in the page. -/
def noPagesProbed : Pool :=
  { noPagesBlocked with
    cache := ⟨1, [⟨⟨1, 0⟩, 0, false⟩]⟩
    copies := #[⟨⟨1, 0⟩, emptyPage, none⟩]
    locks := (noPagesBlocked.locks.request ⟨1, 0⟩ ⟨1⟩ .shared).2
    stores := #[
      { noPagesGrown.store 0 with accesses := [⟨0, false, false⟩, ⟨0, false, false⟩] }] }

/-- `noPagesProbed` after the first transaction has stored a tuple in the page. -/
def noPagesOvertaken : Pool :=
  { noPagesProbed with
    cache := ⟨1, [⟨⟨1, 0⟩, 0, true⟩]⟩
    copies := #[⟨⟨1, 0⟩, filledPage, some ⟨1⟩⟩]
    locks := (noPagesProbed.locks.request ⟨1, 0⟩ ⟨1⟩ .exclusive).2 }

/-- `noPagesOvertaken` after the commit of the first transaction. -/
def noPagesLeft : Pool :=
  { noPagesOvertaken with
    cache := ⟨1, [⟨⟨1, 0⟩, 0, false⟩]⟩
    copies := #[⟨⟨1, 0⟩, filledPage, none⟩]
    locks := noPagesOvertaken.locks.releaseAll ⟨1⟩
    stores := #[
      { noPagesCommitted.store 0 with
        accesses := [⟨0, true, false⟩, ⟨0, false, false⟩, ⟨0, false, false⟩] }] }

/-- `noPagesLeft` after there was no room for the tuple of the other transaction. -/
def noPagesRefused : Pool :=
  { noPagesLeft with locks := (noPagesLeft.locks.request ⟨1, 0⟩ ⟨0⟩ .exclusive).2 }

/-- `noPagesBlocked` when the first transaction commits at once. -/
def noPagesFreed : Pool :=
  { noPagesBlocked with locks := noPagesBlocked.locks.releaseAll ⟨1⟩ }

/-- `noPagesFreed` after the tuple was stored. -/
def noPagesFilled : Pool :=
  { noPagesFreed with
    cache := ⟨1, [⟨⟨1, 0⟩, 0, true⟩]⟩
    copies := #[⟨⟨1, 0⟩, filledPage, some ⟨0⟩⟩]
    locks := (noPagesFreed.locks.request ⟨1, 0⟩ ⟨0⟩ .exclusive).2
    stores := noPagesProbed.stores }

/-- What happens on `noPages` until the tuple is stored. -/
def untilFilled : List Event :=
  [.grown ⟨1, 0⟩ emptyPage, .ended ⟨1⟩ true (.ok ()), .inserted ⟨0⟩ ⟨⟨1, 0⟩, 0⟩ [7]]

/-- `noPagesAsked` is reached from `noPages` without events: a transaction is told that there is no
page. -/
theorem run_noPagesAsked :
  ∃ begun, (System.start noPages).Run [] begun ∧ begun.pool = noPagesAsked
    ∧ ∀ txn, begun.doing txn = .idle
  := by
  have fetch : (Call.fetch ⟨1, 0⟩ .readOnly).round ⟨1⟩ noPages
    = (.done (.failure (.error (.disk (.invalidPageNo 0)))), noPagesAsked) := rfl
  have entered := Run.start.step
    (@Step.enter (System.start noPages) ⟨1⟩ (.fetch ⟨1, 0⟩ .readOnly) _ _ trivial trivial rfl)
  have asked := entered.step (@Step.round _ ⟨1⟩ (.fetch ⟨1, 0⟩ .readOnly) _ _ rfl fetch)
  refine ⟨_, asked, rfl, ?_⟩
  intro txn
  by_cases mine : txn = ⟨1⟩
  · rw [mine, doing_moved_self]
    rfl
  · rw [doing_moved_of_ne _ _ _ mine, doing_moved_of_ne _ _ _ mine]
    rfl

/-- In `noPagesBlocked` an insertion has appended the page, and waits for the transaction that has
locked it before. -/
theorem calling_noPagesBlocked {begun : System} (asked : begun.pool = noPagesAsked)
    (idle : ∀ txn, begun.doing txn = .idle) :
  ∃ paused, Calling ⟨0⟩ (.insert 1 [7]) begun [.grown ⟨1, 0⟩ emptyPage]
      (.waiting (.place ⟨1, 0⟩ [7])) paused
    ∧ paused.pool = noPagesBlocked ∧ paused.doing ⟨1⟩ = .idle
  := by
  have insert : (Request.insert 1 [7]).enter ⟨0⟩ begun.pool
    = (.grown ⟨1, 0⟩ (.place ⟨1, 0⟩ [7]), noPagesAppended) := by
    rw [asked]
    rfl
  have wait : (Call.place ⟨1, 0⟩ [7]).round ⟨0⟩ noPagesAppended
    = (.waiting (.place ⟨1, 0⟩ [7]), noPagesBlocked) := rfl
  have served : begun.pool.serves (.insert 1 [7]) := by
    rw [asked]
    apply serves_insert_of_one_table rfl rfl
  have free : (begun.doing ⟨0⟩).mayCall := by
    rw [idle]
    trivial
  refine ⟨_, (Calling.enter free served insert).round rfl wait, rfl, ?_⟩
  rw [doing_moved_of_ne _ _ _ (by decide), doing_moved_of_ne _ _ _ (by decide), idle]

/-- On `noPages`, the insertion stores its tuple when the other transaction has committed. -/
theorem finds_room_noPages :
  Pool.create noPages.config noPages.catalog noPages.stores = .ok noPages ∧ noPages.WellStored
    ∧ ∃ begun last outcome events, (System.start noPages).Run [] begun
      ∧ begun.pool.catalog.get? 1 = some 0 ∧ (begun.pool.store 0).medium = .heap (.empty 24)
      ∧ Calling ⟨0⟩ (.insert 1 [7]) begun events (.done outcome) last
      ∧ (∀ no, (last.pool.store no).Numbered)
      ∧ (∀ page, ¬ Crowded ⟨0⟩ 1 [7] begun events page)
      ∧ outcome.result ≠ .error (.error (.pool (.page .insufficientSpace)))
  := by
  have created : Pool.create noPages.config noPages.catalog noPages.stores = .ok noPages := rfl
  obtain ⟨begun, run, asked, idle⟩ := run_noPagesAsked
  obtain ⟨paused, waiting, blocked, idle⟩ := calling_noPagesBlocked asked idle
  have found : begun.pool.catalog.get? 1 = some 0 := by
    rw [asked]
    rfl
  have heap : (begun.pool.store 0).medium = .heap (.empty 24) := by
    rw [asked]
    rfl
  have complete : noPagesBlocked.complete ⟨1⟩ true = (.ok (), noPagesFreed) := rfl
  have place : (Call.place ⟨1, 0⟩ [7]).round ⟨0⟩ noPagesFreed
    = (.done { Outcome.answer (.inserted (some ⟨⟨1, 0⟩, 0⟩)) with record := some ⟨⟨1, 0⟩, 0⟩ },
      noPagesFilled) := rfl
  have ended := @Step.complete paused ⟨1⟩ true _ _ (idle ▸ trivial) (blocked ▸ complete)
  have placed := (waiting.others ended (doing_moved_of_ne _ _ _ (by decide))
    (by simp [Event.actor?])).round rfl place
  have numbered : ∀ no, (noPagesFilled.store no).Numbered :=
    numbered_of_one_store rfl (by decide)
  have alone : ∀ page, ¬ Crowded ⟨0⟩ 1 [7] begun untilFilled page := by
    intro page crowded
    obtain ⟨event, member, fills, foreign⟩ := crowded.exists_mem
    apply foreign
    have own : ∀ event ∈ untilFilled, event.fills page → event.actor? = some ⟨0⟩ := by
      simp [untilFilled, Event.fills, Event.actor?]
    apply own event member fills
  have room := Calling.finds_room created wellStored_noPages run found heap (by decide) (by decide)
    (by decide) placed numbered alone
  exact ⟨created, wellStored_noPages, begun, _, _, _, run, found, heap, placed, numbered, alone,
    room.2 _ rfl⟩

/-- On `noPages`, the insertion fails for lack of room if the other transaction has stored a tuple
in the page before it commits. -/
theorem insufficientSpace_noPages :
  Pool.create noPages.config noPages.catalog noPages.stores = .ok noPages ∧ noPages.WellStored
    ∧ ∃ begun last outcome events, (System.start noPages).Run [] begun
      ∧ begun.pool.catalog.get? 1 = some 0 ∧ (begun.pool.store 0).medium = .heap (.empty 24)
      ∧ noPages.config.pageSize = 24
      ∧ ([7] : Bytes).length + SlottedPage.slotSize ≤ 24 - SlottedPage.headerSize
      ∧ Calling ⟨0⟩ (.insert 1 [7]) begun events (.done outcome) last
      ∧ (∀ no, (last.pool.store no).Numbered)
      ∧ outcome.result = .error (.error (.pool (.page .insufficientSpace)))
  := by
  have created : Pool.create noPages.config noPages.catalog noPages.stores = .ok noPages := rfl
  obtain ⟨begun, run, asked, idle⟩ := run_noPagesAsked
  obtain ⟨paused, waiting, blocked, idle⟩ := calling_noPagesBlocked asked idle
  have found : begun.pool.catalog.get? 1 = some 0 := by
    rw [asked]
    rfl
  have heap : (begun.pool.store 0).medium = .heap (.empty 24) := by
    rw [asked]
    rfl
  have insert : (Request.insert 1 [7]).enter ⟨1⟩ paused.pool
    = (.next (.probe 0 [7] 0 true []), noPagesBlocked) := by
    rw [blocked]
    rfl
  have probe : (Call.probe 0 [7] 0 true []).round ⟨1⟩ noPagesBlocked
    = (.next (.place ⟨1, 0⟩ [7]), noPagesProbed) := rfl
  have place : (Call.place ⟨1, 0⟩ [7]).round ⟨1⟩ noPagesProbed
    = (.done { Outcome.answer (.inserted (some ⟨⟨1, 0⟩, 0⟩)) with record := some ⟨⟨1, 0⟩, 0⟩ },
      noPagesOvertaken) := rfl
  have complete : noPagesOvertaken.complete ⟨1⟩ true = (.ok (), noPagesLeft) := rfl
  have refused : (Call.place ⟨1, 0⟩ [7]).round ⟨0⟩ noPagesLeft
    = (.done (.failure (.error (.page .insufficientSpace))), noPagesRefused) := rfl
  have free : (paused.doing ⟨1⟩).mayCall := by
    rw [idle]
    trivial
  have served : paused.pool.serves (.insert 1 [7]) := by
    rw [blocked]
    apply serves_insert_of_one_table rfl rfl
  have other : (⟨0⟩ : TransactionId) ≠ ⟨1⟩ := by
    decide
  have begins := waiting.others (Step.enter free served insert) (doing_moved_of_ne _ _ _ other)
    (List.forall_mem_nil _)
  have probed := begins.others (@Step.round _ ⟨1⟩ (.probe 0 [7] 0 true []) _ _ rfl probe)
    (doing_moved_of_ne _ _ _ other) (List.forall_mem_nil _)
  have overtaken := probed.others (@Step.round _ ⟨1⟩ (.place ⟨1, 0⟩ [7]) _ _ rfl place)
    (doing_moved_of_ne _ _ _ other) (by simp [Call.events, Event.actor?, Outcome.answer])
  have ended := overtaken.others (@Step.complete _ ⟨1⟩ true _ _ trivial complete)
    (doing_moved_of_ne _ _ _ other) (by simp [Event.actor?])
  have last := ended.round rfl refused
  have numbered : ∀ no, (noPagesRefused.store no).Numbered :=
    numbered_of_one_store rfl (by decide)
  exact ⟨created, wellStored_noPages, begun, _, _, _, run, found, heap, rfl, by decide, last,
    numbered, rfl⟩

end System

end StorageEngine

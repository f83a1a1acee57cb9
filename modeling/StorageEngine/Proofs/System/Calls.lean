import StorageEngine.Proofs.Call.Cases
import StorageEngine.Proofs.SlottedPage.Layout
import StorageEngine.Proofs.System.Mirrors

/-!
# Workspaces follow calls

The workspaces that a system mirrors can follow the beginning of a call and each of its rounds by
the events that happen in it (`Mirrors.enter`, `Mirrors.advance`): a call has seen what its
transaction sees, and has changed what only its transaction may change.
-/

namespace StorageEngine.System

variable {system : System} {spaces : Workspaces} {txn : TransactionId} {pool after : Pool}
  {page : PageId} {frame : Frame} {bytes tuple : Bytes} {round : Round}

/-! ### Fetching -/

/-- What becomes of a fetch by `txn` in a call: it has to wait, and holds what it held; or it
fails; or it is answered by the cached copy of `page`, which is locked and holds what `txn` sees in
`spaces`. -/
theorem Mirrors.fetch_cases {call : Call} (mirrors : system.Mirrors spaces)
    (under : system.doing txn = .calling call) (page : PageId) (access : Access) :
  ∃ pool, pool.Faithful spaces (system.LooseBut txn)
    ∧ system.pool.Leaves txn spaces pool spaces
    ∧ (∀ place, place ≠ page →
        pool.locks.modeOf? place txn = system.pool.locks.modeOf? place txn)
    ∧ ((system.pool.locks.modeOf? page txn).isSome → (pool.locks.modeOf? page txn).isSome)
    ∧ (system.pool.fetch txn page access = (.waiting, pool)
          ∧ pool.locks.modeOf? page txn = system.pool.locks.modeOf? page txn
        ∨ (∃ failure, system.pool.fetch txn page access = (.failed failure, pool))
        ∨ ∃ frame held, system.pool.fetch txn page access = (.page frame.copy, pool)
          ∧ pool.cache.frame? page = some frame
          ∧ pool.locks.modeOf? page txn = some held ∧ held.satisfies access.lockMode = true
          ∧ spaces.view txn page = some (pool.copy frame.copy).bytes)
  := by
  have calm : ∀ page, ¬ (system.doing txn).disturbs page := by
    rw [under]
    intro page disturbed
    apply disturbed
  obtain ⟨faithful, left, elsewhere, kept, found⟩ := (mirrors.calm calm).fetch txn page access
  have unlocked := @Pool.modeOf?_fetch_of_waiting system.pool txn page access
  generalize system.pool.fetch txn page access = outcome at *
  obtain ⟨fetched, pool⟩ := outcome
  use pool, faithful, left, elsewhere, kept
  cases fetched with
  | waiting =>
    left
    use rfl, unlocked rfl
  | failed failure =>
    right
    left
    use failure
  | page copy =>
    right
    right
    obtain ⟨frame, held, here, rfl, holds, covers⟩ := found copy rfl
    use frame, held, rfl, here, holds, covers
    apply faithful.view_eq (Option.isSome_of_mem holds) _ here
    apply not_looseBut faithful left (Option.isSome_of_mem holds)

/-- A lock that satisfies that of `Access.readWrite` is exclusive. -/
theorem exclusive_of_covers {held : LockMode}
    (covers : held.satisfies Access.readWrite.lockMode = true) :
  held = .exclusive
  := by
  cases held with
  | exclusive => rfl
  | shared => cases covers

/-- `spaces` follow a round of `.fetch page access`. -/
theorem Mirrors.fetch {access : Access} (mirrors : system.Mirrors spaces)
    (under : system.doing txn = .calling (.fetch page access))
    (eq : (Call.fetch page access).round txn system.pool = (round, after)) :
  system.Follows spaces txn after ((Call.fetch page access).leadsTo round)
    ((Call.fetch page access).events txn after round)
  := by
  obtain ⟨pool, faithful, left, -, -, fetched⟩ := mirrors.fetch_cases under page access
  simp only [Call.round, Call.run, Call.runFetch] at eq
  rcases fetched with
    ⟨answer, -⟩ | ⟨failure, answer⟩ | ⟨frame, held, answer, here, holds, covers, view⟩
  · rw [answer] at eq
    cases eq
    have suits : (Activity.calling (.fetch page access)).Suits after spaces txn := trivial
    cases access <;> apply mirrors.silent faithful left suits
  · rw [answer] at eq
    cases eq
    cases access <;> apply mirrors.failed faithful left
  · rw [answer] at eq
    cases eq
    apply mirrors.follow (.single (.fetched view)) faithful left
    cases access with
    | readOnly => trivial
    | readWrite =>
      obtain ⟨allocated, named, -, -, size, stored⟩ := faithful.resident page frame here
      obtain rfl := exclusive_of_covers covers
      refine ⟨allocated, named, holds, size, stored, ?_, _, view, rfl⟩
      intro frame' here'
      cases here.symm.trans here'
      rfl

/-! ### Changing pages -/

/-- `spaces` follow a call that breaks off when it has put `bytes` into the copy of `page`. -/
theorem Mirrors.broken (mirrors : system.Mirrors spaces)
    (faithful : pool.Faithful spaces (system.LooseBut txn))
    (left : system.pool.Leaves txn spaces pool spaces)
    (found : pool.cache.frame? page = some frame)
    (exclusive : pool.locks.modeOf? page txn = some .exclusive)
    (size : bytes.length = (pool.copy frame.copy).bytes.length) :
  system.Follows spaces txn
    (pool.setCopy frame.copy { pool.copy frame.copy with bytes }) .faulted []
  := by
  obtain ⟨-, named, -⟩ := faithful.resident page frame found
  subst named
  use spaces, .stop spaces
  apply mirrors.moved
  · apply (faithful.edit size).mono
    rintro place kept - (loose | rfl)
    · left
      apply loose
    · right
      use exclusive
      trivial
  · apply left.trans
    apply (Pool.onlyAt_setCopy pool spaces frame.copy _).leaves
    · apply faithful.alone (Option.isSome_of_mem exclusive)
    · intro _ _
      rfl
    · intro _ _ _
      rfl
  · trivial

/-- `spaces` follow a call that puts `bytes` into the copy of `page` and marks it at once, by the
step of `event`. -/
theorem Mirrors.changed (mirrors : system.Mirrors spaces)
    (faithful : pool.Faithful spaces (system.LooseBut txn))
    (left : system.pool.Leaves txn spaces pool spaces)
    (found : pool.cache.frame? page = some frame)
    (exclusive : pool.locks.modeOf? page txn = some .exclusive)
    (size : bytes.length = (pool.copy frame.copy).bytes.length) {event : Event}
    (step : (∀ other, other ≠ txn → spaces.overlay other page = none) →
      spaces.Step event (spaces.put txn page (some bytes))) :
  ∃ after, (pool.setCopy frame.copy { pool.copy frame.copy with bytes }).installAll txn
      [frame.copy] = (.ok (), after)
    ∧ system.Follows spaces txn after .idle [event]
  := by
  obtain ⟨after, eq, faithful', left', -⟩ := faithful.rewrite found exclusive size
  use after, eq
  have alone : ∀ other, other ≠ txn → spaces.overlay other page = none :=
    fun other distinct => faithful.overlay_eq_none (Option.isSome_of_mem exclusive) distinct
  apply mirrors.follow (.single (step alone)) faithful' (left.trans left')
  trivial

/-- `spaces` follow a round of `.place page tuple`. -/
theorem Mirrors.place (mirrors : system.Mirrors spaces)
    (under : system.doing txn = .calling (.place page tuple))
    (eq : (Call.place page tuple).round txn system.pool = (round, after)) :
  system.Follows spaces txn after ((Call.place page tuple).leadsTo round)
    ((Call.place page tuple).events txn after round)
  := by
  obtain ⟨pool, faithful, left, -, -, fetched⟩ := mirrors.fetch_cases under page .readWrite
  simp only [Call.round, Call.run, Call.runPlace, Call.store] at eq
  rcases fetched with
    ⟨answer, -⟩ | ⟨failure, answer⟩ | ⟨frame, held, answer, here, holds, covers, view⟩
  · rw [answer] at eq
    cases eq
    apply mirrors.silent faithful left
    trivial
  · rw [answer] at eq
    cases eq
    apply mirrors.failed faithful left
  · rw [answer] at eq
    obtain rfl := exclusive_of_covers covers
    obtain ⟨-, named, -⟩ := faithful.resident page frame here
    have size := SlottedPage.length_insert (pool.copy frame.copy).bytes tuple
    have unchanged := @SlottedPage.insert_error (pool.copy frame.copy).bytes tuple
    dsimp only at eq
    cases inserted : SlottedPage.insert (pool.copy frame.copy).bytes tuple with
    | mk result bytes =>
      rw [inserted] at eq size unchanged
      cases result with
      | error failure =>
        cases failure with
        | error cause =>
          cases eq
          rw [unchanged rfl, Pool.setCopy_self]
          apply mirrors.failed faithful left (.error (.page cause))
        | fault fault =>
          cases eq
          apply mirrors.broken faithful left here holds size
      | ok slot =>
        obtain ⟨after', installed, follows⟩ := mirrors.changed faithful left here holds size
          fun alone => @Workspaces.Step.inserted _ _ ⟨page, slot⟩ _ _ _ view inserted alone
        simp only [installed, Call.finish, Round.last] at eq
        rw [named] at eq
        cases eq
        apply follows

/-- `spaces` follow a round of `.delete record`. -/
theorem Mirrors.delete {record : RecordId} (mirrors : system.Mirrors spaces)
    (under : system.doing txn = .calling (.delete record true))
    (eq : (Call.delete record true).round txn system.pool = (round, after)) :
  system.Follows spaces txn after ((Call.delete record true).leadsTo round)
    ((Call.delete record true).events txn after round)
  := by
  obtain ⟨pool, faithful, left, -, -, fetched⟩ := mirrors.fetch_cases under record.page .readWrite
  simp only [Call.round, Call.run, Call.runDelete] at eq
  rcases fetched with
    ⟨answer, -⟩ | ⟨failure, answer⟩ | ⟨frame, held, answer, here, holds, covers, view⟩
  · rw [answer] at eq
    cases eq
    apply mirrors.silent faithful left
    trivial
  · rw [answer] at eq
    cases eq
    apply mirrors.failed faithful left
  · rw [answer] at eq
    obtain rfl := exclusive_of_covers covers
    have size := SlottedPage.length_delete (pool.copy frame.copy).bytes record.slot
    dsimp only at eq
    cases deleted : SlottedPage.delete (pool.copy frame.copy).bytes record.slot with
    | mk result bytes =>
      rw [deleted] at eq size
      cases result with
      | error failure =>
        cases eq
        rw [SlottedPage.delete_error deleted, Pool.setCopy_self]
        apply mirrors.failed faithful left (failure.map .page)
      | ok _ =>
        obtain ⟨after', installed, follows⟩ := mirrors.changed faithful left here holds size
          fun alone => .deleted view deleted alone
        simp only [installed, Call.finish, Round.last, if_true] at eq
        cases eq
        apply follows

/-! ### Looking for room -/

/-- `spaces` follow the appending of an empty `page` to the store `no`. -/
theorem Mirrors.grown (mirrors : system.Mirrors spaces)
    (faithful : pool.Faithful spaces (system.LooseBut txn))
    (left : system.pool.Leaves txn spaces pool spaces) {no : StoreNo} {store : Store}
    (found : pool.catalog.get? (pool.store no).table = some no)
    (eq : (pool.store no).allocate = (.ok page, store)) (numbered : store.Numbered) :
  system.Follows spaces txn (pool.setStore no store) (.calling (.place page tuple))
    ((Round.grown page (.place page tuple)).appended (pool.setStore no store))
  := by
  obtain ⟨well, tables, new, file, bytes, -, empty, stored⟩ :=
    Pool.allocate_spec faithful.well found eq numbered
  obtain ⟨grown, left', unseen⟩ := faithful.grow well tables new stored
  rw [← faithful.committed] at new
  have image : (pool.setStore no store).stored page = some bytes := by
    rw [stored, if_pos rfl]
  rw [Round.appended, image]
  apply mirrors.follow (.single (.grown new unseen empty)) grown (left.trans left')
  trivial

/-- `spaces` follow what goes on to look for room. -/
theorem Mirrors.entering (mirrors : system.Mirrors spaces)
    (faithful : pool.Faithful spaces (system.LooseBut txn))
    (left : system.pool.Leaves txn spaces pool spaces) {no : StoreNo} {rest : List PageNo}
    (catalogued : pool.catalog.get? (pool.store no).table = some no)
    (entering : Call.Entering txn no tuple pool rest round after)
    (numbered : ∀ no, (after.store no).Numbered) :
  system.Follows spaces txn after round.leadsTo (round.appended after)
  := by
  cases entering with
  | refused allocated =>
    obtain ⟨well, tables, stored⟩ := Pool.refused_spec faithful.well allocated
    obtain ⟨faithful', left'⟩ := faithful.restock well tables stored
    apply mirrors.failed faithful' (left.trans left')
  | grown allocated =>
    apply mirrors.grown faithful left catalogued allocated
    obtain ⟨inside, -⟩ := faithful.well.catalogued _ _ catalogued
    have new := numbered no
    rw [Pool.store_setStore, if_pos ⟨rfl, inside⟩] at new
    apply new
  | next =>
    apply mirrors.silent faithful left
    use catalogued
    intro free
    simpa [Pool.holdsLock, LockTable.holds] using free

/-- `spaces` follow a round of `.probe`, the search for room in a page. -/
theorem Mirrors.probe (mirrors : system.Mirrors spaces) {no : StoreNo} {pageNo : PageNo}
    {alreadyHeld : Bool} {rest : List PageNo}
    (under : system.doing txn = .calling (.probe no tuple pageNo alreadyHeld rest))
    (eq : (Call.probe no tuple pageNo alreadyHeld rest).round txn system.pool = (round, after))
    (numbered : ∀ no, (after.store no).Numbered) :
  system.Follows spaces txn after
    ((Call.probe no tuple pageNo alreadyHeld rest).leadsTo round)
    ((Call.probe no tuple pageNo alreadyHeld rest).events txn after round)
  := by
  have suits := mirrors.suits txn
  rw [under] at suits
  obtain ⟨catalogued, free⟩ := suits
  obtain ⟨pool, faithful, left, -, -, fetched⟩ :=
    mirrors.fetch_cases under ⟨(system.pool.store no).table, pageNo⟩ .readOnly
  have catalogued' : pool.catalog.get? (pool.store no).table = some no := by
    rw [left.catalog, left.tables, catalogued]
  simp only [Call.round] at eq
  rcases fetched with ⟨answer, kept⟩ | ⟨failure, answer⟩ | ⟨frame, held, answer, -⟩
  · rw [answer] at eq
    cases eq
    apply mirrors.silent faithful left
    use catalogued'
    intro unheld
    rw [left.tables, kept, free unheld]
  · rw [answer] at eq
    cases eq
    apply mirrors.failed faithful left
  · rw [answer] at eq
    dsimp only at eq
    cases room : SlottedPage.hasRoom (pool.copy frame.copy).bytes tuple.length with
    | error fault =>
      rw [room] at eq
      cases eq
      apply mirrors.failed faithful left (.fault fault)
    | ok fits =>
      rw [room] at eq
      cases fits with
      | true =>
        cases eq
        apply mirrors.silent faithful left
        trivial
      | false =>
        dsimp only at eq
        cases alreadyHeld with
        | true =>
          have entering := Call.Entering.of_enterProbe eq
          apply mirrors.entering faithful left catalogued' entering numbered
        | false =>
          have unchanged : spaces.overlay txn ⟨(system.pool.store no).table, pageNo⟩ = none := by
            by_contra changed
            have exclusive := mirrors.faithful.exclusive_of_overlay
              (Option.isSome_iff_ne_none.mpr changed)
            cases (free rfl).symm.trans exclusive
          obtain ⟨released, left'⟩ := faithful.releasePage unchanged
          have entering := Call.Entering.of_enterProbe eq
          apply mirrors.entering released (left.trans left') catalogued' entering numbered

/-! ### Scanning -/

/-- `spaces` follow `Call.enterScan`, by which a call goes on to scan. -/
theorem Mirrors.enterScan (mirrors : system.Mirrors spaces) {spaces' : Workspaces}
    {events : List Event} (run : spaces.Run events spaces')
    (faithful : pool.Faithful spaces' (system.LooseBut txn))
    (left : system.pool.Leaves txn spaces pool spaces') {table : TableId} {found : List Tuple}
    {rest : List PageNo} (scanning : pool.Scanning spaces' txn table found rest) :
  system.Follows spaces txn pool (Call.enterScan table found rest).leadsTo
    (events ++ (Call.enterScan table found rest).scanned txn table)
  := by
  cases rest with
  | nil =>
    obtain ⟨done, pages, begun, all, collected, -⟩ := scanning
    rw [List.append_nil] at all
    subst all
    apply mirrors.follow (run.append (.single (.scanned begun collected))) faithful left
    trivial
  | cons no rest =>
    apply mirrors.follow (run.append (.stop spaces')) faithful left
    apply scanning

/-- `spaces` follow a round of `.scan`, which lists a page. -/
theorem Mirrors.scan (mirrors : system.Mirrors spaces) {table : TableId} {found : List Tuple}
    {no : PageNo} {rest : List PageNo}
    (under : system.doing txn = .calling (.scan table found no rest))
    (eq : (Call.scan table found no rest).round txn system.pool = (round, after)) :
  system.Follows spaces txn after ((Call.scan table found no rest).leadsTo round)
    ((Call.scan table found no rest).events txn after round)
  := by
  have suits := mirrors.suits txn
  rw [under] at suits
  obtain ⟨done, pages, begun, all, collected, locked⟩ := suits
  obtain ⟨pool, faithful, left, elsewhere, kept, fetched⟩ :=
    mirrors.fetch_cases under ⟨table, no⟩ .readOnly
  simp only [Call.round] at eq
  have locked' : ∀ no ∈ done, (pool.locks.modeOf? ⟨table, no⟩ txn).isSome := by
    intro other member
    by_cases here : (⟨table, other⟩ : PageId) = ⟨table, no⟩
    · rw [here]
      apply kept
      rw [← here]
      apply locked other member
    · rw [elsewhere _ here]
      apply locked other member
  rcases fetched with
    ⟨answer, -⟩ | ⟨failure, answer⟩ | ⟨frame, held, answer, here, holds, -, view⟩
  · rw [answer] at eq
    cases eq
    apply mirrors.silent faithful left
    use done, pages, begun, all, collected
  · rw [answer] at eq
    cases eq
    apply mirrors.failed faithful left
  · rw [answer] at eq
    dsimp only at eq
    cases records : SlottedPage.records (pool.copy frame.copy).bytes with
    | error fault =>
      rw [records] at eq
      cases eq
      apply mirrors.failed faithful left (.fault fault)
    | ok more =>
      rw [records] at eq
      cases eq
      apply mirrors.enterScan (.stop spaces) faithful left
      use done ++ [no], pages, begun
      refine ⟨?_, Workspaces.collect?_concat collected view records, ?_⟩
      · rw [← all, List.append_assoc]
        rfl
      · intro other member
        obtain before | rfl : other ∈ done ∨ other = no := by simpa using member
        · apply locked' other before
        · apply Option.isSome_of_mem holds

/-! ### Calls -/

/-- `spaces` follow a round of any `call`. -/
theorem Mirrors.advance {call : Call} (mirrors : system.Mirrors spaces)
    (under : system.doing txn = .calling call)
    (eq : call.round txn system.pool = (round, after))
    (numbered : ∀ no, (after.store no).Numbered) :
  system.Follows spaces txn after (call.leadsTo round) (call.events txn after round)
  := by
  have suits := mirrors.suits txn
  rw [under] at suits
  cases call with
  | lock page mode => cases suits
  | fetch page access => apply mirrors.fetch under eq
  | probe no tuple pageNo alreadyHeld rest => apply mirrors.probe under eq numbered
  | place page tuple => apply mirrors.place under eq
  | count table touched record no rest => cases suits
  | delete record marks =>
    obtain rfl : marks = true := suits
    apply mirrors.delete under eq
  | scan table found no rest => apply mirrors.scan under eq

/-- `spaces` follow the beginning of a scan through the `pages` that the store `no` lists. -/
theorem Mirrors.enterScanning (mirrors : system.Mirrors spaces)
    (faithful : system.pool.Faithful spaces (system.LooseBut txn)) {no : StoreNo}
    (served : system.pool.catalog.get? (system.pool.store no).table = some no)
    {pages : List PageNo} (listed : (system.pool.store no).pageNos = .ok pages) :
  system.Follows spaces txn system.pool
    (Call.enterScan (system.pool.store no).table [] pages).leadsTo
    (.scanning txn (system.pool.store no).table pages.length
      :: (Call.enterScan (system.pool.store no).table [] pages).scanned txn
        (system.pool.store no).table)
  := by
  have all := Store.pageNos_ok (faithful.well.numbered no) listed
  have length : pages.length = (system.pool.store no).length := by
    simp [all]
  have step : spaces.Step (.scanning txn (system.pool.store no).table pages.length)
      (spaces.scan txn (system.pool.store no).table pages.length) := by
    apply Workspaces.Step.scanning
    intro pageNo present
    rw [faithful.committed] at present
    obtain ⟨image, stored⟩ := Option.isSome_iff_exists.mp present
    obtain ⟨no', found, image⟩ := Pool.stored_eq_some_iff.mp stored
    cases served.symm.trans found
    rw [length]
    apply Store.lt_length (faithful.well.numbered no) image
  obtain ⟨scanning, left⟩ := faithful.scan txn (system.pool.store no).table pages.length
  apply mirrors.enterScan (.single step) scanning left
  use [], pages.length
  refine ⟨?_, ?_, rfl, by simp⟩
  · simp [Workspaces.scan]
  · rw [length, List.nil_append, all]
    rfl

/-- `spaces` follow `Call.enterDelete`, by which a call goes on to delete `record`. -/
theorem Mirrors.enterDelete (mirrors : system.Mirrors spaces)
    (faithful : pool.Faithful spaces (system.LooseBut txn))
    (left : system.pool.Leaves txn spaces pool spaces) (record : Option RecordId) :
  system.Follows spaces txn pool (Call.enterDelete record pool).leadsTo
    ((Call.enterDelete record pool).appended pool)
  := by
  rcases Call.enterDelete_cases record pool with ⟨failure, ended⟩ | ⟨record, -, goes⟩
  · rw [ended]
    apply mirrors.failed faithful left
  · rw [goes]
    apply mirrors.silent faithful left
    trivial

/-- A transaction whose `activity` may make a call disturbs no `page`. -/
theorem calm_of_mayCall {activity : Activity} (free : activity.mayCall) (page : PageId) :
  ¬ activity.disturbs page
  := by
  cases activity with
  | editing copy place edits =>
    obtain rfl : edits = [] := free
    rintro ⟨-, edited⟩
    apply edited rfl
  | idle => exact id
  | calling call => exact id
  | faulted => cases free

/-- `spaces` follow the beginning of a call by `request`. -/
theorem Mirrors.enter {request : Request} (mirrors : system.Mirrors spaces)
    (free : (system.doing txn).mayCall) (served : system.pool.serves request)
    (eq : request.enter txn system.pool = (round, after))
    (numbered : ∀ no, (after.store no).Numbered) :
  system.Follows spaces txn after round.leadsTo (request.events txn after round)
  := by
  have faithful := mirrors.calm (calm_of_mayCall free)
  have left := Pool.Leaves.refl txn system.pool spaces
  cases request with
  | lock page mode => cases served
  | erase store record => cases served
  | fetch page access =>
    cases eq
    apply mirrors.silent faithful left
    trivial
  | insert table tuple =>
    obtain ⟨failure, rfl, rfl⟩ | ⟨no, pages, found, entering⟩ :=
      Request.enter_insert_cases served eq
    · apply mirrors.failed faithful left
    · obtain ⟨-, own⟩ := faithful.well.catalogued _ _ found
      apply mirrors.entering faithful left (own ▸ found) entering numbered
  | delete record =>
    simp only [Request.enter] at eq
    cases eq
    apply mirrors.enterDelete faithful left
  | scan no =>
    simp only [Request.enter] at eq
    cases listed : (system.pool.store no).pageNos with
    | error failure =>
      rw [listed] at eq
      cases eq
      simp only [Request.events, listed]
      apply mirrors.failed faithful left failure
    | ok pages =>
      rw [listed] at eq
      cases eq
      simp only [Request.events, listed]
      apply mirrors.enterScanning faithful served listed

end StorageEngine.System

import Mathlib.Data.List.Sort
import StorageEngine.Proofs.System.Calling
import StorageEngine.Proofs.System.Unaltered
import StorageEngine.Proofs.System.WholeScans

/-!
# Scans as snapshots

A scan reads one page after another, and others may do anything in between that the locks let them
do.  All the same, when it returns, its list is that of all records in the pages that the table had
when the scan began, as they are then (`Calling.lists_records`): its transaction holds each of these
pages from when it was read, so nobody else has changed them, and there is nothing that the scan
itself changes (`System.Mirrors.spared_round`).
-/

namespace StorageEngine

/-! ### Lists of records -/

/-- What is in `record`, where `image` has the bytes of every page. -/
def RecordId.read? (record : RecordId) (image : PageId → Option Bytes) : Option Bytes := do
  let bytes ← image record.page
  (SlottedPage.record bytes record.slot).toOption

/-- Whether `tuple` is in an earlier page than `other`, or in an earlier slot of that page. -/
def Tuple.Precedes (tuple other : Tuple) : Prop :=
  ∃ record next, tuple.record = some record ∧ other.record = some next
    ∧ (record.page.no < next.page.no ∨ record.page.no = next.page.no ∧ record.slot < next.slot)

/-- Whether `found` lists all tuples in `pages` of `table`, in the order of pages and slots. -/
structure Lists (image : PageId → Option Bytes) (table : TableId) (pages : List PageNo)
    (found : List Tuple) : Prop where
  members : ∀ tuple, tuple ∈ found ↔ ∃ record, tuple.record = some record
    ∧ record.page.table = table ∧ record.page.no ∈ pages ∧ record.read? image = some tuple.data
  sorted : found.Pairwise Tuple.Precedes

variable {image image' : PageId → Option Bytes} {table : TableId} {pages : List PageNo}
  {found : List Tuple}

theorem Tuple.Precedes.record_ne {tuple other : Tuple} (precedes : tuple.Precedes other) :
  tuple.record ≠ other.record
  := by
  obtain ⟨record, next, named, named', before⟩ := precedes
  rw [named, named']
  rintro ⟨⟩
  rcases before with page | ⟨-, slot⟩
  · apply UInt32.lt_irrefl _ page
  · apply UInt32.lt_irrefl _ slot

/-- In a list `found` of tuples no record stands twice. -/
theorem Lists.nodup (lists : Lists image table pages found) :
  (found.map Tuple.record).Nodup
  := by
  rw [List.nodup_iff_pairwise_ne, List.pairwise_map]
  apply lists.sorted.imp
  intro tuple other
  apply Tuple.Precedes.record_ne

instance : Std.Irrefl Tuple.Precedes where
  irrefl _ precedes := precedes.record_ne rfl

instance : Std.Antisymm Tuple.Precedes where
  antisymm tuple other precedes follows := by
    exfalso
    obtain ⟨record, next, named, named', before⟩ := precedes
    obtain ⟨next', record', renamed, renamed', after⟩ := follows
    cases named.symm.trans renamed'
    cases named'.symm.trans renamed
    simp only [UInt32.lt_iff_toNat_lt] at before after
    rcases before with page | ⟨page, slot⟩
    · rcases after with page' | ⟨page', -⟩
      · omega
      · rw [page'] at page
        omega
    · rcases after with page' | ⟨-, slot'⟩
      · rw [page] at page'
        omega
      · omega

/-- There is one list `found` of the tuples in `pages`. -/
theorem Lists.unique {found' : List Tuple} (lists : Lists image table pages found)
    (lists' : Lists image table pages found') :
  found' = found
  := by
  apply lists'.sorted.eq_of_mem_iff lists.sorted
  intro tuple
  rw [lists.members, lists'.members]

/-- Of no pages, the list of tuples is `[]`. -/
theorem lists_nil (image : PageId → Option Bytes) (table : TableId) :
  Lists image table [] []
  := ⟨by simp, List.Pairwise.nil⟩

/-- The list `found` depends on what `image` has of `pages` alone. -/
theorem Lists.congr (lists : Lists image table pages found)
    (same : ∀ no ∈ pages, image' ⟨table, no⟩ = image ⟨table, no⟩) :
  Lists image' table pages found
  where
  sorted := lists.sorted
  members tuple := by
    rw [lists.members]
    apply exists_congr
    rintro ⟨⟨owner, no⟩, slot⟩
    apply and_congr_right
    intro _
    apply and_congr_right
    rintro rfl
    apply and_congr_right
    intro inside
    simp only [RecordId.read?, same no inside]

/-- The tuples of one page are listed by `Call.tuplesOf`, in the order of slots. -/
theorem lists_tuplesOf {bytes : Bytes} {no : PageNo} {records : List (SlotId × Bytes)}
    (seen : image ⟨table, no⟩ = some bytes) (eq : SlottedPage.records bytes = .ok records) :
  Lists image table [no] (Call.tuplesOf ⟨table, no⟩ records)
  := by
  obtain ⟨sorted, members⟩ := SlottedPage.records_spec eq
  have held : ∀ slot data, (SlottedPage.record bytes slot).toOption = some data
      ↔ (slot, data) ∈ records := by
    intro slot data
    rw [members]
    cases SlottedPage.record bytes slot <;> simp [Except.toOption]
  constructor
  · rintro ⟨record?, data⟩
    constructor
    · intro member
      obtain ⟨⟨slot, data⟩, here, ⟨⟩⟩ := List.mem_map.mp member
      refine ⟨⟨⟨table, no⟩, slot⟩, rfl, rfl, List.mem_singleton_self _, ?_⟩
      simpa [RecordId.read?, seen] using (held slot data).mpr here
    · rintro ⟨⟨⟨owner, no'⟩, slot⟩, rfl, rfl, inside, read⟩
      obtain rfl := List.mem_singleton.mp inside
      have here : (slot, data) ∈ records := by
        apply (held slot data).mp
        simpa [RecordId.read?, seen] using read
      exact List.mem_map.mpr ⟨_, here, rfl⟩
  · rw [Call.tuplesOf, List.pairwise_map]
    rw [List.pairwise_map] at sorted
    apply sorted.imp
    intro first second before
    exact ⟨_, _, rfl, rfl, .inr ⟨rfl, before⟩⟩

/-- The tuples of `later` pages are listed after those of `pages`. -/
theorem Lists.append {later : List PageNo} {more : List Tuple}
    (lists : Lists image table pages found) (lists' : Lists image table later more)
    (before : ∀ no ∈ pages, ∀ no' ∈ later, no < no') :
  Lists image table (pages ++ later) (found ++ more)
  where
  members tuple := by
    rw [List.mem_append, lists.members, lists'.members, ← exists_or]
    apply exists_congr
    intro record
    rw [List.mem_append]
    tauto
  sorted := by
    rw [List.pairwise_append]
    refine ⟨lists.sorted, lists'.sorted, ?_⟩
    intro tuple member other member'
    obtain ⟨record, named, -, inside, -⟩ := (lists.members tuple).mp member
    obtain ⟨next, named', -, inside', -⟩ := (lists'.members other).mp member'
    exact ⟨record, next, named, named', .inl (before _ inside _ inside')⟩

/-- The tuples of well-formed `pages` can be listed. -/
theorem exists_lists (sorted : pages.Pairwise (· < ·))
    (formed : ∀ no ∈ pages, ∃ bytes, image ⟨table, no⟩ = some bytes
      ∧ SlottedPage.WellFormed bytes) :
  ∃ found, Lists image table pages found
  := by
  induction pages with
  | nil => exact ⟨[], lists_nil image table⟩
  | cons no pages ih =>
    obtain ⟨first, sorted⟩ := List.pairwise_cons.mp sorted
    obtain ⟨⟨bytes, seen, well⟩, formed⟩ := List.forall_mem_cons.mp formed
    obtain ⟨records, eq, -⟩ := well.records
    obtain ⟨found, lists⟩ := ih sorted formed
    use Call.tuplesOf ⟨table, no⟩ records ++ found
    apply (lists_tuplesOf seen eq).append lists
    intro no' here
    obtain rfl := List.mem_singleton.mp here
    apply first

/-- A tuple with `data` that is inserted into the page `no` is listed after those `found` in it. -/
theorem Lists.inserted {no : PageNo} {slot : SlotId} {bytes bytes' data : Bytes}
    {header : SlottedPage.Header} (lists : Lists image table [no] found)
    (laid : SlottedPage.LaidOut bytes header) (seen : image ⟨table, no⟩ = some bytes)
    (seen' : image' ⟨table, no⟩ = some bytes')
    (eq : SlottedPage.insert bytes data = (.ok slot, bytes')) :
  Lists image' table [no] (found ++ [⟨some ⟨⟨table, no⟩, slot⟩, data⟩])
  := by
  obtain ⟨rfl, -⟩ := laid.inserted eq
  obtain ⟨-, -, fresh, records⟩ := laid.insert eq
  have read : ∀ other, RecordId.read? ⟨⟨table, no⟩, other⟩ image'
      = if other = header.recordCount then some data
        else RecordId.read? ⟨⟨table, no⟩, other⟩ image := by
    intro other
    simp only [RecordId.read?, seen, seen', Option.bind_eq_bind, Option.bind_some, records]
    split <;> rfl
  have new : RecordId.read? ⟨⟨table, no⟩, header.recordCount⟩ image = none := by
    simp [RecordId.read?, seen, fresh, Except.toOption]
  constructor
  · rintro ⟨record?, data'⟩
    rw [List.mem_append, List.mem_singleton, lists.members]
    constructor
    · rintro (⟨⟨⟨owner, no'⟩, other⟩, rfl, rfl, inside, old⟩ | same)
      · obtain rfl := List.mem_singleton.mp inside
        refine ⟨_, rfl, rfl, inside, ?_⟩
        rw [read, if_neg, old]
        rintro rfl
        cases new.symm.trans old
      · cases same
        refine ⟨_, rfl, rfl, List.mem_singleton_self _, ?_⟩
        rw [read, if_pos rfl]
    · rintro ⟨⟨⟨owner, no'⟩, other⟩, rfl, rfl, inside, there⟩
      obtain rfl := List.mem_singleton.mp inside
      rw [read] at there
      split at there
      · rename_i here
        cases here
        cases there
        right
        rfl
      · left
        exact ⟨_, rfl, rfl, inside, there⟩
  · rw [List.pairwise_append]
    refine ⟨lists.sorted, List.pairwise_singleton .., ?_⟩
    intro tuple member next member'
    obtain rfl := List.mem_singleton.mp member'
    obtain ⟨⟨⟨owner, no'⟩, other⟩, named, rfl, inside, old⟩ := (lists.members tuple).mp member
    obtain rfl := List.mem_singleton.mp inside
    refine ⟨_, _, named, rfl, .inr ⟨rfl, ?_⟩⟩
    -- A slot that holds a record is counted.
    by_contra beyond
    have missing := SlottedPage.record_of_count_le laid.headed (UInt32.not_lt.mp beyond)
    simp [RecordId.read?, seen, missing, Except.toOption] at old

namespace Workspaces

variable {spaces : Workspaces} {txn : TransactionId}

/-- What `txn` collects in `pages` is the list of all tuples that it sees there. -/
theorem lists_of_collected (sorted : pages.Pairwise (· < ·))
    (collected : spaces.collect? txn table pages = some found) :
  Lists (spaces.view txn) table pages found
  := by
  induction pages generalizing found with
  | nil =>
    cases collected
    apply lists_nil
  | cons no pages ih =>
    obtain ⟨first, sorted⟩ := List.pairwise_cons.mp sorted
    simp only [collect?, bind, Option.bind_eq_some_iff, pure, Option.some.injEq] at collected
    obtain ⟨bytes, view, records, read, rest, later, rfl⟩ := collected
    have eq : SlottedPage.records bytes = .ok records := by
      cases listed : SlottedPage.records bytes with
      | error fault => simp [listed, Except.toOption] at read
      | ok found => simpa [listed, Except.toOption] using read
    apply (lists_tuplesOf view eq).append (ih sorted later)
    intro no' here
    obtain rfl := List.mem_singleton.mp here
    apply first

/-- `pageNos count` is in ascending order, if `count` is at most `UInt32.size`. -/
theorem sorted_pageNos {count : Nat} (numbered : count ≤ UInt32.size) :
  (pageNos count).Pairwise (· < ·)
  := by
  rw [pageNos, List.pairwise_map]
  apply List.pairwise_lt_range.imp_of_mem
  intro i j within within' before
  rw [List.mem_range] at within within'
  rw [UInt32.lt_iff_toNat_lt, UInt32.toNat_ofNat_of_lt' (by omega),
    UInt32.toNat_ofNat_of_lt' (by omega)]
  apply before

end Workspaces

/-! ### What a pool has of a page -/

/-- What a pool has of a page: its copy in the cache, or else what is stored.  This is what it hands
out (`Pool.image?_of_fetch`). -/
def Pool.image? (pool : Pool) (page : PageId) : Option Bytes :=
  match pool.cache.frame? page with
  | some frame => some (pool.copy frame.copy).bytes
  | none => pool.stored page

namespace Pool

variable {pool : Pool} {spaces : Workspaces} {loose : PageId → Prop} {txn : TransactionId}
  {page : PageId}

/-- What a `Faithful` pool has of `page` is the image in `spaces` by its changer, or the committed
one. -/
theorem Faithful.image?_eq (faithful : pool.Faithful spaces loose) (tight : ¬ loose page) :
  pool.image? page = spaces.image page (pool.changer? page)
  := by
  unfold image?
  cases found : pool.cache.frame? page with
  | some frame => rw [changer?_of_frame? found, faithful.content page frame found tight]
  | none =>
    rw [changer?, found]
    exact congrFun faithful.committed.symm page

/-- A `txn` that holds `page` sees what a `Faithful` pool has of it. -/
theorem Faithful.view_eq_image? (faithful : pool.Faithful spaces loose) (tight : ¬ loose page)
    (holds : (pool.locks.modeOf? page txn).isSome) :
  spaces.view txn page = pool.image? page
  := by
  unfold image?
  cases found : pool.cache.frame? page with
  | some frame => exact faithful.view_eq holds tight found
  | none =>
    have unchanged : spaces.overlay txn page = none := by
      by_contra changed
      obtain ⟨frame, found', -⟩ := faithful.overlay txn page (Option.isSome_iff_ne_none.mpr changed)
      cases found.symm.trans found'
    rw [Workspaces.view, unchanged, Option.none_or, faithful.committed]

/-- A `copy` of `page` that is fetched holds what the pool has of it. -/
theorem image?_of_fetch {access : Access} {copy : CopyNo} {after : Pool}
    (eq : pool.fetch txn page access = (.page copy, after)) :
  pool.image? page = some (after.copy copy).bytes
  := by
  obtain ⟨locks, -, eq'⟩ | ⟨locks, -, eq'⟩
    | ⟨locks, -, ⟨copy', after', loaded, eq'⟩ | ⟨failure, after', loaded, eq'⟩⟩ :=
    pool.fetch_cases txn page access
  all_goals cases eq.symm.trans eq'
  obtain ⟨frame, found, eq''⟩ | ⟨-, -, eq''⟩
    | ⟨room, stores, missing, -, -, -, ⟨failure, -, eq''⟩ | ⟨bytes, stored, -, eq''⟩⟩ :=
    Pool.load_cases { pool with locks } page
  all_goals cases loaded.symm.trans eq''
  · have cached : pool.cache.frame? page = some frame := found
    simp only [image?, cached]
    rfl
  · have missing : pool.cache.frame? page = none := missing
    simp only [image?, missing]
    rw [copy_entered, if_pos rfl]
    exact stored

/-- `pool.fetch txn page access` reads at most, and leaves the `SameStores`. -/
theorem sameStores_fetch (pool : Pool) (txn : TransactionId) (page : PageId) (access : Access) :
  pool.SameStores (pool.fetch txn page access).2
  := by
  have same : ∀ locks, pool.SameStores { pool with locks } :=
    fun _ => ⟨rfl, rfl, fun _ => ⟨rfl, rfl, rfl⟩⟩
  have loaded : ∀ locks, pool.SameStores (Pool.load { pool with locks } page).2 := by
    intro locks
    obtain ⟨frame, -, eq⟩ | ⟨-, -, eq⟩
      | ⟨room, stores, -, -, read, -, ⟨failure, -, eq⟩ | ⟨bytes, -, -, eq⟩⟩ :=
      Pool.load_cases { pool with locks } page
    all_goals rw [eq]
    · exact ⟨rfl, rfl, fun _ => ⟨rfl, rfl, rfl⟩⟩
    · exact same locks
    · exact ⟨read.catalog, read.size, read.alike⟩
    · exact ⟨read.catalog, read.size, read.alike⟩
  obtain ⟨locks, -, eq⟩ | ⟨locks, -, eq⟩
    | ⟨locks, -, ⟨copy, after, eq', eq⟩ | ⟨failure, after, eq', eq⟩⟩ :=
    pool.fetch_cases txn page access
  all_goals rw [eq]
  · exact same locks
  · exact same locks
  · exact congrArg Prod.snd eq' ▸ loaded locks
  · exact congrArg Prod.snd eq' ▸ loaded locks

end Pool

/-! ### Scans among the steps of others -/

variable {begun system after : System} {spaces : Workspaces} {txn : TransactionId} {no : StoreNo}
  {stage : Round} {pool : Pool} {call : Call} {events during : List Event} {count : Nat}

namespace System

/-- What holds of a scan of `table` by `txn` that had `count` pages when it began: `txn` is in the
midst of it, or holds and sees what it has found. -/
def Scans (system : System) (spaces : Workspaces) (txn : TransactionId) (table : TableId)
    (count : Nat) : Round → Prop :=
  Round.Comes
    (fun outcome => ∀ answer, outcome.result = .ok answer → ∃ found, answer = .tuples found
      ∧ system.doing txn = .idle ∧ system.Found spaces txn table count found)
    (fun call => system.doing txn = .calling call ∧ spaces.scans txn = some (table, count)
      ∧ ∃ found no rest, call = .scan table found no rest)

/-- When a scan begins, `txn` `Scans` as many pages as the store `no` has. -/
theorem Tracks.scans_enter (tracks : begun.Tracks spaces) (free : (begun.doing txn).mayCall)
    (served : begun.pool.serves (.scan no))
    (eq : (Request.scan no).enter txn begun.pool = (stage, pool)) :
  ∃ spaces', (begun.moved txn pool stage.leadsTo).Tracks spaces'
    ∧ (begun.moved txn pool stage.leadsTo).Scans spaces' txn (begun.pool.store no).table
      (begun.pool.store no).length stage
  := by
  have numbered := tracks.mirrors.faithful.well.numbered
  have step := Step.enter free served eq
  simp only [Request.enter] at eq
  cases listed : (begun.pool.store no).pageNos with
  | error fault =>
    rw [listed] at eq
    cases eq
    obtain ⟨spaces', -, tracks'⟩ := tracks.step step numbered
    use spaces', tracks'
    rintro answer ⟨⟩
  | ok pages =>
    rw [listed] at eq
    cases eq
    have all : pages.length = (begun.pool.store no).length := by
      rw [Store.pageNos_ok (numbered no) listed]
      simp
    simp only [Request.events, listed, all] at step
    obtain ⟨spaces', run, tracks'⟩ := tracks.step step numbered
    use spaces', tracks'
    cases pages with
    | nil =>
      rintro answer ⟨⟩
      have counted := run.scans_of_scanning
        (by simp [Call.enterScan, Round.scanned, Outcome.answer])
      have ends : Step begun
          ([.scanning txn (begun.pool.store no).table (begun.pool.store no).length]
          ++ [.scanned txn (begun.pool.store no).table []]) _ := step
      exact ⟨[], rfl, doing_moved_self .., tracks.found_of_scanned ends run tracks' counted⟩
    | cons first rest =>
      have counted := run.scans_of_scanning (by simp [Call.enterScan, Round.scanned])
      exact ⟨doing_moved_self .., counted, _, _, _, rfl⟩

/-- `txn` goes on to scan in a round of its `call`: `Scans` holds of the `next` stage. -/
theorem Tracks.scans_round {next : Round} (tracks : system.Tracks spaces)
    (scans : system.Scans spaces txn table count stage) (goes : call ∈ stage.pending?)
    (eq : call.round txn system.pool = (next, pool)) (numbered : ∀ no, (pool.store no).Numbered) :
  ∃ spaces', (system.moved txn pool (call.leadsTo next)).Tracks spaces'
    ∧ (system.moved txn pool (call.leadsTo next)).Scans spaces' txn table count next
  := by
  obtain ⟨under, counted, found, pageNo, rest, rfl⟩ := Round.Comes.pending scans goes
  have step := Step.round under eq
  obtain ⟨spaces', run, tracks'⟩ := tracks.step step numbered
  use spaces', tracks'
  have same : spaces'.scans txn = some (table, count) := by
    rw [← counted]
    apply run.scans_eq
    intro table' pages member
    rcases next.scanned_cases txn table with none | ⟨found', one⟩
    · simp [Call.events, none] at member
    · simp [Call.events, one] at member
  rcases Call.scan_round_cases eq with rfl | ⟨failure, rfl⟩ | ⟨found', rfl⟩ | ⟨_, _, _, -, rfl⟩
  · exact ⟨doing_moved_self .., same, _, _, _, rfl⟩
  · rintro answer ⟨⟩
  · rintro answer ⟨⟩
    have ends : Step system ([] ++ [.scanned txn table found']) _ := step
    exact ⟨found', rfl, doing_moved_self .., tracks.found_of_scanned ends run tracks' same⟩
  · exact ⟨doing_moved_self .., same, _, _, _, rfl⟩

/-- `Scans` holds of the same `stage` after a `step` of others, and so what it has found stays. -/
theorem Tracks.scans_others (tracks : system.Tracks spaces)
    (scans : system.Scans spaces txn table count stage) (step : Step system events after)
    (aside : after.doing txn = system.doing txn)
    (foreign : ∀ event ∈ events, event.actor? ≠ some txn)
    (numbered : ∀ no, (after.pool.store no).Numbered) :
  ∃ spaces', after.Tracks spaces' ∧ after.Scans spaces' txn table count stage
  := by
  obtain ⟨spaces', run, tracks'⟩ := tracks.step step numbered
  use spaces', tracks'
  have same : spaces'.scans txn = spaces.scans txn := by
    apply run.scans_eq
    intro table' pages member
    apply foreign _ member rfl
  apply Round.Comes.imp scans
  · intro outcome scans answer ok
    obtain ⟨found, eq, idle, kept⟩ := scans answer ok
    refine ⟨found, eq, aside.trans idle, ?_⟩
    exact kept.step tracks step run fun event member => Event.not_alters (foreign event member)
  · rintro call ⟨under, counted, form⟩
    exact ⟨aside.trans under, same.trans counted, form⟩

end System

/-! ### What a scan leaves -/

namespace System

/-- Whether what was done for `txn` has changed no page: the copies in memory stay, and who has
changed cached ones; so does what is stored, and what the pool has of every page that no other
transaction is editing. -/
structure Spared (system : System) (txn : TransactionId) (after : Pool) : Prop where
  copy : ∀ no < system.pool.copies.size, after.copy no = system.pool.copy no
  changer : ∀ page, after.changer? page = system.pool.changer? page
  stored : after.stored = system.pool.stored
  image : ∀ page, ¬ system.LooseBut txn page → after.image? page = system.pool.image? page

/-- A scan changes no page. -/
theorem Mirrors.spared_round (mirrors : system.Mirrors spaces) (tidy : system.pool.Tidy)
    {found : List Tuple} {pageNo : PageNo} {rest : List PageNo}
    (under : system.doing txn = .calling (.scan table found pageNo rest)) :
  system.Spared txn ((Call.scan table found pageNo rest).round txn system.pool).2
  := by
  have unaltered : ∀ page, Pool.Unaltered page system.pool
      ((Call.scan table found pageNo rest).round txn system.pool).2 :=
    fun page => Call.unaltered_round tidy trivial nofun
  have changer : ∀ page, ((Call.scan table found pageNo rest).round txn system.pool).2.changer? page
      = system.pool.changer? page := fun page => (unaltered page).changer?_eq tidy
  refine ⟨fun no old => (unaltered _).copy no old rfl, changer, ?_, ?_⟩
  · rw [Call.pool_round_scan]
    apply (system.pool.sameStores_fetch txn ⟨table, pageNo⟩ .readOnly).stored
  · intro page tight
    have calm : ∀ page, ¬ (system.doing txn).disturbs page := by
      rw [under]
      exact fun page => id
    obtain ⟨pool, faithful, -, -, -, fetched⟩ := mirrors.fetch_cases under ⟨table, pageNo⟩ .readOnly
    have same : ((Call.scan table found pageNo rest).round txn system.pool).2 = pool := by
      rw [Call.pool_round_scan]
      rcases fetched with ⟨eq, -⟩ | ⟨failure, eq⟩ | ⟨frame, held, eq, -⟩
      all_goals rw [eq]
    rw [(mirrors.calm calm).image?_eq tight, ← changer, same, faithful.image?_eq tight]

/-- What an idle `txn` has `Found` is the list of what the pool has in the pages that it has
scanned. -/
theorem Tracks.lists_of_found {found : List Tuple} (tracks : system.Tracks spaces)
    (kept : system.Found spaces txn table count found) (idle : system.doing txn = .idle)
    (numbered : count ≤ UInt32.size) :
  Lists system.pool.image? table (Workspaces.pageNos count) found
  := by
  apply (Workspaces.lists_of_collected (Workspaces.sorted_pageNos numbered) kept.sees).congr
  intro pageNo inside
  have holds := kept.holds pageNo inside
  symm
  apply tracks.mirrors.faithful.view_eq_image? _ holds
  rintro ⟨other, exclusive, disturbs⟩
  obtain rfl := tracks.mirrors.faithful.eq_of_exclusive exclusive holds
  rw [idle] at disturbs
  apply disturbs

end System

/-- Workspaces are tracked through a scan, and `Scans` holds of every `stage` of it. -/
theorem Calling.scans (tracks : begun.Tracks spaces)
    (calling : Calling txn (.scan no) begun events stage system)
    (numbered : ∀ other, (system.pool.store other).Numbered) :
  ∃ spaces', system.Tracks spaces' ∧ system.Scans spaces' txn (begun.pool.store no).table
    (begun.pool.store no).length stage
  := by
  induction calling with
  | enter free served eq => apply tracks.scans_enter free served eq
  | @round events stage next system call pool calling goes eq ih =>
    have step := System.Step.round (calling.doing goes) eq
    obtain ⟨spaces', tracks', scans⟩ := ih (step.grows.numbered numbered)
    apply tracks'.scans_round scans goes eq numbered
  | others _ step aside foreign ih =>
    obtain ⟨spaces', tracks', scans⟩ := ih (step.grows.numbered numbered)
    apply tracks'.scans_others scans step aside foreign numbered

/-- Whatever transactions on a pool have done before, and whatever others do during a scan of the
store `no`: no round of the scan changes a page; and if the scan returns a list, that is the list
of all records in the pages that the table had when the scan began, in the order of pages and slots
and none of them twice, as the pool has them at the return, when `txn` holds each of these
pages. -/
theorem Calling.lists_records {config : PoolConfig} {catalog : Registry TableId StoreNo}
    {stores : Array Store} {start : Pool} (created : Pool.create config catalog stores = .ok start)
    (well : start.WellStored) (run : (System.start start).Run events begun)
    (calling : Calling txn (.scan no) begun during stage system)
    (numbered : ∀ other, (system.pool.store other).Numbered) :
  ((Request.scan no).enter txn begun.pool).2 = begun.pool
    ∧ (∀ call ∈ stage.pending?, system.Spared txn (call.round txn system.pool).2)
    ∧ ∀ outcome answer, stage = .done outcome → outcome.result = .ok answer →
        ∃ found, answer = .tuples found
          ∧ Lists system.pool.image? (begun.pool.store no).table
            (Workspaces.pageNos (begun.pool.store no).length) found
          ∧ (found.map Tuple.record).Nodup
          ∧ ∀ pageNo : PageNo, pageNo.toNat < (begun.pool.store no).length →
              (system.pool.locks.modeOf? ⟨(begun.pool.store no).table, pageNo⟩ txn).isSome
  := by
  have same : ((Request.scan no).enter txn begun.pool).2 = begun.pool := by
    simp only [Request.enter]
    cases (begun.pool.store no).pageNos <;> rfl
  have grown := calling.run.grows.numbered numbered
  obtain ⟨spaces, -, tracks⟩ := (System.tracks_start created well).run run grown
  obtain ⟨spaces', tracks', scans⟩ := calling.scans tracks numbered
  refine ⟨same, ?_, ?_⟩
  · intro call goes
    obtain ⟨under, -, found, pageNo, rest, rfl⟩ := Round.Comes.pending scans goes
    apply tracks'.mirrors.spared_round tracks'.tidy under
  · rintro outcome answer rfl ok
    obtain ⟨found, rfl, idle, kept⟩ := scans answer ok
    have lists := tracks'.lists_of_found kept idle (Nat.le_of_lt (grown no))
    refine ⟨found, rfl, lists, lists.nodup, ?_⟩
    intro pageNo within
    apply kept.holds
    exact List.mem_map.mpr ⟨pageNo.toNat, List.mem_range.mpr within, by simp⟩

/-! ### A scan that waits -/

namespace System

/-- `noPagesInserted` when a scan waits for its page. -/
def noPagesAwaited : Pool :=
  { noPagesInserted with locks := (noPagesInserted.locks.request ⟨1, 0⟩ ⟨1⟩ .shared).2 }

/-- `noPagesAwaited` after the insertion was committed. -/
def noPagesAwaitedCommitted : Pool :=
  { noPagesCommitted with locks := noPagesAwaited.locks.releaseAll ⟨0⟩ }

/-- `noPagesAwaitedCommitted` after the scan. -/
def noPagesAwaitedScanned : Pool :=
  { noPagesCommitted with
    locks := (noPagesAwaitedCommitted.locks.request ⟨1, 0⟩ ⟨1⟩ .shared).2 }

/-- On `noPages`, a transaction inserts a tuple and has not ended yet. -/
theorem run_noPagesInserted :
  ∃ system, system.pool = noPagesInserted ∧ (∀ txn, system.doing txn = .idle)
    ∧ (System.start noPages).Run
      [.grown ⟨1, 0⟩ emptyPage, .inserted ⟨0⟩ ⟨⟨1, 0⟩, 0⟩ [7]] system
  := by
  have insert : (Request.insert 1 [7]).enter ⟨0⟩ noPages
    = (.grown ⟨1, 0⟩ (.place ⟨1, 0⟩ [7]), noPagesGrown) := rfl
  have place : (Call.place ⟨1, 0⟩ [7]).round ⟨0⟩ noPagesGrown
    = (.done { Outcome.answer (.inserted (some ⟨⟨1, 0⟩, 0⟩)) with record := some ⟨⟨1, 0⟩, 0⟩ },
      noPagesInserted) := rfl
  have served : noPages.serves (.insert 1 [7]) := serves_insert_of_one_table rfl rfl _ _
  have grown := Run.start.step
    (@Step.enter (System.start noPages) ⟨0⟩ (.insert 1 [7]) _ _ trivial served insert)
  have inserted := grown.step (@Step.round _ ⟨0⟩ (.place ⟨1, 0⟩ [7]) _ _ rfl place)
  refine ⟨_, rfl, ?_, inserted⟩
  intro txn
  by_cases mine : txn = ⟨0⟩
  · rw [mine, doing_moved_self]
    rfl
  · rw [doing_moved_of_ne _ _ _ mine, doing_moved_of_ne _ _ _ mine]
    rfl

/-- On `noPages`, a scan waits for a page in which another transaction has inserted a tuple, until
that transaction commits, and then finds the tuple. -/
theorem lists_records_noPages :
  Pool.create noPages.config noPages.catalog noPages.stores = .ok noPages ∧ noPages.WellStored
    ∧ ∃ begun last, (System.start noPages).Run
        [.grown ⟨1, 0⟩ emptyPage, .inserted ⟨0⟩ ⟨⟨1, 0⟩, 0⟩ [7]] begun
      ∧ (∃ events, Calling ⟨1⟩ (.scan 0) begun events
        (.done (.answer (.tuples [insertedTuple]))) last)
      ∧ (∀ other, (last.pool.store other).Numbered)
      ∧ Lists last.pool.image? 1 (Workspaces.pageNos 1) [insertedTuple]
      ∧ (last.pool.locks.modeOf? ⟨1, 0⟩ ⟨1⟩).isSome
  := by
  have created : Pool.create noPages.config noPages.catalog noPages.stores = .ok noPages := rfl
  obtain ⟨begun, pool, idle, run⟩ := run_noPagesInserted
  have free : (begun.doing ⟨1⟩).mayCall := by
    rw [idle]
    trivial
  have served : begun.pool.serves (.scan 0) := by
    rw [pool]
    rfl
  have enter : (Request.scan 0).enter ⟨1⟩ begun.pool
    = (.next (.scan 1 [] 0 []), noPagesInserted) := by
    rw [pool]
    rfl
  have wait : (Call.scan 1 [] 0 []).round ⟨1⟩ noPagesInserted
    = (.waiting (.scan 1 [] 0 []), noPagesAwaited) := rfl
  have complete : noPagesAwaited.complete ⟨0⟩ true = (.ok (), noPagesAwaitedCommitted) := rfl
  have scan : (Call.scan 1 [] 0 []).round ⟨1⟩ noPagesAwaitedCommitted
    = (.done (.answer (.tuples [insertedTuple])), noPagesAwaitedScanned) := rfl
  obtain ⟨paused, events, awaited, rest, waiting⟩ : ∃ paused events, paused.pool = noPagesAwaited
      ∧ paused.doing ⟨0⟩ = .idle
      ∧ Calling ⟨1⟩ (.scan 0) begun events (.waiting (.scan 1 [] 0 [])) paused := by
    refine ⟨_, _, rfl, ?_, (Calling.enter free served enter).round rfl wait⟩
    rw [doing_moved_of_ne _ _ _ (by decide), doing_moved_of_ne _ _ _ (by decide), idle]
  have ended := @Step.complete paused ⟨0⟩ true _ _ (rest ▸ trivial) (awaited ▸ complete)
  have committed := waiting.others ended (doing_moved_of_ne _ _ _ (by decide))
    (by simp [Event.actor?])
  have scanned := committed.round rfl scan
  have numbered : ∀ other, (noPagesAwaitedScanned.store other).Numbered :=
    numbered_of_one_store rfl (by decide)
  obtain ⟨-, -, answers⟩ :=
    Calling.lists_records created wellStored_noPages run scanned numbered
  obtain ⟨found, eq, lists, -, holds⟩ := answers _ _ rfl rfl
  cases eq
  simp only [pool] at lists holds
  exact ⟨created, wellStored_noPages, begun, _, run, ⟨_, scanned⟩, numbered, lists,
    holds 0 (by decide)⟩

/-- Of `tuplePages`, each of which holds a tuple, a scan returns the empty list, and its transaction
holds none of the pages. -/
theorem misses_records_tuplePages :
  Pool.create (Pool.ofFile 1 tuplePages).config (Pool.ofFile 1 tuplePages).catalog
      (Pool.ofFile 1 tuplePages).stores = .ok (Pool.ofFile 1 tuplePages)
    ∧ (∀ pageNo, (Pool.ofFile 1 tuplePages).kept? ⟨1, pageNo⟩ = some filledPage)
    ∧ SlottedPage.WellFormed filledPage
    ∧ SlottedPage.records filledPage = .ok [(0, [7])]
    ∧ ∃ events last, Calling ⟨0⟩ (.scan 0) (System.start (.ofFile 1 tuplePages)) events
        (.done (.answer (.tuples []))) last
      ∧ ∀ pageNo, last.pool.locks.modeOf? ⟨1, pageNo⟩ ⟨0⟩ = none
  := by
  have outgrown := outgrown_tuplePages
  have counted := Store.pageNos_outgrown outgrown.medium outgrown.outgrown outgrown.willing
  have enter : (Request.scan 0).enter ⟨0⟩ (.ofFile 1 tuplePages)
      = (.done (.answer (.tuples [])), .ofFile 1 tuplePages) := by
    simp only [Request.enter, counted, Call.enterScan]
  refine ⟨Pool.create_ofFile Nat.one_pos (by decide) tuplePages, kept?_tuplePages,
    wellFormed_filledPage, rfl, _, _, .enter trivial outgrown.found enter, ?_⟩
  intro pageNo
  rfl

end System

end StorageEngine

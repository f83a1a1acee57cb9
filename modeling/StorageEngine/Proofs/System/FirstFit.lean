import StorageEngine.Proofs.System.FailedCalls
import StorageEngine.Proofs.System.Views

/-!
# First fit

An insertion into a heap table looks at one page after another and puts its tuple into the first one
in which its transaction sees room (`Pool.Roomy`), or else into an empty page that it appends.  What
the transaction sees stays while pages are looked at (`Browses.view_eq`), although there may be room
in the cache for one page only, so that pages leave it and come back.  So an insertion in which
nobody steps in goes by first fit (`Pool.FirstFit`), and its tuple is all by which a scan after it
differs from one before (`Use.first_fit`).
-/

namespace StorageEngine

/-- `Call.fits pageSize tuple` holds exactly if `tuple` has some bytes, and no more than an empty
page has room for beside a slot entry. -/
theorem Call.fits_iff {pageSize : Nat} {tuple : Bytes} :
  Call.fits pageSize tuple = true ↔ 0 < tuple.length
    ∧ tuple.length ≤ pageSize - (SlottedPage.headerSize + SlottedPage.slotSize)
  := by
  simp only [Call.fits, Bool.and_eq_true, decide_eq_true_eq]
  omega

namespace Pool

variable {start pool middle after : Pool} {txn : TransactionId} {page : PageId}
  {tuple bytes : Bytes} {no : StoreNo} {copy : CopyNo} {record : RecordId} {outcome : Outcome}
  {answer : Answer} {length : Nat}

/-! ### Room in pages -/

/-- Whether `txn` sees room in `page` for a record of `length` bytes and its slot entry. -/
def Roomy (pool : Pool) (txn : TransactionId) (page : PageId) (length : Nat) : Prop :=
  ∃ bytes free, pool.view txn page = some bytes ∧ SlottedPage.freeSpace bytes = .ok free
    ∧ length + SlottedPage.slotSize ≤ free.toNat

/-- A `page` that `txn` sees with `bytes` is `Roomy` exactly if `hasRoom bytes length` says so. -/
theorem roomy_iff {room : Bool} (seen : pool.view txn page = some bytes)
    (eq : SlottedPage.hasRoom bytes length = .ok room) :
  pool.Roomy txn page length ↔ room = true
  := by
  obtain ⟨header, headed, told⟩ := SlottedPage.hasRoom_eq_ok eq
  have free := SlottedPage.freeSpace_eq_ok headed
  rw [told]
  constructor
  · rintro ⟨bytes', free', seen', free'', room⟩
    cases seen.symm.trans seen'
    cases free.symm.trans free''
    apply room
  · intro room
    exact ⟨bytes, _, seen, free, room⟩

/-! ### Putting a tuple into a page -/

/-- Whether `txn` has put `tuple` into `record`, in a page of which it saw `bytes`, and has changed
nothing else of what it sees. -/
structure Puts (txn : TransactionId) (tuple : Bytes) (record : RecordId) (bytes : Bytes)
    (pool after : Pool) : Prop where
  inserted : ∃ bytes', SlottedPage.insert bytes tuple = (.ok record.slot, bytes')
    ∧ after.view txn record.page = some bytes'
  others : ∀ page, page ≠ record.page → after.view txn page = pool.view txn page
  steady : after.Steady

/-- `pool` with the cached `copy` of `page` overwritten with `bytes` and marked. -/
def rewritten (pool : Pool) (txn : TransactionId) (page : PageId) (copy : CopyNo) (bytes : Bytes) :
    Pool :=
  { pool.changed txn copy bytes with cache := pool.cache.put ⟨page, copy, true⟩ }

/-- After `pool.rewritten txn page copy bytes`, `txn` sees `bytes` in `page`, and every `other`
page as before. -/
theorem view_rewritten (tidy : pool.Tidy) (allocated : copy < pool.copies.size)
    (named : (pool.copy copy).id = page) (free : pool.withholds page txn = false) (bytes : Bytes)
    (other : PageId) :
  (pool.rewritten txn page copy bytes).view txn other
    = if other = page then some bytes else pool.view txn other
  := by
  have copied : ∀ no, (pool.rewritten txn page copy bytes).copy no
      = if no = copy then ⟨(pool.copy copy).id, bytes, some txn⟩ else pool.copy no :=
    pool.copy_changed allocated bytes
  have withheld : (pool.rewritten txn page copy bytes).withholds other txn
      = pool.withholds other txn := rfl
  have stored : (pool.rewritten txn page copy bytes).stored other = pool.stored other := rfl
  have cached : (pool.rewritten txn page copy bytes).cache.frame? other
      = if other = page then some ⟨page, copy, true⟩ else pool.cache.frame? other :=
    Cache.frame?_put ..
  rw [view, view, withheld, stored, image?, image?, cached]
  by_cases here : other = page
  · rw [if_pos here, if_pos here, here, free]
    dsimp only
    rw [copied, if_pos rfl]
    rfl
  · rw [if_neg here, if_neg here]
    cases found : pool.cache.frame? other with
    | none => rw [stored]
    | some frame =>
      obtain ⟨-, named', -⟩ := tidy.framed other frame found
      have apart : frame.copy ≠ copy := by
        rintro rfl
        apply here (named'.symm.trans named)
      dsimp only
      rw [copied, if_neg apart]

/-- What `txn` may do to store a tuple. -/
def placing (txn : TransactionId) : Freedom where
  relocks := LockTable.OnlyBy txn
  changes _ := True
  writes := False
  spoils := False

/-- A tuple that is stored in a cached page is all that changes in memory. -/
theorem rewritten_of_storing (allocated : copy < pool.copies.size)
    (named : (pool.copy copy).id = page) (cached : (pool.cache.frame? page).isSome)
    (storing : Call.Storing txn tuple copy pool (.done outcome) after)
    (ok : outcome.result = .ok answer) :
  ∃ slot bytes, SlottedPage.insert (pool.copy copy).bytes tuple = (.ok slot, bytes)
    ∧ answer = .inserted (some ⟨page, slot⟩) ∧ after = pool.rewritten txn page copy bytes
  := by
  subst named
  cases storing with
  | refused | unmarked => cases ok
  | @stored slot bytes _ inserted marked =>
    cases ok
    refine ⟨slot, bytes, inserted, rfl, ?_⟩
    obtain ⟨-, changed⟩ | ⟨absent, -⟩ := pool.change_cases allocated txn bytes
    · rw [marked] at changed
      exact changed
    · rw [absent] at cached
      cases cached

/-- A `runPlace` that succeeds `Puts` `tuple` into a slot of `page`, and leaves the media of the
stores. -/
theorem Steady.puts_runPlace (steady : pool.Steady)
    (eq : Call.runPlace txn page tuple pool = (.done outcome, after))
    (ok : outcome.result = .ok answer) :
  ∃ slot bytes, answer = .inserted (some ⟨page, slot⟩) ∧ pool.view txn page = some bytes
    ∧ Puts txn tuple ⟨page, slot⟩ bytes pool after
    ∧ ∀ no, (after.store no).medium = (pool.store no).medium
  := by
  have moves : Moves (placing txn) pool after := by
    have relocks : (placing txn).relocks pool.locks (pool.locks.request page txn .exclusive).2 :=
      LockTable.onlyBy_request _ _ _ _
    have moves : (Round.last (Call.runPlace txn page tuple pool)).1.leadsTo ≠ .faulted →
        Moves (placing txn) pool (Call.runPlace txn page tuple pool).2 := fun unspoiled =>
      Call.moves_runPlace steady.tidy trivial relocks tuple unspoiled
    rw [eq] at moves
    apply moves
    obtain ⟨result, record⟩ := outcome
    cases ok
    rintro ⟨⟩
  have browses := browses_fetch steady.tidy txn page .readWrite
  cases Call.Placing.of_runPlace eq with
  | failed => cases ok
  | @fetched copy middle _ _ fetched storing =>
    rw [fetched] at browses
    obtain ⟨allocated, named, cached⟩ := Call.cached_fetch steady.tidy fetched
    obtain ⟨slot, bytes, inserted, rfl, rfl⟩ :=
      rewritten_of_storing allocated named cached storing ok
    have free : middle.withholds page txn = false := by
      rw [browses.withholds_eq steady, steady.withholds_of_fetch fetched]
    have view := view_rewritten (browses.steady steady).tidy allocated named free bytes
    have media : ∀ no, ((middle.rewritten txn page copy bytes).store no).medium
        = (pool.store no).medium := browses.reads.media.medium
    refine ⟨slot, _, rfl, steady.view_of_fetch fetched, ⟨⟨bytes, inserted, ?_⟩, ?_, ?_⟩, media⟩
    · rw [view, if_pos rfl]
    · intro other distinct
      rw [view, if_neg distinct, browses.view_eq steady]
    · apply steady.of_moves moves (fun _ _ => id) _ id
      intro no
      rw [Store.Numbered, Store.length, media]
      apply steady.numbered

/-! ### Appending a page for a tuple -/

/-- A `page` that is not stored is not cached. -/
theorem Steady.frame?_eq_none (steady : pool.Steady) (missing : pool.stored page = none) :
  pool.cache.frame? page = none
  := by
  apply Option.eq_none_iff_forall_ne_some.mpr
  intro frame found
  obtain ⟨allocated, named, -⟩ := steady.tidy.framed page frame found
  obtain ⟨-, bytes, stored, -⟩ := steady.current.imaged frame.copy allocated
  rw [named, missing] at stored
  cases stored

/-- To append an empty `page` changes the view of `txn` in that page alone. -/
theorem Steady.view_appended (steady : pool.Steady) {store : Store}
    (missing : pool.stored page = none)
    (stored : ∀ other, (pool.setStore no store).stored other
      = if other = page then some bytes else pool.stored other) (other : PageId) :
  (pool.setStore no store).view txn other
    = if other = page then some bytes else pool.view txn other
  := by
  have absent := steady.frame?_eq_none missing
  have withheld : (pool.setStore no store).withholds other txn = pool.withholds other txn := rfl
  have image : (pool.setStore no store).image? other
      = if other = page then some bytes else pool.image? other := by
    have cached : (pool.setStore no store).cache.frame? other = pool.cache.frame? other := rfl
    rw [image?, cached]
    by_cases here : other = page
    · subst here
      rw [absent, if_pos rfl]
      exact (stored other).trans (if_pos rfl)
    · rw [stored, if_neg here, if_neg here]
      rfl
  rw [view, view, withheld, image, stored]
  split
  · split <;> rfl
  · rfl

/-- A `Call.append` that succeeds `Puts` `tuple` into the page that it appends, after all pages of
the store. -/
theorem Steady.puts_append (steady : pool.Steady)
    (found : pool.catalog.get? (pool.store no).table = some no)
    (eq : Call.append txn no tuple pool = (.done outcome, after)) (ok : outcome.result = .ok answer)
    (numbered : ∀ other, (after.store other).Numbered) :
  ∃ record bytes size, answer = .inserted (some record)
    ∧ record.page.table = (pool.store no).table ∧ record.page.no.toNat = (pool.store no).length
    ∧ Store.emptyHeapPage size = .ok bytes ∧ Puts txn tuple record bytes pool after
    ∧ (after.store no).length = (pool.store no).length + 1
  := by
  simp only [Call.append] at eq
  rcases allocated : (pool.store no).allocate with ⟨failure | page, store⟩
  · rw [allocated] at eq
    cases eq
    cases ok
  · rw [allocated] at eq
    dsimp only at eq
    have grown : ∀ other, ((pool.setStore no store).store other).Numbered := by
      have does : Does txn [] (pool.setStore no store) _ := Call.does_runPlace page tuple _
      rw [eq] at does
      apply does.grows.numbered numbered
    have steady' : (pool.setStore no store).Steady := by
      have moves : Moves (browsing txn) pool (pool.setStore no store) := .single (.append allocated)
      apply steady.of_moves moves (fun _ _ => id) grown id
    have inside := (steady.current.catalogued _ _ found).1
    have replaced : (pool.setStore no store).store no = store := by
      rw [store_setStore, if_pos ⟨rfl, inside⟩]
    obtain ⟨last, length⟩ := Store.length_allocated allocated (steady.numbered no)
    obtain ⟨missing, file, empty, medium, made, stored⟩ := stored_appended steady.current.catalogued
      found allocated (steady.numbered no) (replaced ▸ grown no)
    have own : page.table = (pool.store no).table := by
      cases Store.Allocation.of_allocate allocated with
      | whole => rfl
    have view : ∀ other, (pool.setStore no store).view txn other
        = if other = page then some empty else pool.view txn other :=
      steady.view_appended missing stored
    obtain ⟨slot, bytes, rfl, seen, puts, media⟩ := steady'.puts_runPlace eq ok
    rw [view, if_pos rfl] at seen
    cases seen
    refine ⟨⟨page, slot⟩, empty, file.pageSize, rfl, own, last, made, ?_, ?_⟩
    · refine ⟨puts.inserted, ?_, puts.steady⟩
      intro other distinct
      rw [puts.others other distinct, view, if_neg distinct]
    · rw [← length, Store.length, media, replaced]
      rfl

/-! ### Looking for room -/

/-- Where `tuple` has gone of a `txn` that looks for room in `pages` of the store `no`: into the
first of them in which it saw room, or else into an empty page after the last one of the store. -/
inductive Fits (txn : TransactionId) (no : StoreNo) (tuple : Bytes) (pages : List PageNo)
    (record : RecordId) (pool after : Pool) : Prop where
  | inside {earlier later : List PageNo} {bytes : Bytes}
      (split : pages = earlier ++ record.page.no :: later)
      (full : ∀ pageNo ∈ earlier, ¬ pool.Roomy txn ⟨(pool.store no).table, pageNo⟩ tuple.length)
      (room : pool.Roomy txn record.page tuple.length)
      (seen : pool.view txn record.page = some bytes)
      (puts : Puts txn tuple record bytes pool after)
      (same : (after.store no).medium = (pool.store no).medium)
  | appended {bytes : Bytes} {size : Nat}
      (full : ∀ pageNo ∈ pages, ¬ pool.Roomy txn ⟨(pool.store no).table, pageNo⟩ tuple.length)
      (last : record.page.no.toNat = (pool.store no).length)
      (empty : Store.emptyHeapPage size = .ok bytes)
      (puts : Puts txn tuple record bytes pool after)
      (grown : (after.store no).length = (pool.store no).length + 1)

theorem Fits.puts {pages : List PageNo} (fits : Fits txn no tuple pages record pool after) :
  ∃ bytes, Puts txn tuple record bytes pool after
  := by
  cases fits with
  | inside _ _ _ _ puts | appended _ _ _ puts => exact ⟨_, puts⟩

theorem Browses.roomy_iff (browses : Browses txn pool middle) (steady : pool.Steady) :
  middle.Roomy txn page length ↔ pool.Roomy txn page length
  := by
  simp only [Roomy, browses.view_eq steady]

/-- What `Puts` a `tuple` after `Browses` does so with the browsing. -/
theorem Puts.of_browses (puts : Puts txn tuple record bytes middle after)
    (browses : Browses txn pool middle) (steady : pool.Steady) :
  Puts txn tuple record bytes pool after
  where
  inserted := puts.inserted
  steady := puts.steady
  others := by
    rw [← browses.view_eq steady]
    apply puts.others

/-- Where `pageNo` is not `Roomy`, what `Fits` in `rest` does so in `pageNo :: rest`. -/
theorem Fits.skip {pageNo : PageNo} {rest : List PageNo}
    (fits : Fits txn no tuple rest record middle after) (browses : Browses txn pool middle)
    (steady : pool.Steady) (full : ¬ pool.Roomy txn ⟨(pool.store no).table, pageNo⟩ tuple.length) :
  Fits txn no tuple (pageNo :: rest) record pool after
  := by
  have media := browses.reads.media
  cases fits with
  | @inside earlier later bytes split others room seen puts same =>
    rw [browses.roomy_iff steady] at room
    rw [browses.view_eq steady] at seen
    simp only [browses.roomy_iff steady, media.table] at others
    have split' : pageNo :: rest = (pageNo :: earlier) ++ record.page.no :: later := by
      rw [split, List.cons_append]
    exact .inside split' (List.forall_mem_cons.mpr ⟨full, others⟩) room seen
      (puts.of_browses browses steady) (same.trans (media.medium no))
  | appended others last empty puts grown =>
    simp only [browses.roomy_iff steady, media.table] at others
    rw [browses.length_eq] at last grown
    exact .appended (List.forall_mem_cons.mpr ⟨full, others⟩) last empty
      (puts.of_browses browses steady) grown

/-- A `runProbe` through `rest` that succeeds `Fits` `tuple` into the first page with room. -/
theorem Steady.fits_runProbe {rest : List PageNo} {known : Option Bool} (steady : pool.Steady)
    (found : pool.catalog.get? (pool.store no).table = some no)
    (eq : Call.runProbe txn no tuple known rest pool = (.done outcome, after))
    (ok : outcome.result = .ok answer) (numbered : ∀ other, (after.store other).Numbered) :
  ∃ record, answer = .inserted (some record) ∧ record.page.table = (pool.store no).table
    ∧ Fits txn no tuple rest record pool after
  := by
  induction rest generalizing pool known with
  | nil =>
    obtain ⟨record, bytes, size, rfl, own, last, empty, puts, grown⟩ :=
      steady.puts_append found eq ok numbered
    exact ⟨record, rfl, own, .appended (List.forall_mem_nil _) last empty puts grown⟩
  | cons pageNo rest ih =>
    have browses := browses_fetch steady.tidy txn ⟨(pool.store no).table, pageNo⟩ .readOnly
    simp only [Call.runProbe] at eq
    rcases fetched : pool.fetch txn ⟨(pool.store no).table, pageNo⟩ .readOnly with
      ⟨copy | _ | failure, middle⟩
    all_goals
      rw [fetched] at eq browses
      dsimp only at eq browses
    · have seen := steady.view_of_fetch fetched
      have steady' := browses.steady steady
      rcases room : SlottedPage.hasRoom (middle.copy copy).bytes tuple.length with fault | _ | _
      all_goals
        rw [room] at eq
        dsimp only at eq
      · cases eq
        cases ok
      · have full : ¬ pool.Roomy txn ⟨(pool.store no).table, pageNo⟩ tuple.length := by
          rw [roomy_iff seen room]
          apply Bool.false_ne_true
        have leaves := browses_leave middle txn ⟨(pool.store no).table, pageNo⟩
          (known.getD (pool.holdsLock txn ⟨(pool.store no).table, pageNo⟩))
        have browses := browses.trans leaves
        obtain ⟨record, rfl, own, fits⟩ :=
          ih (leaves.steady steady') (browses.get?_table found) eq
        have own' := own.trans (browses.reads.media.table no)
        exact ⟨record, rfl, own', fits.skip browses steady full⟩
      · obtain ⟨slot, bytes, rfl, seen', puts, media⟩ := steady'.puts_runPlace eq ok
        rw [browses.view_eq steady] at seen'
        have room := (roomy_iff seen room).mpr rfl
        refine ⟨_, rfl, rfl, .inside (List.nil_append _).symm (List.forall_mem_nil _) room seen'
          (puts.of_browses browses steady) ?_⟩
        rw [media, browses.reads.media.medium]
    · cases eq
    · cases eq
      cases ok

/-! ### Scans before and after -/

/-- Whether every page of the store `no` is well formed, as `txn` sees it. -/
def Legible (pool : Pool) (txn : TransactionId) (no : StoreNo) : Prop :=
  ∀ pageNo : PageNo, pageNo.toNat < (pool.store no).length →
    ∃ bytes, pool.view txn ⟨(pool.store no).table, pageNo⟩ = some bytes
      ∧ SlottedPage.WellFormed bytes

/-- What `Puts` a `tuple` leaves the tuples `found` in other `pages`. -/
theorem Puts.lists {pages : List PageNo} {found : List Tuple}
    (puts : Puts txn tuple record bytes pool after)
    (lists : Lists (pool.view txn) record.page.table pages found)
    (apart : ∀ pageNo ∈ pages, pageNo ≠ record.page.no) :
  Lists (after.view txn) record.page.table pages found
  := by
  apply lists.congr
  intro pageNo inside
  apply puts.others
  rintro here
  apply apart pageNo inside
  rw [← here]

/-- What `Puts` a `tuple` into one of the listed pages puts it between the tuples `front` and
`back` of the list. -/
theorem Puts.lists_inside {earlier later : List PageNo}
    (puts : Puts txn tuple record bytes pool after)
    (seen : pool.view txn record.page = some bytes)
    (sorted : (earlier ++ [record.page.no] ++ later).Pairwise (· < ·))
    (formed : ∀ pageNo ∈ earlier ++ [record.page.no] ++ later, ∃ bytes,
      pool.view txn ⟨record.page.table, pageNo⟩ = some bytes ∧ SlottedPage.WellFormed bytes) :
  ∃ front back, Lists (pool.view txn) record.page.table (earlier ++ [record.page.no] ++ later)
      (front ++ back)
    ∧ Lists (after.view txn) record.page.table (earlier ++ [record.page.no] ++ later)
      (front ++ ⟨some record, tuple⟩ :: back)
  := by
  obtain ⟨sorted, sorted', behind⟩ := List.pairwise_append.mp sorted
  obtain ⟨sorted, single, before⟩ := List.pairwise_append.mp sorted
  obtain ⟨formed, formed'⟩ := List.forall_mem_append.mp formed
  obtain ⟨formed, here⟩ := List.forall_mem_append.mp formed
  obtain ⟨first, lists⟩ := exists_lists sorted formed
  obtain ⟨found, there⟩ := exists_lists single here
  obtain ⟨last, lists'⟩ := exists_lists sorted' formed'
  obtain ⟨bytes', seen', header, laid⟩ := List.forall_mem_singleton.mp here
  cases seen.symm.trans seen'
  obtain ⟨bytes', inserted, stored⟩ := puts.inserted
  have kept := puts.lists lists fun other inside =>
    UInt32.ne_of_lt (before other inside _ (List.mem_singleton_self _))
  have kept' := puts.lists lists' fun other inside =>
    (UInt32.ne_of_lt (behind _ (by simp) other inside)).symm
  have filled := there.inserted laid seen stored inserted
  use first ++ found, last, (lists.append there before).append lists' behind
  simpa using (kept.append filled before).append kept' behind

/-- What `Puts` a `tuple` into an empty page after `pages` puts it after all tuples of `pages`. -/
theorem Puts.lists_appended {pages : List PageNo} {size : Nat}
    (puts : Puts txn tuple record bytes pool after) (empty : Store.emptyHeapPage size = .ok bytes)
    (sorted : (pages ++ [record.page.no]).Pairwise (· < ·))
    (formed : ∀ pageNo ∈ pages, ∃ bytes,
      pool.view txn ⟨record.page.table, pageNo⟩ = some bytes ∧ SlottedPage.WellFormed bytes) :
  ∃ found, Lists (pool.view txn) record.page.table pages found
    ∧ Lists (after.view txn) record.page.table (pages ++ [record.page.no])
      (found ++ [⟨some record, tuple⟩])
  := by
  obtain ⟨sorted, -, before⟩ := List.pairwise_append.mp sorted
  obtain ⟨found, lists⟩ := exists_lists sorted formed
  obtain ⟨bytes', inserted, stored⟩ := puts.inserted
  have made := Store.init_of_emptyHeapPage empty
  obtain ⟨⟨header, laid⟩, -⟩ := SlottedPage.wellFormed_init made
  have nothing : Lists (fun _ => some bytes) record.page.table [record.page.no] [] :=
    lists_tuplesOf rfl (SlottedPage.records_init made)
  have kept := puts.lists lists fun other inside =>
    UInt32.ne_of_lt (before other inside _ (List.mem_singleton_self _))
  exact ⟨found, lists, kept.append (nothing.inserted laid rfl stored inserted) before⟩

theorem Steady.mem_pageNos (steady : pool.Steady) {pageNo : PageNo} :
  pageNo ∈ Workspaces.pageNos (pool.store no).length ↔ pageNo.toNat < (pool.store no).length
  := by
  constructor
  · intro inside
    obtain ⟨i, within, rfl⟩ := List.mem_map.mp inside
    rw [List.mem_range] at within
    rw [UInt32.toNat_ofNat_of_lt' (Nat.lt_trans within (steady.numbered no))]
    apply within
  · intro within
    exact List.mem_map.mpr ⟨pageNo.toNat, List.mem_range.mpr within, UInt32.ofNat_toNat⟩

/-- What `Fits` a `tuple` into all pages of a store puts it between the tuples `front` and `back`
of the list. -/
theorem Fits.lists
    (fits : Fits txn no tuple (Workspaces.pageNos (pool.store no).length) record pool after)
    (steady : pool.Steady) (own : record.page.table = (pool.store no).table)
    (legible : pool.Legible txn no) (numbered : (after.store no).Numbered) :
  ∃ front back, Lists (pool.view txn) (pool.store no).table
      (Workspaces.pageNos (pool.store no).length) (front ++ back)
    ∧ Lists (after.view txn) (pool.store no).table (Workspaces.pageNos (after.store no).length)
      (front ++ ⟨some record, tuple⟩ :: back)
  := by
  rw [← own]
  have sorted := Workspaces.sorted_pageNos (Nat.le_of_lt (steady.numbered no))
  have formed : ∀ pageNo ∈ Workspaces.pageNos (pool.store no).length, ∃ bytes,
      pool.view txn ⟨record.page.table, pageNo⟩ = some bytes ∧ SlottedPage.WellFormed bytes := by
    rw [own]
    exact fun pageNo inside => legible pageNo (steady.mem_pageNos.mp inside)
  cases fits with
  | inside split full room seen puts same =>
    have length : (after.store no).length = (pool.store no).length := by
      rw [Store.length, Store.length, same]
    rw [List.append_cons] at split
    rw [length]
    rw [split] at sorted formed ⊢
    apply puts.lists_inside seen sorted formed
  | appended full last empty puts grown =>
    have pages : Workspaces.pageNos (after.store no).length
        = Workspaces.pageNos (pool.store no).length ++ [record.page.no] := by
      rw [grown, Workspaces.pageNos_add, ← last]
      simp
    have sorted' := Workspaces.sorted_pageNos (Nat.le_of_lt numbered)
    rw [pages] at sorted' ⊢
    obtain ⟨found, lists, lists'⟩ := puts.lists_appended empty sorted' formed
    exact ⟨found, [], by simpa using lists, lists'⟩

/-! ### Insertions in which nobody steps in -/

/-- Where a record of `length` bytes has gone by first fit in the store `no`. -/
inductive FirstFit (txn : TransactionId) (no : StoreNo) (length : Nat) (record : RecordId)
    (pool after : Pool) : Prop where
  /-- It takes the next slot of the first page in which its transaction saw room, and nothing is
  stored. -/
  | inside {bytes : Bytes} {header : SlottedPage.Header}
      (within : record.page.no.toNat < (pool.store no).length)
      (seen : pool.view txn record.page = some bytes)
      (headed : SlottedPage.header bytes = .ok header)
      (room : length + SlottedPage.slotSize ≤ header.freeSize.toNat)
      (full : ∀ pageNo < record.page.no, ¬ pool.Roomy txn ⟨record.page.table, pageNo⟩ length)
      (slot : record.slot = header.recordCount)
      (same : (after.store no).medium = (pool.store no).medium)
  /-- Its transaction saw room in no page, and it takes the first slot of a page more, which is the
  last one. -/
  | appended (full : ∀ pageNo : PageNo, pageNo.toNat < (pool.store no).length →
        ¬ pool.Roomy txn ⟨record.page.table, pageNo⟩ length)
      (last : record.page.no.toNat = (pool.store no).length) (slot : record.slot = 0)
      (grown : (after.store no).length = (pool.store no).length + 1)

/-- A page of a smaller number is listed earlier. -/
theorem mem_of_lt_of_sorted {earlier later : List PageNo} {pageNo other : PageNo}
    (sorted : (earlier ++ pageNo :: later).Pairwise (· < ·))
    (inside : other ∈ earlier ++ pageNo :: later) (before : other < pageNo) :
  other ∈ earlier
  := by
  obtain ⟨-, sorted, -⟩ := List.pairwise_append.mp sorted
  rcases List.mem_append.mp inside with inside | inside
  · apply inside
  · exfalso
    rcases List.mem_cons.mp inside with rfl | inside
    · apply UInt32.lt_irrefl _ before
    · apply UInt32.lt_asymm before ((List.pairwise_cons.mp sorted).1 other inside)

/-- What `Fits` a `tuple` into all pages of a store goes by `FirstFit`. -/
theorem Fits.firstFit
    (fits : Fits txn no tuple (Workspaces.pageNos (pool.store no).length) record pool after)
    (steady : pool.Steady) (own : record.page.table = (pool.store no).table)
    (legible : pool.Legible txn no) :
  FirstFit txn no tuple.length record pool after
  := by
  cases fits with
  | @inside earlier later bytes split full room seen puts same =>
    have sorted := Workspaces.sorted_pageNos (Nat.le_of_lt (steady.numbered no))
    have within : record.page.no.toNat < (pool.store no).length := by
      apply steady.mem_pageNos.mp
      simp [split]
    obtain ⟨bytes', seen', header, laid⟩ := legible record.page.no within
    rw [← own] at seen' full
    cases seen.symm.trans seen'
    obtain ⟨bytes', inserted, -⟩ := puts.inserted
    obtain ⟨slot, -⟩ := laid.inserted inserted
    obtain ⟨bytes', free, seen', told, room⟩ := room
    cases seen.symm.trans seen'
    cases told.symm.trans (SlottedPage.freeSpace_eq_ok laid.headed)
    refine .inside within seen laid.headed room ?_ slot same
    intro pageNo before
    apply full
    have inside : pageNo ∈ Workspaces.pageNos (pool.store no).length :=
      steady.mem_pageNos.mpr (Nat.lt_trans before within)
    rw [split] at sorted inside
    apply mem_of_lt_of_sorted sorted inside before
  | appended full last empty puts grown =>
    rw [← own] at full
    obtain ⟨bytes', inserted, -⟩ := puts.inserted
    have made := Store.init_of_emptyHeapPage empty
    obtain ⟨⟨header, laid⟩, -⟩ := SlottedPage.wellFormed_init made
    obtain ⟨slot, -⟩ := laid.inserted inserted
    cases laid.headed.symm.trans (SlottedPage.header_init made).2.2
    refine .appended ?_ last slot grown
    intro pageNo within
    apply full pageNo (steady.mem_pageNos.mpr within)

section

variable {table : TableId} {file : PageFile}

/-- An insertion of a `tuple` that does not fit fails with `.insufficientSpace`, and leaves
`pool`. -/
theorem insert_eq_of_not_fits (found : pool.catalog.get? table = some no)
    (heap : (pool.store no).medium = .heap file) (txn : TransactionId)
    (unfit : ¬ Call.fits file.pageSize tuple = true) :
  (Request.insert table tuple).start txn pool
    = (.done (.failure (.error (.page .insufficientSpace))), pool)
  := by
  have known : pool.storeOf table = .ok no := by simp only [storeOf, found]
  simp only [Request.start, Call.startInsert, known, heap, if_neg unfit]
  rfl

/-- An insertion that succeeds `Fits` its `tuple` into all pages of the store of `table`. -/
theorem Steady.fits_insert (steady : pool.Steady) (found : pool.catalog.get? table = some no)
    (heap : (pool.store no).medium = .heap file)
    (eq : (Request.insert table tuple).start txn pool = (.done outcome, after))
    (ok : outcome.result = .ok answer) (numbered : ∀ other, (after.store other).Numbered) :
  ∃ record, answer = .inserted (some record) ∧ record.page.table = (pool.store no).table
    ∧ Fits txn no tuple (Workspaces.pageNos (pool.store no).length) record pool after
  := by
  obtain rfl := (steady.current.catalogued table no found).2
  have known : pool.storeOf (pool.store no).table = .ok no := by simp only [storeOf, found]
  simp only [Request.start, Call.startInsert, known, heap] at eq
  split at eq
  · rcases listed : (pool.store no).pageNos with fault | pages
    · rw [listed] at eq
      cases eq
      cases ok
    · rw [listed] at eq
      obtain rfl : pages = Workspaces.pageNos (pool.store no).length :=
        Store.pageNos_ok (steady.numbered no) listed
      apply steady.fits_runProbe found eq ok numbered
  · cases eq
    cases ok

/-- An insertion leaves the tables in their stores. -/
theorem Steady.table_insert (steady : pool.Steady) (found : pool.catalog.get? table = some no)
    (heap : (pool.store no).medium = .heap file)
    (eq : (Request.insert table tuple).start txn pool = (.done outcome, after)) (other : StoreNo) :
  (after.store other).table = (pool.store other).table
  := by
  have served : pool.serves (.insert table tuple) := by
    intro no' found'
    cases found.symm.trans found'
    exact ⟨file, heap⟩
  have moves := Request.moves_start steady.tidy txn served (.inl ⟨table, tuple, rfl⟩)
  rw [eq] at moves
  apply moves.fixed.2.2

/-- Whatever was done with a pool before, and whatever the size of its cache: a `tuple` without
bytes, or with more than an empty page of `table` has room for, is rejected, and the pool stays as
it is.  If an insertion succeeds in which nobody steps in, and the pages of `table` are well formed
as `txn` sees them, then `tuple` has gone by `FirstFit`, `txn` sees all other pages as before, and
the tuples that it sees in `table`, in the order of pages and slots, are those from before with the
new one put in.  These are what a scan by `txn` finds before and after, if it finds any list. -/
theorem Use.first_fit {config : PoolConfig} {catalog : Registry TableId StoreNo}
    {stores : Array Store}
    (created : create config catalog stores = .ok start) (catalogued : start.Catalogued)
    (use : start.Use pool) (found : pool.catalog.get? table = some no)
    (heap : (pool.store no).medium = .heap file) (txn : TransactionId) (tuple : Bytes) :
  (¬ (0 < tuple.length
        ∧ tuple.length ≤ file.pageSize - (SlottedPage.headerSize + SlottedPage.slotSize)) →
      (Request.insert table tuple).start txn pool
        = (.done (.failure (.error (.page .insufficientSpace))), pool))
    ∧ ∀ outcome answer after,
      (Request.insert table tuple).start txn pool = (.done outcome, after) →
      outcome.result = .ok answer → (∀ other, (after.store other).Numbered) →
      pool.Legible txn no →
        ∃ record, answer = .inserted (some record) ∧ record.page.table = table
          ∧ FirstFit txn no tuple.length record pool after
          ∧ (∀ page, page ≠ record.page → after.view txn page = pool.view txn page)
          ∧ ∃ front back,
            Lists (pool.view txn) table (Workspaces.pageNos (pool.store no).length) (front ++ back)
            ∧ Lists (after.view txn) table (Workspaces.pageNos (after.store no).length)
              (front ++ ⟨some record, tuple⟩ :: back)
            ∧ (∀ found, pool.Scans txn no found → found = front ++ back)
            ∧ ∀ found, after.Scans txn no found → found = front ++ ⟨some record, tuple⟩ :: back
  := by
  constructor
  · intro outside
    rw [← Call.fits_iff] at outside
    apply insert_eq_of_not_fits found heap txn outside
  · intro outcome answer after eq ok numbered legible
    have grows := (Request.insert table tuple).grows_start txn pool
    rw [eq] at grows
    have steady := use.steady created catalogued (grows.numbered numbered)
    obtain ⟨record, rfl, own, fits⟩ := steady.fits_insert found heap eq ok numbered
    obtain ⟨bytes, puts⟩ := fits.puts
    obtain ⟨front, back, before, there⟩ := fits.lists steady own legible (numbered no)
    have tabled := (steady.current.catalogued table no found).2
    rw [tabled] at own before there
    refine ⟨record, rfl, own, fits.firstFit steady (own.trans tabled.symm) legible, puts.others,
      front, back, before, there, ?_, ?_⟩
    · intro found' scans
      have lists := steady.lists_of_scans scans
      rw [tabled] at lists
      apply before.unique lists
    · intro found' scans
      have lists := puts.steady.lists_of_scans scans
      rw [steady.table_insert found heap eq, tabled] at lists
      apply there.unique lists

end

end Pool

/-! ### An insertion past a full page -/

namespace System

theorem use_noPagesScanned :
  noPages.Use noPagesScanned
  := by
  have inserted : noPages.Use noPagesInserted := by
    apply Pool.Use.act (Pool.Use.act .start (.enter ⟨0⟩ (.insert 1 [7])) _)
      (.round ⟨0⟩ (.place ⟨1, 0⟩ [7]))
    · exact ⟨trivial, nofun⟩
    · apply serves_insert_of_one_table rfl rfl 1 [7]
  apply Pool.Use.act (Pool.Use.act inserted (.complete ⟨0⟩ true) trivial)
    (.round ⟨1⟩ (.scan 1 [] 0 []))
  exact ⟨trivial, nofun⟩

/-- `noPagesScanned` after another tuple was inserted, for which there was no room in the first
page. -/
def noPagesSpilled : Pool :=
  { noPagesScanned with
    cache := ⟨1, [⟨⟨1, 1⟩, 1, true⟩]⟩
    copies := #[⟨⟨1, 0⟩, filledPage, none⟩,
      ⟨⟨1, 1⟩, [13, 0, 0, 0, 3, 0, 0, 0, 1, 0, 0, 0, 8, 0, 0, 0, 12, 0, 0, 0, 1, 0, 0, 0],
        some ⟨1⟩⟩]
    locks := noPagesScanned.locks.grant ⟨1, 1⟩ ⟨1⟩ .exclusive
    stores := #[
      { table := 1, medium := .heap ⟨24, ⟨(filledPage ++ emptyPage).toArray⟩⟩
        accesses := [⟨1, false, false⟩, ⟨0, true, false⟩, ⟨0, false, false⟩] }] }

/-- In `noPagesScanned` the only page is full, and leaves the cache for one more, into which the
tuple goes; an empty tuple is rejected. -/
theorem first_fit_noPages :
  Pool.create noPages.config noPages.catalog noPages.stores = .ok noPages
    ∧ noPages.Catalogued
    ∧ noPages.Use noPagesScanned
    ∧ noPagesScanned.Legible ⟨1⟩ 0
    ∧ (Request.insert 1 []).start ⟨1⟩ noPagesScanned
      = (.done (.failure (.error (.page .insufficientSpace))), noPagesScanned)
    ∧ ∃ outcome, (Request.insert 1 [8]).start ⟨1⟩ noPagesScanned = (.done outcome, noPagesSpilled)
      ∧ outcome.result = .ok (.inserted (some ⟨⟨1, 1⟩, 0⟩))
      ∧ (∀ other, (noPagesSpilled.store other).Numbered)
      ∧ Pool.FirstFit ⟨1⟩ 0 1 ⟨⟨1, 1⟩, 0⟩ noPagesScanned noPagesSpilled
      ∧ Lists (noPagesSpilled.view ⟨1⟩) 1 (Workspaces.pageNos 2)
        [insertedTuple, ⟨some ⟨⟨1, 1⟩, 0⟩, [8]⟩]
  := by
  have created : Pool.create noPages.config noPages.catalog noPages.stores = .ok noPages := rfl
  have catalogued := wellStored_noPages.catalogued
  have found : noPagesScanned.catalog.get? 1 = some 0 := rfl
  have heap : (noPagesScanned.store 0).medium = .heap ⟨24, ⟨filledPage.toArray⟩⟩ := rfl
  have legible : noPagesScanned.Legible ⟨1⟩ 0 := by
    intro pageNo within
    obtain rfl : pageNo = 0 := by
      apply UInt32.toNat_inj.mp
      apply Nat.lt_one_iff.mp within
    exact ⟨filledPage, rfl, wellFormed_filledPage⟩
  obtain ⟨rejected, -⟩ :=
    Pool.Use.first_fit created catalogued use_noPagesScanned found heap ⟨1⟩ []
  obtain ⟨-, fits⟩ :=
    Pool.Use.first_fit created catalogued use_noPagesScanned found heap ⟨1⟩ [8]
  have insert : (Request.insert 1 [8]).start ⟨1⟩ noPagesScanned
    = (.done { Outcome.answer (.inserted (some ⟨⟨1, 1⟩, 0⟩)) with record := some ⟨⟨1, 1⟩, 0⟩ },
      noPagesSpilled) := rfl
  have numbered : ∀ other, (noPagesSpilled.store other).Numbered :=
    numbered_of_one_store rfl (by decide)
  obtain ⟨record, same, -, first, -, front, back, -, lists, scanned, -⟩ :=
    fits _ _ _ insert rfl numbered legible
  cases same
  refine ⟨created, catalogued, use_noPagesScanned, legible, rejected (by decide), _, insert, rfl,
    numbered, first, ?_⟩
  have scans : noPagesScanned.Scans ⟨1⟩ 0 [insertedTuple] := rfl
  obtain ⟨rfl, rfl⟩ | ⟨rfl, rfl⟩ := List.singleton_eq_append_iff.mp (scanned _ scans)
  · obtain ⟨precedes, -⟩ := List.pairwise_cons.mp lists.sorted
    obtain ⟨record, next, named, named', before⟩ :=
      precedes insertedTuple (List.mem_singleton_self _)
    cases named
    cases named'
    exact absurd before (by decide)
  · apply lists

/-! ### An insertion that is not seen -/

/-- The page `spacedPage` with another tuple of one byte. -/
def spacedPageFilled : Bytes :=
  [17, 0, 0, 0, 0, 0, 0, 0, 2, 0, 0, 0, 1, 2, 3, 4, 8, 16, 0, 0, 0, 1, 0, 0, 0,
    12, 0, 0, 0, 4, 0, 0, 0]

/-- The pool `spacedPagesGrown file` after an empty page was stored over the first one in `grown`,
and the first page was fetched, which is in the cache. -/
def spacedPagesHeld (file grown : PageFile) : Pool :=
  { (Pool.spacedPagesGrown file).overwritten 0 grown Pool.blankPage with
    cache := ⟨2, [⟨⟨1, 4294967294⟩, 1, false⟩, ⟨⟨1, 0⟩, 0, false⟩]⟩
    locks := ((Pool.spacedPagesGrown file).locks.request ⟨1, 0⟩ ⟨0⟩ .exclusive).2 }

/-- `spacedPagesHeld` after a tuple was inserted into page 0. -/
def spacedPagesFilled (file grown : PageFile) : Pool :=
  { spacedPagesHeld file grown with
    cache := ⟨2, [⟨⟨1, 4294967294⟩, 1, false⟩, ⟨⟨1, 0⟩, 0, true⟩]⟩
    copies := #[⟨⟨1, 0⟩, spacedPageFilled, some ⟨0⟩⟩, ⟨⟨1, 4294967294⟩, Pool.spacedPage, none⟩] }

theorem runPlace_spacedPagesGrown (file grown : PageFile) :
  Call.runPlace ⟨0⟩ ⟨1, 0⟩ [8] ((Pool.spacedPagesGrown file).overwritten 0 grown Pool.blankPage)
    = (.done { Outcome.answer (.inserted (some ⟨⟨1, 0⟩, 1⟩)) with record := some ⟨⟨1, 0⟩, 1⟩ },
      spacedPagesFilled file grown)
  := by
  have fetched : ((Pool.spacedPagesGrown file).overwritten 0 grown Pool.blankPage).fetch ⟨0⟩ ⟨1, 0⟩
      .readWrite = (.page 0, spacedPagesHeld file grown) := rfl
  have copied : (spacedPagesHeld file grown).copy 0 = ⟨⟨1, 0⟩, Pool.spacedPage, none⟩ := rfl
  have inserted : SlottedPage.insert Pool.spacedPage [8] = (.ok 1, spacedPageFilled) := rfl
  simp only [Call.runPlace, fetched, Call.store, copied, inserted]
  rfl

/-- Over `spacedPages` an insertion succeeds in which nobody steps in, and a scan by its
transaction finds nothing before and nothing after it. -/
theorem not_first_fit_spacedPages :
  Pool.create (Pool.ofFile 2 Pool.spacedPages).config (Pool.ofFile 2 Pool.spacedPages).catalog
      (Pool.ofFile 2 Pool.spacedPages).stores = .ok (Pool.ofFile 2 Pool.spacedPages)
    ∧ ∃ pool outcome after, (Pool.ofFile 2 Pool.spacedPages).Use pool
      ∧ (Request.scan 0).start ⟨0⟩ pool = (.done (.answer (.tuples [])), pool)
      ∧ (Request.insert 1 [8]).start ⟨0⟩ pool = (.done outcome, after)
      ∧ outcome.result = .ok (.inserted (some ⟨⟨1, 0⟩, 1⟩))
      ∧ (Request.scan 0).start ⟨0⟩ after = (.done (.answer (.tuples [])), after)
  := by
  have fits : Call.fits 33 [8] = true := rfl
  have empty : Store.emptyHeapPage 33 = .ok Pool.blankPage := rfl
  have size : Pool.blankPage.length = 33 := rfl
  have use := Pool.use_spacedPagesGrown rfl Pool.pages_spacedPages fun no => Pool.page_spacedPages
  have outgrown := Pool.outgrown_spacedPagesGrown rfl Pool.pages_spacedPages
  have inserted := outgrown.start_insert fits empty ⟨0⟩
  rw [runPlace_spacedPagesGrown] at inserted
  have overwritten := outgrown.overwritten size
  have outgrown' : (spacedPagesFilled Pool.spacedPages _).Outgrown 1 0 _ :=
    ⟨rfl, Nat.one_pos, rfl, rfl, overwritten.outgrown, rfl, rfl⟩
  exact ⟨Pool.create_ofFile Nat.two_pos (by decide) _, _, _, _, use, outgrown.start_scan ⟨0⟩,
    inserted, rfl, outgrown'.start_scan ⟨0⟩⟩

end System

end StorageEngine

import StorageEngine.Proofs.System.Tally
import StorageEngine.Proofs.System.WholeCalls

/-!
# Scans in which nobody steps in

A scan in which nobody steps in begins, and either fails or has to wait, or ends with a list of
tuples (`System.scanned_of_start`).  A transaction that has changed no page of the table finds the
tuples that the table stores (`System.Reached.found_eq_tuples`).
-/

namespace StorageEngine

/-- A `txn` that sees the pages of `store` as they are stored collects the tuples in them. -/
theorem Workspaces.found_of_collected {spaces : Workspaces} {txn : TransactionId} {store : Store}
    {pages : List PageNo} {found : List Tuple}
    (sees : ∀ no, spaces.view txn ⟨store.table, no⟩ = (store.image ⟨store.table, no⟩).toOption)
    (collected : spaces.collect? txn store.table pages = some found) :
  found = pages.flatMap store.tuplesIn
  := by
  induction pages generalizing found with
  | nil =>
    cases collected
    rfl
  | cons no pages ih =>
    simp only [collect?, bind, Option.bind_eq_some_iff, pure, Option.some.injEq] at collected
    obtain ⟨bytes, view, records, read, rest, more, rfl⟩ := collected
    have here : store.tuplesIn no = Call.tuplesOf ⟨store.table, no⟩ records := by
      rw [sees] at view
      cases image : store.image ⟨store.table, no⟩ with
      | error failure =>
        rw [image] at view
        cases view
      | ok stored =>
        rw [image] at view
        cases view
        cases listed : SlottedPage.records bytes with
        | error fault =>
          rw [listed] at read
          cases read
        | ok found =>
          rw [listed] at read
          cases read
          simp [Store.tuplesIn, image, listed]
    rw [List.flatMap_cons, here, ih more]

/-- A `round` of `.scan` has to wait, or fails, or ends with what was found, or comes to the next
page. -/
theorem Call.scan_round_cases {txn : TransactionId} {pool after : Pool} {round : Round}
    {table : TableId} {found : List Tuple} {no : PageNo} {rest : List PageNo}
    (eq : (Call.scan table found no rest).round txn pool = (round, after)) :
  round = .waiting (.scan table found no rest)
    ∨ (∃ failure, round = .done (.failure failure))
    ∨ (∃ found', round = .done (.answer (.tuples found')))
    ∨ ∃ found' no' rest', rest = no' :: rest' ∧ round = .next (.scan table found' no' rest')
  := by
  cases Call.Listing.of_round eq with
  | waiting =>
    left
    rfl
  | failed | broken =>
    right; left
    exact ⟨_, rfl⟩
  | listed =>
    right; right
    cases rest with
    | nil =>
      left
      exact ⟨_, rfl⟩
    | cons no' rest =>
      right
      exact ⟨_, no', rest, rfl, rfl⟩

namespace System

variable {system last : System} {spaces : Workspaces} {txn : TransactionId} {after : Pool}
  {progress : Progress} {events : List Event} {start : Pool} {table : TableId} {no : StoreNo}

/-- How a scan of `table` by `txn` gets on in which nobody steps in: it has to wait, or fails, or
ends with what it has found. -/
inductive Scanned (system : System) (txn : TransactionId) (table : TableId) (after : Pool)
    (before : List Event) : Progress → Prop where
  | waiting {call : Call} (run : system.Run before (system.moved txn after (.calling call))) :
      Scanned system txn table after before (.waiting call)
  | failed {failure : Failure PoolError}
      (run : system.Run before
        (system.moved txn after (Round.done (.failure failure)).leadsTo)) :
      Scanned system txn table after before (.done (.failure failure))
  | answered {found : List Tuple}
      (run : system.Run (before ++ [.scanned txn table found]) (system.moved txn after .idle)) :
      Scanned system txn table after before (.done (.answer (.tuples found)))

/-- A scan is quiet. -/
theorem Scanned.run {before : List Event} (scanned : system.Scanned txn table after before progress)
    (quiet : ∀ event ∈ before, event.isQuiet = true) :
  ∃ events activity, system.Run events (system.moved txn after activity)
    ∧ ∀ event ∈ events, event.isQuiet = true
  := by
  cases scanned with
  | waiting run => exact ⟨_, _, run, quiet⟩
  | failed run => exact ⟨_, _, run, quiet⟩
  | answered run =>
    refine ⟨_, _, run, ?_⟩
    intro event member
    rcases List.mem_append.mp member with old | new
    · apply quiet event old
    · cases List.mem_singleton.mp new
      rfl

theorem Scanned.prepend {pool : Pool} {activity : Activity} {before : List Event}
    (run : system.Run before (system.moved txn pool activity))
    (scanned : (system.moved txn pool activity).Scanned txn table after [] progress) :
  system.Scanned txn table after before progress
  := by
  cases scanned with
  | waiting rest =>
    rw [moved_moved] at rest
    have whole := run.trans rest
    rw [List.append_nil] at whole
    exact .waiting whole
  | failed rest =>
    rw [moved_moved] at rest
    have whole := run.trans rest
    rw [List.append_nil] at whole
    exact .failed whole
  | answered rest =>
    rw [moved_moved] at rest
    exact .answered (run.trans rest)

/-- `.scan`, taken up where nobody steps in, gets on from page to page: `Scanned`. -/
theorem scanned_of_call {found : List Tuple} {no : PageNo} {rest : List PageNo}
    (under : system.doing txn = .calling (.scan table found no rest))
    (eq : (Call.scan table found no rest).run txn system.pool = (progress, after)) :
  system.Scanned txn table after [] progress
  := by
  induction rest generalizing system found no with
  | nil =>
    rw [Call.run_eq_proceed] at eq
    cases first : (Call.scan table found no []).round txn system.pool with
    | mk round pool =>
      rw [first] at eq
      have step := Run.single (.round under first)
      obtain rfl | ⟨failure, rfl⟩ | ⟨found', rfl⟩ | ⟨_, _, _, more, -⟩ :=
        Call.scan_round_cases first
      · cases eq
        exact .waiting step
      · cases eq
        exact .failed step
      · cases eq
        exact .answered step
      · cases more
  | cons no' rest ih =>
    rw [Call.run_eq_proceed] at eq
    cases first : (Call.scan table found no (no' :: rest)).round txn system.pool with
    | mk round pool =>
      rw [first] at eq
      have step := Run.single (.round under first)
      obtain rfl | ⟨failure, rfl⟩ | ⟨found', rfl⟩ | ⟨found', _, _, more, rfl⟩ :=
        Call.scan_round_cases first
      · cases eq
        exact .waiting step
      · cases eq
        exact .failed step
      · cases eq
        exact .answered step
      · cases more
        exact .prepend step (ih (system.doing_moved_self ..) eq)

/-- A scan of the store `no` in which nobody steps in fails, or begins with the count of its pages:
`Scanned`. -/
theorem scanned_of_start (numbered : (system.pool.store no).Numbered)
    (free : (system.doing txn).mayCall) (served : system.pool.serves (.scan no))
    (eq : (Request.scan no).start txn system.pool = (progress, after)) :
  (∃ failure, progress = .done (.failure failure) ∧ after = system.pool)
    ∨ system.Scanned txn (system.pool.store no).table after
      [.scanning txn (system.pool.store no).table (system.pool.store no).length] progress
  := by
  rw [Request.start_eq_proceed] at eq
  cases listed : (system.pool.store no).pageNos with
  | error failure =>
    have entered : (Request.scan no).enter txn system.pool
        = (.done (.failure failure), system.pool) := by
      simp only [Request.enter, listed]
    rw [entered] at eq
    cases eq
    left
    exact ⟨failure, rfl, rfl⟩
  | ok pages =>
    right
    have entered : (Request.scan no).enter txn system.pool
        = (Call.enterScan (system.pool.store no).table [] pages, system.pool) := by
      simp only [Request.enter, listed]
    have all : pages.length = (system.pool.store no).length := by
      rw [Store.pageNos_ok numbered listed]
      simp
    have step := Run.single (.enter free served entered)
    simp only [Request.events, listed, all] at step
    rw [entered] at eq
    cases pages with
    | nil =>
      cases eq
      exact .answered step
    | cons pageNo rest => exact .prepend step (scanned_of_call (system.doing_moved_self ..) eq)

/-- A `txn` with nothing pending finds the `tuples` that the store `no` has. -/
theorem Reached.found_eq_tuples (reached : system.Reached start table events spaces)
    {found : List Tuple} (base : start.Over table no)
    (idle : (History.of table events).pending txn = [])
    (run : system.Run [.scanning txn table (system.pool.store no).length, .scanned txn table found]
      last)
    (numbered : (last.pool.store no).Numbered) :
  found = (system.pool.store no).tuples
  := by
  obtain ⟨own, kept⟩ := reached.kept base
  have sees : ∀ pageNo, spaces.view txn ⟨(system.pool.store no).table, pageNo⟩
      = ((system.pool.store no).image ⟨(system.pool.store no).table, pageNo⟩).toOption := by
    intro pageNo
    rw [Workspaces.view, reached.overlay_eq_none idle own, Option.none_or,
      reached.mirrors.faithful.committed]
    simp [Pool.stored, own, kept]
  obtain ⟨spaces', followed⟩ := reached.follow base run numbered
  cases followed with
  | step scanning rest =>
    cases scanning with
    | scanning all =>
      cases rest with
      | step scanned rest =>
        cases scanned with
        | scanned begun seen =>
          simp only [Workspaces.scan, Function.update_self, Option.some.injEq] at begun
          cases begun
          rw [← own] at seen
          refine Workspaces.found_of_collected ?_ seen
          exact sees

end System

end StorageEngine

import StorageEngine.CommandLine.Execution
import StorageEngine.Proofs.System.WholeScans
import StorageEngine.Proofs.Workload.Moves

/-!
# Counting stored tuples

A transaction that scans the table in which nobody else does anything counts the tuples that the
table stores, and takes none away, whether it comes to an end or is given up
(`CommandLine.gains_countTuples`).
-/

namespace StorageEngine

/-- Along `runScan` the tables stay in their stores, `pool.Keeps`. -/
theorem Call.keeps_runScan (txn : TransactionId) (table : TableId) (found : List Tuple)
    (rest : List PageNo) (pool : Pool) :
  pool.Keeps (runScan txn table found rest pool).2
  := by
  induction rest generalizing found pool with
  | nil => apply Pool.Keeps.refl
  | cons no rest ih =>
    have fetched := pool.keeps_fetch txn ⟨table, no⟩ .readOnly
    simp only [runScan]
    rcases fetch : pool.fetch txn ⟨table, no⟩ .readOnly with ⟨copy | _ | failure, after⟩
    · rw [fetch] at fetched
      dsimp only
      split
      · apply fetched
      · exact fetched.trans (ih _ after)
    · rw [fetch] at fetched
      apply fetched
    · rw [fetch] at fetched
      apply fetched

theorem Request.keeps_startScan (txn : TransactionId) (no : StoreNo) (pool : Pool) :
  pool.Keeps ((Request.scan no).start txn pool).2
  := by
  show pool.Keeps (Call.startScan txn no pool).2
  unfold Call.startScan
  dsimp only
  split
  · apply Pool.Keeps.refl
  · apply Call.keeps_runScan

namespace CommandLine

variable {start : Pool} {table : TableId} {system : System} {events : List Event}
  {txn : TransactionId}

/-- Where the scan of `countTuples` ends in `progress` and `middle`, either the count fails and the
pool is `middle` after an abort, or the scan has an `answer` and the pool is `middle` after a
commit; a `count` that is returned is the length of `answer`. -/
theorem countTuples_cases {pool middle : Pool} {progress : Progress}
    (eq : (Request.scan 0).start txn pool = (progress, middle)) :
  ((∃ failure, (countTuples txn pool).1 = .error failure)
      ∧ (countTuples txn pool).2 = (middle.complete txn false).2)
    ∨ ∃ outcome answer, progress = .done outcome ∧ outcome.result = .ok answer
      ∧ (countTuples txn pool).2 = (middle.complete txn true).2
      ∧ ∀ count, (countTuples txn pool).1 = .ok count → count = answer.found.length
  := by
  have drop : (Transaction.begin txn).drop middle = (middle.complete txn false).2 :=
    (Transaction.complete_active rfl false middle).2
  have commit : ((Transaction.begin txn).commit middle).2.2 = (middle.complete txn true).2 :=
    (Transaction.complete_active rfl true middle).2
  unfold countTuples
  rw [eq]
  cases progress with
  | waiting call =>
    left
    exact ⟨⟨_, rfl⟩, drop⟩
  | done outcome =>
    cases answered : outcome.result with
    | error failure =>
      left
      simp only [answered]
      exact ⟨⟨_, rfl⟩, drop⟩
    | ok answer =>
      right
      refine ⟨outcome, answer, rfl, answered, ?_⟩
      simp only [answered]
      cases ended : (Transaction.begin txn).commit middle with
      | mk result came =>
        rw [ended] at commit
        obtain ⟨transaction, pool'⟩ := came
        cases result with
        | ok _ => exact ⟨commit, fun count same => (Except.ok.inj same).symm⟩
        | error failure => exact ⟨commit, nofun⟩

/-- `countTuples` takes no page away, `pool.Grows`. -/
theorem grows_countTuples (txn : TransactionId) (pool : Pool) :
  pool.Grows (countTuples txn pool).2
  := by
  have scanned := (Request.scan 0).grows_start txn pool
  cases eq : (Request.scan 0).start txn pool with
  | mk progress middle =>
    rw [eq] at scanned
    rcases countTuples_cases eq with ⟨-, made⟩ | ⟨outcome, answer, -, -, made, -⟩
    · rw [made]
      exact scanned.trans (middle.grows_complete txn false)
    · rw [made]
      exact scanned.trans (middle.grows_complete txn true)

/-- Along `countTuples` the tables stay in their stores, `pool.Keeps`. -/
theorem keeps_countTuples (txn : TransactionId) (pool : Pool) :
  pool.Keeps (countTuples txn pool).2
  := by
  have scanned := Request.keeps_startScan txn 0 pool
  cases eq : (Request.scan 0).start txn pool with
  | mk progress middle =>
    rw [eq] at scanned
    rcases countTuples_cases eq with ⟨-, made⟩ | ⟨outcome, answer, -, -, made, -⟩
    · rw [made]
      exact scanned.trans (middle.keeps_complete txn false)
    · rw [made]
      exact scanned.trans (middle.keeps_complete txn true)

section

variable (base : start.Over table 0) (run : (System.start start).Run events system)
  (unedited : ∀ txn page edits, .updated txn page edits ∉ events)
  (undeleted : ∀ txn record, .deleted txn record ∉ events)

include base run unedited undeleted

/-- A run that goes on with quiet events `later` is still `Reached` by workspaces, and has the
history of `events`. -/
theorem reached_quiet {last : System} {later : List Event} (rest : system.Run later last)
    (quiet : ∀ event ∈ later, event.isQuiet = true) (numbered : (last.pool.store 0).Numbered) :
  (∃ spaces, last.Reached start table (events ++ later) spaces)
    ∧ History.of table (events ++ later) = History.of table events
  := by
  constructor
  · apply (run.trans rest).reached base numbered
    · intro txn page edits member
      rcases List.mem_append.mp member with before | new
      · apply unedited txn page edits before
      · cases quiet _ new
    · intro txn record member
      rcases List.mem_append.mp member with before | new
      · apply undeleted txn record before
      · cases quiet _ new
  · rw [History.of, List.foldl_append, History.foldl_quiet _ quiet]
    rfl

/-- After an abort of `txn` the table `Gains` over `start` what `events` have committed. -/
theorem gains_givenUp {last : System} {later : List Event} (rest : system.Run later last)
    (quiet : ∀ event ∈ later, event.isQuiet = true)
    (numbered : ((last.pool.complete txn false).2.store 0).Numbered) :
  start.Gains (last.pool.complete txn false).2 table 0 (History.of table events).committed.length
  := by
  have numbered : (last.pool.store 0).Numbered :=
    Nat.lt_of_le_of_lt (last.pool.grows_complete txn false 0) numbered
  obtain ⟨⟨spaces, reached⟩, same⟩ := reached_quiet base run unedited undeleted rest quiet numbered
  rw [← same]
  apply reached.gains_abort base txn

/-- After a commit of `txn`, with nothing of its own pending, the table `Gains` over `start` what
`events` have committed. -/
theorem gains_commit {pool : Pool} {later : List Event}
    (idle : (History.of table events).pending txn = [])
    (rest : system.Run later (system.moved txn pool .idle))
    (quiet : ∀ event ∈ later, event.isQuiet = true)
    (numbered : ((pool.complete txn true).2.store 0).Numbered) :
  start.Gains (pool.complete txn true).2 table 0 (History.of table events).committed.length
  := by
  have free : ((system.moved txn pool .idle).doing txn).mayEnd true := by
    rw [System.doing_moved_self]
    trivial
  have whole := (run.trans rest).step (.complete free rfl)
  have same : History.of table (events ++ later) = History.of table events := by
    rw [History.of, List.foldl_append, History.foldl_quiet _ quiet]
    rfl
  obtain ⟨spaces, reached⟩ := whole.reached base numbered
    (by
      intro other page edits member
      simp only [List.mem_append, List.mem_singleton, reduceCtorEq, or_false] at member
      rcases member with before | new
      · apply unedited other page edits before
      · cases quiet _ new)
    (by
      intro other record member
      simp only [List.mem_append, List.mem_singleton, reduceCtorEq, or_false] at member
      rcases member with before | new
      · apply undeleted other record before
      · cases quiet _ new)
  have gains := reached.gains base
  have stored : (History.of table (events ++ later
        ++ [.ended txn true (pool.complete txn true).1])).committed
      = (History.of table events).committed := by
    rw [← same, History.of, List.foldl_append]
    show (History.after table (History.of table (events ++ later)) _).committed = _
    cases (pool.complete txn true).1 with
    | error failure => rfl
    | ok _ => simp [History.after, History.commit, same, idle]
  rw [← stored]
  apply gains

/-- For an idle `txn` with nothing pending, `countTuples` leaves the table with what `events` have
committed, and a `count` that it returns is the number of tuples stored in `system.pool`. -/
theorem gains_countTuples (doing : system.doing txn = .idle)
    (idle : (History.of table events).pending txn = [])
    (numbered : ((countTuples txn system.pool).2.store 0).Numbered) :
  start.Gains (countTuples txn system.pool).2 table 0 (History.of table events).committed.length
    ∧ ∀ count, (countTuples txn system.pool).1 = .ok count →
      count = (system.pool.store 0).tuples.length
  := by
  have free : (system.doing txn).mayCall := by
    rw [doing]
    trivial
  have before : (system.pool.store 0).Numbered :=
    Nat.lt_of_le_of_lt (grows_countTuples txn system.pool 0) numbered
  obtain ⟨spaces, reached⟩ := run.reached base before unedited undeleted
  have own : (system.pool.store 0).table = table := (reached.kept base).1
  cases eq : (Request.scan 0).start txn system.pool with
  | mk progress middle =>
    have scanned := System.scanned_of_start before free (reached.serves_scan base) eq
    rw [own] at scanned
    rcases countTuples_cases eq with ⟨⟨failure, failed⟩, made⟩
      | ⟨outcome, answer, rfl, result, made, counted⟩
    · rw [made] at numbered ⊢
      refine ⟨?_, fun count succeeded => by cases failed.symm.trans succeeded⟩
      rcases scanned with ⟨fault, rfl, rfl⟩ | scanned
      · exact gains_givenUp base run unedited undeleted .start nofun numbered
      · obtain ⟨later, activity, rest, quiet⟩ := scanned.run (by simp [Event.isQuiet])
        exact gains_givenUp base run unedited undeleted rest quiet numbered
    · rw [made] at numbered ⊢
      rcases scanned with ⟨fault, failed, -⟩ | scanned
      · cases failed
        cases result
      · cases scanned with
        | failed => cases result
        | @answered found rest =>
          cases result
          have last : (middle.store 0).Numbered :=
            Nat.lt_of_le_of_lt (middle.grows_complete txn true 0) numbered
          refine ⟨gains_commit base run unedited undeleted idle rest ?_ numbered, ?_⟩
          · simp [Event.isQuiet]
          · intro count succeeded
            rw [counted count succeeded, ← reached.found_eq_tuples base idle rest last]
            rfl

end

end CommandLine

end StorageEngine

import StorageEngine.Proofs.System.Growth

/-!
# Whole calls

To make a call on a pool is to make steps of a system in which nobody else does anything, up to
where the call ends or has to wait (`Run.of_start`), and so it is to take up a call that has waited
(`Run.of_call`).  What happens last in these steps is what the call answers.  So transactions that
make calls on a pool, in any order and taking up those that wait at any time, run a system.
-/

namespace StorageEngine

variable {pool after : Pool} {txn : TransactionId} {round : Round} {progress : Progress}
  {call next : Call}

/-! ### What is left of a call -/

/-- The call that goes on after a round. -/
def Round.rest? : Round → Option Call
  | .next call => some call
  | .grown _ call => some call
  | _ => none

/-- How far the call has come with a round after which it does not go on. -/
def Round.stop? : Round → Option Progress
  | .done outcome => some (.done outcome)
  | .waiting call => some (.waiting call)
  | _ => none

theorem Round.proceed_of_rest (rest : round.rest? = some next) (pool : Pool) :
  Round.proceed txn (round, pool) = next.run txn pool
  := by
  cases round with
  | done outcome => cases rest
  | waiting call => cases rest
  | next call =>
    cases rest
    rfl
  | grown page call =>
    cases rest
    rfl

theorem Round.proceed_of_stop (stop : round.stop? = some progress) (pool : Pool) :
  Round.proceed txn (round, pool) = (progress, pool)
  := by
  cases round with
  | done outcome =>
    cases stop
    rfl
  | waiting call =>
    cases stop
    rfl
  | next call => cases stop
  | grown page call => cases stop

/-! ### What a call answers -/

/-- The answer of a call that has succeeded. -/
def Progress.answer? : Progress → Option Answer
  | .done { result := .ok answer, .. } => some answer
  | _ => none

/-- What is learned from the answer to a call of `txn`, in the pool `after` it. -/
def Call.learned (txn : TransactionId) (after : Pool) : Call → Answer → List Event
  | fetch page _, .page copy => [.fetched txn page (after.copy copy).bytes]
  | probe _ tuple _ _ _, .inserted (some record) => [.inserted txn record tuple]
  | place _ tuple, .inserted (some record) => [.inserted txn record tuple]
  | delete record _, .deleted => [.deleted txn record]
  | scan table _ _ _, .tuples found => [.scanned txn table found]
  | _, _ => []

/-- What is learned from the answer to a request of `txn`, in the pools `before` and `after` it. -/
def Request.learned (txn : TransactionId) (before after : Pool) : Request → Answer → List Event
  | fetch page _, .page copy => [.fetched txn page (after.copy copy).bytes]
  | insert _ tuple, .inserted (some record) => [.inserted txn record tuple]
  | delete (some record), .deleted => [.deleted txn record]
  | scan no, .tuples found => [.scanned txn (before.store no).table found]
  | _, _ => []

/-- What a transaction is in the midst of when `call` has ended or has to wait. -/
def Call.restsIn (call : Call) : Progress → Activity
  | .done outcome => call.leadsTo (.done outcome)
  | .waiting call => .calling call

/-- What a transaction is in the midst of when what it has requested is done or has to wait. -/
def Request.restsIn : Request → Progress → Activity
  | fetch page .readWrite, .done { result := .ok (.page copy), .. } => .editing copy page []
  | _, .done outcome => (Round.done outcome).leadsTo
  | _, .waiting call => .calling call

theorem Round.leadsTo_of_rest (rest : round.rest? = some next) :
  round.leadsTo = .calling next
  := by
  cases round with
  | done outcome => cases rest
  | waiting call => cases rest
  | next call =>
    cases rest
    rfl
  | grown page call =>
    cases rest
    rfl

theorem Call.leadsTo_of_rest (rest : round.rest? = some next) (call : Call) :
  call.leadsTo round = .calling next
  := by
  rw [← Round.leadsTo_of_rest rest]
  unfold leadsTo
  split
  · cases rest
  · rfl

/-! ### How a call goes on -/

/-- Whether `call` may go on as `next`, from which the same is learned. -/
structure Call.GoesOn (call next : Call) : Prop where
  fewer : next.requests < call.requests
  learned : ∀ txn after, next.learned txn after = call.learned txn after
  restsIn : ∀ progress, next.restsIn progress = call.restsIn progress

/-- Whether `request` may be met by the call `next`, from which the same is learned. -/
structure Request.GoesOn (request : Request) (before : Pool) (next : Call) : Prop where
  learned : ∀ txn after, next.learned txn after = request.learned txn before after
  restsIn : ∀ progress, next.restsIn progress = request.restsIn progress

namespace Call

theorem goesOn_probe_place (no : StoreNo) (tuple : Bytes) (pageNo : PageNo) (held : Bool)
    (rest : List PageNo) (page : PageId) :
  (probe no tuple pageNo held rest).GoesOn (.place page tuple)
  := by
  constructor
  · simp only [requests]
    omega
  · intro txn after
    funext answer
    cases answer with
    | inserted record => cases record <;> rfl
    | _ => rfl
  · intro progress
    rfl

theorem goesOn_probe (no : StoreNo) (tuple : Bytes) (pageNo pageNo' : PageNo) (held held' : Bool)
    (rest : List PageNo) :
  (probe no tuple pageNo held (pageNo' :: rest)).GoesOn (.probe no tuple pageNo' held' rest)
  := by
  constructor
  · simp only [requests, List.length_cons]
    omega
  · intro txn after
    funext answer
    cases answer with
    | inserted record => cases record <;> rfl
    | _ => rfl
  · intro progress
    rfl

theorem goesOn_scan (table : TableId) (found found' : List Tuple) (no no' : PageNo)
    (rest : List PageNo) :
  (scan table found no (no' :: rest)).GoesOn (.scan table found' no' rest)
  := by
  constructor
  · simp only [requests, List.length_cons]
    omega
  · intro txn after
    funext answer
    cases answer <;> rfl
  · intro progress
    rfl

/-- The events of a `round` with which `call` ends or waits are what is learned from its answer; a
`.probe` does not end in an answer. -/
theorem events_of_stop (stop : round.stop? = some progress) (call : Call)
    (unanswered : ∀ no tuple pageNo held rest, call = .probe no tuple pageNo held rest →
      progress.answer? = none) :
  call.events txn after round = progress.answer?.elim [] (call.learned txn after)
  := by
  cases round with
  | next next => cases stop
  | grown page next => cases stop
  | waiting next =>
    cases stop
    cases call <;> rfl
  | done outcome =>
    cases stop
    rcases outcome with ⟨failure | answer, record⟩
    · cases call <;> rfl
    · cases call with
      | probe no tuple pageNo held rest => cases unanswered _ _ _ _ _ rfl
      | place page tuple =>
        cases answer with
        | inserted record => cases record <;> rfl
        | _ => rfl
      | _ => cases answer <;> rfl

theorem stop_last (progress : Progress × Pool) :
  (Round.last progress).1.stop? = some progress.1
  := by
  rcases progress with ⟨outcome | call, pool⟩
  · rfl
  · rfl

/-- After a round of `.probe` the call has ended or has to wait, without an answer; or it goes
on. -/
theorem probe_cases {no : StoreNo} {tuple : Bytes} {pageNo : PageNo} {held : Bool}
    {rest : List PageNo}
    (eq : (probe no tuple pageNo held rest).round txn pool = (round, after)) :
  (∃ progress, round.stop? = some progress ∧ progress.answer? = none)
  ∨ ∃ next, round.rest? = some next ∧ (probe no tuple pageNo held rest).GoesOn next
  := by
  cases Probing.of_round eq with
  | waiting | failed | broken =>
    left
    exact ⟨_, rfl, rfl⟩
  | roomy =>
    right
    exact ⟨_, rfl, goesOn_probe_place ..⟩
  | full _ _ entering =>
    cases entering with
    | refused =>
      left
      exact ⟨_, rfl, rfl⟩
    | grown =>
      right
      exact ⟨_, rfl, goesOn_probe_place ..⟩
    | next =>
      right
      exact ⟨_, rfl, goesOn_probe ..⟩

theorem scan_cases {table : TableId} {found : List Tuple} {no : PageNo} {rest : List PageNo}
    (eq : (scan table found no rest).round txn pool = (round, after)) :
  (∃ progress, round.stop? = some progress)
  ∨ ∃ next, round.rest? = some next ∧ (scan table found no rest).GoesOn next
  := by
  cases Listing.of_round eq with
  | waiting | failed | broken =>
    left
    exact ⟨_, rfl⟩
  | listed =>
    cases rest with
    | nil =>
      left
      exact ⟨_, rfl⟩
    | cons no' rest =>
      right
      exact ⟨_, rfl, goesOn_scan ..⟩

/-- After a `round` the `call` has ended or has to wait, and its events are what is learned from
its answer; or it goes on. -/
theorem round_cases (eq : call.round txn pool = (round, after)) :
  (∃ progress, round.stop? = some progress
    ∧ call.events txn after round = progress.answer?.elim [] (call.learned txn after))
  ∨ ∃ next, round.rest? = some next ∧ call.GoesOn next
  := by
  cases call with
  | probe no tuple pageNo held rest =>
    apply (probe_cases eq).imp_left
    rintro ⟨progress, stop, unanswered⟩
    use progress, stop
    apply events_of_stop stop
    intro _ _ _ _ _ _
    apply unanswered
  | scan table found no rest =>
    apply (scan_cases eq).imp_left
    rintro ⟨progress, stop⟩
    use progress, stop
    apply events_of_stop stop
    intro _ _ _ _ _ same
    cases same
  | _ =>
    left
    obtain rfl : (Round.last (Call.run txn pool _)).1 = round := congrArg Prod.fst eq
    refine ⟨_, stop_last _, ?_⟩
    apply events_of_stop (stop_last _)
    intro _ _ _ _ _ same
    cases same

theorem restsIn_of_stop (stop : round.stop? = some progress) (call : Call) :
  call.leadsTo round = call.restsIn progress
  := by
  cases round with
  | next next => cases stop
  | grown page next => cases stop
  | done outcome =>
    cases stop
    rfl
  | waiting next =>
    cases stop
    unfold leadsTo
    split
    · rename_i same
      cases same
    · rfl

end Call

namespace Request

theorem goesOn_fetch (pool : Pool) (page : PageId) (access : Access) :
  (fetch page access).GoesOn pool (.fetch page access)
  := by
  constructor
  · intro txn after
    funext answer
    cases answer <;> rfl
  · intro progress
    rcases progress with ⟨failure | answer, record⟩ | next
    · cases access <;> rfl
    · cases access
      · rfl
      · cases answer <;> rfl
    · cases access <;> rfl

theorem goesOn_place (pool : Pool) (table : TableId) (tuple : Bytes) (page : PageId) :
  (insert table tuple).GoesOn pool (.place page tuple)
  := by
  constructor
  · intro txn after
    funext answer
    cases answer with
    | inserted record => cases record <;> rfl
    | _ => rfl
  · intro progress
    cases progress <;> rfl

theorem goesOn_probe (pool : Pool) (table : TableId) (tuple : Bytes) (no : StoreNo)
    (pageNo : PageNo) (held : Bool) (rest : List PageNo) :
  (insert table tuple).GoesOn pool (.probe no tuple pageNo held rest)
  := by
  have placed := goesOn_place pool table tuple default
  have goes := Call.goesOn_probe_place no tuple pageNo held rest default
  constructor
  · intro txn after
    rw [← goes.learned, placed.learned]
  · intro progress
    rw [← goes.restsIn, placed.restsIn]

theorem goesOn_delete (pool : Pool) (record : RecordId) (marks : Bool) :
  (delete (some record)).GoesOn pool (.delete record marks)
  := by
  constructor
  · intro txn after
    funext answer
    cases answer <;> rfl
  · intro progress
    cases progress <;> rfl

theorem goesOn_scan (pool : Pool) (no : StoreNo) (found : List Tuple) (pageNo : PageNo)
    (rest : List PageNo) :
  (scan no).GoesOn pool (.scan (pool.store no).table found pageNo rest)
  := by
  constructor
  · intro txn after
    funext answer
    cases answer <;> rfl
  · intro progress
    cases progress <;> rfl

/-- When a `request` is entered it has ended, and its last events are what is learned from its
answer; or it goes on. -/
theorem enter_cases {request : Request} (served : pool.serves request)
    (eq : request.enter txn pool = (round, after)) :
  (∃ progress, round.stop? = some progress ∧ round.leadsTo = request.restsIn progress
    ∧ ∃ events, request.events txn after round
        = events ++ progress.answer?.elim [] (request.learned txn pool after))
  ∨ ∃ next, round.rest? = some next ∧ request.GoesOn pool next
  := by
  cases request with
  | lock page mode => cases served
  | erase store record => cases served
  | fetch page access =>
    cases eq
    right
    use .fetch page access, rfl
    apply goesOn_fetch
  | insert table tuple =>
    obtain ⟨failure, rfl, -⟩ | ⟨no, pages, -, entering⟩ := enter_insert_cases served eq
    · left
      exact ⟨_, rfl, rfl, [], rfl⟩
    · cases entering with
      | refused =>
        left
        exact ⟨_, rfl, rfl, [], rfl⟩
      | grown =>
        right
        exact ⟨_, rfl, goesOn_place ..⟩
      | next =>
        right
        exact ⟨_, rfl, goesOn_probe ..⟩
  | delete record =>
    simp only [enter] at eq
    cases eq
    rcases Call.enterDelete_cases record pool with ⟨failure, ended⟩ | ⟨record, rfl, goes⟩
    · left
      rw [ended]
      exact ⟨_, rfl, rfl, [], rfl⟩
    · right
      rw [goes]
      use .delete record true, rfl
      apply goesOn_delete
  | scan no =>
    simp only [enter] at eq
    cases listed : (pool.store no).pageNos with
    | error fault =>
      rw [listed] at eq
      cases eq
      left
      refine ⟨_, rfl, rfl, [], ?_⟩
      simp only [events, listed]
      rfl
    | ok pages =>
      rw [listed] at eq
      cases eq
      cases pages with
      | nil =>
        left
        refine ⟨_, rfl, rfl, [.scanning txn (pool.store no).table 0], ?_⟩
        simp only [events, listed]
        rfl
      | cons pageNo rest =>
        right
        use .scan (pool.store no).table [] pageNo rest, rfl
        apply goesOn_scan

end Request

/-! ### Runs -/

namespace System

variable {start middle system : System} {events events' : List Event}

theorem moved_moved (system : System) (txn : TransactionId) (pool pool' : Pool)
    (activity activity' : Activity) :
  (system.moved txn pool activity).moved txn pool' activity' = system.moved txn pool' activity'
  := by
  simp only [moved, Function.update_idem]

theorem Run.trans (first : start.Run events middle) (second : middle.Run events' system) :
  start.Run (events ++ events') system
  := by
  induction second with
  | start =>
    rw [List.append_nil]
    apply first
  | step _ step ih =>
    rw [← List.append_assoc]
    apply ih.step step

theorem Run.single (step : Step start events system) :
  start.Run events system
  := Run.start.step step

/-- `call.run` is a run of the system, whose last events are what is learned from the answer. -/
theorem Run.of_call (under : system.doing txn = .calling call)
    (eq : call.run txn system.pool = (progress, after)) :
  ∃ events, system.Run (events ++ progress.answer?.elim [] (call.learned txn after))
    (system.moved txn after (call.restsIn progress))
  := by
  induction rank : call.requests using Nat.strongRecOn generalizing system call with
  | ind n ih =>
    subst rank
    rw [Call.run_eq_proceed] at eq
    cases first : call.round txn system.pool with
    | mk round pool =>
      rw [first] at eq
      have step := Step.round under first
      rcases Call.round_cases first with ⟨progress', stop, told⟩ | ⟨next, rest, goes⟩
      · rw [Round.proceed_of_stop stop] at eq
        cases eq
        use []
        rw [List.nil_append, ← told, ← Call.restsIn_of_stop stop]
        apply Run.single step
      · rw [Round.proceed_of_rest rest] at eq
        rw [Call.leadsTo_of_rest rest] at step
        obtain ⟨events, run⟩ :=
          ih _ goes.fewer (system.doing_moved_self txn pool (.calling next)) eq rfl
        rw [moved_moved, goes.restsIn, goes.learned] at run
        use call.events txn pool round ++ events
        rw [List.append_assoc]
        apply (Run.single step).trans run

/-- `request.start` is a run of the system, whose last events are what is learned from the
answer. -/
theorem Run.of_start {request : Request} (free : (system.doing txn).mayCall)
    (served : system.pool.serves request)
    (eq : request.start txn system.pool = (progress, after)) :
  ∃ events,
    system.Run (events ++ progress.answer?.elim [] (request.learned txn system.pool after))
      (system.moved txn after (request.restsIn progress))
  := by
  rw [Request.start_eq_proceed] at eq
  cases entered : request.enter txn system.pool with
  | mk round pool =>
    rw [entered] at eq
    have step := Step.enter free served entered
    rcases Request.enter_cases served entered with
      ⟨progress', stop, rests, events, told⟩ | ⟨next, rest, goes⟩
    · rw [Round.proceed_of_stop stop] at eq
      cases eq
      use events
      rw [← told, ← rests]
      apply Run.single step
    · rw [Round.proceed_of_rest rest] at eq
      rw [Round.leadsTo_of_rest rest] at step
      obtain ⟨events, run⟩ :=
        Run.of_call (system.doing_moved_self txn pool (.calling next)) eq
      rw [moved_moved, goes.restsIn, goes.learned] at run
      use request.events txn pool round ++ events
      rw [List.append_assoc]
      apply (Run.single step).trans run

end System

/-! ### Pages that stay -/

/-- `call.run txn pool` takes no page away. -/
theorem Call.grows_run (txn : TransactionId) (pool : Pool) (call : Call) :
  pool.Grows (call.run txn pool).2
  := by
  let system : System := ⟨pool, fun _ => .calling call⟩
  have under : system.doing txn = .calling call := rfl
  obtain ⟨events, run⟩ := System.Run.of_call under rfl
  apply run.grows

/-- `request.start txn pool` takes no page away. -/
theorem Request.grows_start (txn : TransactionId) (pool : Pool) (request : Request) :
  pool.Grows (request.start txn pool).2
  := by
  have entered := (request.does_enter txn pool).grows
  rw [Request.start_eq_proceed]
  cases eq : request.enter txn pool with
  | mk round after =>
    rw [eq] at entered
    rcases stops : round.rest? with _ | next
    · cases round with
      | done outcome => apply entered
      | waiting call => apply entered
      | next call => cases stops
      | grown page call => cases stops
    · rw [Round.proceed_of_rest stops]
      exact entered.trans (next.grows_run txn after)

end StorageEngine

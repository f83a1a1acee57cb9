import StorageEngine.Proofs.Lock.Records
import StorageEngine.Proofs.Lock.Search

/-!
# Lock tables in use

A lock table serves requests and releases of many transactions in any order.  A transaction makes
one request at a time: as long as it waits for a lock it repeats that request and makes no other.
What holds of every run is derived from one step at a time: the table stays sound, a recorded wait
is one for the request that its transaction has made, and no cycle of edges that count arises
(`Reachable.kept`).
-/

namespace StorageEngine

/-- What a transaction asks of a lock table. -/
structure LockRequest where
  page : PageId
  mode : LockMode
  deriving DecidableEq

/-- A step in the use of a lock table. -/
inductive LockAct where
  /-- A transaction makes a request, for the first time or again. -/
  | request (txn : TransactionId) (asked : LockRequest)
  | release (txn : TransactionId) (page : PageId)
  | releaseAll (txn : TransactionId)
  deriving DecidableEq

/-- The transaction that takes a step. -/
def LockAct.actor : LockAct → TransactionId
  | .request txn _ => txn
  | .release txn _ => txn
  | .releaseAll txn => txn

/-- A lock `table`, with the requests that transactions are `asking`: those that they have made and
that are neither granted nor given up. -/
structure LockService where
  table : LockTable
  asking : Registry TransactionId LockRequest

namespace LockService

/-- The service before its first step. -/
def idle : LockService := ⟨.empty, ∅⟩

/-- Whether a step may be taken: a transaction whose request is outstanding in `service` makes no
other. -/
def allows (service : LockService) : LockAct → Prop
  | .request txn asked => ∀ other ∈ service.asking.get? txn, other = asked
  | _ => True

/-- Takes a step. -/
def perform (service : LockService) : LockAct → LockService
  | .request txn asked =>
    match service.table.request asked.page txn asked.mode with
    | (.waiting, table) => ⟨table, service.asking.insert txn asked⟩
    | (_, table) => ⟨table, service.asking.erase txn⟩
  | .release txn page => { service with table := service.table.release page txn }
  | .releaseAll txn => { service with table := service.table.releaseAll txn }

/-- The services that allowed steps lead to from `idle`, in any order. -/
inductive Reachable : LockService → Prop where
  | idle : Reachable .idle
  | perform {service : LockService} (before : Reachable service) (act : LockAct)
      (allowed : service.allows act) : Reachable (service.perform act)

/-- `other` holds the page that `txn` asks for in a mode that conflicts with the request.  This is
read off the locks and the requests alone. -/
def WaitsFor (service : LockService) (txn other : TransactionId) : Prop :=
  ∃ asked ∈ service.asking.get? txn, other ≠ txn
    ∧ ∃ held ∈ service.table.modeOf? asked.page other, held.isCompatibleWith asked.mode = false

/-! ### Steps -/

variable {service : LockService} {txn other : TransactionId} {asked : LockRequest} {page : PageId}

/-- What becomes of a request in `perform`, as in `LockTable.request_cases`, and whether `asked` is
outstanding after it. -/
theorem perform_request_cases (service : LockService) (txn : TransactionId)
    (asked : LockRequest) :
  ((service.table.locksOn asked.page).admits txn asked.mode = true
      ∧ service.perform (.request txn asked)
        = ⟨service.table.grant asked.page txn asked.mode, service.asking.erase txn⟩)
    ∨ ((service.table.locksOn asked.page).admits txn asked.mode = false
      ∧ (service.table.deny asked.page txn asked.mode).hasCycleFrom txn = false
      ∧ service.perform (.request txn asked)
        = ⟨service.table.deny asked.page txn asked.mode, service.asking.insert txn asked⟩)
    ∨ ((service.table.locksOn asked.page).admits txn asked.mode = false
      ∧ (service.table.deny asked.page txn asked.mode).hasCycleFrom txn = true
      ∧ service.perform (.request txn asked)
        = ⟨(service.table.deny asked.page txn asked.mode).clearWaits txn,
          service.asking.erase txn⟩)
  := by
  obtain ⟨granted, eq⟩ | ⟨denied, cycle, eq⟩ | ⟨denied, cycle, eq⟩ :=
    service.table.request_cases asked.page txn asked.mode
  · simp [perform, eq, granted]
  · simp [perform, eq, denied, cycle]
  · simp [perform, eq, denied, cycle]

/-! ### Edges that count -/

end LockService

/-- `LiveEdge` leads from `txn` to `other` exactly if the `wait` of `txn` has `other` among its
blockers, and `other` holds a lock on the page that is incompatible with the mode of `wait`. -/
theorem LockTable.liveEdge_iff {table : LockTable} {txn other : TransactionId} :
  table.graph.LiveEdge table.pages txn other
    ↔ ∃ wait ∈ table.graph.waitOf? txn, other ∈ wait.blockers
        ∧ ∃ held ∈ table.modeOf? wait.page other, held.isCompatibleWith wait.mode = false
  := by
  rw [WaitGraph.liveEdge_iff, WaitGraph.BlockedBy]
  simp only [modeOf?, locksOn]
  cases table.graph.waitOf? txn with
  | none => simp
  | some wait => cases locked : table.pages.get? wait.page <;> simp [locked]

/-- No transaction lies on a cycle of `relation`. -/
def Acyclic (relation : TransactionId → TransactionId → Prop) : Prop :=
  ∀ txn, ¬ Relation.TransGen relation txn txn

namespace Acyclic

variable {before after : TransactionId → TransactionId → Prop} {txn a b : TransactionId}

/-- A relation with no edges but those of an `Acyclic` one is `Acyclic`. -/
theorem mono (acyclic : Acyclic before) (fewer : ∀ a b, after a b → before a b) :
  Acyclic after
  := fun txn cycle => acyclic txn (Relation.TransGen.mono fewer txn txn cycle)

/-- New edges to a `txn` that has no edges of its own leave a relation `Acyclic`. -/
theorem of_sink (txn : TransactionId) (acyclic : Acyclic before)
    (into : ∀ a b, after a b → before a b ∨ b = txn) (sink : ∀ b, ¬ after txn b) :
  Acyclic after
  := by
  have kept : ∀ {a b}, (∃ c, after b c) → after a b → before a b := by
    rintro a b ⟨c, out⟩ edge
    rcases into a b edge with old | rfl
    · apply old
    · apply absurd out (sink c)
  have walk : ∀ {a b}, Relation.TransGen after a b → (∃ c, after b c) →
      Relation.TransGen before a b := by
    intro a b path out
    induction path with
    | single edge => apply Relation.TransGen.single (kept out edge)
    | tail _ edge ih => apply Relation.TransGen.tail (ih ⟨_, edge⟩) (kept out edge)
  intro other cycle
  obtain ⟨next, edge, _⟩ := Relation.TransGen.head'_iff.mp cycle
  apply acyclic other (walk cycle ⟨next, edge⟩)

/-- Where only the edges of `txn` are new in `after`, a path from `a` to `b` is one of `before`, or
goes through `txn`. -/
theorem path_cases (others : ∀ a b, a ≠ txn → after a b → before a b)
    (path : Relation.TransGen after a b) :
  Relation.TransGen before a b
    ∨ Relation.ReflTransGen after a txn ∧ Relation.TransGen after txn b
  := by
  have step : ∀ {a b}, after a b → before a b ∨ a = txn := by
    intro a b edge
    by_cases same : a = txn
    · right
      apply same
    · left
      apply others a b same edge
  induction path with
  | single edge =>
    rcases step edge with old | rfl
    · left
      apply Relation.TransGen.single old
    · right
      use Relation.ReflTransGen.refl
      apply Relation.TransGen.single edge
  | tail path edge ih =>
    rcases ih with old | ⟨reach, back⟩
    · rcases step edge with kept | rfl
      · left
        apply old.tail kept
      · right
        use path.to_reflTransGen
        apply Relation.TransGen.single edge
    · right
      use reach
      apply back.tail edge

/-- Where only the edges of `txn` are new in `after`, and `before` is `Acyclic`, a cycle goes
through `txn`. -/
theorem cycle_through (acyclic : Acyclic before)
    (others : ∀ a b, a ≠ txn → after a b → before a b) (cycle : Relation.TransGen after a a) :
  Relation.TransGen after txn txn
  := by
  rcases path_cases others cycle with old | ⟨reach, back⟩
  · cases acyclic a old
  · apply Relation.TransGen.trans_left back reach

end Acyclic

namespace LockService

variable {service : LockService} {txn other : TransactionId} {asked : LockRequest} {page : PageId}

/-! ### What every step keeps -/

/-- What holds of every `Reachable` service. -/
structure Kept (service : LockService) : Prop where
  sound : service.table.Sound
  /-- A recorded wait is one for the outstanding request, and nobody waits for itself. -/
  recorded : ∀ txn, ∀ wait ∈ service.table.graph.waitOf? txn,
    service.asking.get? txn = some ⟨wait.page, wait.mode⟩ ∧ txn ∉ wait.blockers
  acyclic : Acyclic (service.table.graph.LiveEdge service.table.pages)

theorem kept_idle :
  Kept idle
  := by
  have none : ∀ txn, idle.table.graph.waitOf? txn = none := fun _ => rfl
  refine ⟨LockTable.sound_empty, by simp [none], ?_⟩
  intro txn cycle
  obtain ⟨next, edge, -⟩ := Relation.TransGen.head'_iff.mp cycle
  obtain ⟨wait, waits, -⟩ := LockTable.liveEdge_iff.mp edge
  simp [none] at waits

/-- A grant of `asked` keeps `Kept`.  Edges to `txn` may come to count, but it has none of its own
left. -/
theorem Kept.grant (kept : service.Kept)
    (granted : (service.table.locksOn asked.page).admits txn asked.mode = true) :
  Kept ⟨service.table.grant asked.page txn asked.mode, service.asking.erase txn⟩
  := by
  have waits : ∀ other, (service.table.grant asked.page txn asked.mode).graph.waitOf? other
      = if other = txn then none else service.table.graph.waitOf? other :=
    fun other => WaitGraph.waitOf?_clearWaits ..
  refine ⟨kept.sound.grant granted, ?_, ?_⟩
  · intro other wait recorded
    rw [waits] at recorded
    by_cases same : other = txn
    · simp [same] at recorded
    · rw [if_neg same] at recorded
      rw [Registry.get?_erase_of_ne _ same]
      apply kept.recorded other wait recorded
  · apply Acyclic.of_sink txn kept.acyclic
    · intro a b edge
      obtain ⟨wait, recorded, blocks, held, holds, conflict⟩ := LockTable.liveEdge_iff.mp edge
      rw [waits] at recorded
      rw [LockTable.modeOf?_grant] at holds
      by_cases new : b = txn
      · right
        apply new
      · left
        by_cases same : a = txn
        · simp [same] at recorded
        · rw [if_neg same] at recorded
          rw [if_neg (by tauto)] at holds
          apply LockTable.liveEdge_iff.mpr ⟨wait, recorded, blocks, held, holds, conflict⟩
    · intro b edge
      obtain ⟨wait, recorded, -⟩ := LockTable.liveEdge_iff.mp edge
      simp [waits] at recorded

/-- After the denial of `asked`, `txn` waits for the other holders of its page, and `other`
transactions wait as before. -/
theorem waitOf?_deny (service : LockService) (txn other : TransactionId) (asked : LockRequest) :
  (service.table.deny asked.page txn asked.mode).graph.waitOf? other
    = if other = txn then
        some ⟨asked.page, asked.mode,
          ((service.table.locksOn asked.page).holders.filter (· ≠ txn)).eraseDups⟩
      else service.table.graph.waitOf? other
  := WaitGraph.waitOf?_recordWait ..

/-- A denial to `txn` adds no `LiveEdge` from another transaction `a`. -/
theorem liveEdge_of_deny {a b : TransactionId} (distinct : a ≠ txn)
    (edge : (service.table.deny asked.page txn asked.mode).graph.LiveEdge
      (service.table.deny asked.page txn asked.mode).pages a b) :
  service.table.graph.LiveEdge service.table.pages a b
  := by
  obtain ⟨wait, recorded, rest⟩ := LockTable.liveEdge_iff.mp edge
  rw [waitOf?_deny, if_neg distinct] at recorded
  apply LockTable.liveEdge_iff.mpr ⟨wait, recorded, rest⟩

/-- After the denial of `asked`, every recorded `wait` is for the outstanding request of its
transaction, and none is for itself. -/
theorem Kept.recorded_deny (kept : service.Kept) :
  ∀ other, ∀ wait ∈ (service.table.deny asked.page txn asked.mode).graph.waitOf? other,
    (service.asking.insert txn asked).get? other = some ⟨wait.page, wait.mode⟩
      ∧ other ∉ wait.blockers
  := by
  intro other wait recorded
  rw [waitOf?_deny] at recorded
  by_cases same : other = txn
  · subst same
    obtain rfl := by simpa using recorded
    simp
  · rw [if_neg same] at recorded
    rw [Registry.get?_insert_of_ne _ same]
    apply kept.recorded other wait recorded

/-- A denial of `asked` after which `hasCycleFrom txn` is `false` keeps `Kept`. -/
theorem Kept.deny (kept : service.Kept)
    (none : (service.table.deny asked.page txn asked.mode).hasCycleFrom txn = false) :
  Kept ⟨service.table.deny asked.page txn asked.mode, service.asking.insert txn asked⟩
  := by
  refine ⟨kept.sound.deny, kept.recorded_deny, ?_⟩
  intro other cycle
  have through := kept.acyclic.cycle_through (fun a b => liveEdge_of_deny) cycle
  have found := (WaitGraph.hasCycleFrom_iff _ _ txn).mpr ⟨txn, .refl, through⟩
  apply Bool.false_ne_true (none.symm.trans found)

/-- To give up the request of `txn` keeps `Kept`: edges only go away. -/
theorem Kept.giveUp (kept : service.Kept) :
  Kept ⟨service.table.clearWaits txn, service.asking.erase txn⟩
  := by
  have waits : ∀ other, (service.table.clearWaits txn).graph.waitOf? other
      = if other = txn then none else service.table.graph.waitOf? other :=
    fun other => WaitGraph.waitOf?_clearWaits ..
  refine ⟨kept.sound.clearWaits, ?_, ?_⟩
  · intro other wait recorded
    rw [waits] at recorded
    by_cases same : other = txn
    · simp [same] at recorded
    · rw [if_neg same] at recorded
      rw [Registry.get?_erase_of_ne _ same]
      apply kept.recorded other wait recorded
  · apply kept.acyclic.mono
    intro a b edge
    obtain ⟨wait, recorded, rest⟩ := LockTable.liveEdge_iff.mp edge
    rw [waits] at recorded
    by_cases same : a = txn
    · simp [same] at recorded
    · rw [if_neg same] at recorded
      apply LockTable.liveEdge_iff.mpr ⟨wait, recorded, rest⟩

/-- A `Sound` table whose waits and locks are all in that of `service` keeps `Kept`. -/
theorem Kept.fewer (kept : service.Kept) {table : LockTable} (sound : table.Sound)
    (waits : ∀ other, ∀ wait ∈ table.graph.waitOf? other,
      wait ∈ service.table.graph.waitOf? other)
    (modes : ∀ page other, ∀ held ∈ table.modeOf? page other,
      held ∈ service.table.modeOf? page other) :
  Kept { service with table }
  := by
  refine ⟨sound, ?_, ?_⟩
  · intro other wait recorded
    apply kept.recorded other wait (waits other wait recorded)
  · apply kept.acyclic.mono
    intro a b edge
    obtain ⟨wait, recorded, blocks, held, holds, conflict⟩ := LockTable.liveEdge_iff.mp edge
    apply LockTable.liveEdge_iff.mpr
    use wait, waits a wait recorded, blocks, held, modes _ _ held holds, conflict

/-- `service.perform act` is `Kept` if `service` is. -/
theorem Kept.perform (kept : service.Kept) (act : LockAct) :
  (service.perform act).Kept
  := by
  cases act with
  | request txn asked =>
    rcases service.perform_request_cases txn asked with ⟨granted, eq⟩ | ⟨-, none, eq⟩ | ⟨-, -, eq⟩
    · rw [eq]
      apply kept.grant granted
    · rw [eq]
      apply kept.deny none
    · rw [eq, LockTable.clearWaits_deny]
      apply kept.giveUp
  | release txn page =>
    apply kept.fewer (kept.sound.release page txn)
    · intro other wait recorded
      simpa using recorded
    · intro page' other held holds
      rw [LockTable.modeOf?_release] at holds
      split at holds
      · cases holds
      · apply holds
  | releaseAll txn =>
    apply kept.fewer kept.sound.releaseAll
    · intro other wait recorded
      rw [LockTable.graph_releaseAll, WaitGraph.waitOf?_clearWaits] at recorded
      split at recorded
      · cases recorded
      · apply recorded
    · intro page' other held holds
      rw [kept.sound.modeOf?_releaseAll] at holds
      split at holds
      · cases holds
      · apply holds

/-- Every `Reachable` service is `Kept`. -/
theorem Reachable.kept (reached : service.Reachable) :
  service.Kept
  := by
  induction reached with
  | idle => apply kept_idle
  | perform _ act _ ih => apply ih.perform act

/-- In a `Kept` service `hasCycleFrom txn` is `false` for every `txn`. -/
theorem Kept.hasCycleFrom (kept : service.Kept) (txn : TransactionId) :
  service.table.hasCycleFrom txn = false
  := by
  apply Bool.eq_false_iff.mpr
  intro found
  obtain ⟨other, -, cycle⟩ := (WaitGraph.hasCycleFrom_iff _ _ txn).mp found
  apply kept.acyclic other cycle

end LockService

end StorageEngine

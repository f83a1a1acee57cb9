import StorageEngine.Proofs.Lock.Service

/-!
# Deadlocks

A victim lies on a cycle of transactions each of which is blocked by the next, and its request
changes nothing but its own waits (`Reachable.victim_on_cycle`).  Once every outstanding request
has been made again since the locks last changed, no deadlock is left: the conflicts between
requests and locks form no cycle, so unless nothing is outstanding, some request is blocked only by
transactions that wait for nothing (`Quiet.no_deadlock`).
-/

namespace StorageEngine

/-! ### Cycles of a relation -/

section Cycles

variable {relation : TransactionId → TransactionId → Prop} {a b : TransactionId}

/-- A path of `relation` from `a` to another `b`, with its detours left out, visits each
transaction once. -/
theorem exists_nodup_path (path : Relation.ReflTransGen relation a b) (distinct : a ≠ b) :
  ∃ between, List.IsChain relation (a :: between ++ [b]) ∧ (a :: between ++ [b]).Nodup
  := by
  induction path using Relation.ReflTransGen.head_induction_on with
  | refl => contradiction
  | @head a c edge _ ih =>
    by_cases last : c = b
    · subst last
      use []
      simp [edge, distinct]
    · obtain ⟨between, chain, nodup⟩ := ih last
      by_cases met : a ∈ c :: between
      · obtain ⟨detour, rest, split⟩ := List.append_of_mem met
        have kept : (a :: rest ++ [b]) <:+ (c :: between ++ [b]) := by
          use detour
          rw [split, List.append_assoc]
        use rest, chain.suffix kept, nodup.sublist kept.sublist
      · use c :: between
        constructor
        · apply List.isChain_cons_cons.mpr ⟨edge, chain⟩
        · rw [List.cons_append, List.nodup_cons]
          use by simpa [distinct] using met

/-- A cycle of `relation` at `a`, with its detours left out, visits each transaction once. -/
theorem exists_nodup_cycle (irreflexive : ∀ a, ¬ relation a a)
    (cycle : Relation.TransGen relation a a) :
  ∃ others, others ≠ [] ∧ (a :: others).Nodup ∧ List.IsChain relation (a :: others ++ [a])
  := by
  obtain ⟨next, edge, back⟩ := Relation.TransGen.head'_iff.mp cycle
  have distinct : next ≠ a := by
    rintro rfl
    apply irreflexive next edge
  obtain ⟨between, chain, nodup⟩ := exists_nodup_path back distinct
  use next :: between, by simp
  constructor
  · apply ((List.perm_append_singleton a (next :: between)).nodup_iff).mp nodup
  · apply List.isChain_cons_cons.mpr ⟨edge, chain⟩

/-- On a cycle at `a` each transaction is one that another leads to, so the cycle remains when
`relation` is restricted to these. -/
theorem cycle_of_targets (cycle : Relation.TransGen relation a a) :
  Relation.TransGen (fun b c => relation b c ∧ ∃ d, relation d b) a a
  := by
  have walk : ∀ {a b}, Relation.TransGen relation a b → (∃ d, relation d a) →
      Relation.TransGen (fun b c => relation b c ∧ ∃ d, relation d b) a b := by
    intro a b path into
    induction path with
    | single edge => apply Relation.TransGen.single ⟨edge, into⟩
    | tail path edge ih =>
      obtain ⟨d, -, before⟩ := Relation.TransGen.tail'_iff.mp path
      apply ih.tail ⟨edge, d, before⟩
  obtain ⟨d, -, edge⟩ := Relation.TransGen.tail'_iff.mp cycle
  apply walk cycle ⟨d, edge⟩

/-- An `Acyclic` relation leads from some `a` of a finite set `among` to nothing in `among`. -/
theorem Acyclic.exists_sink (acyclic : Acyclic relation) {among : Set TransactionId}
    (finite : among.Finite) (inhabited : among.Nonempty) :
  ∃ a ∈ among, ∀ b ∈ among, ¬ relation a b
  := by
  have irreflexive : Std.Irrefl (fun b a => Relation.TransGen relation a b) := ⟨acyclic⟩
  have transitive : IsTrans TransactionId (fun b a => Relation.TransGen relation a b) :=
    ⟨fun _ _ _ first second => second.trans first⟩
  have order : IsStrictOrder TransactionId (fun b a => Relation.TransGen relation a b) := {}
  obtain ⟨start, member⟩ := inhabited
  have founded := finite.wellFoundedOn (r := fun b a => Relation.TransGen relation a b)
  apply founded.induction member
  intro a member ih
  by_cases sink : ∀ b ∈ among, ¬ relation a b
  · use a
  · push Not at sink
    obtain ⟨b, member, edge⟩ := sink
    apply ih b member (Relation.TransGen.single edge)

end Cycles

namespace LockService

variable {service : LockService} {txn other : TransactionId} {asked request : LockRequest}

/-! ### Victims -/

/-- Where every recorded wait is for the outstanding request of its transaction, a `LiveEdge` from
`txn` to `other` is a conflict, `service.WaitsFor txn other`. -/
theorem waitsFor_of_liveEdge
    (recorded : ∀ txn, ∀ wait ∈ service.table.graph.waitOf? txn,
      service.asking.get? txn = some ⟨wait.page, wait.mode⟩ ∧ txn ∉ wait.blockers)
    (edge : service.table.graph.LiveEdge service.table.pages txn other) :
  service.WaitsFor txn other
  := by
  obtain ⟨wait, waits, blocks, held, holds, conflict⟩ := LockTable.liveEdge_iff.mp edge
  obtain ⟨asks, others⟩ := recorded txn wait waits
  use ⟨wait.page, wait.mode⟩, asks
  constructor
  · rintro rfl
    contradiction
  · use held, holds, conflict

/-- If `hasCycleFrom txn` right after the denial of `asked`, then `WaitsFor` has a cycle through
`txn` once `asked` is outstanding. -/
theorem Kept.cycle_of_deny (kept : service.Kept)
    (found : (service.table.deny asked.page txn asked.mode).hasCycleFrom txn = true) :
  Relation.TransGen (WaitsFor { service with asking := service.asking.insert txn asked }) txn txn
  := by
  obtain ⟨start, -, cycle⟩ := (WaitGraph.hasCycleFrom_iff _ _ txn).mp found
  have through := kept.acyclic.cycle_through (fun a b => liveEdge_of_deny) cycle
  refine Relation.TransGen.mono (fun a b edge => ?_) txn txn through
  have denied : WaitsFor ⟨service.table.deny asked.page txn asked.mode,
      service.asking.insert txn asked⟩ a b :=
    waitsFor_of_liveEdge kept.recorded_deny edge
  apply denied

/-- Two transactions, each of which holds a page of its own, `⟨1, 0⟩` and `⟨1, 1⟩`. -/
def apart : LockService :=
  (idle.perform (.request ⟨1⟩ ⟨⟨1, 0⟩, .exclusive⟩)).perform (.request ⟨2⟩ ⟨⟨1, 1⟩, .exclusive⟩)

/-- `apart` after the first transaction has asked for the page of the second, for which it
waits. -/
def crossed : LockService := apart.perform (.request ⟨1⟩ ⟨⟨1, 1⟩, .exclusive⟩)

theorem reachable_apart :
  apart.Reachable
  := by
  apply (Reachable.idle.perform (.request ⟨1⟩ _) ?_).perform (.request ⟨2⟩ _)
  · rintro _ ⟨⟩
  · rintro _ ⟨⟩

theorem reachable_crossed :
  crossed.Reachable
  := by
  apply reachable_apart.perform
  rintro _ ⟨⟩

/-- Between two steps `hasCycleFrom` finds no cycle.  Where `request` answers `.deadlock` to `txn`,
a cycle of `WaitsFor` leads from `txn` through distinct `others` back to it, each with an
outstanding request and blocked by a lock that the next one holds; the request leaves the locks as
they are and strikes the waits of `txn` alone. -/
theorem Reachable.victim_on_cycle (reached : service.Reachable) :
  (∀ txn, service.table.hasCycleFrom txn = false)
    ∧ ∀ txn asked, (service.table.request asked.page txn asked.mode).1 = .deadlock →
        (∃ others, others ≠ [] ∧ (txn :: others).Nodup
          ∧ List.IsChain (WaitsFor { service with asking := service.asking.insert txn asked })
            (txn :: others ++ [txn]))
        ∧ (service.perform (.request txn asked)).table.pages = service.table.pages
        ∧ (service.perform (.request txn asked)).table.held = service.table.held
        ∧ ∀ other, (service.perform (.request txn asked)).table.graph.waitOf? other
            = if other = txn then none else service.table.graph.waitOf? other
  := by
  have kept := reached.kept
  use kept.hasCycleFrom
  intro txn asked verdict
  obtain ⟨-, eq⟩ | ⟨-, -, eq⟩ | ⟨denied, found, -⟩ :=
    service.table.request_cases asked.page txn asked.mode
  · simp [eq] at verdict
  · simp [eq] at verdict
  · have irreflexive : ∀ a,
        ¬ WaitsFor { service with asking := service.asking.insert txn asked } a a := by
      rintro a ⟨_, _, distinct, _⟩
      contradiction
    use exists_nodup_cycle irreflexive (kept.cycle_of_deny found)
    have after : (service.perform (.request txn asked)).table = service.table.clearWaits txn := by
      rcases service.perform_request_cases txn asked with ⟨granted, -⟩ | ⟨-, none, -⟩ | ⟨-, -, eq⟩
      · simp [denied] at granted
      · simp [found] at none
      · rw [eq, LockTable.clearWaits_deny]
    rw [after]
    refine ⟨rfl, rfl, fun other => WaitGraph.waitOf?_clearWaits ..⟩

/-- In `crossed`, a request of transaction 2 for the page of transaction 1 is answered `.deadlock`,
and a cycle of `WaitsFor` goes through transaction 2. -/
theorem victim_of_crossed :
  (crossed.table.request ⟨1, 0⟩ ⟨2⟩ .shared).1 = .deadlock
    ∧ ∃ others, others ≠ [] ∧ (⟨2⟩ :: others).Nodup
      ∧ List.IsChain
        (WaitsFor { crossed with asking := crossed.asking.insert ⟨2⟩ ⟨⟨1, 0⟩, .shared⟩ })
        (⟨2⟩ :: others ++ [⟨2⟩])
  := by
  have verdict : (crossed.table.request ⟨1, 0⟩ ⟨2⟩ .shared).1 = .deadlock := by decide
  use verdict
  apply (reachable_crossed.victim_on_cycle.2 ⟨2⟩ ⟨⟨1, 0⟩, .shared⟩ verdict).1

/-! ### Runs that change no locks -/

/-- `Quiet start acts service` says that the steps `acts` lead from `start` to `service` and each
leaves the locks on every page as they are. -/
inductive Quiet (start : LockService) : List LockAct → LockService → Prop where
  | start : Quiet start [] start
  | perform {acts : List LockAct} {service : LockService} (before : Quiet start acts service)
      (act : LockAct) (allowed : service.allows act)
      (unchanged : ∀ page,
        (service.perform act).table.locksOn page = service.table.locksOn page) :
      Quiet start (acts ++ [act]) (service.perform act)

/-- What is known of a request `asked` that was denied to `txn` and made no more since: it is not
to be had, and its conflicts are recorded unless `txn` holds no locks. -/
structure Denied (service : LockService) (txn : TransactionId) (asked : LockRequest) : Prop where
  refused : (service.table.locksOn asked.page).admits txn asked.mode = false
  recorded : (∀ other, service.WaitsFor txn other →
      service.table.graph.LiveEdge service.table.pages txn other)
    ∨ ∀ page, service.table.modeOf? page txn = none

/-- A denial is known of for as long as the locks and the wait of its transaction stay. -/
theorem Denied.stay {after : LockService} (denied : service.Denied txn asked)
    (unchanged : ∀ page, after.table.locksOn page = service.table.locksOn page)
    (asks : after.asking.get? txn = service.asking.get? txn)
    (waits : after.table.graph.waitOf? txn = service.table.graph.waitOf? txn) :
  after.Denied txn asked
  := by
  have modes : ∀ page other, after.table.modeOf? page other = service.table.modeOf? page other := by
    intro page other
    simp only [LockTable.modeOf?, unchanged]
  constructor
  · rw [unchanged]
    apply denied.refused
  · rcases denied.recorded with edges | free
    · left
      rintro other ⟨request, made, distinct, held, holds, conflict⟩
      rw [asks] at made
      rw [modes] at holds
      obtain ⟨wait, recorded, rest⟩ :=
        LockTable.liveEdge_iff.mp (edges other ⟨request, made, distinct, held, holds, conflict⟩)
      rw [← waits] at recorded
      simp only [← modes] at rest
      apply LockTable.liveEdge_iff.mpr ⟨wait, recorded, rest⟩
    · right
      intro page
      rw [modes]
      apply free

/-- A request `asked` that is not admitted is `Denied` once `deny` has recorded it. -/
theorem denied_deny (refused : (service.table.locksOn asked.page).admits txn asked.mode = false) :
  Denied ⟨service.table.deny asked.page txn asked.mode, service.asking.insert txn asked⟩ txn asked
  := by
  use refused
  left
  rintro other ⟨request, made, distinct, held, holds, conflict⟩
  obtain rfl : asked = request := by simpa using made
  have waits := (waitOf?_deny service txn txn asked).trans (if_pos rfl)
  have holder := (PageLocks.mem_holders _ _).mpr (Option.isSome_of_mem holds)
  apply LockTable.liveEdge_iff.mpr ⟨_, waits, by simpa using ⟨holder, distinct⟩, held, holds,
    conflict⟩

/-- An `act` of another transaction leaves the outstanding request and the recorded wait of `txn`
as they are. -/
theorem perform_of_ne (act : LockAct) (distinct : txn ≠ act.actor) :
  (service.perform act).asking.get? txn = service.asking.get? txn
    ∧ (service.perform act).table.graph.waitOf? txn = service.table.graph.waitOf? txn
  := by
  cases act with
  | request actor request =>
    have clears : ∀ graph : WaitGraph, (graph.clearWaits actor).waitOf? txn = graph.waitOf? txn :=
      fun graph => (WaitGraph.waitOf?_clearWaits ..).trans (if_neg distinct)
    rcases service.perform_request_cases actor request with ⟨-, eq⟩ | ⟨-, -, eq⟩ | ⟨-, -, eq⟩
    · rw [eq]
      use Registry.get?_erase_of_ne _ distinct
      apply clears
    · rw [eq]
      use Registry.get?_insert_of_ne _ distinct _
      apply (waitOf?_deny ..).trans (if_neg distinct)
    · rw [eq, LockTable.clearWaits_deny]
      use Registry.get?_erase_of_ne _ distinct
      apply clears
  | release actor page =>
    use rfl
    rw [perform, LockTable.graph_release]
  | releaseAll actor =>
    use rfl
    rw [perform, LockTable.graph_releaseAll]
    apply (WaitGraph.waitOf?_clearWaits ..).trans (if_neg distinct)

/-- A request that is outstanding after `perform` was `Denied`. -/
theorem denied_request
    (outstanding : (service.perform (.request txn request)).asking.get? txn = some asked) :
  (service.perform (.request txn request)).Denied txn asked
  := by
  rcases service.perform_request_cases txn request with ⟨-, eq⟩ | ⟨refused, -, eq⟩ | ⟨-, -, eq⟩
  · simp [eq] at outstanding
  · rw [eq] at outstanding ⊢
    obtain rfl : request = asked := by simpa using outstanding
    apply denied_deny refused
  · simp [eq] at outstanding

/-- In a service that a `Quiet` run of `acts` has led to, every outstanding request that was made
in `acts` is `Denied`. -/
theorem Quiet.denied {start : LockService} {acts : List LockAct} (quiet : Quiet start acts service)
    (reached : start.Reachable) :
  service.Reachable ∧ ∀ txn, ∀ asked ∈ service.asking.get? txn,
    .request txn asked ∈ acts → service.Denied txn asked
  := by
  induction quiet with
  | start =>
    use reached
    simp
  | @perform acts service _ act allowed unchanged ih =>
    obtain ⟨reached, denied⟩ := ih
    use reached.perform act allowed
    intro txn asked outstanding made
    by_cases other : txn ≠ act.actor
    · obtain ⟨asks, waits⟩ := service.perform_of_ne act other
      have before : .request txn asked ∈ acts := by
        rcases by simpa using made with old | rfl
        · apply old
        · cases other rfl
      apply (denied txn asked (asks ▸ outstanding) before).stay unchanged asks waits
    obtain rfl : txn = act.actor := by simpa using other
    cases act with
    | request actor request => apply denied_request outstanding
    | release actor page =>
      apply (denied _ asked outstanding (by simpa using made)).stay unchanged rfl
      rw [LockService.perform, LockTable.graph_release]
    | releaseAll actor =>
      constructor
      · rw [unchanged]
        apply (denied _ asked outstanding (by simpa using made)).refused
      · right
        intro page
        apply (reached.kept.sound.modeOf?_releaseAll ..).trans (if_pos rfl)

/-- Where every outstanding request was made again in a `Quiet` run, there is no deadlock:
`WaitsFor` is `Acyclic`, `tryAcquire` grants no outstanding request, and if there are any, then one
of them is blocked, and only by transactions that have no outstanding request. -/
theorem Quiet.no_deadlock {start : LockService} {acts : List LockAct}
    (reached : start.Reachable) (quiet : Quiet start acts service)
    (retried : ∀ txn, ∀ asked ∈ service.asking.get? txn, .request txn asked ∈ acts) :
  Acyclic service.WaitsFor
    ∧ (∀ txn, ∀ asked ∈ service.asking.get? txn,
        (service.table.tryAcquire asked.page txn asked.mode).1 = false)
    ∧ ((∃ txn, (service.asking.get? txn).isSome) →
        ∃ txn, (service.asking.get? txn).isSome ∧ (∃ other, service.WaitsFor txn other)
          ∧ ∀ other, service.WaitsFor txn other → service.asking.get? other = none)
  := by
  obtain ⟨reached, denied⟩ := quiet.denied reached
  have denied : ∀ txn, ∀ asked ∈ service.asking.get? txn, service.Denied txn asked :=
    fun txn asked outstanding => denied txn asked outstanding (retried txn asked outstanding)
  have acyclic : Acyclic service.WaitsFor := by
    intro txn cycle
    refine reached.kept.acyclic txn (Relation.TransGen.mono ?_ txn txn (cycle_of_targets cycle))
    rintro a b ⟨blocked, other, request, made, -, held, holds, -⟩
    obtain ⟨asked, outstanding, -⟩ := id blocked
    rcases (denied a asked outstanding).recorded with edges | free
    · apply edges b blocked
    · simp [free] at holds
  use acyclic
  constructor
  · intro txn asked outstanding
    simp [LockTable.tryAcquire, (denied txn asked outstanding).refused]
  · intro outstanding
    have finite : { txn | (service.asking.get? txn).isSome }.Finite := by
      apply service.asking.keys.finite_toSet.subset
      intro txn outstanding
      obtain ⟨asked, asks⟩ := Option.isSome_iff_exists.mp outstanding
      apply List.mem_map_of_mem (f := Prod.fst) (Registry.mem_entries_of_get? asks)
    obtain ⟨txn, outstanding, sink⟩ := acyclic.exists_sink finite outstanding
    obtain ⟨asked, asks⟩ := Option.isSome_iff_exists.mp outstanding
    use txn, outstanding
    constructor
    · have refused := (denied txn asked asks).refused
      rw [Bool.eq_false_iff, Ne, PageLocks.admits_iff (reached.kept.sound.consistent _)] at refused
      push Not at refused
      obtain ⟨other, held, distinct, holds, conflict⟩ := refused
      use other, asked, asks, distinct, held, holds
      simpa using conflict
    · intro other blocks
      by_contra waits
      apply sink other _ blocks
      apply Option.isSome_iff_ne_none.mpr waits

/-- In `crossed`, the request of transaction 1 for the page of transaction 2 is outstanding,
`WaitsFor` is `Acyclic`, and only transactions without a request block it. -/
theorem blocked_in_crossed :
  crossed.asking.get? ⟨1⟩ = some ⟨⟨1, 1⟩, .exclusive⟩
    ∧ Acyclic crossed.WaitsFor
    ∧ ∃ txn, (crossed.asking.get? txn).isSome ∧ (∃ other, crossed.WaitsFor txn other)
      ∧ ∀ other, crossed.WaitsFor txn other → crossed.asking.get? other = none
  := by
  have outstanding : crossed.asking.get? ⟨1⟩ = some ⟨⟨1, 1⟩, .exclusive⟩ := by decide
  have quiet : Quiet apart [.request ⟨1⟩ ⟨⟨1, 1⟩, .exclusive⟩] crossed := by
    apply Quiet.start.perform
    · rintro _ ⟨⟩
    · intro page
      rfl
  have retried : ∀ txn, ∀ asked ∈ crossed.asking.get? txn,
      .request txn asked ∈ [LockAct.request ⟨1⟩ ⟨⟨1, 1⟩, .exclusive⟩] := by
    intro txn asked found
    have entry : (txn, asked) ∈ [(TransactionId.mk 1, LockRequest.mk ⟨1, 1⟩ .exclusive)] :=
      Registry.mem_entries_of_get? found
    simpa using entry
  obtain ⟨acyclic, -, sink⟩ := Quiet.no_deadlock reachable_apart quiet retried
  use outstanding, acyclic
  apply sink ⟨⟨1⟩, by simp [outstanding]⟩

end LockService

end StorageEngine

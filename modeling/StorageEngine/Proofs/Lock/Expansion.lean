import Mathlib
import StorageEngine.Proofs.Lock.Search

/-!
# The order of the search of the wait-for graph

A search asks for the edges of a transaction when it enters it, and it enters no transaction
twice.  The edges may be enumerated in any order: the search then follows another path, but it
ends within the same number of steps and with the same answer (`hasCycleFrom_exact`).
-/

namespace StorageEngine.WaitGraph

namespace Search

variable {successors : TransactionId → List TransactionId} {start : TransactionId}

/-- The search from `start` before its first step. -/
def starting (successors : TransactionId → List TransactionId) (start : TransactionId) : Search :=
  ⟨[], [(start, successors start)]⟩

/-- The transactions for whose `successors` a search asks within a number of steps, in this
order. -/
def expansions (successors : TransactionId → List TransactionId) : Nat → Search →
    List TransactionId
  | 0, _ => []
  | steps + 1, search =>
    match search.step successors with
    | .going next => search.entered next ++ expansions successors steps next
    | _ => []

/-- A search enters each transaction at most once, and none that it has met before. -/
theorem Valid.expansions_nodup {waits : List (TransactionId × Wait)}
    (bounded : Bounded successors waits) (steps : Nat) :
  ∀ {search : Search}, search.Valid successors start →
    (expansions successors steps search).Nodup
      ∧ ∀ txn ∈ expansions successors steps search, txn ∉ search.met
  := by
  induction steps with
  | zero => simp [expansions]
  | succ steps ih =>
    intro search valid
    obtain ⟨eq, -⟩ | ⟨eq, -⟩ | ⟨next, eq, valid', -, entered⟩ := valid.step_cases bounded
    · simp [expansions, eq]
    · simp [expansions, eq]
    · obtain ⟨nodup, fresh⟩ := ih valid'
      simp only [expansions, eq]
      rcases entered with ⟨none, same⟩ | ⟨target, one, new, met⟩
      · rw [none, List.nil_append]
        exact ⟨nodup, fun txn member => mt (same txn).mpr (fresh txn member)⟩
      · rw [one, List.singleton_append]
        constructor
        · apply List.nodup_cons.mpr ⟨?_, nodup⟩
          intro again
          apply fresh target again ((met target).mpr (.inl rfl))
        · intro txn member
          rcases List.mem_cons.mp member with rfl | later
          · apply new
          · exact fun seen => fresh txn later ((met txn).mpr (.inr seen))

/-- `ReachesCycle` does not depend on the order in which `successors` enumerates the edges. -/
theorem reachesCycle_congr {successors' : TransactionId → List TransactionId}
    (same : ∀ a b, b ∈ successors a ↔ b ∈ successors' a) :
  ReachesCycle successors start ↔ ReachesCycle successors' start
  := by
  have edges : Edge successors = Edge successors' := by
    funext a b
    apply propext (same a b)
  rw [ReachesCycle, ReachesCycle, edges]

end Search

variable {graph : WaitGraph} {pages : Registry PageId PageLocks}
  {successors : TransactionId → List TransactionId}

/-- Where `successors` enumerates the live blockers of `graph`, it is `Bounded` by the recorded
edges. -/
theorem bounded_of_perm (enumerates : ∀ txn, (successors txn).Perm (graph.liveBlockers pages txn)) :
  Search.Bounded successors graph.waits.entries
  := by
  intro txn
  rcases graph.liveBlockers_bounded pages txn with none | ⟨wait, found, few⟩
  · left
    apply List.Perm.eq_nil
    rw [← none]
    apply enumerates
  · right
    exact ⟨wait, found, (enumerates txn).length_eq.trans_le few⟩

/-- In whichever order `successors` enumerates the live blockers, the work of a search from `start`
is below `graph.searchBound`. -/
theorem work_starting_lt (enumerates : ∀ txn, (successors txn).Perm (graph.liveBlockers pages txn))
    (start : TransactionId) :
  (Search.starting successors start).work graph.waits.entries < graph.searchBound
  := by
  have bound := graph.work_lt_searchBound pages start
  simpa [Search.starting, Search.work, Search.pendingWork, Search.nodes,
    (enumerates start).length_eq] using bound

/-- `graph.hasCycleFrom pages start` holds exactly if `start` leads, through transactions that are
each `BlockedBy` the next, to one that is blocked by itself in this way.  In whichever order
`successors` enumerates the edges, the search ends within `graph.searchBound` and with this answer,
and it asks for the edges of no transaction more than once. -/
theorem hasCycleFrom_exact (graph : WaitGraph) (pages : Registry PageId PageLocks)
    (start : TransactionId) :
  (graph.hasCycleFrom pages start = true
      ↔ ∃ txn, Relation.ReflTransGen (graph.BlockedBy pages) start txn
          ∧ Relation.TransGen (graph.BlockedBy pages) txn txn)
    ∧ ∀ successors : TransactionId → List TransactionId,
        (∀ txn, (successors txn).Perm (graph.liveBlockers pages txn)) →
        Search.outcome? successors graph.searchBound (Search.starting successors start)
            = some (graph.hasCycleFrom pages start)
          ∧ ∀ steps, (start :: Search.expansions successors steps
              (Search.starting successors start)).Nodup
  := by
  have edges : graph.LiveEdge pages = graph.BlockedBy pages := by
    funext txn other
    apply propext liveEdge_iff
  constructor
  · rw [← edges]
    apply graph.hasCycleFrom_iff pages start
  · intro successors enumerates
    have bounded := bounded_of_perm enumerates
    have valid : (Search.starting successors start).Valid successors start :=
      Search.valid_start start
    constructor
    · obtain ⟨found, eq, iff⟩ := valid.outcome?_eq bounded (work_starting_lt enumerates start)
      rw [eq]
      congr 1
      apply Bool.eq_iff_iff.mpr
      rw [iff, graph.hasCycleFrom_iff pages start]
      apply Search.reachesCycle_congr fun a b => (enumerates a).mem_iff
    · intro steps
      obtain ⟨nodup, fresh⟩ := valid.expansions_nodup bounded steps
      apply List.nodup_cons.mpr ⟨?_, nodup⟩
      intro again
      apply fresh start again
      simp [Search.starting, Search.met, Search.nodes]

/-- Transaction 1 waits for 2 and 3, which share a page, and 3 waits for 1. -/
def crossing : WaitGraph :=
  (empty.recordWait ⟨1⟩ ⟨1, 0⟩ .exclusive [⟨2⟩, ⟨3⟩]).recordWait ⟨3⟩ ⟨1, 1⟩ .shared [⟨1⟩]

/-- The locks that make the transactions of `crossing` wait. -/
def crossingLocks : Registry PageId PageLocks :=
  ((∅ : Registry PageId PageLocks).insert ⟨1, 0⟩ ⟨[⟨⟨2⟩, .shared⟩, ⟨⟨3⟩, .shared⟩]⟩).insert ⟨1, 1⟩
    ⟨[⟨⟨1⟩, .exclusive⟩]⟩

/-- In `crossing`, the search from transaction 2, which is not blocked, finds no cycle.  The one
from transaction 1 finds the cycle also when it follows `liveBlockers` from last to first, and then
it does not ask for the edges of transaction 2. -/
theorem hasCycleFrom_crossing :
  crossing.hasCycleFrom crossingLocks ⟨2⟩ = false
    ∧ (∃ txn, Relation.ReflTransGen (crossing.BlockedBy crossingLocks) ⟨1⟩ txn
        ∧ Relation.TransGen (crossing.BlockedBy crossingLocks) txn txn)
    ∧ (∀ txn, ((crossing.liveBlockers crossingLocks txn).reverse).Perm
        (crossing.liveBlockers crossingLocks txn))
    ∧ Search.outcome? (fun txn => (crossing.liveBlockers crossingLocks txn).reverse)
        crossing.searchBound
        (Search.starting (fun txn => (crossing.liveBlockers crossingLocks txn).reverse) ⟨1⟩)
      = some true
    ∧ Search.expansions (fun txn => (crossing.liveBlockers crossingLocks txn).reverse) 3
        (Search.starting (fun txn => (crossing.liveBlockers crossingLocks txn).reverse) ⟨1⟩)
      = [⟨3⟩]
  := by
  obtain ⟨found, orders⟩ := hasCycleFrom_exact crossing crossingLocks ⟨1⟩
  have cycle : crossing.hasCycleFrom crossingLocks ⟨1⟩ = true := by decide
  have reversed : ∀ txn, ((crossing.liveBlockers crossingLocks txn).reverse).Perm
      (crossing.liveBlockers crossingLocks txn) := fun txn => List.reverse_perm _
  refine ⟨by decide, found.mp cycle, reversed, ?_, by decide⟩
  rw [← cycle]
  apply (orders _ reversed).1

end StorageEngine.WaitGraph

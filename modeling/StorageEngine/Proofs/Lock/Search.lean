import Mathlib
import StorageEngine.Lock.WaitGraph

/-!
# Depth-first search of the wait-for graph

A search that follows edges from a transaction keeps three kinds of transactions apart: those
that are finished, from which no cycle can be reached, those on its path, which is a walk from
the start, and the rest.  The main statement says that the search finds a cycle exactly if one
can be reached, within its bound on the number of steps (`hasCycleFrom_iff`).
-/

namespace StorageEngine.WaitGraph

/-- There is an edge from `a` to `b`. -/
def Search.Edge (successors : TransactionId → List TransactionId) (a b : TransactionId) : Prop :=
  b ∈ successors a

/-- A cycle of edges can be reached from `start`. -/
def Search.ReachesCycle (successors : TransactionId → List TransactionId)
    (start : TransactionId) : Prop :=
  ∃ txn, Relation.ReflTransGen (Search.Edge successors) start txn
    ∧ Relation.TransGen (Search.Edge successors) txn txn

namespace Search

variable {successors : TransactionId → List TransactionId}

/-! ### Paths of a search -/

/-- The transactions on `path`, innermost first. -/
def nodes (path : List (TransactionId × List TransactionId)) : List TransactionId :=
  path.map Prod.fst

theorem onPath_iff (search : Search) (txn : TransactionId) :
  search.onPath txn = true ↔ txn ∈ nodes search.path
  := by
  simp [onPath, nodes]

/-- The path is a walk: each transaction on it, apart from the innermost, has an edge to the
transaction `inner` that was entered from it.  An edge that is not followed yet is pending, and
every other edge leads to `inner` or to a finished transaction. -/
def Walk (successors : TransactionId → List TransactionId) (finished : List TransactionId) :
    Option TransactionId → List (TransactionId × List TransactionId) → Prop
  | _, [] => True
  | inner, (txn, pending) :: path =>
    (∀ next ∈ pending, Edge successors txn next)
      ∧ (∀ next, Edge successors txn next → next ∈ pending ∨ next ∈ finished ∨ inner = some next)
      ∧ (∀ next ∈ inner, Edge successors txn next)
      ∧ Walk successors finished (some txn) path

/-- A walk stays one when more transactions are finished. -/
theorem Walk.mono {finished finished' : List TransactionId} (more : finished ⊆ finished') :
  ∀ {inner : Option TransactionId} {path : List (TransactionId × List TransactionId)},
    Walk successors finished inner path → Walk successors finished' inner path
  | _, [], _ => trivial
  | _, (_, _) :: _, ⟨pending, followed, entered, rest⟩ => by
    refine ⟨pending, ?_, entered, rest.mono more⟩
    intro next edge
    rcases followed next edge with waits | done | inner
    · apply Or.inl waits
    · apply Or.inr (Or.inl (more done))
    · apply Or.inr (Or.inr inner)

/-- From every transaction on a walk there are edges to the innermost one. -/
theorem Walk.reaches_innermost {finished : List TransactionId} {inner : TransactionId} :
  ∀ {path : List (TransactionId × List TransactionId)},
    Walk successors finished (some inner) path →
    ∀ txn ∈ nodes path, Relation.ReflTransGen (Edge successors) txn inner
  | (outer, _) :: path, ⟨_, _, entered, rest⟩, txn, member => by
    have last := Relation.ReflTransGen.single (entered inner rfl)
    rcases List.mem_cons.mp member with rfl | deeper
    · apply last
    · apply (rest.reaches_innermost txn deeper).trans last

/-- From the outermost transaction of a walk there are edges to every other one. -/
theorem Walk.reached_from_outermost {finished : List TransactionId} {start : TransactionId} :
  ∀ {inner : Option TransactionId} {path : List (TransactionId × List TransactionId)},
    Walk successors finished inner path → (nodes path).getLast? = some start →
    ∀ txn ∈ nodes path, Relation.ReflTransGen (Edge successors) start txn
  | _, (txn, _) :: [], _, last, other, member => by
    obtain rfl : txn = start := by simpa [nodes] using last
    obtain rfl : other = txn := by simpa [nodes] using member
    apply Relation.ReflTransGen.refl
  | _, (txn, _) :: (outer, pending) :: path, ⟨_, _, _, rest⟩, last, other, member => by
    have outermost : (nodes ((outer, pending) :: path)).getLast? = some start := by
      simpa [nodes] using last
    rcases List.mem_cons.mp member with rfl | deeper
    · apply (rest.reached_from_outermost outermost outer (by simp [nodes])).tail
      apply rest.2.2.1 _ rfl
    · apply rest.reached_from_outermost outermost other deeper

/-! ### What a search keeps -/

/-- What holds at every step of a search from `start`. -/
structure Valid (successors : TransactionId → List TransactionId) (start : TransactionId)
    (search : Search) : Prop where
  walk : Walk successors search.finished none search.path
  nodup : (nodes search.path).Nodup
  /-- No transaction on the path is finished. -/
  unfinished : ∀ txn ∈ nodes search.path, txn ∉ search.finished
  /-- Edges from finished transactions lead to finished ones. -/
  closed : ∀ txn ∈ search.finished, ∀ next, Edge successors txn next → next ∈ search.finished
  /-- No finished transaction lies on a cycle. -/
  acyclic : ∀ txn ∈ search.finished, ¬ Relation.TransGen (Edge successors) txn txn
  /-- The path starts at `start`, until `start` is finished. -/
  rooted : (nodes search.path).getLast? = some start ∨ search.path = [] ∧ start ∈ search.finished

/-- What is reached from a transaction among some that no edge leads out of is among them. -/
theorem mem_of_reaches {among : List TransactionId}
    (closed : ∀ txn ∈ among, ∀ next, Edge successors txn next → next ∈ among)
    {txn other : TransactionId} (member : txn ∈ among)
    (reach : Relation.ReflTransGen (Edge successors) txn other) :
  other ∈ among
  := by
  induction reach with
  | refl => apply member
  | tail _ edge ih => apply closed _ ih _ edge

theorem valid_start (start : TransactionId) :
  Valid successors start ⟨[], [(start, successors start)]⟩
  := by
  refine ⟨⟨fun _ => id, fun next edge => Or.inl edge, by simp, trivial⟩, ?_, ?_, ?_, ?_, ?_⟩
  all_goals simp [nodes]

variable {start txn target : TransactionId} {finished pending : List TransactionId}
  {path : List (TransactionId × List TransactionId)}

/-- When `txn` has no edge left to follow, it joins the `finished`: all of its edges lead to
finished transactions, and none of these leads back to it. -/
theorem Valid.finish (valid : Valid successors start ⟨finished, (txn, []) :: path⟩) :
  Valid successors start ⟨txn :: finished, path⟩
  := by
  obtain ⟨⟨-, followed, -, rest⟩, nodup, unfinished, closed, acyclic, rooted⟩ := valid
  have below : ∀ other, Edge successors txn other → other ∈ finished := by
    intro other edge
    simpa using followed other edge
  have new : txn ∉ finished := unfinished txn (by simp [nodes])
  obtain ⟨outside, nodup⟩ : txn ∉ nodes path ∧ (nodes path).Nodup := by
    simpa [nodes] using nodup
  refine ⟨?_, nodup, ?_, ?_, ?_, ?_⟩
  · cases path with
    | nil => trivial
    | cons outer path =>
      obtain ⟨pending, followed, -, rest⟩ := rest
      refine ⟨pending, ?_, by simp, rest.mono (by simp)⟩
      intro other edge
      rcases followed other edge with waits | done | inner
      · apply Or.inl waits
      · apply Or.inr (Or.inl (List.mem_cons_of_mem _ done))
      · obtain rfl : txn = other := by simpa using inner
        simp
  · intro other member
    have distinct : other ≠ txn := fun same => outside (same ▸ member)
    have not_done : other ∉ finished := unfinished other (List.mem_cons_of_mem _ member)
    simp [distinct, not_done]
  · intro other done next edge
    rcases List.mem_cons.mp done with rfl | done
    · apply List.mem_cons_of_mem _ (below next edge)
    · apply List.mem_cons_of_mem _ (closed other done next edge)
  · intro other done cycle
    rcases List.mem_cons.mp done with rfl | done
    · obtain ⟨next, edge, back⟩ := Relation.TransGen.head'_iff.mp cycle
      apply new (mem_of_reaches closed (below next edge) back)
    · apply acyclic other done cycle
  · cases path with
    | nil =>
      right
      obtain rfl : txn = start := by simpa [nodes] using rooted
      simp
    | cons outer path =>
      left
      simpa [nodes] using rooted

/-- An edge to a `target` that is `finished` is passed over. -/
theorem Valid.skip (valid : Valid successors start ⟨finished, (txn, target :: pending) :: path⟩)
    (done : target ∈ finished) :
  Valid successors start ⟨finished, (txn, pending) :: path⟩
  := by
  obtain ⟨⟨edges, followed, -, rest⟩, nodup, unfinished, closed, acyclic, rooted⟩ := valid
  refine ⟨⟨?_, ?_, by simp, rest⟩, nodup, unfinished, closed, acyclic, ?_⟩
  · intro next member
    apply edges next (List.mem_cons_of_mem _ member)
  · intro other edge
    rcases followed other edge with waits | finished | inner
    · rcases List.mem_cons.mp waits with rfl | waits
      · apply Or.inr (Or.inl done)
      · apply Or.inl waits
    · apply Or.inr (Or.inl finished)
    · cases inner
  · left
    simpa [nodes] using rooted

/-- An edge to a `target` that is neither on the path nor `finished` extends the path by it. -/
theorem Valid.enter (valid : Valid successors start ⟨finished, (txn, target :: pending) :: path⟩)
    (outside : target ∉ nodes ((txn, target :: pending) :: path)) (new : target ∉ finished) :
  Valid successors start ⟨finished, (target, successors target) :: (txn, pending) :: path⟩
  := by
  obtain ⟨⟨edges, followed, -, rest⟩, nodup, unfinished, closed, acyclic, rooted⟩ := valid
  refine ⟨⟨fun _ => id, fun next edge => Or.inl edge, by simp, ?_, ?_, ?_, rest⟩, ?_, ?_,
    closed, acyclic, ?_⟩
  · intro next member
    apply edges next (List.mem_cons_of_mem _ member)
  · intro other edge
    rcases followed other edge with waits | finished | inner
    · rcases List.mem_cons.mp waits with rfl | waits
      · apply Or.inr (Or.inr rfl)
      · apply Or.inl waits
    · apply Or.inr (Or.inl finished)
    · cases inner
  · intro next same
    obtain rfl : target = next := by simpa using same
    apply edges target (by simp)
  · apply List.nodup_cons.mpr ⟨outside, nodup⟩
  · intro other member
    rcases List.mem_cons.mp member with rfl | member
    · apply new
    · apply unfinished other member
  · left
    simpa [nodes] using rooted

/-- An edge to a `target` on the path closes a cycle that `start` reaches. -/
theorem Valid.reachesCycle
    (valid : Valid successors start ⟨finished, (txn, target :: pending) :: path⟩)
    (inside : target ∈ nodes ((txn, target :: pending) :: path)) :
  ReachesCycle successors start
  := by
  obtain ⟨walk, -, -, -, -, rooted⟩ := valid
  have edge : Edge successors txn target := walk.1 target (by simp)
  have last : (nodes ((txn, target :: pending) :: path)).getLast? = some start := by
    simpa [nodes] using rooted
  use target
  constructor
  · apply walk.reached_from_outermost last target inside
  · apply Relation.TransGen.tail' _ edge
    rcases List.mem_cons.mp inside with rfl | deeper
    · apply Relation.ReflTransGen.refl
    · apply walk.2.2.2.reaches_innermost target deeper

/-- When the path is empty, `start` reaches no cycle. -/
theorem Valid.not_reachesCycle (valid : Valid successors start ⟨finished, []⟩) :
  ¬ ReachesCycle successors start
  := by
  rintro ⟨txn, reach, cycle⟩
  have done : start ∈ finished := by simpa [nodes] using valid.rooted
  apply valid.acyclic txn (mem_of_reaches valid.closed done reach) cycle

/-! ### How long a search takes -/

/-- A bound on the steps that the edges of transactions outside `met` still cost: each edge is
followed, and the transaction it leads to may have to be finished. -/
def unmetWork (waits : List (TransactionId × Wait)) (met : List TransactionId) : Nat :=
  ((waits.filter fun entry => entry.1 ∉ met).map fun entry => 2 * entry.2.blockers.length).sum

/-- A bound on the steps that the edges pending on `path` still cost. -/
def pendingWork (path : List (TransactionId × List TransactionId)) : Nat :=
  (path.map fun node => 2 * node.2.length + 1).sum

/-- A bound on the steps that `search` still takes. -/
def work (waits : List (TransactionId × Wait)) (search : Search) : Nat :=
  pendingWork search.path + unmetWork waits (search.finished ++ nodes search.path)

/-- `unmetWork waits` depends on the members of `met` alone. -/
theorem unmetWork_congr {waits : List (TransactionId × Wait)} {met met' : List TransactionId}
    (same : ∀ txn, txn ∈ met ↔ txn ∈ met') :
  unmetWork waits met = unmetWork waits met'
  := by
  simp only [unmetWork, same]

/-- `unmetWork waits` does not grow when `txn` is met. -/
theorem unmetWork_cons_le (waits : List (TransactionId × Wait)) (met : List TransactionId)
    (txn : TransactionId) :
  unmetWork waits (txn :: met) ≤ unmetWork waits met
  := by
  apply List.Sublist.sum_le_sum
  · apply List.Sublist.map
    apply List.monotone_filter_right
    intro entry unmet
    simp only [List.mem_cons, not_or, decide_eq_true_eq] at unmet ⊢
    apply unmet.2
  · simp

/-- When `txn` is met for the first time, `unmetWork waits` falls by two for each blocker of its
`wait`. -/
theorem unmetWork_cons {waits : List (TransactionId × Wait)} {met : List TransactionId}
    {txn : TransactionId} {wait : Wait} (new : txn ∉ met)
    (found : Registry.lookup txn waits = some wait) :
  unmetWork waits (txn :: met) + 2 * wait.blockers.length ≤ unmetWork waits met
  := by
  induction waits with
  | nil => cases found
  | cons entry waits ih =>
    have fewer := unmetWork_cons_le waits met txn
    by_cases first : entry.1 = txn
    · obtain rfl : entry.2 = wait := by simpa [Registry.lookup, first] using found
      simp only [unmetWork, List.mem_cons, first, true_or, not_true, decide_false,
        Bool.false_eq_true, not_false_eq_true, List.filter_cons_of_neg, new, decide_true,
        List.filter_cons_of_pos, List.map_cons, List.sum_cons] at fewer ⊢
      omega
    · have found : Registry.lookup txn waits = some wait := by
        simpa [Registry.lookup, first] using found
      have ih := ih found
      simp only [unmetWork] at ih ⊢
      by_cases seen : entry.1 ∈ met
      · simpa [seen] using ih
      · simp only [List.mem_cons, first, seen, or_self, not_false_eq_true, decide_true,
          List.filter_cons_of_pos, List.map_cons, List.sum_cons] at ih ⊢
        omega

/-- The `successors` of a transaction are no more than the blockers of its wait in `waits`. -/
def Bounded (successors : TransactionId → List TransactionId)
    (waits : List (TransactionId × Wait)) : Prop :=
  ∀ txn, successors txn = [] ∨ ∃ wait, Registry.lookup txn waits = some wait
    ∧ (successors txn).length ≤ wait.blockers.length

/-- When `txn` is met for the first time, `unmetWork waits` falls by two for each of its
`successors`. -/
theorem Bounded.unmetWork_cons {waits : List (TransactionId × Wait)}
    (bounded : Bounded successors waits) {met : List TransactionId} {txn : TransactionId}
    (new : txn ∉ met) :
  unmetWork waits (txn :: met) + 2 * (successors txn).length ≤ unmetWork waits met
  := by
  rcases bounded txn with none | ⟨wait, found, few⟩
  · simpa [none] using unmetWork_cons_le waits met txn
  · have paid := Search.unmetWork_cons new found
    omega

/-! ### Steps -/

/-- The transactions that `search` has met. -/
def met (search : Search) : List TransactionId := search.finished ++ nodes search.path

/-- The transactions that are put on the path between `search` and `after`. -/
def entered (search after : Search) : List TransactionId :=
  (nodes after.path).take (after.path.length - search.path.length)

/-- What a step of a `Valid` search leads to: `.cycle`, and `start` reaches one; or `.exhausted`,
and it reaches none; or a `next` search with less work, which has met the transaction that it
entered, if it has entered one, and no other for the first time. -/
theorem Valid.step_cases {waits : List (TransactionId × Wait)}
    (bounded : Bounded successors waits) {search : Search} (valid : search.Valid successors start) :
  (search.step successors = .cycle ∧ ReachesCycle successors start)
    ∨ (search.step successors = .exhausted ∧ ¬ ReachesCycle successors start)
    ∨ ∃ next, search.step successors = .going next ∧ next.Valid successors start
      ∧ next.work waits < search.work waits
      ∧ ((search.entered next = [] ∧ ∀ txn, txn ∈ next.met ↔ txn ∈ search.met)
        ∨ ∃ target, search.entered next = [target] ∧ target ∉ search.met
          ∧ ∀ txn, txn ∈ next.met ↔ txn = target ∨ txn ∈ search.met)
  := by
  obtain ⟨finished, path⟩ := search
  match path with
  | [] =>
    right; left
    exact ⟨rfl, valid.not_reachesCycle⟩
  | (txn, []) :: path =>
    right; right
    have same : ∀ other, other ∈ met ⟨txn :: finished, path⟩
        ↔ other ∈ met ⟨finished, (txn, []) :: path⟩ := by
      simp [met, nodes]
      tauto
    refine ⟨⟨txn :: finished, path⟩, rfl, valid.finish, ?_, .inl ⟨?_, same⟩⟩
    · have work' : unmetWork waits (txn :: finished ++ nodes path)
          = unmetWork waits (finished ++ nodes ((txn, []) :: path)) := unmetWork_congr same
      simp only [work, work', pendingWork, List.map_cons, List.sum_cons]
      omega
    · simp [entered]
  | (txn, target :: pending) :: path =>
    by_cases inside : target ∈ nodes ((txn, target :: pending) :: path)
    · left
      have on := (onPath_iff ⟨finished, (txn, target :: pending) :: path⟩ target).mpr inside
      exact ⟨by simp [Search.step, on], valid.reachesCycle inside⟩
    · right; right
      have off : onPath ⟨finished, (txn, target :: pending) :: path⟩ target = false := by
        apply Bool.eq_false_iff.mpr
        apply mt (onPath_iff _ target).mp inside
      by_cases done : target ∈ finished
      · refine ⟨⟨finished, (txn, pending) :: path⟩, by simp [Search.step, off, done],
          valid.skip done, ?_, .inl ⟨by simp [entered], by simp [met, nodes]⟩⟩
        simp only [work, nodes, pendingWork, List.map_cons, List.sum_cons, List.length_cons]
        omega
      · have unmet : target ∉ finished ++ nodes ((txn, pending) :: path) := by
          simpa [nodes, done] using inside
        refine ⟨⟨finished, (target, successors target) :: (txn, pending) :: path⟩,
          by simp [Search.step, off, done], valid.enter inside done, ?_,
          .inr ⟨target, by simp [entered, nodes], unmet, ?_⟩⟩
        · have same : unmetWork waits
                (finished ++ nodes ((target, successors target) :: (txn, pending) :: path))
              = unmetWork waits (target :: (finished ++ nodes ((txn, pending) :: path))) := by
            apply unmetWork_congr
            simp [nodes]
            tauto
          have paid := bounded.unmetWork_cons unmet
          simp only [work, same]
          simp only [nodes, pendingWork, List.map_cons, List.sum_cons, List.length_cons]
            at paid ⊢
          omega
        · simp [met, nodes]
          tauto

/-! ### The outcome of a search -/

/-- Whether a search has met a cycle, `none` if it has not ended within a number of steps. -/
def outcome? (successors : TransactionId → List TransactionId) : Nat → Search → Option Bool
  | 0, _ => none
  | steps + 1, search =>
    match search.step successors with
    | .cycle => some true
    | .exhausted => some false
    | .going search => outcome? successors steps search

/-- To run a search is to see whether it has met a cycle. -/
theorem run_eq_outcome? (successors : TransactionId → List TransactionId) (steps : Nat)
    (search : Search) :
  run successors steps search = (outcome? successors steps search).getD false
  := by
  induction steps generalizing search with
  | zero => rfl
  | succ steps ih =>
    simp only [run, outcome?]
    cases search.step successors with
    | cycle => rfl
    | exhausted => rfl
    | going next => apply ih

/-- With more `steps` than its work, a `Valid` search ends with an outcome, `true` exactly if
`start` reaches a cycle. -/
theorem Valid.outcome?_eq {waits : List (TransactionId × Wait)}
    (bounded : Bounded successors waits) {steps : Nat} :
  ∀ {search : Search}, search.Valid successors start → search.work waits < steps →
    ∃ found, outcome? successors steps search = some found
      ∧ (found = true ↔ ReachesCycle successors start)
  := by
  induction steps with
  | zero =>
    intro search _ enough
    cases enough
  | succ steps ih =>
    intro search valid enough
    obtain ⟨eq, reaches⟩ | ⟨eq, none⟩ | ⟨next, eq, valid', less, -⟩ := valid.step_cases bounded
    · exact ⟨true, by simp [outcome?, eq], by simp [reaches]⟩
    · exact ⟨false, by simp [outcome?, eq], by simp [none]⟩
    · obtain ⟨found, eq', iff⟩ := ih valid' (by omega)
      exact ⟨found, by simp [outcome?, eq, eq'], iff⟩

/-- With more `steps` than its work, `run` finds a cycle exactly if `start` reaches one. -/
theorem Valid.run_iff {waits : List (TransactionId × Wait)}
    (bounded : Bounded successors waits) {start : TransactionId} {steps : Nat} {search : Search}
    (valid : search.Valid successors start) (enough : search.work waits < steps) :
  run successors steps search = true ↔ ReachesCycle successors start
  := by
  obtain ⟨found, eq, iff⟩ := valid.outcome?_eq bounded enough
  rw [run_eq_outcome?, eq, Option.getD_some, iff]

end Search

/-! ### The search of a graph -/

/-- There is an edge from `a` to `b` that counts: `a` is recorded as waiting for `b`, which holds
a lock that conflicts with what `a` asks for. -/
def LiveEdge (graph : WaitGraph) (pages : Registry PageId PageLocks) :
    TransactionId → TransactionId → Prop :=
  Search.Edge (graph.liveBlockers pages)

/-- `txn` is recorded in `graph` as waiting for `other`, which holds a lock on the page that `txn`
asked for, in a mode that is incompatible with the request. -/
def BlockedBy (graph : WaitGraph) (pages : Registry PageId PageLocks)
    (txn other : TransactionId) : Prop :=
  ∃ wait ∈ graph.waitOf? txn, other ∈ wait.blockers
    ∧ ∃ locks ∈ pages.get? wait.page, ∃ held ∈ locks.modeOf? other,
      held.isCompatibleWith wait.mode = false

/-- `LiveEdge` leads from `txn` to `other` exactly if `txn` is `BlockedBy` `other`. -/
theorem liveEdge_iff {graph : WaitGraph} {pages : Registry PageId PageLocks}
    {txn other : TransactionId} :
  graph.LiveEdge pages txn other ↔ graph.BlockedBy pages txn other
  := by
  simp only [LiveEdge, Search.Edge, liveBlockers, BlockedBy]
  cases graph.waitOf? txn with
  | none => simp
  | some wait =>
    cases locked : pages.get? wait.page with
    | none => simp [locked]
    | some locks => cases holds : locks.modeOf? other <;> simp [locked, conflicting, holds]

/-- `graph.liveBlockers` is `Bounded` by the recorded edges. -/
theorem liveBlockers_bounded (graph : WaitGraph) (pages : Registry PageId PageLocks) :
  Search.Bounded (graph.liveBlockers pages) graph.waits.entries
  := by
  intro txn
  unfold liveBlockers
  cases waits : graph.waitOf? txn with
  | none => simp
  | some wait =>
    cases locked : pages.get? wait.page with
    | none => simp [locked]
    | some locks =>
      right
      use wait, waits
      simp only [locked]
      apply List.length_filter_le

/-- The work of the search that begins at `start` is below `graph.searchBound`. -/
theorem work_lt_searchBound (graph : WaitGraph) (pages : Registry PageId PageLocks)
    (start : TransactionId) :
  Search.work graph.waits.entries ⟨[], [(start, graph.liveBlockers pages start)]⟩
    < graph.searchBound
  := by
  have new : start ∉ [] := List.not_mem_nil
  have paid := (graph.liveBlockers_bounded pages).unmetWork_cons new
  have total : ∀ (waits : List (TransactionId × Wait)) (bound : Nat),
      bound + Search.unmetWork waits []
        ≤ waits.foldl (fun bound entry => bound + 2 * entry.2.blockers.length + 2) bound := by
    intro waits
    induction waits with
    | nil => simp [Search.unmetWork]
    | cons entry waits ih =>
      intro bound
      apply le_trans _ (ih (bound + 2 * entry.2.blockers.length + 2))
      simp [Search.unmetWork]
      omega
  have bound := total graph.waits.entries 3
  simp only [searchBound]
  simp only [Search.work, Search.pendingWork, Search.nodes, List.map_cons, List.map_nil,
    List.sum_cons, List.sum_nil, List.nil_append]
  omega

/-- `graph.hasCycleFrom pages start` holds exactly if `start` leads along `LiveEdge` to a
transaction on a cycle. -/
theorem hasCycleFrom_iff (graph : WaitGraph) (pages : Registry PageId PageLocks)
    (start : TransactionId) :
  graph.hasCycleFrom pages start = true
    ↔ ∃ txn, Relation.ReflTransGen (graph.LiveEdge pages) start txn
        ∧ Relation.TransGen (graph.LiveEdge pages) txn txn
  := (Search.valid_start start).run_iff (graph.liveBlockers_bounded pages)
    (graph.work_lt_searchBound pages start)

end StorageEngine.WaitGraph

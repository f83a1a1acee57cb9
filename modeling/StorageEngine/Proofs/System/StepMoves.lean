import StorageEngine.Proofs.System.NoSteal
import StorageEngine.Proofs.System.Simulation

/-!
# Steps as moves

A step of a system that mirrors workspaces is done in moves, unless bytes of a copy are overwritten
in it (`System.Mirrors.moves`).  So it keeps the pool tidy, and every table in its store, with pages
of the same size (`System.Mirrors.sameTables`).
-/

namespace StorageEngine

namespace Pool

variable {may : Freedom} {pool middle after : Pool}

/-- Whether the tables are kept in the same stores in `after` as in `pool`, which have the same
shapes. -/
structure SameTables (pool after : Pool) : Prop where
  catalog : after.catalog = pool.catalog
  table : ∀ no, (after.store no).table = (pool.store no).table
  shape : ∀ no, (after.store no).shape = (pool.store no).shape

theorem SameTables.refl (pool : Pool) :
  pool.SameTables pool
  := ⟨rfl, fun _ => rfl, fun _ => rfl⟩

theorem SameTables.trans (first : pool.SameTables middle) (second : middle.SameTables after) :
  pool.SameTables after
  where
  catalog := second.catalog.trans first.catalog
  table no := (second.table no).trans (first.table no)
  shape no := (second.shape no).trans (first.shape no)

/-- With the `SameTables`, insertions into a heap `table` go on to be served. -/
theorem SameTables.serves_insert (same : pool.SameTables after) {table : TableId}
    (heap : ∀ no, pool.catalog.get? table = some no →
      ∃ pageSize, (pool.store no).shape = .inl pageSize) (tuple : Bytes) :
  after.serves (.insert table tuple)
  := by
  intro no found
  rw [same.catalog] at found
  obtain ⟨pageSize, shape⟩ := heap no found
  rw [← same.shape, Store.shape] at shape
  cases medium : (after.store no).medium with
  | heap file => exact ⟨file, rfl⟩
  | counters pages =>
    rw [medium] at shape
    cases shape

/-- A `move` keeps the shape of every store. -/
theorem Move.shape (move : Move may pool after) (no : StoreNo) :
  (after.store no).shape = (pool.store no).shape
  := by
  have set : ∀ {other store}, store.shape = (pool.store other).shape →
      ((pool.setStore other store).store no).shape = (pool.store no).shape := by
    intro other store same
    rw [store_setStore]
    split
    · rename_i here
      rw [here.1, same]
    · rfl
  cases move with
  | relock | spoil => rfl
  | note same => simp only [Store.shape, same.medium]
  | append eq => apply set (Store.shape_allocate eq)
  | page page elsewhere fate =>
    cases fate with
    | absent stores | kept stores | read _ stores | changed _ _ stores =>
      rw [Pool.store, Pool.store, stores]
    | written other _ _ _ _ _ _ eq =>
      have same : after.stores = (pool.writeStored page (pool.copy other).bytes).2.stores := by
        rw [eq]
      rw [Pool.store, same]
      unfold writeStored
      cases pool.storeOf page.table with
      | error failure => rfl
      | ok owner => apply set (Store.shape_write ..)

theorem Moves.sameTables (moves : Moves may pool after) :
  pool.SameTables after
  := by
  induction moves with
  | refl => apply SameTables.refl
  | tail _ move ih =>
    obtain ⟨-, catalog, table⟩ := move.fixed
    exact ih.trans ⟨catalog, table, move.shape⟩

/-! ### Keeping pools tidy -/

/-- Whether `pool`, if it is `Tidy`, becomes `after` that is, with the tables in their stores. -/
def Keeps (pool after : Pool) : Prop := pool.Tidy → after.Tidy ∧ pool.SameTables after

theorem Keeps.refl (pool : Pool) :
  pool.Keeps pool
  := fun tidy => ⟨tidy, .refl pool⟩

theorem Keeps.trans (first : pool.Keeps middle) (second : middle.Keeps after) :
  pool.Keeps after
  := by
  intro tidy
  obtain ⟨tidy, same⟩ := first tidy
  obtain ⟨tidy, same'⟩ := second tidy
  exact ⟨tidy, same.trans same'⟩

theorem Keeps.of_moves (moves : pool.Tidy → Moves may pool after) :
  pool.Keeps after
  := fun tidy => ⟨tidy.moves (moves tidy), (moves tidy).sameTables⟩

/-- Everything may be done. -/
def anything : Freedom where
  relocks _ _ := True
  changes _ := True
  writes := True
  spoils := True

theorem keeps_fetch (pool : Pool) (txn : TransactionId) (page : PageId) (access : Access) :
  pool.Keeps (pool.fetch txn page access).2
  := by
  have moves : pool.Tidy → Moves anything pool (pool.fetch txn page access).2 := fun tidy =>
    (moves_fetch tidy txn page access trivial).1
  apply Keeps.of_moves moves

theorem keeps_complete (pool : Pool) (txn : TransactionId) (commits : Bool) :
  pool.Keeps (pool.complete txn commits).2
  := .of_moves fun tidy => moves_end tidy txn commits

end Pool

theorem Call.keeps_round {call : Call} (marks : call.marks) (txn : TransactionId) (pool : Pool) :
  pool.Keeps (call.round txn pool).2
  := by
  have moves : pool.Tidy → Pool.Moves Pool.anything pool (call.round txn pool).2 := fun tidy =>
    Call.moves_round tidy marks trivial (fun _ _ => trivial) (fun _ _ _ => trivial) fun _ => trivial
  apply Pool.Keeps.of_moves moves

theorem Request.keeps_enter {pool : Pool} {request : Request} (served : pool.serves request)
    (txn : TransactionId) :
  pool.Keeps (request.enter txn pool).2
  := by
  have moves : Pool.Moves Pool.anything pool (request.enter txn pool).2 :=
    Request.moves_enter txn served
  apply Pool.Keeps.of_moves fun _ => moves

/-! ### Steps -/

namespace System

variable {system after : System} {spaces : Workspaces} {txn : TransactionId} {events : List Event}

/-- A `call` that suits a system marks whatever it changes. -/
theorem marks_of_suits {pool : Pool} {call : Call} (suits : call.Suits pool spaces txn) :
  call.marks
  := by
  cases call with
  | delete => apply suits
  | count => cases suits
  | _ => trivial

/-- A `step` is made of moves, unless `bytes` of a copy are overwritten in it. -/
theorem Mirrors.moves (mirrors : system.Mirrors spaces) (tidy : system.pool.Tidy)
    (step : Step system events after) :
  (∃ may, Pool.Moves may system.pool after.pool)
    ∨ ∃ no bytes, after.pool = system.pool.setCopy no { system.pool.copy no with bytes }
  := by
  cases step with
  | @enter txn request round pool free served eq =>
    have moves : Pool.Moves Pool.anything system.pool (request.enter txn system.pool).2 :=
      Request.moves_enter txn served
    rw [eq] at moves
    exact .inl ⟨_, moves⟩
  | @round txn call round pool under eq =>
    have suits := mirrors.suits txn
    rw [under] at suits
    have moves : Pool.Moves Pool.anything system.pool (call.round txn system.pool).2 :=
      Call.moves_round tidy (marks_of_suits suits) trivial (fun _ _ => trivial)
        (fun _ _ _ => trivial) fun _ => trivial
    rw [eq] at moves
    exact .inl ⟨_, moves⟩
  | edit => exact .inr ⟨_, _, rfl⟩
  | @mark txn copy page edits pool hand eq | @unmarked txn copy page edits failure pool hand eq =>
    have suits := mirrors.suits txn
    rw [hand] at suits
    have moves : Pool.Moves Pool.anything system.pool (system.pool.markDirty txn copy).2 :=
      Pool.moves_markDirty tidy trivial suits.allocated
    rw [eq] at moves
    exact .inl ⟨_, moves⟩
  | @complete txn commits result pool free eq =>
    have moves := Pool.moves_end tidy txn commits
    rw [eq] at moves
    exact .inl ⟨_, moves⟩
  | disrupt no failingReads failingCount appendLimit =>
    exact .inl ⟨Pool.ending, .single (.disrupt no failingReads _ failingCount appendLimit)⟩

/-- A `step` keeps the pool `Tidy`. -/
theorem Mirrors.tidy (mirrors : system.Mirrors spaces) (tidy : system.pool.Tidy)
    (step : Step system events after) :
  after.pool.Tidy
  := by
  rcases mirrors.moves tidy step with ⟨may, moves⟩ | ⟨no, bytes, eq⟩
  · apply tidy.moves moves
  · rw [eq]
    apply tidy.edit

/-- A `step` leaves the `SameTables`. -/
theorem Mirrors.sameTables (mirrors : system.Mirrors spaces) (tidy : system.pool.Tidy)
    (step : Step system events after) :
  system.pool.SameTables after.pool
  := by
  rcases mirrors.moves tidy step with ⟨may, moves⟩ | ⟨no, bytes, eq⟩
  · apply moves.sameTables
  · rw [eq]
    exact ⟨rfl, fun _ => rfl, fun _ => rfl⟩

/-- A `run` keeps the pool `Tidy` and leaves the `SameTables`. -/
theorem Mirrors.keeps (mirrors : system.Mirrors spaces) (tidy : system.pool.Tidy)
    (run : system.Run events after) (numbered : ∀ no, (after.pool.store no).Numbered) :
  after.pool.Tidy ∧ system.pool.SameTables after.pool
  := by
  induction run with
  | start => exact ⟨tidy, .refl _⟩
  | step before step ih =>
    have numbered' := step.grows.numbered numbered
    obtain ⟨tidy', same⟩ := ih numbered'
    obtain ⟨spaces', -, mirrors'⟩ := mirrors.run before numbered'
    exact ⟨mirrors'.tidy tidy' step, same.trans (mirrors'.sameTables tidy' step)⟩

end System

end StorageEngine

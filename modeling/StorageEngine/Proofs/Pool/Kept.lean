import StorageEngine.Proofs.Pool.Moves

/-!
# Pages kept by stores

What a store keeps of a page is told here without regard to whether the page can be read
(`Store.kept?`): a file that has grown past the last page number, or whose pages are longer than a
buffer, keeps pages all the same.  In other stores it is the image of the page
(`Pool.kept?_eq_stored`).  A page that is written is kept as it was written, and the others are kept
as before (`Pool.kept?_writeStored`).
-/

namespace StorageEngine

/-! ### Page files -/

namespace PageFile

variable {file : PageFile} {no : PageNo} {data : Bytes}

/-- After `file.store no data` the whole pages are `no` and those that were whole before. -/
theorem lt_pages_store_iff (size : data.length = file.pageSize) (positive : 0 < file.pageSize)
    (last : no.toNat ≤ file.pages) (other : PageNo) :
  other.toNat < (file.store no data).pages ↔ other = no ∨ other.toNat < file.pages
  := by
  rw [← UInt32.toNat_inj]
  rcases Nat.lt_or_eq_of_le last with within | equal
  · rw [pages_store (Nat.le_of_eq size) within]
    omega
  · rw [pages_store_last size positive equal]
    omega

end PageFile

/-! ### Stores -/

namespace Store

variable {store grown : Store} {page other : PageId} {bytes : Bytes}

/-- What `store` keeps of `page`. -/
def kept? (store : Store) (page : PageId) : Option Bytes :=
  match store.medium with
  | .heap file =>
    if page.table = store.table ∧ page.no.toNat < file.pages then some (file.page page.no) else none
  | .counters pages => pages[page.no.toNat]?

/-- `store.kept? page` is the image of `page`, in a `Numbered` store whose pages fit a buffer. -/
theorem kept?_eq_image (numbered : store.Numbered)
    (short : ∀ file, store.medium = .heap file → file.pageSize ≤ maxLength) (page : PageId) :
  store.kept? page = (store.image page).toOption
  := by
  apply Option.ext
  intro bytes
  have image : (store.image page).toOption = some bytes ↔ store.image page = .ok bytes := by
    cases store.image page <;> simp [Except.toOption]
  rw [image]
  unfold kept?
  cases medium : store.medium with
  | heap file =>
    have numbered : file.pages < UInt32.size := by
      simpa [Numbered, length, medium] using numbered
    rw [image_heap_iff medium numbered]
    simp [short file medium, and_assoc]
  | counters pages =>
    rw [image_counters_iff medium]

/-- Whether `page` was put into `store` and the rest of its table was left as it was in `grown`. -/
structure Put (store grown : Store) (page : PageId) (bytes : Bytes) : Prop where
  table : grown.table = store.table
  kept : grown.kept? page = some bytes
  others : ∀ other : PageId, other.table = page.table → other ≠ page →
    grown.kept? other = store.kept? other

theorem Rewritten.put (rewritten : store.Rewritten page bytes grown) :
  store.Put grown page bytes
  := by
  have apart : ∀ other : PageId, other.table = page.table → other ≠ page → other.no ≠ page.no := by
    intro other same distinct equal
    apply distinct
    cases other
    cases page
    simp_all
  use rewritten.table
  · cases rewritten with
    | heap _ own positive size last =>
      have within := (PageFile.lt_pages_store_iff size positive last page.no).mpr (.inl rfl)
      simp only [kept?, own, within, and_self, if_true]
      rw [PageFile.page_store size (PageFile.offset_le last)]
    | counters _ within => simp [kept?, within]
  · intro other same distinct
    have no := apart other same distinct
    cases rewritten with
    | heap medium _ positive size last =>
      have within := PageFile.lt_pages_store_iff size positive last other.no
      simp only [no, false_or] at within
      simp only [kept?, medium, within, PageFile.page_store_of_ne (Nat.le_of_eq size) last no]
    | counters medium =>
      have no : page.no.toNat ≠ other.no.toNat := mt UInt32.toNat_inj.mp no.symm
      simp only [kept?, medium, Array.getElem?_setIfInBounds_ne no]

/-- A `write` of `bytes` that succeeds has `Put` them into the store. -/
theorem put_write (eq : store.write page bytes = (.ok (), grown)) :
  store.Put grown page bytes
  := by
  cases Writing.of_write eq with
  | stored rewritten =>
    obtain ⟨table, kept, others⟩ := rewritten.put
    exact ⟨table, kept, others⟩

end Store

/-! ### Pools -/

namespace Pool

variable {pool middle after : Pool} {page other : PageId} {bytes : Bytes}

/-- What is kept of `page` in its table's store. -/
def kept? (pool : Pool) (page : PageId) : Option Bytes :=
  (pool.catalog.get? page.table).bind fun no => (pool.store no).kept? page

/-- `pool.kept? page` is `pool.stored page`, if every store is `Numbered` and its pages fit a
buffer. -/
theorem kept?_eq_stored (numbered : ∀ no, (pool.store no).Numbered)
    (short : ∀ no file, (pool.store no).medium = .heap file → file.pageSize ≤ maxLength)
    (page : PageId) :
  pool.kept? page = pool.stored page
  := by
  unfold kept? stored
  cases pool.catalog.get? page.table with
  | none => rfl
  | some no => apply Store.kept?_eq_image (numbered no) (short no)

theorem SameMedia.kept? (same : pool.SameMedia after) (page : PageId) :
  after.kept? page = pool.kept? page
  := by
  simp only [Pool.kept?, Store.kept?, same.catalog, same.table, same.medium]

/-- `kept?` depends on the catalog and the stores alone. -/
theorem kept?_congr (catalog : after.catalog = pool.catalog) (stores : after.stores = pool.stores)
    (page : PageId) :
  after.kept? page = pool.kept? page
  := by
  simp only [kept?, store, catalog, stores]

/-- After a `writeStored page bytes` that succeeds, `kept?` finds `bytes` for `page`, and the same
as before for `other` pages. -/
theorem kept?_writeStored (catalogued : pool.Catalogued)
    (eq : pool.writeStored page bytes = (.ok (), after)) (other : PageId) :
  after.kept? other = if other = page then some bytes else pool.kept? other
  := by
  unfold writeStored storeOf at eq
  cases found : pool.catalog.get? page.table with
  | none =>
    rw [found] at eq
    cases eq
  | some no =>
    simp only [found, Prod.mk.injEq] at eq
    obtain ⟨written, rfl⟩ := eq
    obtain ⟨inside, own⟩ := catalogued _ _ found
    obtain ⟨-, kept, others⟩ := Store.put_write (Prod.ext written rfl)
    have set : ∀ no', (pool.setStore no ((pool.store no).write page bytes).2).store no'
        = if no' = no then ((pool.store no).write page bytes).2 else pool.store no' := by
      intro no'
      rw [store_setStore]
      simp only [inside, and_true]
    have same : ∀ table, (pool.setStore no ((pool.store no).write page bytes).2).catalog.get? table
        = pool.catalog.get? table := fun _ => rfl
    simp only [kept?, same, set]
    by_cases here : other = page
    · rw [here, if_pos rfl, found, Option.bind_some, if_pos rfl, kept]
    · rw [if_neg here]
      cases found' : pool.catalog.get? other.table with
      | none => rfl
      | some no' =>
        simp only [Option.bind_some]
        split
        · rename_i shared
          subst shared
          have table : other.table = page.table :=
            (catalogued _ _ found').2.symm.trans own
          apply others other table here
        · rfl

/-- The writes that `pool` has made to its stores up to `after` are noted as those of `pages`. -/
def NotesWrites (pages : List PageId) (pool after : Pool) : Prop :=
  ∀ no, ∃ noted, (after.store no).writes = noted ++ (pool.store no).writes
    ∧ ∀ access ∈ noted, ∃ page ∈ pages,
      access.no = page.no ∧ pool.catalog.get? page.table = some no

theorem NotesWrites.refl (pool : Pool) :
  NotesWrites [] pool pool
  := fun _ => ⟨[], rfl, nofun⟩

theorem NotesWrites.trans {pages later : List PageId} (first : NotesWrites pages pool middle)
    (second : NotesWrites later middle after) (catalog : middle.catalog = pool.catalog) :
  NotesWrites (pages ++ later) pool after
  := by
  intro no
  obtain ⟨noted, eq, own⟩ := first no
  obtain ⟨noted', eq', own'⟩ := second no
  use noted' ++ noted
  constructor
  · rw [eq', eq, List.append_assoc]
  · intro access member
    rcases List.mem_append.mp member with new | old
    · obtain ⟨page, listed, same, kept⟩ := own' access new
      exact ⟨page, List.mem_append_right _ listed, same, catalog ▸ kept⟩
    · obtain ⟨page, listed, same, kept⟩ := own access old
      exact ⟨page, List.mem_append_left _ listed, same, kept⟩

/-- `pool.writeStored page bytes` notes a write of `page` and no other, in the store of its table
alone. -/
theorem notesWrites_writeStored (pool : Pool) (page : PageId) (bytes : Bytes) :
  NotesWrites [page] pool (pool.writeStored page bytes).2
  := by
  unfold writeStored storeOf
  cases found : pool.catalog.get? page.table with
  | none => exact fun _ => ⟨[], rfl, nofun⟩
  | some no =>
    intro other
    dsimp only
    rw [store_setStore]
    split
    · rename_i here
      obtain ⟨failed, noted⟩ := (pool.store no).writes_write page bytes
      refine ⟨[⟨page.no, true, failed⟩], ?_, ?_⟩
      · rw [noted, here.1]
        rfl
      · intro access member
        obtain rfl := List.mem_singleton.mp member
        exact ⟨page, List.mem_singleton_self _, rfl, here.1 ▸ found⟩
    · exact ⟨[], rfl, nofun⟩

end Pool

end StorageEngine

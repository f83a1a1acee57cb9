import StorageEngine.Fault
import StorageEngine.Identifier

/-!
# Caches

A cache keeps a frame for each of at most `capacity` pages, in the order of their last access,
the least recent first.  A frame says which copy of the page it holds and whether that copy has
changes that are not stored yet; such a frame is never given up to make room.  The main
statements say what putting, removing and marking a page change (`frame?_put`, `frame?_remove`,
`frame?_setDirty`).
-/

namespace StorageEngine

/-- The number of a copy of a page in memory.  Copies with different numbers are different
copies, also of the same page. -/
abbrev CopyNo := Nat

/-- The place of a page in a cache. -/
structure Frame where
  page : PageId
  copy : CopyNo
  dirty : Bool
  deriving DecidableEq

/-- The frames of the cached pages, the least recently accessed first. -/
structure Cache where
  capacity : Nat
  frames : List Frame
  deriving DecidableEq

namespace Cache

/-- The greatest capacity for which the index of a cache can be laid out: an index has a power of
two of entries of 17 bytes each, of which seven in eight may be taken, and is a buffer. -/
def maxCapacity : Nat := 252201579132747776

/-- The cache without pages. -/
def empty (capacity : Nat) : Except Fault Cache :=
  if capacity ≤ maxCapacity then .ok ⟨capacity, []⟩ else .error .tooLong

/-- The frame of a page. -/
def frame? (cache : Cache) (page : PageId) : Option Frame :=
  cache.frames.find? fun frame => frame.page = page

/-- Whether a page is cached. -/
def contains (cache : Cache) (page : PageId) : Bool := (cache.frame? page).isSome

/-- The number of cached pages. -/
def size (cache : Cache) : Nat := cache.frames.length

/-- Whether another page needs room to be made. -/
def isFull (cache : Cache) : Bool := cache.capacity ≤ cache.size

/-- The cache without a page. -/
def remove (cache : Cache) (page : PageId) : Cache :=
  { cache with frames := cache.frames.filter fun frame => frame.page ≠ page }

/-- The cache with a frame for a page, in place of the one before.  The page counts as just
accessed. -/
def put (cache : Cache) (frame : Frame) : Cache :=
  let rest := cache.remove frame.page
  { rest with frames := rest.frames ++ [frame] }

/-- The copy of a cached page, and the cache with the page just accessed. -/
def access? (cache : Cache) (page : PageId) : Option (CopyNo × Cache) :=
  (cache.frame? page).map fun frame => (frame.copy, cache.put frame)

/-- The cache with a page noted as dirty or clean, in its place. -/
def setDirty (cache : Cache) (page : PageId) (dirty : Bool) : Cache :=
  { cache with
    frames := cache.frames.map fun frame =>
      if frame.page = page then { frame with dirty } else frame }

/-- The least recently accessed page that is clean. -/
def victim? (cache : Cache) : Option PageId :=
  (cache.frames.find? fun frame => !frame.dirty).map Frame.page

/-- The cache with room for one more page, if there is any or can be made. -/
def makeRoom? (cache : Cache) : Option Cache :=
  if cache.isFull then cache.victim?.map cache.remove else some cache

/-! ## What a cache holds -/

/-- Removing a page takes its frame and no other. -/
theorem frame?_remove (cache : Cache) (page other : PageId) :
  (cache.remove page).frame? other = if other = page then none else cache.frame? other
  := by
  simp only [frame?, remove, List.find?_filter]
  by_cases h : other = page
  · subst h
    simp
  · rw [if_neg h]
    congr 1
    funext frame
    by_cases g : frame.page = other <;> simp [g, h]

/-- Putting a frame replaces the frame of its page and no other. -/
theorem frame?_put (cache : Cache) (frame : Frame) (page : PageId) :
  (cache.put frame).frame? page = if page = frame.page then some frame else cache.frame? page
  := by
  have without := frame?_remove cache frame.page page
  by_cases h : page = frame.page
  · simp only [h, if_true, frame?] at without
    simp [put, frame?, List.find?_append, h, without]
  · simp only [h, if_false, frame?] at without
    simp [put, frame?, List.find?_append, h, without, Ne.symm h]

/-- Noting a page as dirty or clean changes its frame and no other. -/
theorem frame?_setDirty (cache : Cache) (page other : PageId) (dirty : Bool) :
  (cache.setDirty page dirty).frame? other
    = if other = page then (cache.frame? page).map fun frame => { frame with dirty }
      else cache.frame? other
  := by
  simp only [frame?, setDirty]
  induction cache.frames with
  | nil => simp
  | cons frame frames ih =>
    by_cases h : frame.page = page
    · by_cases g : other = page
      · simp [h, g]
      · simp [h, g, Ne.symm g] at ih ⊢
        exact ih
    · by_cases g : frame.page = other
      · have g' : other ≠ page := fun e => h (g.trans e)
        simp [g, g']
      · by_cases e : other = page
        · simp [h, e] at ih ⊢
          exact ih
        · simp [h, g, e] at ih ⊢
          exact ih

/-- Noting a page as dirty or clean keeps the order of the pages. -/
theorem pages_setDirty (cache : Cache) (page : PageId) (dirty : Bool) :
  (cache.setDirty page dirty).frames.map Frame.page = cache.frames.map Frame.page
  := by
  simp only [setDirty, List.map_map]
  apply List.map_congr_left
  intro frame _
  simp only [Function.comp]
  split <;> rfl

end Cache

end StorageEngine

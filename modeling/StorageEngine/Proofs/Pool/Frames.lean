import Mathlib.Tactic.Common
import StorageEngine.Cache

/-!
# Frames of a cache

A cache has one frame for a page at most (`Cache.Distinct`), so its frames are what the look-up of
pages finds (`Cache.mem_frames_iff`).  Where room is made, a clean frame goes and the others stay
(`Cache.makeRoom?_spec`).  What changes the frame of one page leaves the others where they are
(`Cache.SameBut`).
-/

namespace StorageEngine.Cache

variable {cache room : Cache} {page other : PageId} {frame : Frame}

/-- Whether every page has one frame in `cache` at most. -/
def Distinct (cache : Cache) : Prop := (cache.frames.map Frame.page).Nodup

/-- The frame that is found for a page is one of that page. -/
theorem page_of_frame? (found : cache.frame? page = some frame) :
  frame.page = page
  := by
  simpa using List.find?_some found

theorem mem_of_frame? (found : cache.frame? page = some frame) :
  frame ∈ cache.frames
  := List.mem_of_find?_eq_some found

/-- In a `Distinct` cache, `frame` is listed exactly if `frame?` finds it for its page. -/
theorem mem_frames_iff (distinct : cache.Distinct) :
  frame ∈ cache.frames ↔ cache.frame? frame.page = some frame
  := by
  constructor
  · obtain ⟨capacity, frames⟩ := cache
    simp only [Distinct, frame?] at distinct ⊢
    induction frames with
    | nil => simp
    | cons first frames ih =>
      rw [List.map_cons, List.nodup_cons] at distinct
      rintro (_ | ⟨_, member⟩)
      · simp
      · have apart : first.page ≠ frame.page := by
          intro equal
          apply distinct.1
          rw [equal]
          apply List.mem_map_of_mem member
        rw [List.find?_cons_of_neg (by simpa using apart)]
        apply ih distinct.2 member
  · apply mem_of_frame?

theorem distinct_remove (distinct : cache.Distinct) (page : PageId) :
  (cache.remove page).Distinct
  := distinct.sublist (List.filter_sublist.map _)

theorem distinct_put (distinct : cache.Distinct) (frame : Frame) :
  (cache.put frame).Distinct
  := by
  have rest : (cache.remove frame.page).Distinct := distinct_remove distinct frame.page
  simp only [Distinct, put, List.map_append, List.map_cons, List.map_nil]
  apply List.nodup_append.mpr ⟨rest, by simp, ?_⟩
  rintro page member other new rfl
  obtain rfl : page = frame.page := by simpa using new
  obtain ⟨_, ⟨_, apart⟩, same⟩ := by simpa [remove] using member
  apply apart same

theorem distinct_setDirty (distinct : cache.Distinct) (page : PageId) (dirty : Bool) :
  (cache.setDirty page dirty).Distinct
  := by
  rw [Distinct, pages_setDirty]
  apply distinct

/-- `room` that is made is `Distinct`, has no frames but those of `cache`, and has all of its dirty
frames. -/
theorem makeRoom?_spec (distinct : cache.Distinct) (made : cache.makeRoom? = some room) :
  room.Distinct
    ∧ (∀ page frame, room.frame? page = some frame → cache.frame? page = some frame)
    ∧ ∀ page frame, cache.frame? page = some frame → frame.dirty = true →
        room.frame? page = some frame
  := by
  unfold makeRoom? at made
  split at made
  · obtain ⟨victim, chosen, rfl⟩ := Option.map_eq_some_iff.mp made
    obtain ⟨clean, first, rfl⟩ := Option.map_eq_some_iff.mp chosen
    have found := (mem_frames_iff distinct).mp (List.mem_of_find?_eq_some first)
    refine ⟨distinct_remove distinct _, ?_, ?_⟩
    · intro page frame stays
      rw [frame?_remove] at stays
      split at stays
      · cases stays
      · apply stays
    · intro page frame stays dirty
      rw [frame?_remove, if_neg, stays]
      rintro rfl
      have same := found.symm.trans stays
      have unchanged := List.find?_some first
      simp_all
  · cases made
    exact ⟨distinct, fun _ _ found => found, fun _ _ found _ => found⟩

/-! ### Sizes -/

theorem size_remove_le (cache : Cache) (page : PageId) :
  (cache.remove page).size ≤ cache.size
  := List.length_filter_le ..

/-- `cache.remove page` is smaller than `cache` if `page` is cached. -/
theorem size_remove_lt (found : (cache.frame? page).isSome) :
  (cache.remove page).size < cache.size
  := by
  obtain ⟨frame, found⟩ := Option.isSome_iff_exists.mp found
  apply List.length_filter_lt_length_iff_exists.mpr
  use frame, mem_of_frame? found
  simpa using page_of_frame? found

/-- `cache.put frame` is no larger than `cache` if the page of `frame` is cached. -/
theorem size_put_le (found : (cache.frame? frame.page).isSome) :
  (cache.put frame).size ≤ cache.size
  := by
  have smaller := size_remove_lt found
  simp only [size, put, List.length_append, List.length_singleton] at smaller ⊢
  omega

/-- `cache.put frame` is larger than `cache` by one at most. -/
theorem size_put_le_succ (cache : Cache) (frame : Frame) :
  (cache.put frame).size ≤ cache.size + 1
  := by
  have rest := size_remove_le cache frame.page
  simp only [size, put, List.length_append, List.length_singleton] at rest ⊢
  omega

@[simp]
theorem size_setDirty (cache : Cache) (page : PageId) (dirty : Bool) :
  (cache.setDirty page dirty).size = cache.size
  := List.length_map ..

/-! ### Changes of one frame -/

/-- Whether no more than the frame of `page` has changed from `cache` to `after`, and nothing is
wrong with the cache for it. -/
structure SameBut (page : PageId) (cache after : Cache) : Prop where
  capacity : after.capacity = cache.capacity
  bounded : cache.size ≤ cache.capacity → after.size ≤ after.capacity
  distinct : cache.Distinct → after.Distinct
  frame : ∀ other, other ≠ page → after.frame? other = cache.frame? other

/-- A frame is put into a cache that has one for its page or has room for another. -/
theorem sameBut_put (cache : Cache) (frame : Frame)
    (roomy : (cache.frame? frame.page).isSome ∨ cache.size < cache.capacity) :
  cache.SameBut frame.page (cache.put frame)
  where
  capacity := rfl
  bounded bounded := by
    rcases roomy with found | roomy
    · apply Nat.le_trans (size_put_le found) bounded
    · apply Nat.le_trans (size_put_le_succ ..) roomy
  distinct distinct := distinct_put distinct frame
  frame other distinct := by
    rw [frame?_put, if_neg distinct]

theorem sameBut_remove (cache : Cache) (page : PageId) :
  cache.SameBut page (cache.remove page)
  where
  capacity := rfl
  bounded := Nat.le_trans (size_remove_le cache page)
  distinct distinct := distinct_remove distinct page
  frame other distinct := by
    rw [frame?_remove, if_neg distinct]

theorem sameBut_setDirty (cache : Cache) (page : PageId) (dirty : Bool) :
  cache.SameBut page (cache.setDirty page dirty)
  where
  capacity := rfl
  bounded bounded := by
    rw [size_setDirty]
    apply bounded
  distinct distinct := distinct_setDirty distinct page dirty
  frame other distinct := by
    rw [frame?_setDirty, if_neg distinct]

/-! ### Making room -/

/-- `cache.makeRoom?` finds no room exactly if `cache` is full of dirty pages. -/
theorem makeRoom?_eq_none_iff :
  cache.makeRoom? = none ↔ cache.capacity ≤ cache.size ∧ ∀ frame ∈ cache.frames, frame.dirty = true
  := by
  unfold makeRoom? isFull victim?
  by_cases full : cache.capacity ≤ cache.size
  · simp [full]
  · simp [full]

/-- `room` that is made is `cache` itself, which has room, or `cache` without the page of a clean
`frame`. -/
theorem makeRoom?_cases (distinct : cache.Distinct) (made : cache.makeRoom? = some room) :
  (cache.size < cache.capacity ∧ room = cache)
    ∨ ∃ frame, cache.frame? frame.page = some frame ∧ frame.dirty = false
      ∧ room = cache.remove frame.page
  := by
  unfold makeRoom? isFull at made
  split at made
  · right
    obtain ⟨victim, chosen, rfl⟩ := Option.map_eq_some_iff.mp made
    obtain ⟨frame, first, rfl⟩ := Option.map_eq_some_iff.mp chosen
    use frame, (mem_frames_iff distinct).mp (List.mem_of_find?_eq_some first)
    simpa using List.find?_some first
  · left
    rename_i roomy
    cases made
    simpa using roomy

end StorageEngine.Cache

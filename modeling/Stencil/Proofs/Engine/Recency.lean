import Stencil.Engine.Cache
import Stencil.Proofs.Distinct

/-!
# The sources used last

A cache of trees holds the trees of the sources that were used last, and which those are is decided
by the uses alone: they are the first so many sources when the uses are read backwards and every
source is counted once.
-/

namespace Stencil.Cache

/-- The sources whose trees are kept, the latest used one first. -/
def sources (c : Cache) : List Text := c.slots.map (·.source)

/-- The cache after uses of sources, one after the other. -/
def useAll (c : Cache) (uses : List Text) : Cache :=
  uses.foldl (fun c source => (c.use source).2) c

/-- The `count` sources that were used last, each once, the latest one first. -/
def latest (count : Nat) (uses : List Text) : List Text := uses.reverse.eraseDups.take count

/-! ### Moving to the front -/

/-- The source that is used now is the latest one, and the others keep their order. -/
theorem latest_concat (count : Nat) (uses : List Text) (source : Text) :
    latest count (uses ++ [source]) =
      (source :: uses.reverse.eraseDups.filter (· != source)).take count := by
  rw [latest, List.reverse_append, List.reverse_singleton, List.singleton_append,
    List.eraseDups_cons, filter_eraseDups]
  rfl

/-! ### What is kept -/

/-- The kept tree is that of the source that was used. -/
theorem source_use (c : Cache) (source : Text) : (c.use source).1.source = source := by
  unfold use find?
  split
  · next kept hfind => simpa using List.find?_some hfind
  · rfl

/-- A tree is kept for a source if it is found. -/
theorem find?_eq_none_iff {c : Cache} {source : Text} :
    c.find? source = none ↔ source ∉ c.sources := by
  rw [find?, List.find?_eq_none, sources, List.mem_map]
  simp only [beq_iff_eq, not_exists, not_and]

/-- A stored tree is reused exactly if the source is among those that are kept. -/
theorem use_mem_slots_iff (c : Cache) (source : Text) :
    (c.use source).1 ∈ c.slots ↔ source ∈ c.sources := by
  constructor
  · intro h
    rw [← source_use c source]
    exact List.mem_map_of_mem h
  · intro h
    cases hfind : c.find? source with
    | none => exact absurd h (find?_eq_none_iff.mp hfind)
    | some kept =>
      have hsame : (c.use source).1 = kept := by simp only [use, hfind]
      rw [hsame]
      exact List.mem_of_find?_eq_some hfind

/-- Using a source that is kept moves it to the front. -/
theorem sources_use_of_mem {c : Cache} {source : Text} (h : source ∈ c.sources) :
    (c.use source).2.sources = source :: c.sources.filter (· != source) := by
  cases hfind : c.find? source with
  | none => exact absurd h (find?_eq_none_iff.mp hfind)
  | some kept =>
    have hkept : kept.source = source := by simpa using List.find?_some hfind
    simp [use, hfind, sources, hkept, List.filter_map, Function.comp_def]

/-- Using a source that is not kept puts it in front, and the last one goes if there is no room. -/
theorem sources_use_of_not_mem {c : Cache} {source : Text} (h : source ∉ c.sources) :
    (c.use source).2.sources = (source :: c.sources).take c.capacity := by
  simp only [use, find?_eq_none_iff.mpr h, sources, List.map_take, List.map_cons]

/-- Uses do not change how much a cache may hold. -/
@[simp] theorem capacity_useAll (c : Cache) (uses : List Text) :
    (c.useAll uses).capacity = c.capacity := by
  induction uses generalizing c with
  | nil => rfl
  | cons source rest ih =>
    have hstep : (c.use source).2.capacity = c.capacity := by
      unfold use
      split <;> rfl
    rw [← hstep]
    exact ih _

/-- A cache that was empty holds the sources that were used last. -/
@[simp] theorem sources_useAll_empty (capacity : Nat) (uses : List Text) :
    ((empty capacity).useAll uses).sources = latest capacity uses := by
  induction uses using List.reverseRecOn with
  | nil => simp [useAll, empty, sources, latest]
  | append_singleton uses source ih =>
    have hcapacity := capacity_useAll (empty capacity) uses
    have hnodup : uses.reverse.eraseDups.Nodup := nodup_eraseDups _
    have hstep : (empty capacity).useAll (uses ++ [source]) =
        (((empty capacity).useAll uses).use source).2 := by
      rw [useAll, List.foldl_append]
      rfl
    rw [hstep, latest_concat]
    by_cases hmem : source ∈ ((empty capacity).useAll uses).sources
    · rw [sources_use_of_mem hmem, ih]
      rw [ih, latest] at hmem
      cases capacity with
      | zero => simp at hmem
      | succ n => rw [List.take_succ_cons, take_filter_of_mem_take hnodup hmem, latest]
    · rw [sources_use_of_not_mem hmem, hcapacity, ih]
      rw [ih, latest] at hmem
      cases capacity with
      | zero => rfl
      | succ n =>
        have hfewer : source ∉ uses.reverse.eraseDups.take n := fun h =>
          hmem (List.mem_of_mem_take (by rwa [List.take_take, Nat.min_eq_left (Nat.le_succ n)]))
        change (source :: latest (n + 1) uses).take (n + 1) = _
        rw [List.take_succ_cons, List.take_succ_cons, take_filter_of_not_mem_take hfewer, latest,
          List.take_take, Nat.min_eq_left (Nat.le_succ n)]

/-- There are as many sources used last as were used at all, but no more than asked for. -/
theorem length_latest (count : Nat) (uses : List Text) :
    (latest count uses).length = min count uses.toFinset.card := by
  rw [latest, List.length_take, length_eraseDups_reverse]

end Stencil.Cache

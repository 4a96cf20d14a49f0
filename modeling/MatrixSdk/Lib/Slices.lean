/-
Lists that are cut into slices group by group.

A group goes into the current slice as a whole, and a slice that has got more than so many
elements is full. So each slice is made of groups that follow each other, and it is only the last
one of them that takes it over the limit ([`slicesOf_eq`]).
-/
import Mathlib.Data.List.Induction

set_option autoImplicit false

namespace MatrixSdk.Lib

universe u v

variable {A : Type u} {G : Type v} {limit : ℕ} {elems : G → List A}

/-- A group goes in: the slices that are full, and the current one. -/
def fillSlice (limit : ℕ) (slices : List (List A) × List A) (group : List A) :
    List (List A) × List A :=
  let currentSlice := slices.2 ++ group
  if currentSlice.length > limit then (slices.1 ++ [currentSlice], []) else (slices.1, currentSlice)

/-- The slices of the groups. The current one is left out if it is empty. -/
def slicesOf (limit : ℕ) (groups : List (List A)) : List (List A) :=
  let slices := groups.foldl (fillSlice limit) ([], [])
  if slices.2.length = 0 then slices.1 else slices.1 ++ [slices.2]

/-- Groups that make up a slice. -/
structure IsRun (limit : ℕ) (elems : G → List A) (run : List G) : Prop where
  nonempty : run.flatMap elems ≠ []
  below : ∃ before last, run = before ++ [last] ∧ (before.flatMap elems).length ≤ limit

variable (limit elems) in
/-- What has been filled is made of runs, and the current slice is below the limit. -/
theorem foldl_fillSlice (groups : List G) :
    ∃ (runs : List (List G)) (current : List G), groups = runs.flatten ++ current ∧
      (groups.map elems).foldl (fillSlice limit) ([], []) =
        (runs.map fun run => run.flatMap elems, current.flatMap elems) ∧
      (current.flatMap elems).length ≤ limit ∧ ∀ run ∈ runs, IsRun limit elems run := by
  induction groups using List.reverseRecOn with
  | nil => exact ⟨[], [], rfl, rfl, Nat.zero_le _, fun _ h => absurd h List.not_mem_nil⟩
  | append_singleton groups group ih =>
    obtain ⟨runs, current, hgroups, hfold, hle, hruns⟩ := ih
    have hcurrent :
        (current ++ [group]).flatMap elems = current.flatMap elems ++ elems group := by
      simp
    rw [List.map_append, List.foldl_append, hfold, List.map_singleton, List.foldl_cons,
      List.foldl_nil, fillSlice]
    by_cases hfull : (current.flatMap elems ++ elems group).length > limit
    · rw [if_pos hfull]
      refine ⟨runs ++ [current ++ [group]], [], ?_, ?_, Nat.zero_le _, fun run hrun => ?_⟩
      · rw [hgroups]
        simp
      · rw [List.map_append, List.map_singleton, hcurrent, List.flatMap_nil]
      · rcases List.mem_append.1 hrun with hold | hnew
        · exact hruns run hold
        · obtain rfl := List.mem_singleton.1 hnew
          refine ⟨fun hnil => ?_, current, group, rfl, hle⟩
          rw [hcurrent] at hnil
          rw [hnil, List.length_nil] at hfull
          omega
    · rw [if_neg hfull]
      refine ⟨runs, current ++ [group], ?_, ?_, ?_, hruns⟩
      · rw [hgroups, List.append_assoc]
      · rw [hcurrent]
      · rw [hcurrent]
        omega

/-- **A slice is a run of groups**, and what comes after the last one has no elements. -/
theorem slicesOf_eq (limit : ℕ) (elems : G → List A) (groups : List G) :
    ∃ (runs : List (List G)) (rest : List G),
      groups = runs.flatten ++ rest ∧ rest.flatMap elems = [] ∧
      slicesOf limit (groups.map elems) = runs.map (fun run => run.flatMap elems) ∧
        ∀ run ∈ runs, IsRun limit elems run := by
  obtain ⟨runs, current, hgroups, hfold, hle, hruns⟩ :=
    foldl_fillSlice limit elems groups
  unfold slicesOf
  rw [hfold]
  by_cases hempty : (current.flatMap elems).length = 0
  · rw [if_pos hempty]
    exact ⟨runs, current, hgroups, List.eq_nil_of_length_eq_zero hempty, rfl, hruns⟩
  · rw [if_neg hempty]
    refine ⟨runs ++ [current], [], ?_, List.flatMap_nil, ?_, fun run hrun => ?_⟩
    · rw [hgroups]
      simp
    · rw [List.map_append, List.map_singleton]
    · rcases List.mem_append.1 hrun with hold | hnew
      · exact hruns run hold
      · obtain rfl := List.mem_singleton.1 hnew
        have hne : run.flatMap elems ≠ [] := fun hnil => hempty (by rw [hnil, List.length_nil])
        rcases List.eq_nil_or_concat run with rfl | ⟨before, last, hlast⟩
        · exact absurd List.flatMap_nil hne
        · rw [List.concat_eq_append] at hlast
          refine ⟨hne, before, last, hlast, ?_⟩
          rw [hlast, List.flatMap_append, List.length_append] at hle
          omega

/-- Nothing is lost, and nothing changes its place. -/
theorem flatten_slicesOf (limit : ℕ) (elems : G → List A) (groups : List G) :
    (slicesOf limit (groups.map elems)).flatten = groups.flatMap elems := by
  obtain ⟨runs, rest, hgroups, hrest, hslices, -⟩ := slicesOf_eq limit elems groups
  rw [hslices, hgroups, List.flatMap_append, hrest, List.append_nil, List.flatMap_def,
    List.map_flatten, List.flatten_flatten, List.map_map]
  rfl

/-- Elements of different groups may be told apart: then different slices have no group in common.
-/
theorem pairwise_slicesOf {R : A → A → Prop} {groups : List G}
    (h : groups.Pairwise fun g g' => ∀ a ∈ elems g, ∀ a' ∈ elems g', R a a') :
    (slicesOf limit (groups.map elems)).Pairwise fun slice slice' =>
      ∀ a ∈ slice, ∀ a' ∈ slice', R a a' := by
  obtain ⟨runs, rest, hgroups, -, hslices, -⟩ := slicesOf_eq limit elems groups
  rw [hgroups, List.pairwise_append] at h
  rw [hslices, List.pairwise_map]
  refine (List.pairwise_flatten.1 h.1).2.imp fun hruns a ha a' ha' => ?_
  obtain ⟨g, hg, ha⟩ := List.mem_flatMap.1 ha
  obtain ⟨g', hg', ha'⟩ := List.mem_flatMap.1 ha'
  exact hruns g hg g' hg' a ha a' ha'

/-- No slice is empty, and each one has no more than `limit` elements before its last group. -/
theorem isRun_of_mem_slicesOf {groups : List G} {slice : List A}
    (h : slice ∈ slicesOf limit (groups.map elems)) :
    ∃ run, slice = run.flatMap elems ∧ (∀ g ∈ run, g ∈ groups) ∧ IsRun limit elems run := by
  obtain ⟨runs, rest, hgroups, -, hslices, hruns⟩ := slicesOf_eq limit elems groups
  rw [hslices] at h
  obtain ⟨run, hrun, rfl⟩ := List.mem_map.1 h
  refine ⟨run, rfl, fun g hg => ?_, hruns run hrun⟩
  rw [hgroups]
  exact List.mem_append_left rest (List.mem_flatten.2 ⟨run, hrun, hg⟩)

end MatrixSdk.Lib

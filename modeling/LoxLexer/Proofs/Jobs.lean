import LoxLexer.Batch
import Mathlib.Data.List.Induction

/-!
# Jobs in any order

A slot is filled by the job with its index, however many others are done before, between or after.
So when every job has been done, the results stand in the order of the items
(`runJobs_eq_map`). A job may even be done twice.
-/

namespace LoxLexer

section Jobs
variable {α β : Type} (job : α → β) (items : List α)

/-- The slots of the jobs that were done are filled, and no others. -/
theorem getElem?_fillSlots (order : List Nat) (j : Nat) :
    (fillSlots job items order)[j]? =
      items[j]?.map fun item => if j ∈ order then some (job item) else none := by
  induction order using List.reverseRecOn with
  | nil =>
      by_cases inside : j < items.length
      · simp [fillSlots, inside]
      · simp [fillSlots, inside]
  | append_singleton order i ih =>
      have sameLength : j < (fillSlots job items order).length ↔ j < items.length := by
        simpa using congrArg (Option.isSome · = true) ih
      rw [fillSlots, List.foldl_append, ← fillSlots, List.foldl_cons, List.foldl_nil]
      by_cases same : i = j
      · subst same
        cases here : items[i]? with
        | none => simp [ih, here]
        | some item =>
            have inside := (List.getElem?_eq_some_iff.mp here).1
            simp [sameLength.mpr inside]
      · have other : j ∈ order ++ [i] ↔ j ∈ order := by simp [Ne.symm same]
        simp only [other]
        cases here : items[i]? with
        | none => exact ih
        | some item => rw [List.getElem?_set_ne same, ih]

theorem runJobs_eq_map {order : List Nat} (all : ∀ i < items.length, i ∈ order) :
    runJobs job items order = items.map job := by
  have slots : fillSlots job items order = items.map fun item => some (job item) := by
    refine List.ext_getElem? fun i => ?_
    rw [getElem?_fillSlots, List.getElem?_map]
    cases here : items[i]? with
    | none => rfl
    | some item =>
        have inside := (List.getElem?_eq_some_iff.mp here).1
        simp [all i inside]
  rw [runJobs, slots, List.filterMap_map]
  exact congrFun List.filterMap_eq_map items

end Jobs

end LoxLexer

import Mathlib.Data.Finset.Dedup
import Mathlib.Data.Finset.Card
import MergeNotes.Selection

/-! The commits of a merge request: all that is known of them is which ids there are. -/

namespace MergeNotes

variable {ids others : List String} {id : String}

namespace CommitSet

/-- An id is kept exactly when it was listed, however often. -/
theorem mem_ids_ofList : id ∈ (ofList ids).ids ↔ id ∈ ids := by
  induction ids with
  | nil => rfl
  | cons head ids ih =>
    -- The first id is either known from the others already, or comes in front of them.
    have step : (ofList (head :: ids)).ids =
        if head ∈ (ofList ids).ids then (ofList ids).ids else head :: (ofList ids).ids := rfl
    rw [step, List.mem_cons]
    by_cases known : head ∈ (ofList ids).ids
    · rw [if_pos known, ih]
      exact ⟨.inr, fun either => either.elim (fun same => same ▸ ih.1 (same ▸ known)) (·)⟩
    · rw [if_neg known, List.mem_cons, ih]

/-- There are as many commits as there are different ids. -/
theorem size_ofList (ids : List String) : (ofList ids).size = ids.toFinset.card := by
  have same : (ofList ids).ids.toFinset = ids.toFinset := by
    ext id
    rw [List.mem_toFinset, List.mem_toFinset, mem_ids_ofList]
  rw [size, ← List.toFinset_card_of_nodup (ofList ids).distinct, same]

theorem contains_ofList : (ofList ids).contains id = true ↔ id ∈ ids := by
  rw [contains, List.contains_iff_mem, mem_ids_ofList]

/-- Lists of the same ids are sets of the same size. -/
theorem size_congr (same : ∀ id, id ∈ ids ↔ id ∈ others) :
    (ofList ids).size = (ofList others).size := by
  have sets : ids.toFinset = others.toFinset := by
    ext id
    rw [List.mem_toFinset, List.mem_toFinset, same]
  rw [size_ofList, size_ofList, sets]

theorem contains_congr (same : ∀ id, id ∈ ids ↔ id ∈ others) (id : String) :
    (ofList ids).contains id = (ofList others).contains id := by
  rw [Bool.eq_iff_iff, contains_ofList, contains_ofList, same]

end CommitSet

/-- What becomes of an issue depends on the commits only by which of them there are. -/
theorem Report.decision_congr (report : Report) {commits others : CommitSet}
    (same : ∀ id, commits.contains id = others.contains id) (mergeRequest : MergeRequest) :
    report.decision commits mergeRequest = report.decision others mergeRequest := by
  funext issue
  simp only [Report.decision, same]

end MergeNotes

import Mathlib.Data.List.Sort
import RowSync.Proofs.ChangeLog
import RowSync.Reconcile

/-!
# Division of Batches

How a batch is divided by the rows that changed after the baseline. Mutations of other rows are
applied in the order of the batch (`accepted_splitBatch`). Each changed row that the batch names is
a conflict once (`mem_conflicts_iff`), in the order in which the batch first names them
(`pairwise_conflicts`).
-/

namespace RowSync

variable {changes : List Row} {batch : List Mutation} {id : RowId}

theorem isTouched_iff : isTouched changes id ↔ id ∈ changes.map Row.id := by
  simp [isTouched, List.any_eq_true]

/-- What is applied of a batch are the mutations of rows that did not change. -/
theorem accepted_splitBatch (changes : List Row) (batch : List Mutation) :
    (splitBatch changes batch).accepted =
      batch.filter fun mutation => mutation.rowId ∉ changes.map Row.id := by
  rw [splitBatch]
  refine List.filter_congr fun mutation _ => ?_
  rw [Bool.eq_iff_iff, Bool.not_eq_true', Bool.eq_false_iff, ne_eq, isTouched_iff,
    decide_eq_true_eq]

/-- The conflicts of a batch are the changed rows that it names. -/
theorem mem_conflicts_iff : id ∈ (splitBatch changes batch).conflicts ↔
    id ∈ batch.map Mutation.rowId ∧ id ∈ changes.map Row.id := by
  rw [splitBatch, List.mem_eraseDups, List.mem_filter, isTouched_iff]

/-- Leaving out repetitions keeps the order of first occurrence. -/
theorem pairwise_eraseDups_filter {α : Type} [DecidableEq α] (items : List α) (p : α → Bool) :
    (items.filter p).eraseDups.Pairwise fun a b => items.idxOf a < items.idxOf b := by
  -- Leaving out repetitions of the first item leaves a filter of the rest, hence any predicate.
  induction items generalizing p with
  | nil => exact .nil
  | cons first rest ih =>
    -- All that is left after the first item occurs one place later than in the rest.
    have hlater {q : α → Bool} (hq : q first = false) :
        (rest.filter q).eraseDups.Pairwise fun a b =>
          (first :: rest).idxOf a < (first :: rest).idxOf b := by
      refine (ih q).imp_of_mem fun {a b} ha hb hlt => ?_
      have hne {c : α} (hc : c ∈ (rest.filter q).eraseDups) : first ≠ c := by
        rintro rfl
        rw [List.mem_eraseDups, List.mem_filter, hq] at hc
        cases hc.2
      rw [List.idxOf_cons_ne _ (hne ha), List.idxOf_cons_ne _ (hne hb)]
      exact Nat.succ_lt_succ hlt
    cases hp : p first with
    | false =>
      rw [List.filter_cons_of_neg (by simp [hp])]
      exact hlater hp
    | true =>
      rw [List.filter_cons_of_pos hp, List.eraseDups_cons, List.filter_filter]
      refine List.pairwise_cons.2 ⟨fun b hb => ?_, hlater (by simp)⟩
      have hne : first ≠ b := by
        rintro rfl
        simp [List.mem_eraseDups] at hb
      rw [List.idxOf_cons_self, List.idxOf_cons_ne _ hne]
      exact Nat.succ_pos _

/-- The conflicts of a batch stand in the order in which it first names them, each once. -/
theorem pairwise_conflicts (changes : List Row) (batch : List Mutation) :
    (splitBatch changes batch).conflicts.Pairwise fun a b =>
      (batch.map Mutation.rowId).idxOf a < (batch.map Mutation.rowId).idxOf b :=
  pairwise_eraseDups_filter _ _

end RowSync

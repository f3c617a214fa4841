import JVectorBench.Python

/-!
# JVectorBench.Recall

`calculate_recall(approximate_results, ground_truth)`, over exact rationals: the number of
distinct identifiers the two lists share, divided by the length of `ground_truth`, and `0.0`
for an empty `ground_truth`.

The divisor is the list's length, not the size of its set (`calculateRecall_eq_div_length`), so
duplicates in `ground_truth` lower the score: the set reading holds exactly on duplicate-free ground truths, and
`calculate_recall(X, X) = 1` exactly when `X` is non-empty and duplicate-free
(`calculateRecall_spec`).
-/

namespace JVectorBench

/-- `calculate_recall(approximate_results, ground_truth)`. -/
def calculateRecall (approximateResults groundTruth : List String) : ℚ :=
  if groundTruth = [] then 0
  else ((approximateResults.toFinset ∩ groundTruth.toFinset).card : ℚ) / groundTruth.length

theorem card_inter_le_length (A G : List String) : (A.toFinset ∩ G.toFinset).card ≤ G.length :=
  (Finset.card_le_card Finset.inter_subset_right).trans (List.toFinset_card_le G)

/-- The recall of a list against itself is `|set(G)| / len(G)`. -/
theorem calculateRecall_self {G : List String} (hG : G ≠ []) :
    calculateRecall G G = (G.toFinset.card : ℚ) / G.length := by
  rw [calculateRecall, if_neg hG, Finset.inter_self]

theorem calculateRecall_nonneg (A G : List String) : 0 ≤ calculateRecall A G := by
  unfold calculateRecall
  split_ifs <;> positivity

theorem calculateRecall_le_one (A G : List String) : calculateRecall A G ≤ 1 := by
  unfold calculateRecall
  split_ifs
  · exact zero_le_one
  · exact div_le_one_of_le₀ (by exact_mod_cast card_inter_le_length A G) (Nat.cast_nonneg _)

/-- The score is the number of shared distinct identifiers over `len(ground_truth)`; the `0.0`
of an empty ground truth is that ratio's value in `ℚ`. -/
theorem calculateRecall_eq_div_length (A G : List String) :
    calculateRecall A G = ((A.toFinset ∩ G.toFinset).card : ℚ) / G.length := by
  unfold calculateRecall
  split_ifs with hG
  · simp [hG]
  · rfl

/-- **`calculate_recall`.** An empty ground truth scores `0`; a non-empty one scores the number
of distinct identifiers the two lists share over `len(ground_truth)`, which on a duplicate-free
ground truth is the set ratio `|set(A) ∩ set(G)| / |set(G)|`; a list scores `1` against itself
exactly when it is non-empty and duplicate-free; and every score lies in `[0, 1]`. -/
theorem calculateRecall_spec (A G : List String) :
    calculateRecall A [] = 0 ∧
    (G ≠ [] → calculateRecall A G = ((A.toFinset ∩ G.toFinset).card : ℚ) / G.length) ∧
    (G.Nodup →
      calculateRecall A G = ((A.toFinset ∩ G.toFinset).card : ℚ) / G.toFinset.card) ∧
    (calculateRecall G G = 1 ↔ G ≠ [] ∧ G.Nodup) ∧
    0 ≤ calculateRecall A G ∧ calculateRecall A G ≤ 1 := by
  refine ⟨rfl, fun _ => calculateRecall_eq_div_length A G, fun hnd => ?_, ?_,
    calculateRecall_nonneg A G, calculateRecall_le_one A G⟩
  · rw [List.toFinset_card_of_nodup hnd, calculateRecall_eq_div_length]
  · by_cases hG : G = []
    · simp [hG, calculateRecall]
    · have hlen : (0 : ℚ) < G.length := by exact_mod_cast List.length_pos.mpr hG
      rw [calculateRecall_self hG, div_eq_one_iff_eq hlen.ne', Nat.cast_inj,
        ← Multiset.toFinset_card_eq_card_iff_nodup.trans Multiset.coe_nodup]
      simp [hG]

/-- A ground truth with a duplicate identifier scores `1/2` against itself. -/
theorem calculateRecall_duplicate_self : calculateRecall ["a", "a"] ["a", "a"] = 1 / 2 := by
  rw [calculateRecall_self (List.cons_ne_nil _ _), show ["a", "a"].toFinset.card = 1 by decide]
  norm_num

end JVectorBench

import JVectorBench.Harness
import JVectorBench.KnnStats

/-!
# JVectorBench.SearchWithStats

`test_search_with_stats` with a tracker: one loop over the searches, and the recall summary it
prints after them.

* Each iteration of the loop runs search `i` on `get_query_vector(i)`, appends its recall after
  a successful search, then reads the KNN stats and prints each metric's increment
  (`searchIterations`). The loop completes with recall values `V` and increments `D` exactly
  when its recall part (`recallValues`) completes with `V` and its stats part
  (`iterationDiffs`) with `D` (`searchIterations_eq_ok_iff`): an exception in either part,
  an `IndexError` of the tracker or an `int()` of a stats value, stops both.
* The summary is `np.mean`, `np.min`, `np.max` and `np.std` of `recall_values`
  (`recallSummary`), over exact rationals. `np.std` has its default `ddof=0`: the square root of
  the mean squared deviation (`npVar`); the square root is a parameter `sqrt`, as for
  `np.linalg.norm`. Every recall the loop appends lies in `[0, 1]` (`recallValues_mem_Icc`),
  so the summary of every run does: `0 ≤ min ≤ mean ≤ max ≤ 1`, and the variance under the
  square root is at most `mean * (1 - mean)`, itself at most `1/4`
  (`recallSummary_recallValues`).
-/

namespace JVectorBench

open Heapq GroundTruthTracker

/-! ## The loop of searches -/

section Loop

variable {R : Type} [LinearOrderedField R] (t : GroundTruthTracker R)
  (search : Nat → List R → Option (List String)) (statsAfter : Nat → KnnNodes)
  (metrics : List String)

/-- The recall part of one search: `[calculate_recall(result_ids, get_ground_truth(i))]` after a
successful search, `[]` after a failed one. -/
def recallStep (i : Nat) : Except PyError (List ℚ) := do
  let queryVector ← t.getQueryVector i
  match search i queryVector with
  | some resultIds => (t.getGroundTruth i).map fun groundTruth =>
      [calculateRecall resultIds groundTruth]
  | none => pure []

/-- The loop of `test_search_with_stats` with a tracker, over the search numbers `searches`:
the recall part of search `i`, then the stats read after it (`statsAfter i`) totalled, the
`+diff` lines against `prev_totals`, and `prev_totals` set to the new totals. -/
def searchIterations (prevTotals : List (String × Int)) :
    List Nat → Except ReadError (List ℚ × List (List (String × Int)))
  | [] => .ok ([], [])
  | i :: searches => do
    let value ← (recallStep t search i).mapError .pyError
    let currentTotals ← metricTotals metrics (statsAfter i)
    let rest ← searchIterations currentTotals searches
    pure (value ++ rest.1,
      (metrics.map fun m => (m, totalOf currentTotals m - totalOf prevTotals m)) :: rest.2)

/-- The recall loop takes the recall part of one search at a time. -/
theorem recallValues_cons (i : Nat) (searches : List Nat) :
    recallValues t search (i :: searches) =
      recallStep t search i >>= fun value => (recallValues t search searches).map (value ++ ·) := by
  simp only [recallValues, recallStep, bind_assoc]
  cases t.getQueryVector i with
  | error e => rfl
  | ok queryVector =>
    simp only [ok_bind]
    cases search i queryVector with
    | none => cases recallValues t search searches <;> rfl
    | some resultIds =>
      cases t.getGroundTruth i <;> cases recallValues t search searches <;> rfl

/-- **The loop is its two parts.** The loop of `test_search_with_stats` completes with the
recall values `values` and the per-search increments `diffs` exactly when its recall part
completes with `values` and its stats part with `diffs`; an exception in either part stops
the loop, and with it the other part. -/
theorem searchIterations_eq_ok_iff :
    ∀ (searches : List Nat) (prevTotals : List (String × Int)) (values : List ℚ)
      (diffs : List (List (String × Int))),
      searchIterations t search statsAfter metrics prevTotals searches = .ok (values, diffs) ↔
        recallValues t search searches = .ok values ∧
          iterationDiffs metrics prevTotals (searches.map statsAfter) = .ok diffs
  | [], _, values, diffs => by
    simp only [searchIterations, recallValues, List.map_nil, iterationDiffs, Except.ok.injEq,
      Prod.mk.injEq]
  | i :: searches, prevTotals, values, diffs => by
    rw [searchIterations, recallValues_cons, List.map_cons, iterationDiffs]
    cases recallStep t search i with
    | error e => exact ⟨fun h => (nomatch h), fun ⟨h, _⟩ => (nomatch h)⟩
    | ok value =>
      cases metricTotals metrics (statsAfter i) with
      | error e => exact ⟨fun h => (nomatch h), fun ⟨_, h⟩ => (nomatch h)⟩
      | ok currentTotals =>
        have ih := searchIterations_eq_ok_iff searches currentTotals
        simp only [Except.mapError, ok_bind]
        cases hrest : searchIterations t search statsAfter metrics currentTotals searches with
        | error e =>
          refine ⟨fun h => (nomatch h), fun ⟨h₁, h₂⟩ => ?_⟩
          obtain ⟨a, ha, -⟩ := bind_eq_ok h₁
          obtain ⟨b, hb, -⟩ := bind_eq_ok h₂
          rw [(ih a b).mpr ⟨ha, hb⟩] at hrest
          cases hrest
        | ok rest =>
          obtain ⟨hr, hd⟩ := (ih rest.1 rest.2).mp hrest
          rw [hr, hd]
          simp only [ok_bind, map_ok, pure, Except.pure, Except.ok.injEq, Prod.mk.injEq]

end Loop

/-- `np.mean(values)`. -/
def npMean (values : List ℚ) : ℚ :=
  values.sum / values.length

/-- `np.var(values)`: the mean squared deviation from the mean (`ddof=0`). -/
def npVar (values : List ℚ) : ℚ :=
  (values.map fun x => (x - npMean values) ^ 2).sum / values.length

/-- The four lines of the recall summary. -/
structure RecallSummary where
  average : ℚ
  min : ℚ
  max : ℚ
  stdDev : ℚ
  deriving DecidableEq, Repr

/-- The recall summary of `test_search_with_stats`: printed only when it measures recall and
`recall_values` is not empty. -/
def recallSummary (sqrt : ℚ → ℚ) (measureRecall : Bool) (recallValues : List ℚ) :
    Option RecallSummary :=
  if measureRecall then
    match recallValues.min?, recallValues.max? with
    | some lo, some hi => some ⟨npMean recallValues, lo, hi, sqrt (npVar recallValues)⟩
    | _, _ => none
  else none

/-! ## Statistics of values in `[0, 1]` -/

section Bounds

variable {values : List ℚ}

theorem npMean_mul_length (h : values ≠ []) : npMean values * values.length = values.sum := by
  have : (values.length : ℚ) ≠ 0 := by exact_mod_cast (List.length_pos.mpr h).ne'
  rw [npMean, div_mul_cancel₀ _ this]

/-- The mean lies between any lower and any upper bound of the values. -/
theorem npMean_mem_Icc (h : values ≠ []) {lo hi : ℚ} (hlo : ∀ x ∈ values, lo ≤ x)
    (hhi : ∀ x ∈ values, x ≤ hi) : lo ≤ npMean values ∧ npMean values ≤ hi := by
  have hn : (0 : ℚ) < values.length := by exact_mod_cast List.length_pos.mpr h
  have hsum := npMean_mul_length h
  have h₁ := List.card_nsmul_le_sum values lo hlo
  have h₂ := List.sum_le_card_nsmul values hi hhi
  rw [nsmul_eq_mul] at h₁ h₂
  constructor <;> nlinarith

/-- The squared deviations from `c` sum to `Σ x² - 2 c Σ x + n c²`. -/
theorem sum_map_sub_sq (c : ℚ) : ∀ l : List ℚ,
    (l.map fun x => (x - c) ^ 2).sum = (l.map fun x => x ^ 2).sum - 2 * c * l.sum + l.length * c ^ 2
  | [] => by simp
  | x :: l => by
    simp only [List.map_cons, List.sum_cons, List.length_cons, sum_map_sub_sq c l]
    push_cast
    ring

/-- Values in `[0, 1]` have variance at most `m (1 - m)`, `m` their mean. -/
theorem npVar_le (h : ∀ x ∈ values, 0 ≤ x ∧ x ≤ 1) :
    0 ≤ npVar values ∧ npVar values ≤ npMean values * (1 - npMean values) := by
  by_cases hne : values = []
  · simp [hne, npVar, npMean]
  have hn : (0 : ℚ) < values.length := by exact_mod_cast List.length_pos.mpr hne
  have hsq : (values.map fun x => x ^ 2).sum ≤ (values.map id).sum :=
    List.sum_le_sum fun x hx => by
      obtain ⟨h0, h1⟩ := h x hx
      simp only [id]
      nlinarith
  have hsum := npMean_mul_length hne
  rw [List.map_id] at hsq
  refine ⟨div_nonneg (List.sum_nonneg fun y hy => ?_) hn.le, ?_⟩
  · obtain ⟨x, -, rfl⟩ := List.mem_map.mp hy
    exact sq_nonneg _
  · rw [npVar, div_le_iff₀ hn, sum_map_sub_sq, ← hsum]
    nlinarith

end Bounds

/-! ## The summary of a run -/

variable {R : Type} [LinearOrderedField R]

/-- Every value the recall loop appends is a recall, in `[0, 1]`. -/
theorem recallValues_mem_Icc (t : GroundTruthTracker R) (search : Nat → List R → Option (List String)) :
    ∀ {searches : List Nat} {values : List ℚ}, recallValues t search searches = .ok values →
      ∀ v ∈ values, 0 ≤ v ∧ v ≤ 1
  | [], _, h => by cases h; simp
  | i :: searches, values, h => by
    unfold recallValues at h
    obtain ⟨queryVector, -, h⟩ := bind_eq_ok h
    simp only at h
    split at h
    · obtain ⟨value, hvalue, h⟩ := bind_eq_ok h
      obtain ⟨rest, hrest, h⟩ := bind_eq_ok h
      cases h
      cases hg : t.getGroundTruth i <;> rw [hg] at hvalue <;> cases hvalue
      intro v hv
      rcases List.mem_append.mp hv with hv | hv
      · rw [List.mem_singleton.mp hv]
        exact ⟨calculateRecall_nonneg _ _, calculateRecall_le_one _ _⟩
      · exact recallValues_mem_Icc t search hrest v hv
    · obtain ⟨value, hvalue, h⟩ := bind_eq_ok h
      obtain ⟨rest, hrest, h⟩ := bind_eq_ok h
      cases hvalue
      cases h
      exact recallValues_mem_Icc t search hrest

/-- **The recall summary of a run.** Whatever the tracker and the searches, the recall loop's
summary is printed exactly when some search succeeded, and then `0 ≤ min ≤ mean ≤ max ≤ 1`
and the standard deviation is the square root of a variance between `0` and
`mean * (1 - mean)`, hence at most `1/4`. -/
theorem recallSummary_recallValues (sqrt : ℚ → ℚ) (t : GroundTruthTracker R)
    (search : Nat → List R → Option (List String)) (searches : List Nat) {values : List ℚ}
    (h : recallValues t search searches = .ok values) :
    (recallSummary sqrt true values = none ↔ values = []) ∧
      ∀ s, recallSummary sqrt true values = some s →
        0 ≤ s.min ∧ s.min ≤ s.average ∧ s.average ≤ s.max ∧ s.max ≤ 1 ∧
          ∃ v, s.stdDev = sqrt v ∧ 0 ≤ v ∧ v ≤ s.average * (1 - s.average) := by
  have hI := recallValues_mem_Icc t search h
  refine ⟨⟨fun hn => ?_, fun hn => by simp [recallSummary, hn]⟩, fun s hs => ?_⟩
  · by_contra hne
    obtain ⟨x, xs, rfl⟩ := List.exists_cons_of_ne_nil hne
    simp [recallSummary, List.min?_cons', List.max?_cons'] at hn
  · rw [recallSummary, if_pos rfl] at hs
    split at hs
    · rename_i lo hi hlo hhi
      cases hs
      have hne : values ≠ [] := fun h => by simp [h] at hlo
      obtain ⟨hm₁, hm₂⟩ := npMean_mem_Icc hne ((List.le_min?_iff (fun _ _ _ => le_min_iff) hlo).1 le_rfl)
        ((List.max?_le_iff (fun _ _ _ => max_le_iff) hhi).1 le_rfl)
      obtain ⟨hv₁, hv₂⟩ := npVar_le hI
      exact ⟨(hI lo (List.min?_mem min_choice hlo)).1, hm₁, hm₂, (hI hi (List.max?_mem max_choice hhi)).2,
        _, rfl, hv₁, hv₂⟩
    · cases hs

/-- Three queries with the same two-document ground truth `[a, b]`, whose searches find both,
one and none of the documents: the recalls `1`, `1/2` and `0`, and their summary. -/
theorem recallSummary_recallValues_three_searches :
    (recallSummary id true [1, 1 / 2, 0] = none ↔ ([1, 1 / 2, 0] : List ℚ) = []) ∧
      ∀ s, recallSummary id true [1, 1 / 2, 0] = some s →
        0 ≤ s.min ∧ s.min ≤ s.average ∧ s.average ≤ s.max ∧ s.max ≤ 1 ∧
          ∃ v, s.stdDev = id v ∧ 0 ≤ v ∧ v ≤ s.average * (1 - s.average) :=
  @recallSummary_recallValues ℚ _ id ⟨[[0], [1], [2]], 2, "l2",
      [[entry 1 "a", entry 2 "b"], [entry 1 "a", entry 2 "b"], [entry 1 "a", entry 2 "b"]], rfl⟩
    (fun i _ => some (if i = 0 then ["a", "b"] else if i = 1 then ["a", "x"] else ["x", "y"]))
    [0, 1, 2] [1, 1 / 2, 0] (by
      have hle : (-(-1 : ℚ)) ≤ -(-2) := by norm_num
      have hab : (["a", "b"].toFinset ∩ ["a", "b"].toFinset).card = 2 := by decide
      have hax : (["a", "x"].toFinset ∩ ["a", "b"].toFinset).card = 1 := by decide
      have hxy : (["x", "y"].toFinset ∩ ["a", "b"].toFinset).card = 0 := by decide
      simp [recallValues, getQueryVector, getGroundTruth, getItem, sortedResults, List.mergeSort,
        entry, hle, calculateRecall, hab, hax, hxy])

end JVectorBench

import JVectorBench.Metric

/-!
# JVectorBench.Dimension

What `update` does with a vector whose length is not the queries'. The code checks no
dimension; numpy decides:

* under `'l2'`, `query_vector - vector_np` broadcasts, so a vector of length `1`, or queries of
  length `1`, get a distance; otherwise the first query raises before any heap moves;
* under `'cosine'`, a zero norm on either side gives `1.0` before `np.dot` is reached, so a zero
  vector of any length gets a distance, and queries of norm zero let the loop go on: the heaps
  before the first query of positive norm take their step before `np.dot` raises.

The loop facts are proved once for any distance (`updateHeaps_raised_eq_none_iff`,
`updateHeaps_of_raised`); each metric is then a case analysis on when its distance computes.
-/

namespace JVectorBench

open Heapq GroundTruthTracker

variable {R : Type} [LinearOrderedField R]

/-! ## The loop of `update` with a distance that may raise -/

section Loop

variable {distance : List R → Except PyError R} {k : Nat} {docId : String}

/-- With `1 ≤ k` the loop completes exactly when every query's distance computes. -/
theorem updateHeaps_raised_eq_none_iff (hk : 1 ≤ k) :
    ∀ (qs : List (List R)) (hs : List (List (Entry R))), qs.length = hs.length →
      ((updateHeaps distance k docId qs hs).raised = none ↔ ∀ q ∈ qs, ∃ d, distance q = .ok d)
  | [], [], _ => by simp [updateHeaps]
  | q :: qs, h :: hs, hl => by
    have ih := updateHeaps_raised_eq_none_iff hk qs hs (by simpa using hl)
    unfold updateHeaps
    split
    · rename_i hp
      obtain ⟨d, hd, -⟩ := bind_eq_ok hp
      simp [ih, hd]
    · rename_i e hp
      simp only [List.mem_cons, forall_eq_or_imp, reduceCtorEq, false_iff, not_and]
      rintro ⟨d, hd⟩
      obtain ⟨h', hh'⟩ := @pushCandidate_isOk R _ k h d docId hk
      rw [hd, ok_bind, hh'] at hp
      cases hp
  | [], _ :: _, hl | _ :: _, [], hl => by simp at hl

/-- The first query whose distance raises stops the loop: the heaps before it have taken their
step, and its heap and those after it are left as they were. -/
theorem updateHeaps_of_raised (hk : 1 ≤ k) :
    ∀ (qs : List (List R)) (hs : List (List (Entry R))),
      (updateHeaps distance k docId qs hs).raised ≠ none →
      ∃ j q e, qs[j]? = some q ∧ distance q = .error e ∧
        (∀ q' ∈ qs.take j, ∃ d, distance q' = .ok d) ∧
        updateHeaps distance k docId qs hs =
          ⟨(updateHeaps distance k docId (qs.take j) (hs.take j)).state ++ hs.drop j, some e⟩
  | q :: qs, h :: hs, hr => by
    cases hd : distance q with
    | error e =>
      refine ⟨0, q, e, by simp, hd, by simp, ?_⟩
      simp [updateHeaps, hd]
    | ok d =>
      obtain ⟨h', hh'⟩ := @pushCandidate_isOk R _ k h d docId hk
      have hstep : updateHeaps distance k docId (q :: qs) (h :: hs) =
          ⟨h' :: (updateHeaps distance k docId qs hs).state,
            (updateHeaps distance k docId qs hs).raised⟩ := by
        rw [updateHeaps, hd, ok_bind, hh']
      rw [hstep] at hr
      obtain ⟨j, q₁, e, hq₁, he, hok, hrun⟩ := updateHeaps_of_raised hk qs hs hr
      refine ⟨j + 1, q₁, e, by simpa using hq₁, he, ?_, ?_⟩
      · simpa [hd] using hok
      · rw [hstep, hrun]
        simp only [List.take_succ_cons, List.drop_succ_cons, updateHeaps, hd, ok_bind, hh',
          List.cons_append]
  | [], _, hr | _ :: _, [], hr => absurd rfl hr

end Loop

/-! ## When each distance computes -/

theorem computeDistance_l2_isOk_iff (sqrt : R → R) (q v : List R) :
    (∃ d, computeDistance sqrt "l2" q v = .ok d) ↔
      q.length = v.length ∨ q.length = 1 ∨ v.length = 1 := by
  rw [← Numpy.sub_isOk_iff]
  simp only [computeDistance, if_true]
  cases Numpy.sub q v <;> simp [Except.map]

theorem computeDistance_cosine_isOk_iff (sqrt : R → R) (q v : List R) :
    (∃ d, computeDistance sqrt "cosine" q v = .ok d) ↔
      ¬ (0 < Numpy.norm sqrt q ∧ 0 < Numpy.norm sqrt v) ∨ q.length = v.length := by
  simp only [computeDistance, if_neg (by decide : ¬ "cosine" = "l2"), if_true]
  split_ifs with h
  · by_cases hl : q.length = v.length
    · simp [h, hl, Numpy.dot_of_length_eq hl]
    · simp [h, hl, Numpy.dot_of_length_ne hl, Except.map]
  · simp [h]

/-- Under `'l2'` the only error is numpy's broadcast `ValueError`. -/
theorem computeDistance_l2_error (sqrt : R → R) {q v : List R} {e : PyError}
    (h : computeDistance sqrt "l2" q v = .error e) :
    e = Numpy.broadcastError q.length v.length := by
  simp only [computeDistance, if_true] at h
  by_cases hb : q.length = v.length ∨ q.length = 1 ∨ v.length = 1
  · obtain ⟨c, hc⟩ := (Numpy.sub_isOk_iff q v).mpr hb
    rw [hc] at h
    cases h
  · rw [Numpy.sub_of_not_broadcast hb] at h
    cases h
    rfl

/-- Under `'cosine'` the only error is the `ValueError` of `np.dot` on unequal lengths. -/
theorem computeDistance_cosine_error (sqrt : R → R) {q v : List R} {e : PyError}
    (h : computeDistance sqrt "cosine" q v = .error e) :
    e = Numpy.alignError q.length v.length := by
  simp only [computeDistance, if_neg (by decide : ¬ "cosine" = "l2"), if_true] at h
  split_ifs at h
  · by_cases hl : q.length = v.length
    · rw [Numpy.dot_of_length_eq hl] at h
      cases h
    · rw [Numpy.dot_of_length_ne hl] at h
      cases h
      rfl

theorem computeDistance_cosine_of_not_pos (sqrt : R → R) {q : List R}
    (hq : ¬ 0 < Numpy.norm sqrt q) (v : List R) : computeDistance sqrt "cosine" q v = .ok 1 := by
  simp [computeDistance, hq]

/-! ## `update` on a vector of another length -/

section Update

variable (sqrt : R → R) (t : GroundTruthTracker R) (docId : String) (v : List R)

theorem update_raised_eq_none_iff (hk : 1 ≤ t.k) :
    (t.update sqrt docId v).raised = none ↔
      ∀ q ∈ t.queryVectors, ∃ d, computeDistance sqrt t.spaceType q v = .ok d :=
  updateHeaps_raised_eq_none_iff hk _ _ t.length_heaps.symm

theorem update_l2_of_dim (hk : 1 ≤ t.k) (D : Nat) (hD : ∀ q ∈ t.queryVectors, q.length = D)
    (hst : t.spaceType = "l2") :
    ((t.update sqrt docId v).raised = none ↔
      t.queryVectors = [] ∨ v.length = D ∨ v.length = 1 ∨ D = 1) ∧
    ((t.update sqrt docId v).raised ≠ none →
      (t.update sqrt docId v).raised = some (Numpy.broadcastError D v.length) ∧
        (t.update sqrt docId v).state.heaps = t.heaps) := by
  have hok : ∀ q ∈ t.queryVectors, (∃ d, computeDistance sqrt t.spaceType q v = .ok d) ↔
      (v.length = D ∨ v.length = 1 ∨ D = 1) := fun q hq => by
    rw [hst, computeDistance_l2_isOk_iff, hD q hq]
    omega
  constructor
  · rw [update_raised_eq_none_iff sqrt t docId v hk]
    cases hqs : t.queryVectors with
    | nil => simp
    | cons q qs =>
      rw [hqs] at hok
      exact ⟨fun h => .inr ((hok q (List.mem_cons_self q qs)).mp (h q (List.mem_cons_self q qs))),
        fun h q' hq' => (hok q' hq').mpr (h.resolve_left (List.cons_ne_nil q qs))⟩
  · intro hr
    obtain ⟨j, q, e, hq, he, hbefore, hrun⟩ := updateHeaps_of_raised hk _ _ hr
    have hbad : ¬ (v.length = D ∨ v.length = 1 ∨ D = 1) := fun hc => by
      obtain ⟨d, hd⟩ := (hok q (List.getElem?_mem hq)).mpr hc
      rw [hd] at he
      cases he
    rw [hst] at he
    refine ⟨by rw [update, updateWith_raised, hrun, computeDistance_l2_error sqrt he,
      hD q (List.getElem?_mem hq)], ?_⟩
    cases j with
    | zero => rw [update, updateWith_heaps, hrun]; simp [updateHeaps]
    | succ j =>
      obtain ⟨q₀, qs, hqs⟩ := List.exists_cons_of_ne_nil
        (fun h : t.queryVectors = [] => by simp [h] at hq)
      rw [hqs] at hok hbefore
      exact absurd ((hok q₀ (List.mem_cons_self q₀ qs)).mp (hbefore q₀ (by simp))) hbad

theorem update_cosine_of_dim (hk : 1 ≤ t.k) (D : Nat) (hD : ∀ q ∈ t.queryVectors, q.length = D)
    (hst : t.spaceType = "cosine") :
    ((t.update sqrt docId v).raised = none ↔
      (∀ q ∈ t.queryVectors, ¬ 0 < Numpy.norm sqrt q) ∨ ¬ 0 < Numpy.norm sqrt v ∨ v.length = D) ∧
    ((t.update sqrt docId v).raised ≠ none →
      (t.update sqrt docId v).raised = some (Numpy.alignError D v.length) ∧
      ∃ j q, t.queryVectors[j]? = some q ∧ 0 < Numpy.norm sqrt q ∧
        (∀ q' ∈ t.queryVectors.take j, ¬ 0 < Numpy.norm sqrt q') ∧
        (t.update sqrt docId v).state.heaps =
          (updateHeaps (fun _ => .ok 1) t.k docId (t.queryVectors.take j) (t.heaps.take j)).state ++
            t.heaps.drop j) := by
  have hok : ∀ q ∈ t.queryVectors, (∃ d, computeDistance sqrt t.spaceType q v = .ok d) ↔
      ¬ 0 < Numpy.norm sqrt q ∨ ¬ 0 < Numpy.norm sqrt v ∨ v.length = D := fun q hq => by
    rw [hst, computeDistance_cosine_isOk_iff, hD q hq, not_and_or, or_assoc, eq_comm]
  constructor
  · rw [update_raised_eq_none_iff sqrt t docId v hk]
    constructor
    · intro h
      by_cases hv : 0 < Numpy.norm sqrt v ∧ v.length ≠ D
      · exact .inl fun q hq => by simpa [hv.1, hv.2] using (hok q hq).mp (h q hq)
      · exact .inr ((not_and_or.mp hv).imp_right not_not.mp)
    · intro h q hq
      exact (hok q hq).mpr (by rcases h with h | h <;> [exact .inl (h q hq); exact .inr h])
  · intro hr
    obtain ⟨j, q, e, hq, he, hbefore, hrun⟩ := updateHeaps_of_raised hk _ _ hr
    have hbad : 0 < Numpy.norm sqrt q ∧ 0 < Numpy.norm sqrt v ∧ v.length ≠ D := by
      have : ¬ ∃ d, computeDistance sqrt t.spaceType q v = .ok d := by
        rintro ⟨d, hd⟩
        rw [hd] at he
        cases he
      rw [hok q (List.getElem?_mem hq)] at this
      simpa only [not_or, not_not] using this
    have hzero : ∀ q' ∈ t.queryVectors.take j, ¬ 0 < Numpy.norm sqrt q' := fun q' hq' => by
      exact ((hok q' (List.mem_of_mem_take hq')).mp (hbefore q' hq')).resolve_right
        (not_or.mpr ⟨not_not.mpr hbad.2.1, hbad.2.2⟩)
    rw [hst] at he
    refine ⟨by rw [update, updateWith_raised, hrun, computeDistance_cosine_error sqrt he,
      hD q (List.getElem?_mem hq)], j, q, hq, hbad.1, hzero, ?_⟩
    rw [update, updateWith_heaps, hrun, @updateHeaps_congr R _ _ (fun _ => .ok 1) t.k docId _ _
      fun q' hq' => by rw [hst]; exact computeDistance_cosine_of_not_pos sqrt (hzero q' hq') v]

/-- **A vector of another dimension.** For a tracker with `1 ≤ k` whose queries all have length
`D`: under `'l2'`, `update(doc_id, v)` completes iff there is no query or the shapes broadcast
(`len(v) = D`, `len(v) = 1` or `D = 1`); when it raises, it raises numpy's broadcast
`ValueError` for shapes `(D,)` and `(len(v),)`, and no heap has moved. Under `'cosine'`, it
completes iff every query has norm zero, `v` has norm zero, or `len(v) = D`; when it raises, it
raises the `ValueError` of `np.dot` for lengths `D` and `len(v)`, and at the first query `j` of
positive norm, the heaps before `j` have taken their step with distance `1.0` and the heaps
from `j` on are unchanged. No other error is raised: there is no dimension check of its own. -/
theorem update_dimension_mismatch (hk : 1 ≤ t.k) (D : Nat)
    (hD : ∀ q ∈ t.queryVectors, q.length = D) :
    (t.spaceType = "l2" →
      ((t.update sqrt docId v).raised = none ↔
        t.queryVectors = [] ∨ v.length = D ∨ v.length = 1 ∨ D = 1) ∧
      ((t.update sqrt docId v).raised ≠ none →
        (t.update sqrt docId v).raised = some (Numpy.broadcastError D v.length) ∧
          (t.update sqrt docId v).state.heaps = t.heaps)) ∧
    (t.spaceType = "cosine" →
      ((t.update sqrt docId v).raised = none ↔
        (∀ q ∈ t.queryVectors, ¬ 0 < Numpy.norm sqrt q) ∨ ¬ 0 < Numpy.norm sqrt v ∨
          v.length = D) ∧
      ((t.update sqrt docId v).raised ≠ none →
        (t.update sqrt docId v).raised = some (Numpy.alignError D v.length) ∧
        ∃ j q, t.queryVectors[j]? = some q ∧ 0 < Numpy.norm sqrt q ∧
          (∀ q' ∈ t.queryVectors.take j, ¬ 0 < Numpy.norm sqrt q') ∧
          (t.update sqrt docId v).state.heaps =
            (updateHeaps (fun _ => .ok 1) t.k docId (t.queryVectors.take j)
              (t.heaps.take j)).state ++ t.heaps.drop j)) :=
  ⟨update_l2_of_dim sqrt t docId v hk D hD, update_cosine_of_dim sqrt t docId v hk D hD⟩

end Update

/-- A tracker with one query `[1, 0]` and `k = 1`, fed the vector `[1, 2, 3]` of length `3`. -/
theorem update_dimension_mismatch_length_three :
    1 ≤ (init [[(1 : ℝ), 0]] 1 "l2").k ∧
    (∀ q ∈ (init [[(1 : ℝ), 0]] 1 "l2").queryVectors, q.length = 2) ∧
    ((init [[(1 : ℝ), 0]] 1 "l2").spaceType = "l2" →
      (((init [[(1 : ℝ), 0]] 1 "l2").update Real.sqrt "a" [1, 2, 3]).raised = none ↔
        (init [[(1 : ℝ), 0]] 1 "l2").queryVectors = [] ∨ [(1 : ℝ), 2, 3].length = 2 ∨
          [(1 : ℝ), 2, 3].length = 1 ∨ 2 = 1) ∧
      (((init [[(1 : ℝ), 0]] 1 "l2").update Real.sqrt "a" [1, 2, 3]).raised ≠ none →
        ((init [[(1 : ℝ), 0]] 1 "l2").update Real.sqrt "a" [1, 2, 3]).raised =
            some (Numpy.broadcastError 2 [(1 : ℝ), 2, 3].length) ∧
          ((init [[(1 : ℝ), 0]] 1 "l2").update Real.sqrt "a" [1, 2, 3]).state.heaps =
            (init [[(1 : ℝ), 0]] 1 "l2").heaps)) ∧
    ((init [[(1 : ℝ), 0]] 1 "l2").spaceType = "cosine" →
      (((init [[(1 : ℝ), 0]] 1 "l2").update Real.sqrt "a" [1, 2, 3]).raised = none ↔
        (∀ q ∈ (init [[(1 : ℝ), 0]] 1 "l2").queryVectors, ¬ 0 < Numpy.norm Real.sqrt q) ∨
          ¬ 0 < Numpy.norm Real.sqrt [(1 : ℝ), 2, 3] ∨ [(1 : ℝ), 2, 3].length = 2) ∧
      (((init [[(1 : ℝ), 0]] 1 "l2").update Real.sqrt "a" [1, 2, 3]).raised ≠ none →
        ((init [[(1 : ℝ), 0]] 1 "l2").update Real.sqrt "a" [1, 2, 3]).raised =
            some (Numpy.alignError 2 [(1 : ℝ), 2, 3].length) ∧
        ∃ j q, (init [[(1 : ℝ), 0]] 1 "l2").queryVectors[j]? = some q ∧
          0 < Numpy.norm Real.sqrt q ∧
          (∀ q' ∈ (init [[(1 : ℝ), 0]] 1 "l2").queryVectors.take j,
            ¬ 0 < Numpy.norm Real.sqrt q') ∧
          ((init [[(1 : ℝ), 0]] 1 "l2").update Real.sqrt "a" [1, 2, 3]).state.heaps =
            (updateHeaps (fun _ => .ok 1) 1 "a"
              ((init [[(1 : ℝ), 0]] 1 "l2").queryVectors.take j)
              ((init [[(1 : ℝ), 0]] 1 "l2").heaps.take j)).state ++
              (init [[(1 : ℝ), 0]] 1 "l2").heaps.drop j)) :=
  have hk : 1 ≤ (init [[(1 : ℝ), 0]] 1 "l2").k := le_rfl
  have hD : ∀ q ∈ (init [[(1 : ℝ), 0]] 1 "l2").queryVectors, q.length = 2 := by simp [init]
  ⟨hk, hD, update_dimension_mismatch Real.sqrt _ "a" [1, 2, 3] hk 2 hD⟩

/-- Under `'l2'` a vector of length `1` is broadcast against a query of length `2`, and `update`
completes; a vector of length `3` raises numpy's broadcast error. Under `'cosine'`, the call
that raises `np.dot`'s error at a query of positive norm has already pushed the vector into
the heap of the zero query before it. -/
theorem update_wrong_length_examples :
    ((init [[(0 : ℝ), 0]] 1 "l2").update Real.sqrt "a" [3]).raised = none ∧
    ((init [[(0 : ℝ), 0]] 1 "l2").update Real.sqrt "a" [1, 2, 3]).raised =
      some (Numpy.broadcastError 2 3) ∧
    ((init [[(0 : ℝ), 0], [1, 0]] 1 "cosine").update Real.sqrt "a" [1, 2, 3]).raised =
      some (Numpy.alignError 2 3) ∧
    ((init [[(0 : ℝ), 0], [1, 0]] 1 "cosine").update Real.sqrt "a" [1, 2, 3]).state.heaps =
      [[entry 1 "a"], []] := by
  have hne : ¬ ("cosine" = "l2") := by decide
  have hv : (0 : ℝ) < 1 + (2 * 2 + 3 * 3) := by norm_num
  refine ⟨?_, ?_, ?_, ?_⟩ <;>
    simp [hv, update, updateWith_raised, updateWith_heaps, updateHeaps, computeDistance, init, hne,
      Numpy.sub, Numpy.norm, Numpy.dot, pushCandidate_of_lt, heappush, siftdown]

end JVectorBench

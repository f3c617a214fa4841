import JVectorBench.TopK

/-!
# JVectorBench.Metric

The two distances `update` computes, and what they mean for the ranking.

* On vectors of one length, `computeDistance` is a plain function of the two vectors
  (`l2Distance`, `cosineDistance`), so a harness run with numpy's computation is the run with
  that function (`updateAll_computeDistance`), and every law `JVectorBench.TopK` proves for an
  abstract distance holds for the code's own `update`. What `update` does on vectors of
  another length is in `JVectorBench.Dimension`.
* By Cauchy–Schwarz (Mathlib's `Finset.sum_mul_sq_le_sq_mul_sq`) every `'cosine'` distance lies
  in `[0, 2]` (`cosineDistance_mem_Icc`). The fallback `1.0` for a zero norm is the distance of
  an orthogonal vector, the middle of that range, so a zero vector outranks an anti-correlated
  or orthogonal one (`cosine_zero_vector_kept`) and is outranked by every vector at an acute
  angle to the query (`cosine_zero_retained`).
-/

namespace JVectorBench

open Heapq GroundTruthTracker

variable {R : Type} [LinearOrderedField R]

/-- The `'l2'` distance of two vectors of one length: the norm of their difference. -/
def l2Distance (sqrt : R → R) (q v : List R) : R :=
  Numpy.norm sqrt (List.zipWith (· - ·) q v)

/-- The `'cosine'` distance of two vectors of one length: `1 - cos`, and `1.0` when a norm is
not positive. -/
def cosineDistance (sqrt : R → R) (q v : List R) : R :=
  if 0 < Numpy.norm sqrt q ∧ 0 < Numpy.norm sqrt v then
    1 - (List.zipWith (· * ·) q v).sum / (Numpy.norm sqrt q * Numpy.norm sqrt v)
  else 1

/-- The distance `update` computes under a supported `space_type`. -/
def metricDistance (sqrt : R → R) (spaceType : String) : List R → List R → R :=
  if spaceType = "l2" then l2Distance sqrt else cosineDistance sqrt

theorem computeDistance_of_length_eq (sqrt : R → R) {spaceType : String}
    (hst : spaceType = "l2" ∨ spaceType = "cosine") {q v : List R} (h : q.length = v.length) :
    computeDistance sqrt spaceType q v = .ok (metricDistance sqrt spaceType q v) := by
  rcases hst with rfl | rfl
  · simp [computeDistance, metricDistance, l2Distance, Numpy.sub_of_length_eq h]
  · simp only [computeDistance, metricDistance, cosineDistance, if_neg (by decide : ¬ "cosine" = "l2")]
    split_ifs <;> simp [Numpy.dot_of_length_eq h]

/-! ## Only the queries' distances matter -/

theorem updateHeaps_congr {dist₁ dist₂ : List R → Except PyError R} {k : Nat} {docId : String} :
    ∀ (qs : List (List R)) (hs : List (List (Entry R))), (∀ q ∈ qs, dist₁ q = dist₂ q) →
      updateHeaps dist₁ k docId qs hs = updateHeaps dist₂ k docId qs hs
  | q :: qs, h :: hs, hd => by
    simp only [updateHeaps, hd q (List.mem_cons_self q qs),
      updateHeaps_congr qs hs fun q' hq' => hd q' (List.mem_cons_of_mem q hq')]
  | [], _, _ => rfl
  | _ :: _, [], _ => rfl

/-- Two distance computations that agree on the queries and the stream's vectors give the same
run. -/
theorem updateAll_congr {D₁ D₂ : List R → List R → Except PyError R} :
    ∀ (stream : List (String × List R)) (t : GroundTruthTracker R),
      (∀ q ∈ t.queryVectors, ∀ p ∈ stream, D₁ q p.2 = D₂ q p.2) →
        t.updateAll D₁ stream = t.updateAll D₂ stream
  | [], _, _ => rfl
  | (docId, v) :: rest, t, hD => by
    have hu : updateHeaps (fun q => D₁ q v) t.k docId t.queryVectors t.heaps =
        updateHeaps (fun q => D₂ q v) t.k docId t.queryVectors t.heaps :=
      updateHeaps_congr _ _ fun q hq => hD q hq (docId, v) (List.mem_cons_self _ _)
    have hw : t.updateWith D₁ docId v = t.updateWith D₂ docId v := by
      unfold updateWith
      simp only [hu]
    simp only [updateAll, hw]
    split
    · exact updateAll_congr rest _ fun q hq p hp => hD q hq p (List.mem_cons_of_mem _ hp)
    · rfl

/-- **The code's own `update`.** Under `'l2'` or `'cosine'`, when every stream vector has its
queries' length, the harness's run with numpy's distance computation is the run with the pure
distance `metricDistance`, so every law proved for an abstract distance holds for it. -/
theorem updateAll_computeDistance (sqrt : R → R) {spaceType : String}
    (hst : spaceType = "l2" ∨ spaceType = "cosine") (t : GroundTruthTracker R)
    (stream : List (String × List R))
    (hdim : ∀ q ∈ t.queryVectors, ∀ p ∈ stream, p.2.length = q.length) :
    t.updateAll (computeDistance sqrt spaceType) stream =
      t.updateAll (fun q v => .ok (metricDistance sqrt spaceType q v)) stream :=
  updateAll_congr stream t fun q hq p hp => computeDistance_of_length_eq sqrt hst (hdim q hq p hp).symm

/-! ## The cosine range -/

/-- A `zipWith` product sum is a sum over any range that covers the shorter list, of the
products of the entries read with default `0`. -/
theorem sum_zipWith_mul_eq_sum_range : ∀ (q v : List ℝ) (N : Nat), min q.length v.length ≤ N →
    (List.zipWith (· * ·) q v).sum = ∑ i in Finset.range N, q.getD i 0 * v.getD i 0
  | [], _, _, _ => by simp
  | _ :: _, [], _, _ => by simp
  | _ :: _, _ :: _, 0, h => by simp at h
  | a :: q, b :: v, N + 1, h => by
    rw [List.zipWith_cons_cons, List.sum_cons, Finset.sum_range_succ',
      sum_zipWith_mul_eq_sum_range q v N (by simp only [List.length_cons] at h; omega)]
    simp [add_comm]

/-- Cauchy–Schwarz for the inner product `np.dot` computes, from Mathlib's
`Finset.sum_mul_sq_le_sq_mul_sq`. -/
theorem dot_sq_le (q v : List ℝ) : (List.zipWith (· * ·) q v).sum ^ 2 ≤
    (List.zipWith (· * ·) q q).sum * (List.zipWith (· * ·) v v).sum := by
  rw [sum_zipWith_mul_eq_sum_range q v (q.length + v.length) (by omega),
    sum_zipWith_mul_eq_sum_range q q (q.length + v.length) (by omega),
    sum_zipWith_mul_eq_sum_range v v (q.length + v.length) (by omega)]
  simpa only [sq] using Finset.sum_mul_sq_le_sq_mul_sq (Finset.range (q.length + v.length))
    (fun i => q.getD i 0) (fun i => v.getD i 0)

theorem norm_sq (v : List ℝ) : Numpy.norm Real.sqrt v ^ 2 = (List.zipWith (· * ·) v v).sum :=
  Real.sq_sqrt (Numpy.sum_mul_self_nonneg v)

/-- The inner product is bounded by the product of the norms. -/
theorem dot_bounds (q v : List ℝ) :
    -(Numpy.norm Real.sqrt q * Numpy.norm Real.sqrt v) ≤ (List.zipWith (· * ·) q v).sum ∧
      (List.zipWith (· * ·) q v).sum ≤ Numpy.norm Real.sqrt q * Numpy.norm Real.sqrt v := by
  refine abs_le_of_sq_le_sq' ?_ (mul_nonneg (Real.sqrt_nonneg _) (Real.sqrt_nonneg _))
  rw [mul_pow, norm_sq, norm_sq]
  exact dot_sq_le q v

/-- Every `'cosine'` distance lies in `[0, 2]`: the fallback `1.0` is its midpoint, not its
maximum. -/
theorem cosineDistance_mem_Icc (q v : List ℝ) :
    0 ≤ cosineDistance Real.sqrt q v ∧ cosineDistance Real.sqrt q v ≤ 2 := by
  unfold cosineDistance
  split_ifs with h
  · have hpos := mul_pos h.1 h.2
    obtain ⟨hlo, hhi⟩ := dot_bounds q v
    have hle : (List.zipWith (· * ·) q v).sum / (Numpy.norm Real.sqrt q * Numpy.norm Real.sqrt v) ≤ 1 :=
      (div_le_one hpos).mpr hhi
    have hge : -1 ≤ (List.zipWith (· * ·) q v).sum / (Numpy.norm Real.sqrt q * Numpy.norm Real.sqrt v) :=
      (le_div_iff₀ hpos).mpr (by linarith)
    constructor <;> linarith
  · norm_num

/-- Whatever the lengths, a `'cosine'` distance the code computes is `cosineDistance`: when both
norms are positive `np.dot` only returns on equal lengths. -/
theorem computeDistance_cosine_ok {sqrt : R → R} {q v : List R} {d : R}
    (h : computeDistance sqrt "cosine" q v = .ok d) : d = cosineDistance sqrt q v := by
  simp only [computeDistance, if_neg (by decide : ¬ "cosine" = "l2"), if_true] at h
  unfold cosineDistance
  split_ifs at h ⊢ with hpos
  · by_cases hl : q.length = v.length
    · rw [Numpy.dot_of_length_eq hl] at h
      cases h
      rfl
    · rw [Numpy.dot_of_length_ne hl] at h
      cases h
  · cases h
    rfl

/-- A vector orthogonal to the query is at `'cosine'` distance `1`, as is a zero vector. -/
theorem cosineDistance_of_dot_eq_zero (sqrt : R → R) {q v : List R}
    (h : (List.zipWith (· * ·) q v).sum = 0) : cosineDistance sqrt q v = 1 := by
  unfold cosineDistance
  split_ifs <;> simp [h]

/-- With `k = 1` and the query `[1, 0]`, a zero vector arriving first is kept against any vector
of length `2` at `'cosine'` distance at least `1`. -/
theorem zero_kept_of_one_le {v : List ℝ} (hlen : v.length = 2)
    (hv : 1 ≤ cosineDistance Real.sqrt [1, 0] v) :
    ∃ t, (init [[(1 : ℝ), 0]] 1 "cosine").updateAll (computeDistance Real.sqrt "cosine")
        [("z", [0, 0]), ("v", v)] = ⟨t, none⟩ ∧ t.getGroundTruth 0 = .ok ["z"] := by
  have h1 : cosineDistance Real.sqrt [1, 0] [0, 0] = 1 := by simp [cosineDistance, Numpy.norm]
  have hpush : pushCandidate 1 [entry (1 : ℝ) "z"] (cosineDistance Real.sqrt [1, 0] v) "v" =
      .ok [entry 1 "z"] := by
    rw [@pushCandidate_cons_of_le ℝ _ 1 _ "v" (entry 1 "z") [] le_rfl, dist_entry,
      if_neg (not_lt.mpr hv)]
  rw [updateAll_computeDistance Real.sqrt (.inr rfl) _ _ (by simp [init, hlen])]
  obtain ⟨t, hrun, hgt⟩ := getGroundTruth_of_feedHeap (metricDistance Real.sqrt "cosine")
    [[(1 : ℝ), 0]] 1 le_rfl "cosine" [("z", [0, 0]), ("v", v)] 0 [1, 0] rfl [entry 1 "z"]
    (by simp [candidates, metricDistance, h1, feedHeap, pushCandidate_of_lt, heappush,
      siftdown, hpush])
  exact ⟨t, hrun, by simpa [sortedResults, entry] using hgt⟩

/-- An anti-correlated vector is at distance `2` and an orthogonal one at distance `1`: with
`k = 1` a zero vector arriving first is kept against either, and the nonzero one discarded. -/
theorem cosine_zero_vector_kept :
    cosineDistance Real.sqrt [1, 0] [-1, 0] = 2 ∧
    (∃ t, (init [[(1 : ℝ), 0]] 1 "cosine").updateAll (computeDistance Real.sqrt "cosine")
        [("z", [0, 0]), ("v", [-1, 0])] = ⟨t, none⟩ ∧ t.getGroundTruth 0 = .ok ["z"]) ∧
    cosineDistance Real.sqrt [1, 0] [0, 1] = 1 ∧
    ∃ t, (init [[(1 : ℝ), 0]] 1 "cosine").updateAll (computeDistance Real.sqrt "cosine")
        [("z", [0, 0]), ("v", [0, 1])] = ⟨t, none⟩ ∧ t.getGroundTruth 0 = .ok ["z"] := by
  have h2 : cosineDistance Real.sqrt [1, 0] [-1, 0] = 2 := by norm_num [cosineDistance, Numpy.norm]
  have h1 : cosineDistance Real.sqrt [1, 0] [0, 1] = 1 := cosineDistance_of_dot_eq_zero _ (by simp)
  exact ⟨h2, zero_kept_of_one_le rfl (by rw [h2]; norm_num), h1, zero_kept_of_one_le rfl h1.ge⟩

/-- **The zero-norm fallback is the orthogonal distance.** Under `'cosine'`, over exact real
arithmetic, every distance the code computes lies in `[0, 2]`, and a vector orthogonal to the
query is at distance `1`, the fallback for a zero norm. So, with `1 ≤ k`, a query `q` of
positive norm and stream vectors of the queries' length: if the candidate of a zero-norm vector
`z` is retained in `q`'s heap while the candidate of a vector `v` of positive norm is
discarded, then `⟪q, v⟫ ≤ 0`. -/
theorem cosine_zero_retained (queryVectors : List (List ℝ)) (k : Nat) (hk : 1 ≤ k)
    (stream : List (String × List ℝ))
    (hdim : ∀ q ∈ queryVectors, ∀ p ∈ stream, p.2.length = q.length) (i : Nat) (q : List ℝ)
    (hq : queryVectors[i]? = some q) (hq0 : 0 < Numpy.norm Real.sqrt q) :
    (∀ x y : List ℝ, ∀ d, computeDistance Real.sqrt "cosine" x y = .ok d → 0 ≤ d ∧ d ≤ 2) ∧
    (∀ x y : List ℝ, ∀ d, computeDistance Real.sqrt "cosine" x y = .ok d →
      (List.zipWith (· * ·) x y).sum = 0 → d = 1) ∧
    ∃ t, (init queryVectors k "cosine").updateAll (computeDistance Real.sqrt "cosine") stream =
        ⟨t, none⟩ ∧
      ∃ heap, t.heaps[i]? = some heap ∧
        ∀ z ∈ stream, Numpy.norm Real.sqrt z.2 = 0 →
          entry (cosineDistance Real.sqrt q z.2) z.1 ∈ heap →
          ∀ p ∈ stream, 0 < Numpy.norm Real.sqrt p.2 →
            entry (cosineDistance Real.sqrt q p.2) p.1 ∉ heap →
            (List.zipWith (· * ·) q p.2).sum ≤ 0 := by
  refine ⟨fun x y d h => computeDistance_cosine_ok h ▸ cosineDistance_mem_Icc x y,
    fun x y d h h0 => (computeDistance_cosine_ok h).trans (cosineDistance_of_dot_eq_zero _ h0), ?_⟩
  rw [updateAll_computeDistance Real.sqrt (.inr rfl) _ stream hdim]
  obtain ⟨t, hrun, hall⟩ := updateAll_tracksTopK (metricDistance Real.sqrt "cosine") queryVectors k
    hk "cosine" stream
  obtain ⟨heap, hheap, -, htop⟩ := hall i q hq
  have hmd : metricDistance Real.sqrt "cosine" = cosineDistance Real.sqrt := if_neg (by decide)
  rw [hmd] at htop
  refine ⟨t, hrun, heap, hheap, fun z _ hz0 hz p hp hp0 hpnot => ?_⟩
  have hle := htop.dist_le_of_not_mem hz (List.mem_map_of_mem _ hp) hpnot
  simp only [dist_entry, cosineDistance, hz0, lt_irrefl, and_false, if_false, hq0, hp0, and_self,
    if_true] at hle
  have hpos := mul_pos hq0 hp0
  by_contra hdot
  linarith [div_pos (lt_of_not_le hdot) hpos]

/-- The anti-correlated run: a query `[1, 0]` of positive norm, `k = 1`, and the stream of a
zero vector and `[-1, 0]`. -/
theorem cosine_zero_retained_anticorrelated :
    0 < Numpy.norm Real.sqrt [(1 : ℝ), 0] ∧
    (∀ x y : List ℝ, ∀ d, computeDistance Real.sqrt "cosine" x y = .ok d → 0 ≤ d ∧ d ≤ 2) ∧
    (∀ x y : List ℝ, ∀ d, computeDistance Real.sqrt "cosine" x y = .ok d →
      (List.zipWith (· * ·) x y).sum = 0 → d = 1) ∧
    ∃ t, (init [[(1 : ℝ), 0]] 1 "cosine").updateAll (computeDistance Real.sqrt "cosine")
        [("z", [0, 0]), ("v", [-1, 0])] = ⟨t, none⟩ ∧
      ∃ heap, t.heaps[0]? = some heap ∧
        ∀ z ∈ [("z", [(0 : ℝ), 0]), ("v", [-1, 0])], Numpy.norm Real.sqrt z.2 = 0 →
          entry (cosineDistance Real.sqrt [1, 0] z.2) z.1 ∈ heap →
          ∀ p ∈ [("z", [(0 : ℝ), 0]), ("v", [-1, 0])], 0 < Numpy.norm Real.sqrt p.2 →
            entry (cosineDistance Real.sqrt [1, 0] p.2) p.1 ∉ heap →
            (List.zipWith (· * ·) [1, 0] p.2).sum ≤ 0 :=
  have h : 0 < Numpy.norm Real.sqrt [(1 : ℝ), 0] := by norm_num [Numpy.norm]
  ⟨h, cosine_zero_retained [[1, 0]] 1 le_rfl _ (by simp) 0 [1, 0] rfl h⟩

end JVectorBench

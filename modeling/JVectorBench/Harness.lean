import JVectorBench.Indexing
import JVectorBench.Metric
import JVectorBench.Recall

/-!
# JVectorBench.Harness

`main()` with `--measure-recall`: it draws `num_recall_queries` query vectors, passes a
`GroundTruthTracker(query_vectors, k=10, space_type='l2')` to `index_vectors`, and then
`test_search_with_stats` compares the hits of search `i` with `get_ground_truth(i)`. The stages,
in order, each with the lemma the next one uses:

* `update?_indexVectors` (in `JVectorBench.Indexing`): with every request answered, the tracker
  is passed `(str(d), vector_d)` for `d = 0, ..., n - 1`;
* `indexVectorsTracker`: the tracker after those calls. With the vectors and the queries of one
  dimension no `update` raises, and each heap tracks a top-`k` selection by `l2Distance`
  (`indexVectorsTracker_tracksTopK`), which lists an exact `k`-nearest-neighbour answer over
  the indexed documents (`exists_docs_of_tracksTopK`, `groundTruth_indexVectors`);
* `recallValues`: the search loop raises `IndexError` exactly when it asks for more searches
  than there are queries (`recallValues_range`). `main` lowers `num_searches` to
  `num_recall_queries` (`actualNumSearches`), so its loop always completes, and each value it
  reports is the fraction of the query's distinct ground-truth identifiers that the search
  found (`mainRecall_spec`).

The search engine is outside the model: `search i q` is what `test_search` returns for search
`i` with query vector `q`, `none` when the request does not return `200`.
-/

namespace JVectorBench

open Heapq GroundTruthTracker

variable {R : Type} [LinearOrderedField R]

/-! ## `main`'s side of the measurement -/

/-- `args.num_recall_queries`, set to `args.num_searches` when it is not given. -/
def numRecallQueries (given : Option Int) (numSearches : Int) : Int :=
  given.getD numSearches

/-- `query_vectors = [np.random.uniform(-1, 1, args.dimension) for _ in
range(args.num_recall_queries)]`, the draws given as a stream `queryDraw`. -/
def recallQueryVectors (numRecallQueries : Int) (queryDraw : Nat → List R) : List (List R) :=
  (List.range numRecallQueries.toNat).map queryDraw

/-- `actual_num_searches`: `num_searches`, lowered to `num_recall_queries` when a tracker is in
use and more searches are asked for. -/
def actualNumSearches (groundTruthTracker : Bool) (numSearches numRecallQueries : Int) : Int :=
  if groundTruthTracker && decide (numSearches > numRecallQueries) then numRecallQueries
  else numSearches

/-- `ground_truth_tracker` after `index_vectors` has made the run's `update(str(doc_id), vector)`
calls, in order; an exception leaves `index_vectors` at the call that raises it. -/
def indexVectorsTracker (sqrt : R → R) (t : GroundTruthTracker R) (events : List (IndexEvent R)) :
    Outcome (GroundTruthTracker R) :=
  t.updateAll (computeDistance sqrt t.spaceType) (events.filterMap IndexEvent.update?)

/-- The recall part of the loop of `test_search_with_stats` with a tracker, over the search
numbers `searches`: search `i` runs on `get_query_vector(i)`; after a successful search,
`calculate_recall(result_ids, get_ground_truth(i))` is appended to `recall_values`. -/
def recallValues (t : GroundTruthTracker R) (search : Nat → List R → Option (List String)) :
    List Nat → Except PyError (List ℚ)
  | [] => .ok []
  | i :: searches => do
    let queryVector ← t.getQueryVector i
    let value ← match search i queryVector with
      | some resultIds => (t.getGroundTruth i).map fun groundTruth =>
          [calculateRecall resultIds groundTruth]
      | none => pure []
    let rest ← recallValues t search searches
    pure (value ++ rest)

theorem actualNumSearches_toNat_le (numSearches numRecallQueries : Int) :
    (actualNumSearches true numSearches numRecallQueries).toNat ≤ numRecallQueries.toNat := by
  unfold actualNumSearches
  split_ifs with h
  · exact le_rfl
  · simp only [Bool.true_and, decide_eq_true_eq, not_lt] at h
    omega

omit [LinearOrderedField R] in
theorem getElem?_eq_some_getD {l : List (List R)} {i : Nat} (hi : i < l.length) :
    l[i]? = some (l.getD i []) := by
  rw [List.getD_eq_getElem?_getD, List.getElem?_eq_getElem hi]
  rfl

omit [LinearOrderedField R] in
theorem getElem?_recallQueryVectors (numRecallQueries : Int) (queryDraw : Nat → List R) {i : Nat}
    (hi : i < numRecallQueries.toNat) :
    (recallQueryVectors numRecallQueries queryDraw)[i]? = some (queryDraw i) := by
  rw [recallQueryVectors, List.getElem?_map, List.getElem?_range hi]
  rfl

/-! ## The search loop -/

section Loop

variable (t : GroundTruthTracker R) (search : Nat → List R → Option (List String))

/-- One search in range: query `i`'s vector is read, and after a successful search its recall
against the identifiers of heap `i`, nearest first, comes before the rest of the loop's values. -/
theorem recallValues_cons_of_lt {i : Nat} (hi : i < t.queryVectors.length) (searches : List Nat) :
    recallValues t search (i :: searches) = (recallValues t search searches).map fun rest =>
      ((search i (t.queryVectors.getD i [])).map fun r =>
        calculateRecall r ((sortedResults (t.heaps.getD i [])).map Entry.docId)).toList ++ rest := by
  have hq : t.getQueryVector i = .ok (t.queryVectors.getD i []) :=
    getItem_of_getElem? (getElem?_eq_some_getD hi)
  have hg : t.getGroundTruth i = .ok ((sortedResults (t.heaps.getD i [])).map Entry.docId) :=
    getGroundTruth_of_getElem? (by rw [← t.length_heaps] at hi; exact getElem?_eq_some_getD hi)
  rw [recallValues, hq, ok_bind]
  cases search i (t.queryVectors.getD i []) <;> cases recallValues t search searches <;> simp [hg]

/-- With every search number in range, the loop completes with one value per successful
search. -/
theorem recallValues_of_lt :
    ∀ searches : List Nat, (∀ i ∈ searches, i < t.queryVectors.length) →
      recallValues t search searches =
        .ok (searches.filterMap fun i => (search i (t.queryVectors.getD i [])).map fun r =>
          calculateRecall r ((sortedResults (t.heaps.getD i [])).map Entry.docId))
  | [], _ => rfl
  | i :: searches, h => by
    rw [recallValues_cons_of_lt t search (h i (List.mem_cons_self i searches)),
      recallValues_of_lt searches fun j hj => h j (List.mem_cons_of_mem i hj), List.filterMap_cons]
    cases search i (t.queryVectors.getD i []) <;> rfl

end Loop

/-! ## The ground truth after `index_vectors` -/

/-- A list whose items are all images `g j` of numbers with `P j` is the image of a list of
such numbers. -/
theorem exists_eq_map_of_forall_mem {α β : Type} {g : α → β} {P : α → Prop} :
    ∀ l : List β, (∀ x ∈ l, ∃ j, P j ∧ g j = x) → ∃ L : List α, l = L.map g ∧ ∀ j ∈ L, P j
  | [], _ => ⟨[], rfl, by simp⟩
  | x :: l, h => by
    obtain ⟨j, hj, rfl⟩ := h x (List.mem_cons_self x l)
    obtain ⟨L, rfl, hL⟩ := exists_eq_map_of_forall_mem l fun y hy => h y (List.mem_cons_of_mem _ hy)
    exact ⟨j :: L, rfl, by simpa [hj] using hL⟩

/-- The documents of an exact `k`-nearest-neighbour answer: a heap tracking a top-`k` selection
of the documents `0, ..., N - 1` lists, nearest first, the identifiers of `min N k` distinct
documents `ds`, none farther than a document left out. -/
theorem exists_docs_of_tracksTopK (d : List R → List R → R) {k N : Nat} {q : List R}
    {draw : Nat → List R} {heap : List (Entry R)}
    (h : TracksTopK d k q ((List.range N).map fun j => (toString j, draw j)) heap) :
    ∃ ds : List Nat, (sortedResults heap).map Entry.docId = ds.map toString ∧
      ds.length = min N k ∧ ds.Nodup ∧ (∀ j ∈ ds, j < N) ∧
      (ds.map fun j => d q (draw j)).Sorted (· ≤ ·) ∧
      ∀ j < N, j ∉ ds → ∀ j' ∈ ds, d q (draw j') ≤ d q (draw j) := by
  set g : Nat → Entry R := fun j => entry (d q (draw j)) (toString j)
  have hg : Function.Injective g := fun a b hab =>
    natRepr_injective (by simpa [g] using congrArg Entry.docId hab)
  obtain ⟨-, htop⟩ := h
  have hcand : candidates d q ((List.range N).map fun j => (toString j, draw j)) =
      (List.range N).map g := by
    simp only [candidates, List.map_map]
    rfl
  rw [hcand] at htop
  have hmem : ∀ x ∈ sortedResults heap, ∃ j, j < N ∧ g j = x := fun x hx => by
    simpa using Multiset.mem_of_le htop.le
      (Multiset.mem_coe.mpr ((sortedResults_perm heap).subset hx))
  obtain ⟨ds, hds, hlt⟩ := exists_eq_map_of_forall_mem _ hmem
  have hperm : (ds.map g).Perm heap := hds ▸ sortedResults_perm heap
  have hnodup : (ds.map g).Nodup := hperm.nodup_iff.mpr (Multiset.coe_nodup.mp
    (Multiset.nodup_of_le htop.le (Multiset.coe_nodup.mpr ((List.nodup_range N).map hg))))
  refine ⟨ds, by rw [hds, List.map_map]; rfl, ?_, hnodup.of_map g, hlt, ?_, ?_⟩
  · rw [← List.length_map ds g, hperm.length_eq]
    simpa using htop.card_eq
  · have := sorted_mergeSort_le (heap.map Entry.dist)
    rw [← map_dist_sortedResults, hds, List.map_map] at this
    simpa [g, Function.comp_def] using this
  · intro j hj hjds j' hj'
    have hnot : g j ∉ heap := fun hj'' => hjds (by
      obtain ⟨j'', hmem'', hgj⟩ := List.mem_map.mp (hperm.mem_iff.mpr hj'')
      exact hg hgj ▸ hmem'')
    simpa [g] using htop.dist_le_of_not_mem (hperm.subset (List.mem_map_of_mem g hj'))
      (List.mem_map_of_mem g (List.mem_range.mpr hj)) hnot

/-- Such a heap gives `get_ground_truth` `min N k` distinct identifiers. -/
theorem docIds_of_tracksTopK (d : List R → List R → R) {k N : Nat} {q : List R}
    {draw : Nat → List R} {heap : List (Entry R)}
    (h : TracksTopK d k q ((List.range N).map fun j => (toString j, draw j)) heap) :
    ((sortedResults heap).map Entry.docId).length = min N k ∧
      ((sortedResults heap).map Entry.docId).toFinset.card = min N k := by
  obtain ⟨ds, hids, hlen, hnd, -⟩ := exists_docs_of_tracksTopK d h
  rw [hids, List.toFinset_card_of_nodup (hnd.map natRepr_injective), List.length_map, hlen]
  exact ⟨rfl, rfl⟩

/-- Under `'l2'`, with the queries and the vectors passed to `update` of one dimension, no
`update` raises, the queries stay, and each heap tracks a top-`k` selection by `l2Distance`. -/
theorem indexVectorsTracker_tracksTopK (sqrt : R → R) (queryVectors : List (List R)) {k : Nat}
    (hk : 1 ≤ k) (events : List (IndexEvent R)) (D : Nat) (hq : ∀ q ∈ queryVectors, q.length = D)
    (hv : ∀ p ∈ events.filterMap IndexEvent.update?, p.2.length = D) :
    ∃ t, indexVectorsTracker sqrt (init queryVectors k "l2") events = ⟨t, none⟩ ∧
      t.queryVectors = queryVectors ∧
      ∀ (i : Nat) (q : List R), queryVectors[i]? = some q →
        ∃ heap, t.heaps[i]? = some heap ∧
          TracksTopK (l2Distance sqrt) k q (events.filterMap IndexEvent.update?) heap := by
  have hl2 : metricDistance sqrt "l2" = l2Distance (R := R) sqrt := if_pos rfl
  have hrun : indexVectorsTracker sqrt (init queryVectors k "l2") events =
      (init queryVectors k "l2").updateAll (fun q v => .ok (l2Distance sqrt q v))
        (events.filterMap IndexEvent.update?) := by
    change (init queryVectors k "l2").updateAll (computeDistance sqrt "l2") _ = _
    rw [updateAll_computeDistance sqrt (.inl rfl) (init queryVectors k "l2") _
      fun q hq' p hp => by rw [hv p hp, hq q hq'], hl2]
  obtain ⟨t, ht, hall⟩ := updateAll_tracksTopK (l2Distance sqrt) queryVectors k hk "l2"
    (events.filterMap IndexEvent.update?)
  refine ⟨t, hrun.trans ht, ?_, hall⟩
  simpa [ht] using updateAll_queryVectors (fun q v => .ok (l2Distance sqrt q v))
    (events.filterMap IndexEvent.update?) (init queryVectors k "l2")

/-- **The ground truth is the exact `k`-nearest-neighbours of the index.** With `n ≥ 0`,
`b ≥ 1`, every bulk request answered, `1 ≤ k`, and the query vectors and the drawn vectors of
one dimension: the tracker that `index_vectors` updates under `'l2'` raises nothing, and for
every query `q`, `get_ground_truth(i)` returns `str(d)` for `min(n, k)` distinct documents
`d < n`, nearest first, with no indexed document left out nearer to `q` than one returned. -/
theorem groundTruth_indexVectors (sqrt : R → R) (indexName : String)
    (n b forceMergeFrequency : Int) (hn : 0 ≤ n) (hb : 1 ≤ b) (draw : Nat → List R)
    (queryVectors : List (List R)) (k : Nat) (hk : 1 ≤ k) (D : Nat)
    (hq : ∀ q ∈ queryVectors, q.length = D) (hdraw : ∀ j, (draw j).length = D) :
    ∃ events t, indexVectors indexName n b forceMergeFrequency true draw (fun _ => true) =
        .ok events ∧
      indexVectorsTracker sqrt (init queryVectors k "l2") events = ⟨t, none⟩ ∧
      ∀ (i : Nat) (q : List R), queryVectors[i]? = some q →
        ∃ ds : List Nat, t.getGroundTruth i = .ok (ds.map toString) ∧
          ds.length = min n.toNat k ∧ ds.Nodup ∧ (∀ j ∈ ds, j < n.toNat) ∧
          (ds.map fun j => l2Distance sqrt q (draw j)).Sorted (· ≤ ·) ∧
          ∀ j < n.toNat, j ∉ ds → ∀ j' ∈ ds,
            l2Distance sqrt q (draw j') ≤ l2Distance sqrt q (draw j) := by
  obtain ⟨N, rfl⟩ := Int.eq_ofNat_of_zero_le hn
  obtain ⟨B, rfl⟩ := Int.eq_ofNat_of_zero_le (by omega : 0 ≤ b)
  obtain ⟨events, hrun, hupd⟩ :=
    update?_indexVectors indexName (by omega : 1 ≤ B) forceMergeFrequency draw
  obtain ⟨t, htrack, -, hall⟩ := indexVectorsTracker_tracksTopK sqrt queryVectors hk events D hq
    (by rw [hupd]; simp [hdraw])
  refine ⟨events, t, hrun, htrack, fun i q hqi => ?_⟩
  obtain ⟨heap, hheap, htr⟩ := hall i q hqi
  rw [hupd] at htr
  obtain ⟨ds, hids, hrest⟩ := exists_docs_of_tracksTopK (l2Distance sqrt) htr
  exact ⟨ds, by rw [getGroundTruth_of_getElem? hheap, hids], by simpa using hrest⟩

theorem groundTruth_indexVectors_three_docs :
    ∃ events t, indexVectors "index" 3 2 0 true (fun j => [(j : ℝ)]) (fun _ => true) = .ok events ∧
      indexVectorsTracker Real.sqrt (init [[(0 : ℝ)]] 1 "l2") events = ⟨t, none⟩ ∧
      ∀ (i : Nat) (q : List ℝ), [[(0 : ℝ)]][i]? = some q →
        ∃ ds : List Nat, t.getGroundTruth i = .ok (ds.map toString) ∧
          ds.length = min (3 : Int).toNat 1 ∧ ds.Nodup ∧ (∀ j ∈ ds, j < (3 : Int).toNat) ∧
          (ds.map fun (j : Nat) => l2Distance Real.sqrt q [(j : ℝ)]).Sorted (· ≤ ·) ∧
          ∀ j < (3 : Int).toNat, j ∉ ds → ∀ j' ∈ ds,
            l2Distance Real.sqrt q [(j' : ℝ)] ≤ l2Distance Real.sqrt q [(j : ℝ)] :=
  groundTruth_indexVectors Real.sqrt "index" 3 2 0 (by decide) (by decide) (fun j => [(j : ℝ)])
    [[0]] 1 le_rfl 1 (by simp) fun _ => rfl

/-! ## The recall `main` reports -/

/-- **The recall `main` reports.** For every `--num-searches`, `--num-recall-queries` (given or
not), every search engine, and `n ≥ 0`, `b ≥ 1`, every bulk request answered, and query and
drawn vectors of one dimension: indexing raises nothing, the loop over `actual_num_searches`
searches completes, and `recall_values` holds one value per successful search `i`, the number of
its distinct hits among the ground truth of query `i` over `min(n, 10)`, the number of distinct
identifiers `get_ground_truth(i)` returns. -/
theorem mainRecall_spec (sqrt : R → R) (indexName : String) (n b forceMergeFrequency : Int)
    (hn : 0 ≤ n) (hb : 1 ≤ b) (D : Nat) (draw : Nat → List R) (hdraw : ∀ j, (draw j).length = D)
    (numSearches : Int) (given : Option Int) (queryDraw : Nat → List R)
    (hquery : ∀ j, (queryDraw j).length = D) (search : Nat → List R → Option (List String))
    (m : Nat) (hm : m = (actualNumSearches true numSearches (numRecallQueries given numSearches)).toNat) :
    ∃ events t, indexVectors indexName n b forceMergeFrequency true draw (fun _ => true) =
        .ok events ∧
      indexVectorsTracker sqrt
          (init (recallQueryVectors (numRecallQueries given numSearches) queryDraw) 10 "l2") events =
        ⟨t, none⟩ ∧
      recallValues t search (List.range m) =
        .ok ((List.range m).filterMap fun i => (search i (queryDraw i)).map fun r =>
          ((r.toFinset ∩ ((sortedResults (t.heaps.getD i [])).map Entry.docId).toFinset).card : ℚ) /
            min n.toNat 10) ∧
      ∀ i < m, t.getGroundTruth i = .ok ((sortedResults (t.heaps.getD i [])).map Entry.docId) ∧
        ((sortedResults (t.heaps.getD i [])).map Entry.docId).toFinset.card = min n.toNat 10 := by
  obtain ⟨N, rfl⟩ := Int.eq_ofNat_of_zero_le hn
  obtain ⟨B, rfl⟩ := Int.eq_ofNat_of_zero_le (by omega : 0 ≤ b)
  have hmq : m ≤ (numRecallQueries given numSearches).toNat := hm ▸ actualNumSearches_toNat_le _ _
  obtain ⟨events, hrun, hupd⟩ :=
    update?_indexVectors indexName (by omega : 1 ≤ B) forceMergeFrequency draw
  obtain ⟨t, htrack, htq, hall⟩ := indexVectorsTracker_tracksTopK sqrt
    (recallQueryVectors (numRecallQueries given numSearches) queryDraw) (by decide : 1 ≤ 10)
    events D (by simp [recallQueryVectors, hquery]) (by rw [hupd]; simp [hdraw])
  -- search `i < m` runs on query `i`, whose ground truth is `min N 10` distinct identifiers
  have hgt : ∀ i < m, t.queryVectors.getD i [] = queryDraw i ∧
      t.getGroundTruth i = .ok ((sortedResults (t.heaps.getD i [])).map Entry.docId) ∧
      ((sortedResults (t.heaps.getD i [])).map Entry.docId).length = min N 10 ∧
      ((sortedResults (t.heaps.getD i [])).map Entry.docId).toFinset.card = min N 10 := by
    intro i hi
    have hqi := getElem?_recallQueryVectors (numRecallQueries given numSearches) queryDraw
      (show i < _ by omega)
    obtain ⟨heap, hheap, htr⟩ := hall i _ hqi
    rw [hupd] at htr
    rw [List.getD_eq_getElem?_getD t.heaps, hheap, Option.getD_some]
    exact ⟨by rw [htq, List.getD_eq_getElem?_getD, hqi]; rfl, getGroundTruth_of_getElem? hheap,
      docIds_of_tracksTopK _ htr⟩
  refine ⟨events, t, by simpa using hrun, htrack, ?_, fun i hi =>
    ⟨(hgt i hi).2.1, by rw [Int.toNat_ofNat]; exact (hgt i hi).2.2.2⟩⟩
  rw [recallValues_of_lt t search _ fun i hi => by
    simp only [htq, recallQueryVectors, List.length_map, List.length_range]
    exact lt_of_lt_of_le (List.mem_range.mp hi) hmq]
  congr 1
  refine List.filterMap_congr fun i hi => ?_
  obtain ⟨hq, -, hlen, -⟩ := hgt i (List.mem_range.mp hi)
  rw [hq]
  cases search i (queryDraw i) with
  | none => rfl
  | some r =>
    simp only [Option.map_some', calculateRecall_eq_div_length, hlen, Nat.cast_min, Nat.cast_ofNat,
      Int.toNat_ofNat]

theorem mainRecall_spec_three_of_five :
    ∃ events t, indexVectors "index" 3 2 0 true (fun j => [(j : ℝ)]) (fun _ => true) = .ok events ∧
      indexVectorsTracker Real.sqrt
          (init (recallQueryVectors (numRecallQueries (some 3) 5) fun _ => [(0 : ℝ)]) 10 "l2")
          events = ⟨t, none⟩ ∧
      recallValues t (fun _ _ => some ["0"]) (List.range 3) =
        .ok ((List.range 3).filterMap fun i => (some ["0"]).map fun r =>
          ((r.toFinset ∩ ((sortedResults (t.heaps.getD i [])).map Entry.docId).toFinset).card : ℚ) /
            min (3 : Int).toNat 10) ∧
      ∀ i : Nat, i < 3 →
        t.getGroundTruth i = .ok ((sortedResults (t.heaps.getD i [])).map Entry.docId) ∧
        ((sortedResults (t.heaps.getD i [])).map Entry.docId).toFinset.card = min (3 : Int).toNat 10 :=
  mainRecall_spec Real.sqrt "index" 3 2 0 (by decide) (by decide) 1 (fun j => [(j : ℝ)])
    (fun _ => rfl) 5 (some 3) (fun _ => [0]) (fun _ => rfl) (fun _ _ => some ["0"]) 3 (by decide)

end JVectorBench

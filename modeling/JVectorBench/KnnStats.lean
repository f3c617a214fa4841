import JVectorBench.MergeLog

/-!
# JVectorBench.KnnStats

The KNN stats the script reads from `GET _plugins/_knn/stats`: the JVector search statistics
`test_search_with_stats` reports around its searches, and the two stats `force_merge` compares
before and after a merge. Every reader takes the response's `nodes` section the same way: for
each node in order and each stat it reports, `int` of the value is added to that stat's total.

* `metricTotals` is the totals loop, written four times in `test_search_with_stats` and once in
  `print_jvector_search_stats`: a `dict` of totals in insertion order, a metric entering it at
  `0` the first time a node reports it (`addToTotal`); `totalOf` is `totals.get(metric, 0)`;
* `getKnnStatValue` is `get_knn_stat_value`, the loop for one stat, and `forceMergeResult` what
  `force_merge` returns from its two responses;
* `iterationDiffs` is the stats part of the search loop, carrying `prev_totals` from one search
  to the next, and `statsSummary` the "Total Differences" and "Average per Search" lines.

The code's dict updates compute, for each metric, the sum over the nodes of
`int(node_stats.get(metric, 0))`, and `get_knn_stat_value` the same sum (`metricTotals_spec`).
The printed totals name each metric once, exactly the metrics some node reports
(`printJvectorSearchStats_spec`, from the insertion-order step `keys_addToTotal`). The
increments printed after each search add up, metric by metric, to the growth of the totals over
the searches (`sum_iterationDiffs`), which is what the summary prints when the read after the
loop sees what the last search's read saw (`statsSummary_iterationDiffs`).
-/

namespace JVectorBench

/-- A JSON value as `response.json()` gives it (numbers with a fraction or an exponent are left
out). -/
inductive JsonValue where
  | null
  | bool (b : Bool)
  | int (n : Int)
  | str (s : String)
  | array (items : List JsonValue)
  | object (fields : List (String × JsonValue))

/-- `int(value)`. -/
def JsonValue.toInt : JsonValue → Except ReadError Int
  | .null => .error (intTypeError "NoneType")
  | .bool b => .ok (if b then 1 else 0)
  | .int n => .ok n
  | .str s => (pyInt s).mapError .pyError
  | .array _ => .error (intTypeError "list")
  | .object _ => .error (intTypeError "dict")

/-- What the readers take of a stats response: the nodes of `stats["nodes"]`, each with its id
and its stats, or `none` when `get_knn_stats` returned `None` or the response has no `nodes`
(then `stats and "nodes" in stats` is false). -/
abbrev KnnNodes := Option (List (String × List (String × JsonValue)))

/-- `jvector_metrics`. -/
def jvectorMetrics : List String :=
  ["knn_query_visited_nodes", "knn_query_expanded_nodes", "knn_query_expanded_base_layer_nodes"]

/-! ## The totals loop -/

/-- `totals.get(metric, 0)`. -/
def totalOf (totals : List (String × Int)) (metric : String) : Int :=
  ((totals.find? (·.1 == metric)).map (·.2)).getD 0

/-- `if metric not in totals: totals[metric] = 0`, then `totals[metric] += value`, on the
`dict` of totals in insertion order. -/
def addToTotal : List (String × Int) → String → Int → List (String × Int)
  | [], metric, value => [(metric, value)]
  | (key, total) :: totals, metric, value =>
    if key = metric then (key, total + value) :: totals
    else (key, total) :: addToTotal totals metric value

/-- The body of the loop over the metrics for one node: `metric` is added when the node
reports it. -/
def addStat (nodeStats : List (String × JsonValue)) (totals : List (String × Int))
    (metric : String) : Except ReadError (List (String × Int)) :=
  match dictGet nodeStats metric with
  | none => pure totals
  | some value => return addToTotal totals metric (← value.toInt)

/-- The loop over the metrics for one node. -/
def addNode (metrics : List String) (totals : List (String × Int))
    (nodeStats : List (String × JsonValue)) : Except ReadError (List (String × Int)) :=
  List.foldlM (addStat nodeStats) totals metrics

/-- The totals of one stats response: `{}` without nodes, else the loop over
`stats["nodes"].items()`. -/
def metricTotals (metrics : List String) : KnnNodes → Except ReadError (List (String × Int))
  | none => .ok []
  | some nodes => nodes.foldlM (fun totals node => addNode metrics totals node.2) []

/-- `print_jvector_search_stats(stats)`: "No KNN stats available" (`none`), or the totals it
prints, in order. -/
def printJvectorSearchStats (nodes : KnnNodes) : Except ReadError (Option (List (String × Int))) :=
  match nodes with
  | none => .ok none
  | some _ => (metricTotals jvectorMetrics nodes).map some

/-- The body of `get_knn_stat_value`'s loop: the node's value of `statName`, when it reports
it, added to `total`. -/
def addStatValue (statName : String) (total : Int) (node : String × List (String × JsonValue)) :
    Except ReadError Int :=
  match dictGet node.2 statName with
  | none => pure total
  | some value => return total + (← value.toInt)

/-- `get_knn_stat_value(stats, stat_name)`: the stat summed over the nodes that report it. -/
def getKnnStatValue (nodes : KnnNodes) (statName : String) : Except ReadError Int :=
  match nodes with
  | none => .ok 0
  | some nodes => List.foldlM (addStatValue statName) 0 nodes

/-- `force_merge`'s result from the stats before the merge, whether the merge request
succeeded, the stats after it, and `str` of the seconds it took: `False` (`none`) when the
merge request fails, else the growth of the two stats. -/
def forceMergeResult (initialStats : KnnNodes) (mergeOk : Bool) (finalStats : KnnNodes)
    (duration : String) : Except ReadError (Option MergeResult) := do
  let initialGraphMergeTime ← getKnnStatValue initialStats "knn_graph_merge_time"
  let initialQuantizationTime ← getKnnStatValue initialStats "knn_quantization_training_time"
  if !mergeOk then return none
  let finalGraphMergeTime ← getKnnStatValue finalStats "knn_graph_merge_time"
  let finalQuantizationTime ← getKnnStatValue finalStats "knn_quantization_training_time"
  return some ⟨finalGraphMergeTime - initialGraphMergeTime,
    finalQuantizationTime - initialQuantizationTime, duration⟩

/-! ## The search loop's stats -/

/-- The stats part of the search loop, over the responses read after each search: the lines
`metric: +diff` printed for the search, `prev_totals` becoming the new totals. -/
def iterationDiffs (metrics : List String) (prevTotals : List (String × Int)) :
    List KnnNodes → Except ReadError (List (List (String × Int)))
  | [] => .ok []
  | newStats :: rest => do
    let currentTotals ← metricTotals metrics newStats
    let diffs ← iterationDiffs metrics currentTotals rest
    pure ((metrics.map fun m => (m, totalOf currentTotals m - totalOf prevTotals m)) :: diffs)

/-- The "Total Differences" and "Average per Search" lines: each metric's growth from the
initial to the final totals, and that growth over `num_searches` (`0` for no search). -/
def statsSummary (metrics : List String) (numSearches : Int)
    (initialTotals finalTotals : List (String × Int)) : List (String × Int × ℚ) :=
  metrics.map fun m =>
    (m, totalOf finalTotals m - totalOf initialTotals m,
      if numSearches > 0 then ((totalOf finalTotals m - totalOf initialTotals m : Int) : ℚ) / numSearches
      else 0)

/-! ## The totals are sums over the nodes -/

/-- The summand of `metric` for one node: `int(node_stats.get(metric, 0))`. -/
def nodeStat (nodeStats : List (String × JsonValue)) (metric : String) : Except ReadError Int :=
  match dictGet nodeStats metric with
  | none => .ok 0
  | some value => value.toInt

@[simp] theorem totalOf_nil (m : String) : totalOf [] m = 0 := rfl

theorem totalOf_cons (key m : String) (total : Int) (totals : List (String × Int)) :
    totalOf ((key, total) :: totals) m = if key = m then total else totalOf totals m := by
  by_cases h : key = m <;> simp [totalOf, h]

/-- `totals[metric] += value` adds `value` to the total of `metric` and to no other. -/
theorem totalOf_addToTotal (metric m : String) (value : Int) :
    ∀ totals : List (String × Int),
      totalOf (addToTotal totals metric value) m = totalOf totals m + if m = metric then value else 0
  | [] => by by_cases h : m = metric <;> simp [addToTotal, totalOf_cons, h, Ne.symm]
  | (key, total) :: totals => by
    rw [addToTotal]
    by_cases hk : key = metric <;> by_cases hm : key = m
    · subst hk hm; simp [totalOf_cons]
    · subst hk; simp [totalOf_cons, hm, Ne.symm hm]
    · subst hm; simp [totalOf_cons, hk, Ne.symm hk]
    · simp [totalOf_cons, hk, hm, totalOf_addToTotal metric m value totals]

/-- One step of a node's loop adds the node's value of `metric`, `0` when it has none. -/
theorem addStat_spec {nodeStats : List (String × JsonValue)} {totals t : List (String × Int)}
    {metric : String} (h : addStat nodeStats totals metric = .ok t) :
    ∃ v, nodeStat nodeStats metric = .ok v ∧
      ∀ m, totalOf t m = totalOf totals m + if m = metric then v else 0 := by
  cases hd : dictGet nodeStats metric with
  | none =>
    simp only [addStat, hd] at h
    cases h
    exact ⟨0, by simp [nodeStat, hd], fun m => by simp⟩
  | some value =>
    simp only [addStat, hd] at h
    obtain ⟨n, hn, h⟩ := bind_eq_ok h
    cases h
    exact ⟨n, by simp [nodeStat, hd, hn], fun m => totalOf_addToTotal metric m n totals⟩

/-- A node's loop adds its value of each of the (distinct) metrics and leaves the other totals
alone. -/
theorem addNode_spec (nodeStats : List (String × JsonValue)) :
    ∀ {metrics : List String} {totals t : List (String × Int)}, metrics.Nodup →
      addNode metrics totals nodeStats = .ok t → ∀ m,
        (m ∉ metrics → totalOf t m = totalOf totals m) ∧
        (m ∈ metrics → ∃ v, nodeStat nodeStats m = .ok v ∧ totalOf t m = totalOf totals m + v)
  | [], _, _, _, h, _ => by cases h; simp
  | metric :: metrics, totals, t, hnd, h, m => by
    rw [addNode, List.foldlM_cons] at h
    obtain ⟨t₁, h₁, h⟩ := bind_eq_ok h
    obtain ⟨v₀, hv₀, ht₁⟩ := addStat_spec h₁
    obtain ⟨hnotin, hnd⟩ := List.nodup_cons.mp hnd
    obtain ⟨hout, hin⟩ := addNode_spec nodeStats hnd h m
    refine ⟨fun hm => ?_, fun hm => ?_⟩
    · rw [List.mem_cons, not_or] at hm
      rw [hout hm.2, ht₁, if_neg hm.1, add_zero]
    · by_cases he : m = metric
      · subst he
        exact ⟨v₀, hv₀, by rw [hout hnotin, ht₁, if_pos rfl]⟩
      · obtain ⟨v, hv, ht⟩ := hin ((List.mem_cons.mp hm).resolve_left he)
        exact ⟨v, hv, by rw [ht, ht₁, if_neg he, add_zero]⟩

/-- Over the nodes, the total of a metric grows by the sum of the nodes' values. -/
theorem foldlM_addNode {metrics : List String} (hnd : metrics.Nodup) {m : String} (hm : m ∈ metrics) :
    ∀ {nodes : List (String × List (String × JsonValue))} {init totals : List (String × Int)},
      nodes.foldlM (fun totals node => addNode metrics totals node.2) init = .ok totals →
      ∃ vs, nodes.mapM (fun node => nodeStat node.2 m) = .ok vs ∧
        totalOf totals m = totalOf init m + vs.sum
  | [], _, _, h => by cases h; exact ⟨[], rfl, by simp⟩
  | node :: nodes, init, totals, h => by
    rw [List.foldlM_cons] at h
    obtain ⟨t₁, h₁, h⟩ := bind_eq_ok h
    obtain ⟨v, hv, ht₁⟩ := (addNode_spec node.2 hnd h₁ m).2 hm
    obtain ⟨vs, hvs, ht⟩ := foldlM_addNode hnd hm h
    refine ⟨v :: vs, by rw [List.mapM_cons, hv, hvs]; rfl, ?_⟩
    rw [ht, ht₁, List.sum_cons]
    ring

/-- `get_knn_stat_value`'s step adds the node's summand. -/
theorem addStatValue_eq (statName : String) (total : Int) (node : String × List (String × JsonValue)) :
    addStatValue statName total node = (nodeStat node.2 statName).map (total + ·) := by
  unfold addStatValue nodeStat
  cases dictGet node.2 statName with
  | none => show Except.ok total = Except.ok (total + 0); rw [add_zero]
  | some value => cases value.toInt <;> rfl

theorem foldlM_addStatValue (statName : String) :
    ∀ {nodes : List (String × List (String × JsonValue))} {vs : List Int} (total : Int),
      nodes.mapM (fun node => nodeStat node.2 statName) = .ok vs →
      List.foldlM (addStatValue statName) total nodes = .ok (total + vs.sum)
  | [], _, total, h => by rw [List.mapM_nil] at h; cases h; rw [List.sum_nil, add_zero]; rfl
  | node :: nodes, vs, total, h => by
    rw [List.mapM_cons] at h
    obtain ⟨v, hv, h⟩ := bind_eq_ok h
    obtain ⟨vs', hvs', h⟩ := bind_eq_ok h
    cases h
    rw [List.foldlM_cons, addStatValue_eq, hv, map_ok, ok_bind,
      foldlM_addStatValue statName (total + v) hvs', List.sum_cons, add_assoc]

/-- **The stats totals are sums over the nodes.** Whenever the totals loop of
`test_search_with_stats` (and `print_jvector_search_stats`) reads a stats response without an
exception, the total it keeps for each of its distinct metrics is the sum over the nodes, in
order, of `int(node_stats.get(metric, 0))`: a node that does not report the metric adds `0`,
and the dict updates, a metric entering at `0`, lose nothing. `get_knn_stat_value`, the loop
`force_merge` runs for one stat, gives the same sum. -/
theorem metricTotals_spec {metrics : List String} (hnd : metrics.Nodup)
    {nodes : List (String × List (String × JsonValue))} {totals : List (String × Int)}
    (h : metricTotals metrics (some nodes) = .ok totals) {m : String} (hm : m ∈ metrics) :
    ∃ vs, nodes.mapM (fun node => nodeStat node.2 m) = .ok vs ∧ totalOf totals m = vs.sum ∧
      getKnnStatValue (some nodes) m = .ok vs.sum := by
  obtain ⟨vs, hvs, ht⟩ := foldlM_addNode hnd hm h
  refine ⟨vs, hvs, by rw [ht, totalOf_nil, zero_add], ?_⟩
  rw [getKnnStatValue, foldlM_addStatValue m 0 hvs, zero_add]

/-- Two nodes, one reporting a metric as a number, the other as a string. -/
theorem metricTotals_spec_two_nodes :
    ∃ vs, [("n1", [("knn_query_visited_nodes", JsonValue.int 5)]),
        ("n2", [("knn_query_expanded_nodes", .int 2), ("knn_query_visited_nodes", .str "7")])].mapM
          (fun node => nodeStat node.2 "knn_query_visited_nodes") = .ok vs ∧
      totalOf [("knn_query_visited_nodes", 12), ("knn_query_expanded_nodes", 2)]
          "knn_query_visited_nodes" = vs.sum ∧
      getKnnStatValue (some [("n1", [("knn_query_visited_nodes", JsonValue.int 5)]),
        ("n2", [("knn_query_expanded_nodes", .int 2), ("knn_query_visited_nodes", .str "7")])])
          "knn_query_visited_nodes" = .ok vs.sum :=
  @metricTotals_spec jvectorMetrics (by decide) _ _ (by rfl) _ (by decide)

/-! ## The printed totals -/

/-- `totals[metric] += value` keeps the `dict`'s keys in insertion order: a new metric goes
last. -/
theorem keys_addToTotal (metric : String) (value : Int) : ∀ totals : List (String × Int),
    (addToTotal totals metric value).map Prod.fst =
      if metric ∈ totals.map Prod.fst then totals.map Prod.fst else totals.map Prod.fst ++ [metric]
  | [] => by simp [addToTotal]
  | (key, total) :: totals => by
    by_cases hk : key = metric
    · simp [addToTotal, hk]
    · by_cases hm : metric ∈ totals.map Prod.fst <;>
        simp [addToTotal, hk, hm, Ne.symm hk, keys_addToTotal metric value totals]

/-- One step of a node's loop enters `metric` once, when the node reports it. -/
theorem addStat_keys {nodeStats : List (String × JsonValue)} {totals t : List (String × Int)}
    {metric : String} (h : addStat nodeStats totals metric = .ok t) :
    ((totals.map Prod.fst).Nodup → (t.map Prod.fst).Nodup) ∧
      ∀ m, m ∈ t.map Prod.fst ↔ m ∈ totals.map Prod.fst ∨ (m = metric ∧ (dictGet nodeStats m).isSome) := by
  cases hd : dictGet nodeStats metric with
  | none =>
    simp only [addStat, hd] at h
    cases h
    exact ⟨id, fun m => ⟨Or.inl, fun h => h.resolve_right fun ⟨he, hs⟩ => by simp [he, hd] at hs⟩⟩
  | some value =>
    simp only [addStat, hd] at h
    obtain ⟨n, -, h⟩ := bind_eq_ok h
    cases h
    rw [keys_addToTotal]
    split_ifs with hm
    · exact ⟨id, fun m => ⟨Or.inl, fun h => h.elim id fun ⟨he, _⟩ => he ▸ hm⟩⟩
    · refine ⟨fun hnd => hnd.append (List.nodup_singleton _) (List.disjoint_singleton.mpr hm),
        fun m => ?_⟩
      by_cases he : m = metric <;> simp [he, hd]

/-- A node's loop enters each metric it reports that is not yet a key, once. -/
theorem addNode_keys (nodeStats : List (String × JsonValue)) :
    ∀ {metrics : List String} {totals t : List (String × Int)},
      addNode metrics totals nodeStats = .ok t →
      ((totals.map Prod.fst).Nodup → (t.map Prod.fst).Nodup) ∧
        ∀ m, m ∈ t.map Prod.fst ↔
          m ∈ totals.map Prod.fst ∨ (m ∈ metrics ∧ (dictGet nodeStats m).isSome)
  | [], _, _, h => by
    cases h
    exact ⟨id, fun m => (or_iff_left fun h => List.not_mem_nil m h.1).symm⟩
  | metric :: metrics, totals, t, h => by
    rw [addNode, List.foldlM_cons] at h
    obtain ⟨t₁, h₁, h⟩ := bind_eq_ok h
    obtain ⟨hnd₁, hmem₁⟩ := addStat_keys h₁
    obtain ⟨hnd, hmem⟩ := addNode_keys nodeStats h
    refine ⟨hnd ∘ hnd₁, fun m => ?_⟩
    rw [hmem, hmem₁, List.mem_cons, or_and_right, or_assoc]

/-- Over the nodes, the keys stay distinct and are the metrics some node reports. -/
theorem foldlM_addNode_keys (metrics : List String) :
    ∀ {nodes : List (String × List (String × JsonValue))} {init totals : List (String × Int)},
      nodes.foldlM (fun totals node => addNode metrics totals node.2) init = .ok totals →
      ((init.map Prod.fst).Nodup → (totals.map Prod.fst).Nodup) ∧
        ∀ m, m ∈ totals.map Prod.fst ↔
          m ∈ init.map Prod.fst ∨ (m ∈ metrics ∧ ∃ node ∈ nodes, (dictGet node.2 m).isSome)
  | [], _, _, h => by
    cases h
    exact ⟨id, fun m => (or_iff_left fun ⟨_, _, hn, _⟩ => List.not_mem_nil _ hn).symm⟩
  | node :: nodes, init, totals, h => by
    rw [List.foldlM_cons] at h
    obtain ⟨t₁, h₁, h⟩ := bind_eq_ok h
    obtain ⟨hnd₁, hmem₁⟩ := addNode_keys node.2 h₁
    obtain ⟨hnd, hmem⟩ := foldlM_addNode_keys metrics h
    refine ⟨hnd ∘ hnd₁, fun m => ?_⟩
    simp only [hmem, hmem₁, List.mem_cons, exists_eq_or_imp, and_or_left, or_assoc]

/-- With distinct keys, `totals.get(metric, 0)` of a key is the value stored with it. -/
theorem totalOf_of_mem : ∀ {totals : List (String × Int)}, (totals.map Prod.fst).Nodup →
    ∀ {p : String × Int}, p ∈ totals → totalOf totals p.1 = p.2
  | [], _, _, hp => absurd hp (List.not_mem_nil _)
  | (key, total) :: totals, hnd, p, hp => by
    rw [List.map_cons, List.nodup_cons] at hnd
    rw [totalOf_cons]
    rcases List.mem_cons.mp hp with rfl | hp
    · exact if_pos rfl
    · rw [if_neg fun he => hnd.1 (List.mem_map.mpr ⟨p, hp, he.symm⟩)]
      exact totalOf_of_mem hnd.2 hp

/-- **What `print_jvector_search_stats` prints.** For a response with nodes, the totals the
loop prints (as do the "Initial Stats" and "Final Stats" lines of `test_search_with_stats`,
from the same loop) name each metric at most once, name exactly the metrics of
`jvector_metrics` that some node reports, and give each the sum over the nodes of
`int(node_stats.get(metric, 0))`. -/
theorem printJvectorSearchStats_spec {nodes : List (String × List (String × JsonValue))}
    {printed : List (String × Int)}
    (h : printJvectorSearchStats (some nodes) = .ok (some printed)) :
    (printed.map Prod.fst).Nodup ∧
      (∀ m, m ∈ printed.map Prod.fst ↔
        m ∈ jvectorMetrics ∧ ∃ node ∈ nodes, (dictGet node.2 m).isSome) ∧
      ∀ p ∈ printed, ∃ vs, nodes.mapM (fun node => nodeStat node.2 p.1) = .ok vs ∧ p.2 = vs.sum := by
  have ht : metricTotals jvectorMetrics (some nodes) = .ok printed := by
    simp only [printJvectorSearchStats] at h
    cases hm : metricTotals jvectorMetrics (some nodes) <;> rw [hm] at h <;> cases h
    rfl
  obtain ⟨hnd, hmem⟩ := foldlM_addNode_keys jvectorMetrics ht
  have hnd := hnd List.nodup_nil
  refine ⟨hnd, fun m => (hmem m).trans (or_iff_right (List.not_mem_nil m)), fun p hp => ?_⟩
  have hpm : p.1 ∈ jvectorMetrics := ((hmem p.1).mp (List.mem_map_of_mem Prod.fst hp)).resolve_left
    (List.not_mem_nil _) |>.1
  obtain ⟨vs, hvs, hsum⟩ := foldlM_addNode (by decide : jvectorMetrics.Nodup) hpm ht
  exact ⟨vs, hvs, by rw [← totalOf_of_mem hnd hp, hsum, totalOf_nil, zero_add]⟩

/-- Two nodes, the second reporting one more metric than the first. -/
theorem printJvectorSearchStats_spec_two_nodes :
    ([("knn_query_visited_nodes", (12 : Int)), ("knn_query_expanded_nodes", 2)].map Prod.fst).Nodup ∧
      (∀ m, m ∈ [("knn_query_visited_nodes", (12 : Int)), ("knn_query_expanded_nodes", 2)].map Prod.fst ↔
        m ∈ jvectorMetrics ∧ ∃ node ∈ [("n1", [("knn_query_visited_nodes", JsonValue.int 5)]),
          ("n2", [("knn_query_expanded_nodes", .int 2), ("knn_query_visited_nodes", .str "7")])],
          (dictGet node.2 m).isSome) ∧
      ∀ p ∈ [("knn_query_visited_nodes", (12 : Int)), ("knn_query_expanded_nodes", 2)],
        ∃ vs, [("n1", [("knn_query_visited_nodes", JsonValue.int 5)]),
          ("n2", [("knn_query_expanded_nodes", .int 2), ("knn_query_visited_nodes", .str "7")])].mapM
            (fun node => nodeStat node.2 p.1) = .ok vs ∧ p.2 = vs.sum :=
  printJvectorSearchStats_spec (by rfl)

/-! ## The increments add up to the growth -/

/-- The totals a search prints, one per metric, give each metric its own increment. -/
theorem totalOf_map_of_mem (f : String → Int) {m : String} :
    ∀ {metrics : List String}, m ∈ metrics → totalOf (metrics.map fun m => (m, f m)) m = f m
  | [], hm => absurd hm (List.not_mem_nil m)
  | metric :: metrics, hm => by
    rw [List.map_cons, totalOf_cons]
    split_ifs with h
    · rw [h]
    · exact totalOf_map_of_mem f ((List.mem_cons.mp hm).resolve_left (Ne.symm h))

/-- Over the searches, the increments printed for a metric add up to the growth of its total,
from the totals before the first search to those read after the last: each search's
`prev_totals` is the previous search's `current_totals`. -/
theorem sum_iterationDiffs {metrics : List String} {m : String} (hm : m ∈ metrics) {last : KnnNodes}
    {lastTotals : List (String × Int)} (hlast : metricTotals metrics last = .ok lastTotals) :
    ∀ {responses : List KnnNodes} {prevTotals : List (String × Int)}
      {diffs : List (List (String × Int))},
      iterationDiffs metrics prevTotals (responses ++ [last]) = .ok diffs →
      (diffs.map fun ds => totalOf ds m).sum = totalOf lastTotals m - totalOf prevTotals m
  | [], prevTotals, diffs, h => by
    rw [List.nil_append, iterationDiffs, hlast, ok_bind] at h
    obtain ⟨rest, hrest, h⟩ := bind_eq_ok h
    cases hrest
    cases h
    rw [List.map_singleton, List.sum_singleton, totalOf_map_of_mem _ hm]
  | response :: responses, prevTotals, diffs, h => by
    rw [List.cons_append, iterationDiffs] at h
    obtain ⟨currentTotals, -, h⟩ := bind_eq_ok h
    obtain ⟨rest, hrest, h⟩ := bind_eq_ok h
    cases h
    rw [List.map_cons, List.sum_cons, sum_iterationDiffs hm hlast hrest, totalOf_map_of_mem _ hm]
    omega

/-- **The stats summary agrees with the searches.** In `test_search_with_stats`, `prev_totals`
before the first search and `initial_totals` are the totals of the same response. When the
read after the loop returns what the read after the last search did, each metric's
"Total Differences" line is the sum of the `+diff` lines printed for it after each search, and
its "Average per Search" line that sum over `num_searches`. -/
theorem statsSummary_iterationDiffs {metrics : List String} {responses : List KnnNodes}
    {last : KnnNodes} {initialTotals finalTotals : List (String × Int)}
    {diffs : List (List (String × Int))}
    (h : iterationDiffs metrics initialTotals (responses ++ [last]) = .ok diffs)
    (hfinal : metricTotals metrics last = .ok finalTotals) :
    statsSummary metrics (responses.length + 1) initialTotals finalTotals =
      metrics.map fun m => (m, (diffs.map fun ds => totalOf ds m).sum,
        ((diffs.map fun ds => totalOf ds m).sum : ℚ) / (responses.length + 1)) := by
  refine List.map_congr_left fun m hm => ?_
  rw [sum_iterationDiffs hm hfinal h, if_pos (by omega)]
  push_cast
  rfl

/-- Two searches: the visited nodes read `1` before, `4` after the first search and `9` after
the second and after the loop. -/
theorem statsSummary_iterationDiffs_two_searches :
    statsSummary ["knn_query_visited_nodes"] (1 + 1) [("knn_query_visited_nodes", 1)]
        [("knn_query_visited_nodes", 9)] =
      ["knn_query_visited_nodes"].map fun m =>
        (m, ([[("knn_query_visited_nodes", 3)], [("knn_query_visited_nodes", 5)]].map
            fun ds => totalOf ds m).sum,
          (([[("knn_query_visited_nodes", 3)], [("knn_query_visited_nodes", 5)]].map
            fun ds => totalOf ds m).sum : ℚ) / (1 + 1)) :=
  @statsSummary_iterationDiffs ["knn_query_visited_nodes"]
    [some [("n1", [("knn_query_visited_nodes", .int 4)])]]
    (some [("n1", [("knn_query_visited_nodes", .int 9)])]) _ _ _ rfl rfl

end JVectorBench

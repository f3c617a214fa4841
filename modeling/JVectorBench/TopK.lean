import JVectorBench.Tracker

/-!
# JVectorBench.TopK

What the tracker's heaps are for. For a query, the abstract model is a multiset `S` of the
candidates `P` seen so far, and `IsTopK k P S` says `S` is a top-`k` selection: a
sub-multiset of `P` with `min (card P) k` entries, none farther than a candidate left out.

* `TopKStep` is the abstract effect of one candidate: grow below `k`; once full, replace the
  smallest tuple (a farthest candidate) when strictly closer, else drop the candidate.
* `pushCandidate_spec` is the refinement: on a heap, `update`'s heap step keeps the heap
  invariant and does to the heap's multiset exactly what `TopKStep` says. This is where
  `heap[0]` being the smallest tuple (`Heapq.root_le`) is used.
* `IsTopK.step`: a `TopKStep` keeps `IsTopK`, so by induction over the stream
  (`updateAll_perQuery`) every checkpoint holds a top-`k` selection, and
  `getGroundTruth_updateAll` reads the sorted distances off it.
* `Reachable` states, through any `update` calls including ones that raise, keep every heap
  a heap of at most `k` entries (`heaps_valid_of_reachable`).
-/

namespace JVectorBench

open Heapq GroundTruthTracker

variable {R : Type} [LinearOrderedField R]

/-! ## The abstract model -/

/-- `S` is a top-`k` selection of the candidates `P`. -/
structure IsTopK (k : Nat) (P S : Multiset (Entry R)) : Prop where
  le : S ≤ P
  card_eq : Multiset.card S = min (Multiset.card P) k
  dist_le : ∀ x ∈ S, ∀ y ∈ P - S, x.dist ≤ y.dist

/-- What one candidate `e` does to the selection `S` of a heap of capacity `k`. -/
def TopKStep (k : Nat) (S : Multiset (Entry R)) (e : Entry R) (S' : Multiset (Entry R)) : Prop :=
  (Multiset.card S < k ∧ S' = e ::ₘ S) ∨
    (k ≤ Multiset.card S ∧ ∃ m ∈ S, (∀ x ∈ S, m ≤ x) ∧
      (e.dist < m.dist ∧ S' = e ::ₘ S.erase m ∨ m.dist ≤ e.dist ∧ S' = S))

theorem isTopK_zero (k : Nat) : IsTopK k (0 : Multiset (Entry R)) 0 :=
  ⟨le_rfl, by simp, by simp⟩

theorem mem_sub_erase {P S : Multiset (Entry R)} {m y : Entry R} (hy : y ∈ P - S.erase m) :
    y = m ∨ y ∈ P - S := by
  by_cases hym : y = m
  · exact .inl hym
  · right
    rw [← Multiset.count_pos, Multiset.count_sub] at hy ⊢
    rwa [Multiset.count_erase_of_ne hym] at hy

theorem mem_cons_sub {P S : Multiset (Entry R)} {e y : Entry R} (hy : y ∈ (e ::ₘ P) - S) :
    y = e ∨ y ∈ P - S := by
  by_cases hye : y = e
  · exact .inl hye
  · right
    rw [← Multiset.count_pos, Multiset.count_sub] at hy ⊢
    rwa [Multiset.count_cons_of_ne hye] at hy

/-- One candidate keeps a top-`k` selection a top-`k` selection. -/
theorem IsTopK.step {k : Nat} {P S S' : Multiset (Entry R)} {e : Entry R} (h : IsTopK k P S)
    (hs : TopKStep k S e S') : IsTopK k (e ::ₘ P) S' := by
  have hcP := Multiset.card_le_card h.le
  rcases hs with ⟨hlt, rfl⟩ | ⟨hge, m, hm, hmin, ⟨hlt, rfl⟩ | ⟨hle, rfl⟩⟩
  · -- below capacity: nothing was ever dropped, so `S = P`
    have hSP : S = P := Multiset.eq_of_le_of_card_le h.le (by have := h.card_eq; omega)
    subst hSP
    refine ⟨le_rfl, ?_, by simp⟩
    rw [Multiset.card_cons, h.card_eq]; omega
  · -- `e` replaces the farthest entry `m`
    have hcard := Multiset.card_erase_of_mem hm
    have hpos := Multiset.card_pos_iff_exists_mem.mpr ⟨m, hm⟩
    refine ⟨Multiset.cons_le_cons e ((Multiset.erase_le m S).trans h.le), ?_, ?_⟩
    · rw [Multiset.card_cons, hcard, Multiset.card_cons, Nat.pred_eq_sub_one]
      have := h.card_eq; omega
    · intro x hx y hy
      rw [Multiset.sub_cons, Multiset.erase_cons_head] at hy
      have hxm : ∀ x ∈ S, x.dist ≤ m.dist := fun x hx => Entry.dist_le_of_le (hmin x hx)
      rcases Multiset.mem_cons.mp hx with rfl | hx
      · rcases mem_sub_erase hy with rfl | hy
        · exact hlt.le
        · exact hlt.le.trans (h.dist_le m hm y hy)
      · have hxS := Multiset.mem_of_mem_erase hx
        rcases mem_sub_erase hy with rfl | hy
        · exact hxm x hxS
        · exact h.dist_le x hxS y hy
  · -- `e` is not closer than the farthest entry and is dropped
    refine ⟨h.le.trans (Multiset.le_cons_self P e), ?_, ?_⟩
    · rw [Multiset.card_cons]; have := h.card_eq; omega
    · intro x hx y hy
      rcases mem_cons_sub hy with rfl | hy
      · exact (Entry.dist_le_of_le (hmin x hx)).trans hle
      · exact h.dist_le x hx y hy

theorem TopKStep.card_le {k : Nat} {S S' : Multiset (Entry R)} {e : Entry R} (hs : TopKStep k S e S')
    (hS : Multiset.card S ≤ k) : Multiset.card S' ≤ k := by
  rcases hs with ⟨hlt, rfl⟩ | ⟨-, m, hm, -, ⟨-, rfl⟩ | ⟨-, rfl⟩⟩
  · rw [Multiset.card_cons]; omega
  · rw [Multiset.card_cons, Multiset.card_erase_of_mem hm, Nat.pred_eq_sub_one]
    have := Multiset.card_pos_iff_exists_mem.mpr ⟨m, hm⟩; omega
  · exact hS

/-! ## The heap step refines the abstract step -/

theorem coe_heappush (heap : List (Entry R)) (e : Entry R) :
    (↑(heappush heap e) : Multiset (Entry R)) = e ::ₘ ↑heap := by
  rw [Multiset.cons_coe, Multiset.coe_eq_coe]
  exact (perm_heappush heap e).trans (List.perm_append_singleton e heap)

/-- `update`'s heap step on a heap: the result is a heap, and its multiset is the abstract
step's. -/
theorem pushCandidate_spec {k : Nat} {heap heap' : List (Entry R)} {dist : R} {docId : String}
    (hh : IsHeap heap) (hp : pushCandidate k heap dist docId = .ok heap') :
    IsHeap heap' ∧ TopKStep k ↑heap (entry dist docId) ↑heap' := by
  by_cases hlt : heap.length < k
  · rw [pushCandidate_of_lt hlt, Except.ok.injEq] at hp
    subst hp
    exact ⟨isHeap_heappush hh _, .inl ⟨by simpa using hlt, coe_heappush heap _⟩⟩
  · obtain _ | ⟨top, rest⟩ := heap
    · rw [show k = 0 by simp at hlt; omega, pushCandidate_zero_nil] at hp
      cases hp
    · have hmin : ∀ x ∈ (↑(top :: rest) : Multiset (Entry R)), top ≤ x :=
        fun x hx => root_le hh (List.getElem?_cons_zero) x (Multiset.mem_coe.mp hx)
      have hfull : k ≤ Multiset.card (↑(top :: rest) : Multiset (Entry R)) := by simpa using hlt
      rw [pushCandidate_cons_of_le (by simp at hlt; omega)] at hp
      split at hp <;> rw [Except.ok.injEq] at hp <;> subst hp <;> rename_i hd
      · -- `heapreplace`: the root, a smallest tuple, is evicted
        refine ⟨isHeap_heapreplace hh _, .inr ⟨hfull, top, by simp, hmin, .inl ⟨by simpa using hd, ?_⟩⟩⟩
        rw [Multiset.coe_eq_coe.mpr (perm_heapreplace rest _), ← Multiset.cons_coe,
          ← Multiset.cons_coe, Multiset.erase_cons_head]
      · -- not strictly closer: the heap is left alone
        exact ⟨hh, .inr ⟨hfull, top, by simp, hmin, .inr ⟨by simpa using not_lt.mp hd, rfl⟩⟩⟩

/-- `update`'s heap step keeps a heap a heap of at most `k` entries. -/
theorem pushCandidate_valid {k : Nat} {heap heap' : List (Entry R)} {dist : R} {docId : String}
    (hh : IsHeap heap) (hl : heap.length ≤ k) (hp : pushCandidate k heap dist docId = .ok heap') :
    IsHeap heap' ∧ heap'.length ≤ k := by
  obtain ⟨h1, h2⟩ := pushCandidate_spec hh hp
  exact ⟨h1, by simpa using h2.card_le (by simpa using hl)⟩

/-! ## Sorting a selection -/

theorem sorted_mergeSort_le (l : List R) : (l.mergeSort fun a b => decide (a ≤ b)).Sorted (· ≤ ·) := by
  have := @List.sorted_mergeSort R (fun a b => decide (a ≤ b))
    (by simpa using fun _ _ _ => le_trans) (by simpa using le_total) l
  simpa using this

/-- Sorting a list whose part `A` lies below the rest `B` sorts `A` first. -/
theorem mergeSort_eq_append {L A B : List R} (hp : L.Perm (A ++ B)) (hAB : ∀ x ∈ A, ∀ y ∈ B, x ≤ y) :
    L.mergeSort (fun a b => decide (a ≤ b)) =
      A.mergeSort (fun a b => decide (a ≤ b)) ++ B.mergeSort (fun a b => decide (a ≤ b)) := by
  refine List.eq_of_perm_of_sorted ?_ (sorted_mergeSort_le L) ?_
  · exact ((List.mergeSort_perm L _).trans hp).trans
      ((List.mergeSort_perm A _).append (List.mergeSort_perm B _)).symm
  · refine List.pairwise_append.mpr ⟨sorted_mergeSort_le A, sorted_mergeSort_le B, ?_⟩
    intro x hx y hy
    exact hAB x ((List.mergeSort_perm A _).mem_iff.mp hx) y ((List.mergeSort_perm B _).mem_iff.mp hy)

/-- The distances of a top-`k` selection, sorted, are the smallest distances of the
candidates, sorted. -/
theorem IsTopK.mergeSort_dist {k : Nat} {P S : List (Entry R)}
    (h : IsTopK k (↑P : Multiset (Entry R)) ↑S) :
    (S.map Entry.dist).mergeSort (fun a b => decide (a ≤ b)) =
      ((P.map Entry.dist).mergeSort (fun a b => decide (a ≤ b))).take S.length := by
  obtain ⟨B, hB⟩ : ∃ B : List (Entry R), (↑B : Multiset (Entry R)) = ↑P - ↑S := Quot.exists_rep _
  have hP : (P.map Entry.dist).Perm (S.map Entry.dist ++ B.map Entry.dist) := by
    rw [← List.map_append]
    refine List.Perm.map _ (Multiset.coe_eq_coe.mp ?_)
    rw [← Multiset.coe_add, hB]
    exact (add_tsub_cancel_of_le h.le).symm
  rw [mergeSort_eq_append hP ?_, ← List.length_map S Entry.dist,
    ← List.length_mergeSort (S.map Entry.dist), List.take_left]
  simp only [List.mem_map]
  rintro _ ⟨x, hx, rfl⟩ _ ⟨y, hy, rfl⟩
  exact h.dist_le x hx y (by rw [← hB]; exact hy)

/-- No retained candidate is farther than a candidate that is not retained. -/
theorem IsTopK.dist_le_of_not_mem {k : Nat} {P S : List (Entry R)}
    (h : IsTopK k (↑P : Multiset (Entry R)) ↑S) {x y : Entry R} (hx : x ∈ S) (hy : y ∈ P)
    (hyS : y ∉ S) : x.dist ≤ y.dist := by
  refine h.dist_le x (Multiset.mem_coe.mpr hx) y (Multiset.mem_sub.mpr ?_)
  rw [Multiset.count_eq_zero.mpr (Multiset.mem_coe.not.mpr hyS)]
  exact Multiset.count_pos.mpr (Multiset.mem_coe.mpr hy)

/-- `sorted(heap, key=lambda x: -x[0])` lists the heap's distances in ascending order. -/
theorem map_dist_sortedResults (heap : List (Entry R)) :
    (sortedResults heap).map Entry.dist = (heap.map Entry.dist).mergeSort fun a b => decide (a ≤ b) :=
  List.map_mergeSort fun _ _ _ _ => rfl

theorem sortedResults_perm (heap : List (Entry R)) : (sortedResults heap).Perm heap :=
  List.mergeSort_perm heap _

/-! ## Whole streams -/

/-- The candidates a stream presents to query `q`: `(-d(q, v), doc_id)` for each
`(doc_id, v)`, in arrival order. -/
def candidates (d : List R → List R → R) (q : List R) (stream : List (String × List R)) :
    List (Entry R) :=
  stream.map fun p => entry (d q p.2) p.1

theorem coe_candidates_append (d : List R → List R → R) (q : List R) (P : List (String × List R))
    (docId : String) (v : List R) :
    (↑(candidates d q (P ++ [(docId, v)])) : Multiset (Entry R)) =
      entry (d q v) docId ::ₘ ↑(candidates d q P) := by
  rw [Multiset.cons_coe, Multiset.coe_eq_coe, candidates, List.map_append]
  exact List.perm_append_singleton _ _

/-- Every query `q` of `t`, with its heap `h`, satisfies `Inv q P h` after the stream prefix `P`. -/
def PerQuery (Inv : List R → List (String × List R) → List (Entry R) → Prop)
    (t : GroundTruthTracker R) (P : List (String × List R)) : Prop :=
  ∀ (i : Nat) (q : List R) (h : List (Entry R)),
    t.queryVectors[i]? = some q → t.heaps[i]? = some h → Inv q P h

/-- The induction over a stream, done once: with a distance that never raises and `1 ≤ k`, no
`update` raises, and a property of each query's candidates and heap that every heap step keeps
holds after the whole stream. -/
theorem updateAll_perQuery (d : List R → List R → R) {k : Nat} (hk : 1 ≤ k)
    {Inv : List R → List (String × List R) → List (Entry R) → Prop}
    (hstep : ∀ q P h docId v h', Inv q P h → pushCandidate k h (d q v) docId = .ok h' →
      Inv q (P ++ [(docId, v)]) h') :
    ∀ (stream : List (String × List R)) (t : GroundTruthTracker R) (P : List (String × List R)),
      t.k = k → PerQuery Inv t P →
        (t.updateAll (fun q v => .ok (d q v)) stream).raised = none ∧
        (t.updateAll (fun q v => .ok (d q v)) stream).state.queryVectors = t.queryVectors ∧
        PerQuery Inv (t.updateAll (fun q v => .ok (d q v)) stream).state (P ++ stream)
  | [], t, P, _, hP => ⟨rfl, rfl, by simpa using hP⟩
  | (docId, v) :: rest, t, P, htk, hP => by
    obtain ⟨hnone, hheaps⟩ := t.updateWith_total docId v d (htk ▸ hk)
    have hP' : PerQuery Inv (t.updateWith (fun q v => .ok (d q v)) docId v).state
        (P ++ [(docId, v)]) := by
      intro i q h' hq hh'
      rw [updateWith_queryVectors] at hq
      obtain ⟨h, hh⟩ := t.exists_heap hq
      obtain ⟨h'', hpush, hh''⟩ := hheaps i q h hq hh
      rw [hh'', Option.some.injEq] at hh'
      exact hh' ▸ hstep q P h docId v h'' (hP i q h hq hh) (htk ▸ hpush)
    have ih := updateAll_perQuery d hk hstep rest
      (t.updateWith (fun q v => .ok (d q v)) docId v).state (P ++ [(docId, v)]) htk hP'
    simp only [updateAll, hnone]
    exact ⟨ih.1, ih.2.1, by simpa using ih.2.2⟩

/-- What a heap holds after the candidates `candidates d q P`: a heap, and a top-`k` selection
of them. -/
def TracksTopK (d : List R → List R → R) (k : Nat) (q : List R) (P : List (String × List R))
    (h : List (Entry R)) : Prop :=
  IsHeap h ∧ IsTopK k (↑(candidates d q P) : Multiset (Entry R)) ↑h

theorem tracksTopK_step (d : List R → List R → R) (k : Nat) (q : List R) (P : List (String × List R))
    (h : List (Entry R)) (docId : String) (v : List R) (h' : List (Entry R))
    (hinv : TracksTopK d k q P h) (hp : pushCandidate k h (d q v) docId = .ok h') :
    TracksTopK d k q (P ++ [(docId, v)]) h' := by
  obtain ⟨hh, htop⟩ := hinv
  obtain ⟨hheap, hstep⟩ := pushCandidate_spec hh hp
  exact ⟨hheap, by rw [coe_candidates_append]; exact htop.step hstep⟩

/-- The induction over a stream from a fresh tracker: a property that holds of an empty heap
and that every heap step keeps holds, after the whole stream, of each query's heap. -/
theorem updateAll_init (d : List R → List R → R) (queryVectors : List (List R)) {k : Nat}
    (hk : 1 ≤ k) (spaceType : String)
    {Inv : List R → List (String × List R) → List (Entry R) → Prop}
    (hstep : ∀ q P h docId v h', Inv q P h → pushCandidate k h (d q v) docId = .ok h' →
      Inv q (P ++ [(docId, v)]) h')
    (h0 : ∀ q, Inv q [] []) (stream : List (String × List R)) :
    ∃ t, (init queryVectors k spaceType).updateAll (fun q v => .ok (d q v)) stream = ⟨t, none⟩ ∧
      ∀ (i : Nat) (q : List R), queryVectors[i]? = some q →
        ∃ heap, t.heaps[i]? = some heap ∧ Inv q stream heap := by
  have hinit : PerQuery Inv (init queryVectors k spaceType) [] := fun i q h _ hh => by
    simp only [init, List.getElem?_map, Option.map_eq_some'] at hh
    obtain ⟨-, -, rfl⟩ := hh
    exact h0 q
  obtain ⟨hnone, hqv, hinv⟩ := updateAll_perQuery d hk hstep stream _ [] rfl hinit
  set r := (init queryVectors k spaceType).updateAll (fun q v => .ok (d q v)) stream
  refine ⟨r.state, by rw [← hnone], fun i q hq => ?_⟩
  have hq' : r.state.queryVectors[i]? = some q := by rw [hqv]; exact hq
  obtain ⟨heap, hheap⟩ := r.state.exists_heap hq'
  exact ⟨heap, hheap, hinv i q heap hq' hheap⟩

/-- The top-`k` law over a whole stream: with `1 ≤ k` and a distance that never raises, no
`update` raises, and each query's heap is a heap holding a top-`k` selection of its candidates. -/
theorem updateAll_tracksTopK (d : List R → List R → R) (queryVectors : List (List R)) (k : Nat)
    (hk : 1 ≤ k) (spaceType : String) (stream : List (String × List R)) :
    ∃ t, (init queryVectors k spaceType).updateAll (fun q v => .ok (d q v)) stream = ⟨t, none⟩ ∧
      ∀ (i : Nat) (q : List R), queryVectors[i]? = some q →
        ∃ heap, t.heaps[i]? = some heap ∧ TracksTopK d k q stream heap :=
  updateAll_init d queryVectors hk spaceType (tracksTopK_step d k)
    (fun _ => ⟨fun _ _ _ h => by simp at h, isTopK_zero k⟩) stream

/-- **Ground truth after a stream.** With `1 ≤ k` and any distance function `d`, feeding a
stream of `N` vectors to a fresh tracker raises nothing, and for the query `q` at index `i`,
`get_ground_truth(i)` returns the ids of the heap's sorted entries: `min N k` of them, whose
distances are the `min N k` smallest stream distances in ascending order, and which are a
sub-multiset of the stream's candidates `(id, d(q, v))`; no retained candidate is farther than
a discarded one. -/
theorem getGroundTruth_updateAll (d : List R → List R → R) (queryVectors : List (List R))
    (k : Nat) (hk : 1 ≤ k) (spaceType : String) (stream : List (String × List R)) (i : Nat)
    (q : List R) (hq : queryVectors[i]? = some q) :
    ∃ t, (init queryVectors k spaceType).updateAll (fun q v => .ok (d q v)) stream = ⟨t, none⟩ ∧
      ∃ heap, t.heaps[i]? = some heap ∧
      t.getGroundTruth i = .ok ((sortedResults heap).map Entry.docId) ∧
      (sortedResults heap).length = min stream.length k ∧
      (sortedResults heap).map Entry.dist =
        ((stream.map fun p => d q p.2).mergeSort fun a b => decide (a ≤ b)).take
          (min stream.length k) ∧
      (sortedResults heap).Subperm (candidates d q stream) ∧
      ∀ x ∈ heap, ∀ p ∈ stream, entry (d q p.2) p.1 ∉ heap → x.dist ≤ d q p.2 := by
  obtain ⟨t, hrun, hall⟩ := updateAll_tracksTopK d queryVectors k hk spaceType stream
  obtain ⟨heap, hheap, -, htop⟩ := hall i q hq
  have hlen : heap.length = min stream.length k := by simpa [candidates] using htop.card_eq
  refine ⟨t, hrun, heap, hheap, ?_, ?_, ?_, ?_, ?_⟩
  · exact getGroundTruth_of_getElem? hheap
  · rw [(sortedResults_perm heap).length_eq, hlen]
  · rw [map_dist_sortedResults, htop.mergeSort_dist, hlen]
    simp [candidates, Function.comp_def]
  · exact (sortedResults_perm heap).subperm.trans (Multiset.coe_le.mp htop.le)
  · intro x hx p hp hnot
    simpa using htop.dist_le_of_not_mem hx (List.mem_map_of_mem _ hp) hnot

theorem getGroundTruth_updateAll_two_queries :
    ∃ t, (init [[(0 : ℚ)], [1]] 1 "l2").updateAll (fun _ v => .ok (v.headD 0)) [("a", [2])] =
        ⟨t, none⟩ ∧
      ∃ heap, t.heaps[1]? = some heap ∧
      t.getGroundTruth (1 : Nat) = .ok ((sortedResults heap).map Entry.docId) ∧
      (sortedResults heap).length = min [("a", [(2 : ℚ)])].length 1 ∧
      (sortedResults heap).map Entry.dist =
        (([("a", [(2 : ℚ)])].map fun p => p.2.headD 0).mergeSort fun a b => decide (a ≤ b)).take
          (min [("a", [(2 : ℚ)])].length 1) ∧
      (sortedResults heap).Subperm (candidates (fun _ v => v.headD 0) [1] [("a", [(2 : ℚ)])]) ∧
      ∀ x ∈ heap, ∀ p ∈ [("a", [(2 : ℚ)])], entry (p.2.headD 0) p.1 ∉ heap → x.dist ≤ p.2.headD 0 :=
  getGroundTruth_updateAll (fun _ v => v.headD 0) [[0], [1]] 1 le_rfl "l2" [("a", [2])] 1 [1] rfl

/-! ## One query's heap, step after step -/

/-- One query's heap after the candidates `es`, its heap steps run one after another. -/
def feedHeap (k : Nat) (heap : List (Entry R)) : List (Entry R) → Except PyError (List (Entry R))
  | [] => .ok heap
  | e :: es => pushCandidate k heap e.dist e.docId >>= fun h => feedHeap k h es

theorem feedHeap_append (k : Nat) (heap : List (Entry R)) (es : List (Entry R)) (e : Entry R) :
    feedHeap k heap (es ++ [e]) =
      feedHeap k heap es >>= fun h => pushCandidate k h e.dist e.docId := by
  induction es generalizing heap with
  | nil => simp [feedHeap]
  | cons e' es ih => simp [feedHeap, ih, bind_assoc]

/-- With a distance that never raises and `1 ≤ k`, a fresh tracker fed a stream holds, for
each query, the heap its candidates build step after step. -/
theorem updateAll_feedHeap (d : List R → List R → R) (queryVectors : List (List R)) (k : Nat)
    (hk : 1 ≤ k) (spaceType : String) (stream : List (String × List R)) :
    ∃ t, (init queryVectors k spaceType).updateAll (fun q v => .ok (d q v)) stream = ⟨t, none⟩ ∧
      ∀ (i : Nat) (q : List R), queryVectors[i]? = some q →
        ∃ heap, t.heaps[i]? = some heap ∧ feedHeap k [] (candidates d q stream) = .ok heap := by
  refine @updateAll_init R _ d queryVectors k hk spaceType
    (fun q P h => feedHeap k [] (candidates d q P) = .ok h) ?_ (fun _ => rfl) stream
  intro q P h docId v h' hP hp
  simp only [candidates, List.map_append, List.map_singleton] at hP ⊢
  rw [feedHeap_append, hP, ok_bind, dist_entry, docId_entry, hp]

/-- `get_ground_truth(i)` after a stream, read off the heap that query `i`'s candidates build. -/
theorem getGroundTruth_of_feedHeap (d : List R → List R → R) (queryVectors : List (List R))
    (k : Nat) (hk : 1 ≤ k) (spaceType : String) (stream : List (String × List R)) (i : Nat)
    (q : List R) (hq : queryVectors[i]? = some q) (heap : List (Entry R))
    (hfeed : feedHeap k [] (candidates d q stream) = .ok heap) :
    ∃ t, (init queryVectors k spaceType).updateAll (fun q v => .ok (d q v)) stream = ⟨t, none⟩ ∧
      t.getGroundTruth i = .ok ((sortedResults heap).map Entry.docId) := by
  obtain ⟨t, hrun, hall⟩ := updateAll_feedHeap d queryVectors k hk spaceType stream
  obtain ⟨heap', hheap, hfeed'⟩ := hall i q hq
  rw [hfeed, Except.ok.injEq] at hfeed'
  subst hfeed'
  exact ⟨t, hrun, getGroundTruth_of_getElem? hheap⟩

/-! ## Every reachable state keeps its heaps -/

/-- The tracker states reachable from a constructed tracker through `update` calls, whether
they complete or raise. -/
inductive Reachable (sqrt : R → R) : GroundTruthTracker R → Prop
  | init (queryVectors : List (List R)) (k : Nat) (spaceType : String) :
      Reachable sqrt (init queryVectors k spaceType)
  | update {t : GroundTruthTracker R} (docId : String) (vector : List R) :
      Reachable sqrt t → Reachable sqrt (t.update sqrt docId vector).state

/-- Each heap of the loop is either left alone or replaced by a completed heap step, so the
loop keeps every heap a heap of at most `k` entries, also when it raises. -/
theorem updateHeaps_valid {distance : List R → Except PyError R} {k : Nat} {docId : String} :
    ∀ (qs : List (List R)) (hs : List (List (Entry R))), (∀ h ∈ hs, IsHeap h ∧ h.length ≤ k) →
      ∀ h ∈ (updateHeaps distance k docId qs hs).state, IsHeap h ∧ h.length ≤ k
  | q :: qs, h :: hs, hv => by
    unfold updateHeaps
    split
    · rename_i h' hp
      obtain ⟨dist, -, hpush⟩ := bind_eq_ok hp
      have hv' := hv h (List.mem_cons_self h hs)
      simp only [List.mem_cons, forall_eq_or_imp]
      exact ⟨pushCandidate_valid hv'.1 hv'.2 hpush,
        updateHeaps_valid qs hs fun h hh => hv h (List.mem_cons_of_mem _ hh)⟩
    · exact hv
  | [], _, hv => hv
  | _ :: _, [], hv => hv

/-- Every reachable state's heaps are heaps of at most `k` entries. -/
theorem Reachable.heaps_valid {sqrt : R → R} {t : GroundTruthTracker R} (ht : Reachable sqrt t) :
    ∀ heap ∈ t.heaps, IsHeap heap ∧ heap.length ≤ t.k := by
  induction ht with
  | init queryVectors k spaceType =>
    intro heap hmem
    obtain ⟨_, -, rfl⟩ := List.mem_map.mp hmem
    exact ⟨fun _ _ _ h => by simp at h, by simp⟩
  | update docId vector _ ih => exact updateHeaps_valid _ _ ih

/-- **The heap invariant over every run.** In every reachable state, each heap has at most `k`
entries and satisfies heapq's invariant, so `heap[0]` holds a farthest retained candidate;
`heappush` below `k` and `heapreplace` on a full heap keep this. -/
theorem heaps_valid_of_reachable (sqrt : R → R) {t : GroundTruthTracker R} (ht : Reachable sqrt t) :
    (∀ heap ∈ t.heaps, IsHeap heap ∧ heap.length ≤ t.k ∧
      ∀ top, heap[0]? = some top → ∀ x ∈ heap, x.dist ≤ top.dist) ∧
    (∀ (heap : List (Entry R)) (e : Entry R), IsHeap heap → heap.length < t.k →
      IsHeap (heappush heap e) ∧ (heappush heap e).length ≤ t.k) ∧
    (∀ (top : Entry R) (rest : List (Entry R)) (e : Entry R), IsHeap (top :: rest) →
      (top :: rest).length = t.k →
        heapreplace (top :: rest) e = .ok (top, siftup (e :: rest) e 0) ∧
        IsHeap (siftup (e :: rest) e 0) ∧ (siftup (e :: rest) e 0).length = t.k) := by
  have hvalid := ht.heaps_valid
  refine ⟨fun heap hmem => ⟨(hvalid heap hmem).1, (hvalid heap hmem).2, ?_⟩, ?_, ?_⟩
  · intro top htop x hx
    exact Entry.dist_le_of_le (root_le (hvalid heap hmem).1 htop x hx)
  · intro heap e hh hl
    exact ⟨isHeap_heappush hh e, by simp; omega⟩
  · intro top rest e hh hl
    refine ⟨heapreplace_cons top rest e, isHeap_heapreplace hh e, ?_⟩
    rw [(perm_heapreplace rest e).length_eq, ← hl, List.length_cons, List.length_cons]

/-- With `k = 2` and the query `[0]`, the updates `a ↦ [3]`, `b ↦ [1]`, `c ↦ [2]` (squared
distances `9`, `1`, `4`, the square root taken as `id`): `c` replaces the root `a` through
`heapreplace`. -/
theorem heaps_after_replace :
    ((((init [[(0 : ℚ)]] 2 "l2").update id "a" [3]).state.update id "b" [1]).state.update id "c"
      [2]).state.heaps = [[entry 4 "c", entry 1 "b"]] := by
  have h9 : (3 : ℚ) * 3 = 9 := by norm_num
  have h4 : (2 : ℚ) * 2 = 4 := by norm_num
  have hlt : ¬ (9 : ℚ) < 1 ∧ (1 : ℚ) ≠ 9 ∧ (4 : ℚ) < 9 ∧ (1 : ℚ) < 4 := by norm_num
  simp [update, updateWith_heaps, updateWith_k, updateWith_queryVectors, updateWith_spaceType,
    updateHeaps, computeDistance, init, Numpy.sub, Numpy.norm, pushCandidate_of_lt,
    pushCandidate_cons_of_le, heappush, siftdown, siftup, siftupLoop, smallerChild, entry,
    Entry.dist, Prod.Lex.lt_iff, h9, h4, hlt]

/-- The state after that run is reachable, and its full heap, rebuilt by `heapreplace`, is a
heap of `k` entries with the farthest at the root. -/
theorem heaps_valid_of_reachable_after_replace :
    ((((init [[(0 : ℚ)]] 2 "l2").update id "a" [3]).state.update id "b" [1]).state.update id "c"
      [2]).state.heaps = [[entry 4 "c", entry 1 "b"]] ∧
    Reachable id
      ((((init [[(0 : ℚ)]] 2 "l2").update id "a" [3]).state.update id "b" [1]).state.update id "c"
        [2]).state ∧
    (∀ heap ∈
      ((((init [[(0 : ℚ)]] 2 "l2").update id "a" [3]).state.update id "b" [1]).state.update id "c"
        [2]).state.heaps,
      IsHeap heap ∧ heap.length ≤ 2 ∧ ∀ top, heap[0]? = some top → ∀ x ∈ heap, x.dist ≤ top.dist) ∧
    (∀ (heap : List (Entry ℚ)) (e : Entry ℚ), IsHeap heap → heap.length < 2 →
      IsHeap (heappush heap e) ∧ (heappush heap e).length ≤ 2) ∧
    (∀ (top : Entry ℚ) (rest : List (Entry ℚ)) (e : Entry ℚ), IsHeap (top :: rest) →
      (top :: rest).length = 2 →
        heapreplace (top :: rest) e = .ok (top, siftup (e :: rest) e 0) ∧
        IsHeap (siftup (e :: rest) e 0) ∧ (siftup (e :: rest) e 0).length = 2) :=
  have h := Reachable.update "c" [2] (Reachable.update "b" [1]
    (Reachable.update "a" [3] (Reachable.init [[(0 : ℚ)]] 2 "l2")))
  ⟨heaps_after_replace, h, heaps_valid_of_reachable id h⟩

/-- In every reachable state, `get_ground_truth(i)` returns at most `k` identifiers, those of
a heap of the tracker listed nearest first. -/
theorem getGroundTruth_of_reachable (sqrt : R → R) {t : GroundTruthTracker R}
    (ht : Reachable sqrt t) (i : Int) (ids : List String) (h : t.getGroundTruth i = .ok ids) :
    ids.length ≤ t.k ∧ ∃ heap ∈ t.heaps, ids = (sortedResults heap).map Entry.docId ∧
      ((sortedResults heap).map Entry.dist).Sorted (· ≤ ·) := by
  unfold getGroundTruth at h
  cases hx : getItem t.heaps i with
  | error e => rw [hx] at h; cases h
  | ok heap =>
    rw [hx, map_ok, Except.ok.injEq] at h
    subst h
    have hmem := mem_of_getItem hx
    refine ⟨?_, heap, hmem, rfl, ?_⟩
    · rw [List.length_map, (sortedResults_perm heap).length_eq]
      exact (ht.heaps_valid heap hmem).2
    · rw [map_dist_sortedResults]
      exact sorted_mergeSort_le _

/-- The run of `heaps_after_replace`: `get_ground_truth(0)` lists `b` and `c`, nearest first,
from its full heap. -/
theorem getGroundTruth_of_reachable_after_replace :
    ["b", "c"].length ≤
      ((((init [[(0 : ℚ)]] 2 "l2").update id "a" [3]).state.update id "b" [1]).state.update id "c"
        [2]).state.k ∧
      ∃ heap ∈
        ((((init [[(0 : ℚ)]] 2 "l2").update id "a" [3]).state.update id "b" [1]).state.update id "c"
          [2]).state.heaps,
        ["b", "c"] = (sortedResults heap).map Entry.docId ∧
          ((sortedResults heap).map Entry.dist).Sorted (· ≤ ·) :=
  getGroundTruth_of_reachable id (Reachable.update "c" [2] (Reachable.update "b" [1]
    (Reachable.update "a" [3] (Reachable.init [[(0 : ℚ)]] 2 "l2")))) 0 ["b", "c"]
    (by
      have hle : ¬ (-(-4 : ℚ)) ≤ -(-1) := by norm_num
      simp [getGroundTruth, heaps_after_replace, sortedResults, List.mergeSort, entry, hle])

end JVectorBench

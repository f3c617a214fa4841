import JVectorBench.Heapq.Order
import JVectorBench.Numpy

/-!
# JVectorBench.Tracker

`GroundTruthTracker` of `create_and_test_large_index.py`: one bounded max-heap of candidates
per query vector, kept with `heapq` on tuples `(-distance, doc_id)`.

* `update(doc_id, vector)` runs one loop iteration per query: compute the distance
  (`computeDistance`), then push while the heap holds fewer than `k` entries, or replace the
  root when the new distance is smaller than `-heap[0][0]` (`pushCandidate`). The heaps are
  mutated in place, so an exception in iteration `i` leaves heaps `0 .. i-1` updated
  (`updateHeaps`).
* `get_ground_truth(i)` sorts heap `i` by distance (a stable sort) and returns the ids.

`updateWith` is `update` with the distance computation taken as a parameter: `update` is
`updateWith (computeDistance sqrt space_type)`, and the ranking results are proved for every
distance function.
-/

namespace JVectorBench

open Heapq

variable {R : Type} [LinearOrderedField R]

/-- A heap entry, the tuple `(-dist, doc_id)`. Python orders tuples lexicographically, and so
does `Lex`. -/
abbrev Entry (R : Type) := R ×ₗ String

/-- The entry `update` stores for a candidate: `(-dist, doc_id)`. -/
def entry (dist : R) (docId : String) : Entry R := toLex (-dist, docId)

/-- The distance an entry stands for, `-x[0]`. -/
def Entry.dist (e : Entry R) : R := -(ofLex e).1

/-- The identifier of an entry, `x[1]`. -/
def Entry.docId (e : Entry R) : String := (ofLex e).2

@[simp] theorem dist_entry (dist : R) (docId : String) : (entry dist docId).dist = dist := by
  simp [entry, Entry.dist]

@[simp] theorem docId_entry (dist : R) (docId : String) : (entry dist docId).docId = docId := rfl

/-- A smaller tuple is a farther candidate. -/
theorem Entry.dist_le_of_le {a b : Entry R} (h : a ≤ b) : b.dist ≤ a.dist := by
  simp only [Entry.dist, neg_le_neg_iff]
  rcases (Prod.Lex.le_iff (ofLex a) (ofLex b)).mp h with h | ⟨h, -⟩
  · exact h.le
  · exact h.le

/-- Between two tuples at one distance, the smaller has the smaller identifier. -/
theorem Entry.docId_le_of_le {a b : Entry R} (h : a ≤ b) (hd : a.dist = b.dist) :
    a.docId ≤ b.docId := by
  simp only [Entry.dist, neg_inj] at hd
  rcases (Prod.Lex.le_iff (ofLex a) (ofLex b)).mp h with h | ⟨-, h⟩
  · exact absurd hd h.ne
  · exact h

/-- The state of a `GroundTruthTracker`: its constructor arguments and one heap per query. -/
structure GroundTruthTracker (R : Type) where
  queryVectors : List (List R)
  k : Nat
  spaceType : String
  heaps : List (List (Entry R))
  length_heaps : heaps.length = queryVectors.length

namespace GroundTruthTracker

/-- `GroundTruthTracker(query_vectors, k, space_type)`: one empty heap per query. -/
def init (queryVectors : List (List R)) (k : Nat) (spaceType : String) : GroundTruthTracker R where
  queryVectors := queryVectors
  k := k
  spaceType := spaceType
  heaps := queryVectors.map fun _ => []
  length_heaps := List.length_map _ _

end GroundTruthTracker

/-! ## One iteration of `update` -/

/-- The distance `update` computes between a query and the new vector. `'l2'` is the norm of
the broadcast difference; `'cosine'` is `1 - cos` when both norms are positive and `1.0`
otherwise; any other `space_type` raises `ValueError`. -/
def computeDistance (sqrt : R → R) (spaceType : String) (queryVector vectorNp : List R) :
    Except PyError R :=
  if spaceType = "l2" then
    (Numpy.sub queryVector vectorNp).map (Numpy.norm sqrt)
  else if spaceType = "cosine" then
    if 0 < Numpy.norm sqrt queryVector ∧ 0 < Numpy.norm sqrt vectorNp then
      (Numpy.dot queryVector vectorNp).map fun d =>
        1 - d / (Numpy.norm sqrt queryVector * Numpy.norm sqrt vectorNp)
    else .ok 1
  else .error (.valueError s!"Unsupported space_type: {spaceType}")

/-- The heap step of `update` for one query: push while the heap holds fewer than `k` entries;
otherwise replace the root when `dist < -heap[0][0]` (reading `heap[0]` raises on an empty
heap). -/
def pushCandidate (k : Nat) (heap : List (Entry R)) (dist : R) (docId : String) :
    Except PyError (List (Entry R)) :=
  if heap.length < k then .ok (heappush heap (entry dist docId))
  else do
    let top ← getItem heap 0
    if dist < -(ofLex top).1 then
      let r ← heapreplace heap (entry dist docId)
      pure r.2
    else pure heap

/-- The loop of `update` over the queries and their heaps; `distance q` is the distance of the
new vector to query `q`. An exception stops the loop, with the earlier heaps updated. -/
def updateHeaps (distance : List R → Except PyError R) (k : Nat) (docId : String) :
    List (List R) → List (List (Entry R)) → Outcome (List (List (Entry R)))
  | q :: qs, h :: hs =>
    match distance q >>= fun dist => pushCandidate k h dist docId with
    | .ok h' =>
      let r := updateHeaps distance k docId qs hs
      ⟨h' :: r.state, r.raised⟩
    | .error e => ⟨h :: hs, some e⟩
  | _, hs => ⟨hs, none⟩

theorem length_updateHeaps (distance : List R → Except PyError R) (k : Nat) (docId : String) :
    ∀ (qs : List (List R)) (hs : List (List (Entry R))),
      (updateHeaps distance k docId qs hs).state.length = hs.length
  | q :: qs, h :: hs => by
    unfold updateHeaps
    split
    · simp [length_updateHeaps distance k docId qs hs]
    · rfl
  | [], _ => rfl
  | _ :: _, [] => rfl

namespace GroundTruthTracker

/-- `update(doc_id, vector)` with the distance computation as a parameter. -/
def updateWith (distance : List R → List R → Except PyError R) (t : GroundTruthTracker R)
    (docId : String) (vector : List R) : Outcome (GroundTruthTracker R) :=
  let r := updateHeaps (fun q => distance q vector) t.k docId t.queryVectors t.heaps
  ⟨{ t with
      heaps := r.state
      length_heaps := by rw [length_updateHeaps, t.length_heaps] }, r.raised⟩

/-- `update(doc_id, vector)`. -/
def update (sqrt : R → R) (t : GroundTruthTracker R) (docId : String) (vector : List R) :
    Outcome (GroundTruthTracker R) :=
  t.updateWith (computeDistance sqrt t.spaceType) docId vector

/-- `sorted(heap, key=lambda x: -x[0])`: a stable sort by distance. -/
def sortedResults (heap : List (Entry R)) : List (Entry R) :=
  heap.mergeSort fun a b => decide (-(ofLex a).1 ≤ -(ofLex b).1)

/-- `get_ground_truth(query_index)`: the ids of heap `query_index`, nearest first. -/
def getGroundTruth (t : GroundTruthTracker R) (queryIndex : Int) : Except PyError (List String) :=
  (getItem t.heaps queryIndex).map fun heap => (sortedResults heap).map fun e => (ofLex e).2

/-- `get_query_vector(query_index)`. -/
def getQueryVector (t : GroundTruthTracker R) (queryIndex : Int) : Except PyError (List R) :=
  getItem t.queryVectors queryIndex

/-- The harness's sequence of `update` calls: one per `(doc_id, vector)` of a stream, in order,
stopping at the first exception. -/
def updateAll (distance : List R → List R → Except PyError R) (t : GroundTruthTracker R) :
    List (String × List R) → Outcome (GroundTruthTracker R)
  | [] => ⟨t, none⟩
  | (docId, vector) :: rest =>
    let r := t.updateWith distance docId vector
    match r.raised with
    | none => r.state.updateAll distance rest
    | some e => ⟨r.state, some e⟩

end GroundTruthTracker

/-! ## Spec lemmas -/

section Spec

variable {k : Nat} {heap : List (Entry R)} {dist : R} {docId : String}

theorem pushCandidate_of_lt (h : heap.length < k) :
    pushCandidate k heap dist docId = .ok (heappush heap (entry dist docId)) :=
  if_pos h

theorem pushCandidate_cons_of_le {top : Entry R} {rest : List (Entry R)} (h : k ≤ rest.length + 1) :
    pushCandidate k (top :: rest) dist docId =
      if dist < top.dist then .ok (siftup (entry dist docId :: rest) (entry dist docId) 0)
      else .ok (top :: rest) := by
  rw [pushCandidate, if_neg (by simp only [List.length_cons]; omega), getItem_cons_zero]
  rfl

/-- With `k = 0` the first candidate already reads `heap[0]` of an empty heap. -/
theorem pushCandidate_zero_nil :
    pushCandidate 0 ([] : List (Entry R)) dist docId = .error (.indexError "list index out of range") := by
  rw [pushCandidate, if_neg (by simp), getItem_nil]
  rfl

/-- With `1 ≤ k` the heap step never raises. -/
theorem pushCandidate_isOk (hk : 1 ≤ k) : ∃ heap', pushCandidate k heap dist docId = .ok heap' := by
  by_cases h : heap.length < k
  · exact ⟨_, pushCandidate_of_lt h⟩
  · obtain _ | ⟨top, rest⟩ := heap
    · simp only [List.length_nil] at h; omega
    · rw [pushCandidate_cons_of_le (by simp only [List.length_cons] at h; omega)]
      split <;> exact ⟨_, rfl⟩

theorem updateHeaps_of_forall_ok {distance : List R → Except PyError R}
    {f : List R → List (Entry R) → List (Entry R)}
    (hf : ∀ q h, (distance q >>= fun dist => pushCandidate k h dist docId) = .ok (f q h)) :
    ∀ (qs : List (List R)) (hs : List (List (Entry R))), qs.length = hs.length →
      updateHeaps distance k docId qs hs = ⟨List.zipWith f qs hs, none⟩
  | q :: qs, h :: hs, hl => by
    simp only [updateHeaps, hf, updateHeaps_of_forall_ok hf qs hs (by simpa using hl),
      List.zipWith_cons_cons]
  | [], [], _ => rfl
  | [], _ :: _, hl => by simp at hl
  | _ :: _, [], hl => by simp at hl

end Spec

namespace GroundTruthTracker

/-- `get_ground_truth(i)` at a heap's index: its identifiers, nearest first. -/
theorem getGroundTruth_of_getElem? {t : GroundTruthTracker R} {i : Nat} {heap : List (Entry R)}
    (h : t.heaps[i]? = some heap) :
    t.getGroundTruth i = .ok ((sortedResults heap).map Entry.docId) := by
  rw [getGroundTruth, getItem_of_getElem? h]
  rfl

omit [LinearOrderedField R] in
/-- Every query has its heap. -/
theorem exists_heap (t : GroundTruthTracker R) {i : Nat} {q : List R}
    (hq : t.queryVectors[i]? = some q) : ∃ h, t.heaps[i]? = some h := by
  have hi := lt_length_of_getElem? hq
  rw [← t.length_heaps] at hi
  exact ⟨t.heaps[i], List.getElem?_eq_getElem hi⟩

variable (distance : List R → List R → Except PyError R) (t : GroundTruthTracker R)
  (docId : String) (vector : List R)

@[simp] theorem updateWith_queryVectors :
    (t.updateWith distance docId vector).state.queryVectors = t.queryVectors := rfl

@[simp] theorem updateWith_k : (t.updateWith distance docId vector).state.k = t.k := rfl

@[simp] theorem updateWith_spaceType :
    (t.updateWith distance docId vector).state.spaceType = t.spaceType := rfl

theorem updateWith_heaps : (t.updateWith distance docId vector).state.heaps =
    (updateHeaps (fun q => distance q vector) t.k docId t.queryVectors t.heaps).state := rfl

theorem updateWith_raised : (t.updateWith distance docId vector).raised =
    (updateHeaps (fun q => distance q vector) t.k docId t.queryVectors t.heaps).raised := rfl

/-- A run of `update` calls, complete or not, leaves the query vectors alone. -/
@[simp] theorem updateAll_queryVectors :
    ∀ (stream : List (String × List R)) (s : GroundTruthTracker R),
      (s.updateAll distance stream).state.queryVectors = s.queryVectors
  | [], _ => rfl
  | (docId, vector) :: rest, s => by
    dsimp only [updateAll]
    split
    · rw [updateAll_queryVectors rest]; rfl
    · rfl

/-- With a distance that never raises and `1 ≤ k`, `update` completes and replaces each heap by
its own heap step. -/
theorem updateWith_total (d : List R → List R → R) (hk : 1 ≤ t.k) :
    (t.updateWith (fun q v => .ok (d q v)) docId vector).raised = none ∧
      ∀ (i : Nat) (q : List R) (h : List (Entry R)), t.queryVectors[i]? = some q →
        t.heaps[i]? = some h → ∃ h', pushCandidate t.k h (d q vector) docId = .ok h' ∧
          (t.updateWith (fun q v => .ok (d q v)) docId vector).state.heaps[i]? = some h' := by
  have hex : ∀ (q : List R) (h : List (Entry R)),
      ∃ h', pushCandidate t.k h (d q vector) docId = .ok h' := fun _ _ => pushCandidate_isOk hk
  choose f hf using hex
  have hf' : ∀ (q : List R) (h : List (Entry R)),
      ((fun q => (.ok (d q vector) : Except PyError R)) q >>= fun dist =>
        pushCandidate t.k h dist docId) = .ok (f q h) := hf
  have hu := updateHeaps_of_forall_ok hf' t.queryVectors t.heaps t.length_heaps.symm
  refine ⟨by rw [updateWith_raised, hu], fun i q h hq hh => ⟨f q h, hf q h, ?_⟩⟩
  rw [updateWith_heaps, hu, List.getElem?_zipWith, hq, hh]

end GroundTruthTracker

end JVectorBench

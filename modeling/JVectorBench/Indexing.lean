import JVectorBench.Python

/-!
# JVectorBench.Indexing

`index_vectors`: the batch loop that writes the documents `str(0), ..., str(n - 1)` to the
index in `_bulk` requests of `batch_size` documents, passes each vector to the ground-truth
tracker, and runs an intermediate force merge after a batch when
`end_idx % force_merge_frequency < batch_size`.

The model keeps what the rest of the harness sees of a run: the list of its events
(`IndexEvent`). The bulk bodies are their lines before `json.dumps`; the vectors are the
successive draws of `np.random.uniform`, given as a stream `draw`; whether each bulk request
returns `200` is a parameter `bulkOk`. Python's `//` and `%` are `Int.fdiv` and `Int.fmod`.

* With `n ≥ 0`, `b ≥ 1` and every request answered, the batches partition `[0, n)` in order,
  and the tracker and the bulk bodies see the same `(str(j), vector)` pairs, each identifier
  once (`indexVectors_ids`).
* The merge test is exact for a full batch: it passes when the batch crosses a positive
  multiple of `force_merge_frequency`, never when `force_merge_frequency ≤ 0`
  (`mergeAfter_full_batch_iff`, `indexVectors_merges_of_dvd`). A short batch is still tested
  against the full `batch_size`, so it can pass without crossing one
  (`indexVectors_merges_after_short_batch`).
* `str` of a natural number is injective (`natRepr_injective`), so the identifiers are
  distinct.
-/

namespace JVectorBench

/-- A line of a `_bulk` body, before `json.dumps`. -/
inductive BulkLine (R : Type) where
  /-- The action line `{"index": {"_index": index_name, "_id": str(doc_id)}}`. -/
  | action (index id : String)
  /-- The document line `{"vector_field": vector, "id": str(doc_id)}`. -/
  | document (vector : List R) (id : String)
  deriving DecidableEq, Repr

/-- What a run of `index_vectors` does, in order. -/
inductive IndexEvent (R : Type) where
  /-- `ground_truth_tracker.update(str(doc_id), vector)`. -/
  | update (docId : String) (vector : List R)
  /-- `requests.post(url, headers=headers, data=bulk_body)`. -/
  | bulk (body : List (BulkLine R))
  /-- `force_merge(host, index_name)` after `end_idx` documents. -/
  | forceMerge (numDocuments : Int)
  /-- `sys.exit(1)` after a bulk request that did not return `200`. -/
  | exit
  deriving DecidableEq, Repr

variable {R : Type}

def BulkLine.document? : BulkLine R → Option (String × List R)
  | .document vector id => some (id, vector)
  | .action .. => none

def BulkLine.action? : BulkLine R → Option String
  | .action _ id => some id
  | .document .. => none

def IndexEvent.update? : IndexEvent R → Option (String × List R)
  | .update docId vector => some (docId, vector)
  | _ => none

def IndexEvent.bulk? : IndexEvent R → Option (List (BulkLine R))
  | .bulk body => some body
  | _ => none

def IndexEvent.forceMerge? : IndexEvent R → Option Int
  | .forceMerge numDocuments => some numDocuments
  | _ => none

/-! ## The batch loop -/

section Model

variable (indexName : String) (numVectors batchSize forceMergeFrequency : Int)
  (groundTruthTracker : Bool) (draw : Nat → List R)

/-- `start_idx = batch * batch_size`. -/
def startIdx (batch : Nat) : Int := batch * batchSize

/-- `end_idx = min((batch + 1) * batch_size, num_vectors)`. -/
def endIdx (batch : Nat) : Int := min ((batch + 1) * batchSize) numVectors

/-- `current_batch_size = end_idx - start_idx`, as the length of `range(current_batch_size)`. -/
def currentBatchSize (batch : Nat) : Nat :=
  (endIdx numVectors batchSize batch - startIdx batchSize batch).toNat

/-- The documents `(doc_id, vector)` of batch `batch`, `drawn` vectors having been drawn
before it. -/
def batchDocs (batch drawn : Nat) : List (Int × List R) :=
  (List.range (currentBatchSize numVectors batchSize batch)).map fun (i : Nat) =>
    (startIdx batchSize batch + i, draw (drawn + i))

/-- `bulk_data`: an action line and a document line per document. -/
def bulkBody (docs : List (Int × List R)) : List (BulkLine R) :=
  docs.flatMap fun d => [.action indexName (toString d.1), .document d.2 (toString d.1)]

/-- `force_merge_frequency > 0 and (end_idx % force_merge_frequency < batch_size)`. -/
def mergeAfter (endIdx : Int) : Bool :=
  0 < forceMergeFrequency && endIdx.fmod forceMergeFrequency < batchSize

/-- Batch `batch` up to its bulk request: the tracker updates, then the request. -/
def batchRequest (batch drawn : Nat) : List (IndexEvent R) :=
  (if groundTruthTracker then
    (batchDocs numVectors batchSize draw batch drawn).map fun d => .update (toString d.1) d.2
  else []) ++
    [.bulk (bulkBody indexName (batchDocs numVectors batchSize draw batch drawn))]

/-- The intermediate force merge after batch `batch`, if its test passes. -/
def batchMerge (batch : Nat) : List (IndexEvent R) :=
  if mergeAfter batchSize forceMergeFrequency (endIdx numVectors batchSize batch) then
    [.forceMerge (endIdx numVectors batchSize batch)]
  else []

/-- `for batch in batches`, `drawn` vectors drawn so far; `bulkOk batch` is whether batch
`batch`'s request returns `200`. -/
def indexBatches (bulkOk : Nat → Bool) : List Nat → Nat → List (IndexEvent R)
  | [], _ => []
  | batch :: rest, drawn =>
    batchRequest indexName numVectors batchSize groundTruthTracker draw batch drawn ++
      if bulkOk batch then
        batchMerge numVectors batchSize forceMergeFrequency batch ++
          indexBatches bulkOk rest (drawn + currentBatchSize numVectors batchSize batch)
      else [.exit]

/-- `total_batches = (num_vectors + batch_size - 1) // batch_size`. -/
def totalBatches : Except PyError Int :=
  if batchSize = 0 then .error (.zeroDivisionError "integer division or modulo by zero")
  else .ok ((numVectors + batchSize - 1).fdiv batchSize)

/-- `index_vectors(host, index_name, num_vectors, dimension, batch_size,
force_merge_frequency, csv_file, ground_truth_tracker)`. -/
def indexVectors (bulkOk : Nat → Bool) : Except PyError (List (IndexEvent R)) :=
  (totalBatches numVectors batchSize).map fun t =>
    indexBatches indexName numVectors batchSize forceMergeFrequency groundTruthTracker draw bulkOk
      (List.range t.toNat) 0

end Model

/-! ## Runs with `n ≥ 0` and `b ≥ 1` -/

section Batches

variable (indexName : String) (N B : Nat) (forceMergeFrequency : Int) (groundTruthTracker : Bool)
  (draw : Nat → List R)

theorem startIdx_natCast (batch : Nat) : startIdx (B : Int) batch = ((batch * B : Nat) : Int) := by
  simp [startIdx]

theorem endIdx_natCast (batch : Nat) :
    endIdx (N : Int) (B : Int) batch = ((min ((batch + 1) * B) N : Nat) : Int) := by
  simp [endIdx]

theorem currentBatchSize_natCast (batch : Nat) :
    currentBatchSize (N : Int) (B : Int) batch = min ((batch + 1) * B) N - batch * B := by
  rw [currentBatchSize, startIdx_natCast, endIdx_natCast]
  omega

/-- The documents of batch `batch`, when the vectors drawn before are one per earlier
document: the identifiers from `batch * B` up to `min((batch + 1) * B, N)`, each with its draw. -/
theorem batchDocs_natCast (batch : Nat) :
    batchDocs (N : Int) (B : Int) draw batch (batch * B) =
      (List.range' (batch * B) (min ((batch + 1) * B) N - batch * B)).map
        fun (d : Nat) => ((d : Int), draw d) := by
  rw [batchDocs, currentBatchSize_natCast, List.range'_eq_map_range, List.map_map]
  refine List.map_congr_left fun i _ => ?_
  simp [startIdx_natCast]

/-- With every request answered, the batches `j, ..., j + m - 1`, all starting before `N`, run
one after another, each batch drawing one vector per document. -/
theorem indexBatches_range' :
    ∀ (m j : Nat), (j + m) * B < N + B →
      indexBatches indexName N B forceMergeFrequency groundTruthTracker draw (fun _ => true)
          (List.range' j m) (j * B) =
        (List.range' j m).flatMap fun batch =>
          batchRequest indexName N B groundTruthTracker draw batch (batch * B) ++
            batchMerge N B forceMergeFrequency batch := by
  intro m
  induction m with
  | zero => intro _ _; rfl
  | succ m ih =>
    intro j hm
    rw [List.range'_succ, List.flatMap_cons, indexBatches, if_pos rfl, List.append_assoc]
    congr 2
    cases m with
    | zero => rfl
    | succ m =>
      -- a next batch exists, so this one is full and draws `B` vectors
      have hN : j * B + B ≤ N := by
        have := Nat.mul_le_mul_right B (show j + 1 + 1 ≤ j + (m + 1 + 1) by omega)
        rw [Nat.add_one_mul, Nat.add_one_mul] at this
        omega
      have hdrawn : j * B + currentBatchSize (N : Int) (B : Int) j = (j + 1) * B := by
        rw [currentBatchSize_natCast, Nat.add_one_mul]
        omega
      rw [hdrawn]
      exact ih (j + 1) (by rwa [Nat.add_right_comm j 1])

theorem range_append_range' (n k : Nat) : List.range n ++ List.range' n k = List.range (n + k) := by
  have h := List.range'_append 0 n k 1
  simp only [Nat.zero_add, Nat.one_mul] at h
  rw [List.range_eq_range', List.range_eq_range', h, Nat.add_comm]

/-- The first `m` batches, all starting at or before `N`, hold the documents
`0, ..., min(m * B, N) - 1` in order. -/
theorem flatMap_batchDocs :
    ∀ m : Nat, m * B ≤ N + B →
      (List.range m).flatMap (fun batch => batchDocs (N : Int) (B : Int) draw batch (batch * B)) =
        (List.range (min (m * B) N)).map fun (d : Nat) => ((d : Int), draw d)
  | 0, _ => by simp
  | m + 1, hm => by
    have e1 : (m + 1) * B = m * B + B := Nat.succ_mul m B
    rw [List.range_succ, List.flatMap_append, flatMap_batchDocs m (by omega), List.flatMap_singleton,
      batchDocs_natCast, ← List.map_append, show min (m * B) N = m * B by omega, range_append_range']
    congr 2
    omega

end Batches

/-! ## Projections of a run -/

section Projections

variable (indexName : String) (numVectors batchSize forceMergeFrequency : Int)
  (groundTruthTracker : Bool) (draw : Nat → List R) (batch drawn : Nat)

@[simp] theorem document?_bulkBody (docs : List (Int × List R)) :
    (bulkBody indexName docs).filterMap BulkLine.document? = docs.map fun d => (toString d.1, d.2) := by
  induction docs with
  | nil => rfl
  | cons d docs ih => simp [bulkBody, BulkLine.document?] at ih ⊢; exact ih

@[simp] theorem action?_bulkBody (docs : List (Int × List R)) :
    (bulkBody indexName docs).filterMap BulkLine.action? = docs.map fun d => toString d.1 := by
  induction docs with
  | nil => rfl
  | cons d docs ih => simp [bulkBody, BulkLine.action?] at ih ⊢; exact ih

@[simp] theorem bulk?_batchRequest :
    (batchRequest indexName numVectors batchSize groundTruthTracker draw batch drawn).filterMap
        IndexEvent.bulk? =
      [bulkBody indexName (batchDocs numVectors batchSize draw batch drawn)] := by
  cases groundTruthTracker <;> simp [batchRequest, IndexEvent.bulk?, List.filterMap_map, Function.comp_def]

@[simp] theorem update?_batchRequest :
    (batchRequest indexName numVectors batchSize true draw batch drawn).filterMap IndexEvent.update? =
      (batchDocs numVectors batchSize draw batch drawn).map fun d => (toString d.1, d.2) := by
  simp only [batchRequest, if_true, List.filterMap_append, List.filterMap_map]
  simpa [IndexEvent.update?, Function.comp_def] using
    congrFun (List.filterMap_eq_map fun d : Int × List R => (toString d.1, d.2)) _

@[simp] theorem forceMerge?_batchRequest :
    (batchRequest indexName numVectors batchSize groundTruthTracker draw batch drawn).filterMap
        IndexEvent.forceMerge? = [] := by
  cases groundTruthTracker <;> simp [batchRequest, IndexEvent.forceMerge?, List.filterMap_map, Function.comp_def]

@[simp] theorem bulk?_batchMerge :
    (batchMerge numVectors batchSize forceMergeFrequency batch : List (IndexEvent R)).filterMap
      IndexEvent.bulk? = [] := by
  unfold batchMerge; split <;> rfl

@[simp] theorem update?_batchMerge :
    (batchMerge numVectors batchSize forceMergeFrequency batch : List (IndexEvent R)).filterMap
      IndexEvent.update? = [] := by
  unfold batchMerge; split <;> rfl

end Projections

/-! ## `index_vectors` with `n ≥ 0` and `b ≥ 1` -/

@[simp] theorem toString_natCast (d : Nat) : toString (d : Int) = toString d := rfl

section Run

variable (indexName : String) {N B : Nat} (hB : 1 ≤ B) (forceMergeFrequency : Int)
  (groundTruthTracker : Bool) (draw : Nat → List R)
include hB

theorem totalBatches_natCast :
    totalBatches (N : Int) (B : Int) = .ok (((N + B - 1) / B : Nat) : Int) := by
  rw [totalBatches, if_neg (by omega), show (N : Int) + B - 1 = ((N + B - 1 : Nat) : Int) by omega,
    ← Int.ofNat_fdiv]

/-- With every request answered, a run is its `ceil(N / B)` batches' events one after another. -/
theorem indexVectors_natCast :
    indexVectors indexName N B forceMergeFrequency groundTruthTracker draw (fun _ => true) =
      .ok ((List.range ((N + B - 1) / B)).flatMap fun batch =>
        batchRequest indexName N B groundTruthTracker draw batch (batch * B) ++
          batchMerge N B forceMergeFrequency batch) := by
  have h := indexBatches_range' indexName N B forceMergeFrequency groundTruthTracker draw
    ((N + B - 1) / B) 0
    (by simpa using Nat.lt_of_le_of_lt (Nat.div_mul_le_self (N + B - 1) B) (by omega))
  rw [Nat.zero_mul, ← List.range_eq_range'] at h
  rw [indexVectors, totalBatches_natCast hB, map_ok, Int.toNat_ofNat, h]

/-- The last batch ends at `N`: `ceil(N / B)` batches cover `N` documents. -/
theorem le_totalBatches_mul : N ≤ (N + B - 1) / B * B := by
  have := Nat.lt_div_mul_add (a := N + B - 1) (b := B) (by omega)
  omega

/-- Every batch starts before `N`, so it is not empty. -/
theorem mul_lt_of_lt_totalBatches {j : Nat} (hj : j < (N + B - 1) / B) : j * B < N := by
  have := (Nat.le_div_iff_mul_le (by omega)).mp hj
  rw [Nat.succ_mul] at this
  omega

/-- With every request answered, the tracker is passed `(str(d), vector_d)` for
`d = 0, ..., N - 1`, in order. -/
theorem update?_indexVectors :
    ∃ events, indexVectors indexName N B forceMergeFrequency true draw (fun _ => true) = .ok events ∧
      events.filterMap IndexEvent.update? = (List.range N).map fun d => (toString d, draw d) := by
  refine ⟨_, indexVectors_natCast indexName hB forceMergeFrequency true draw, ?_⟩
  simp only [List.filterMap_flatMap, List.filterMap_append, update?_batchRequest, update?_batchMerge,
    List.append_nil, ← List.map_flatMap,
    flatMap_batchDocs N B draw _ (Nat.div_mul_le_self (N + B - 1) B |>.trans (by omega)),
    min_eq_right (le_totalBatches_mul hB), List.map_map]
  rfl

end Run

/-! ## `str` of a natural number is injective -/

theorem toDigitsCore_acc (fuel n : Nat) (ds : List Char) :
    Nat.toDigitsCore 10 fuel n ds = Nat.toDigitsCore 10 fuel n [] ++ ds := by
  induction fuel generalizing n ds with
  | zero => simp [Nat.toDigitsCore]
  | succ fuel ih =>
    simp only [Nat.toDigitsCore]
    split
    · simp
    · rw [ih _ (_ :: ds), ih _ [_]]
      simp

theorem toDigitsCore_fuel : ∀ (f₁ f₂ n : Nat), n < f₁ → n < f₂ →
    Nat.toDigitsCore 10 f₁ n [] = Nat.toDigitsCore 10 f₂ n []
  | f₁ + 1, f₂ + 1, n, h₁, h₂ => by
    simp only [Nat.toDigitsCore]
    split
    · rfl
    · rw [toDigitsCore_acc f₁, toDigitsCore_acc f₂,
        toDigitsCore_fuel f₁ f₂ (n / 10) (by omega) (by omega)]
  | 0, _, _, h, _ | _, 0, _, _, h => absurd h (Nat.not_lt_zero _)

/-- The decimal digits of `n`: those of `n / 10`, then the last digit. -/
theorem toDigits_ten (n : Nat) :
    Nat.toDigits 10 n =
      (if n / 10 = 0 then [] else Nat.toDigits 10 (n / 10)) ++ [Nat.digitChar (n % 10)] := by
  rw [Nat.toDigits, Nat.toDigitsCore]
  split
  · simp [*]
  · rw [toDigitsCore_acc, Nat.toDigits,
      toDigitsCore_fuel n (n / 10 + 1) (n / 10) (by omega) (by omega)]

theorem toDigits_ne_nil (n : Nat) : Nat.toDigits 10 n ≠ [] := by
  rw [toDigits_ten]; simp

theorem digitChar_inj : ∀ a b : Fin 10, Nat.digitChar a = Nat.digitChar b → a = b := by decide

theorem toDigits_injective (a : Nat) : ∀ b, Nat.toDigits 10 a = Nat.toDigits 10 b → a = b := by
  induction a using Nat.strong_induction_on with
  | _ a ih =>
    intro b h
    rw [toDigits_ten a, toDigits_ten b] at h
    obtain ⟨hpre, hlast⟩ := List.append_inj' h rfl
    have hmod : a % 10 = b % 10 := by
      have := digitChar_inj ⟨a % 10, Nat.mod_lt _ (by decide)⟩ ⟨b % 10, Nat.mod_lt _ (by decide)⟩
        (by simpa using hlast)
      simpa using congrArg Fin.val this
    have hdiv : a / 10 = b / 10 := by
      split_ifs at hpre with ha hb hb
      · omega
      · exact absurd hpre.symm (toDigits_ne_nil _)
      · exact absurd hpre (toDigits_ne_nil _)
      · exact ih _ (by omega) _ hpre
    omega

/-- `str(a) = str(b)` only for `a = b`. -/
theorem natRepr_injective : Function.Injective fun d : Nat => toString d := fun a b h =>
  toDigits_injective a b (by simpa [Nat.repr] using congrArg String.data h)


/-- **The documents of `index_vectors`.** With `n ≥ 0`, `b ≥ 1` and every bulk request
answered, for any `force_merge_frequency`: the run makes `ceil(n / b)` bulk requests; request
`j` holds the documents `j * b, ..., min((j + 1) * b, n) - 1`, at least one and at most `b`;
over all requests the document lines, and the action lines, are `str(0), ..., str(n - 1)` in
order, each with the vector drawn for it; the tracker is passed exactly the same
`(str(j), vector)` pairs in the same order; and the identifiers are pairwise distinct. -/
theorem indexVectors_ids (indexName : String) (n b forceMergeFrequency : Int) (hn : 0 ≤ n)
    (hb : 1 ≤ b) (draw : Nat → List R) :
    ∃ events, indexVectors indexName n b forceMergeFrequency true draw (fun _ => true) = .ok events ∧
      (events.filterMap IndexEvent.bulk?).length = (n.toNat + b.toNat - 1) / b.toNat ∧
      (∀ j body, (events.filterMap IndexEvent.bulk?)[j]? = some body →
        body.filterMap BulkLine.document? =
          (List.range' (j * b.toNat) (min ((j + 1) * b.toNat) n.toNat - j * b.toNat)).map
            (fun d => (toString d, draw d)) ∧
        0 < (body.filterMap BulkLine.document?).length ∧
        (body.filterMap BulkLine.document?).length ≤ b.toNat) ∧
      (events.filterMap IndexEvent.bulk?).flatMap (fun body => body.filterMap BulkLine.document?) =
        (List.range n.toNat).map (fun d => (toString d, draw d)) ∧
      (events.filterMap IndexEvent.bulk?).flatMap (fun body => body.filterMap BulkLine.action?) =
        (List.range n.toNat).map toString ∧
      events.filterMap IndexEvent.update? = (List.range n.toNat).map (fun d => (toString d, draw d)) ∧
      ((List.range n.toNat).map toString).Nodup := by
  obtain ⟨N, rfl⟩ := Int.eq_ofNat_of_zero_le hn
  obtain ⟨B, rfl⟩ := Int.eq_ofNat_of_zero_le (by omega : 0 ≤ b)
  have hB : 1 ≤ B := by omega
  simp only [Int.toNat_ofNat]
  refine ⟨_, indexVectors_natCast indexName hB forceMergeFrequency true draw, ?_⟩
  simp only [List.filterMap_flatMap, List.filterMap_append, bulk?_batchRequest, bulk?_batchMerge,
    update?_batchRequest, update?_batchMerge, List.append_nil, ← List.map_eq_flatMap,
    List.flatMap_map, document?_bulkBody, action?_bulkBody, ← List.map_flatMap,
    flatMap_batchDocs N B draw _ (Nat.div_mul_le_self (N + B - 1) B |>.trans (by omega)),
    min_eq_right (le_totalBatches_mul hB), List.map_map]
  refine ⟨by simp, fun j body hj => ?_, by simp [Function.comp_def], by simp [Function.comp_def],
    by simp [Function.comp_def], (List.nodup_range N).map natRepr_injective⟩
  simp only [List.getElem?_map, Option.map_eq_some'] at hj
  obtain ⟨a, ha, rfl⟩ := hj
  obtain ⟨hj, rfl⟩ := List.getElem?_eq_some_iff.mp ha
  rw [List.length_range] at hj
  have hlt := mul_lt_of_lt_totalBatches hB hj
  have e1 : (j + 1) * B = j * B + B := Nat.succ_mul j B
  rw [List.getElem_range, document?_bulkBody, batchDocs_natCast, List.map_map]
  refine ⟨rfl, ?_, ?_⟩ <;> simp only [List.length_map, List.length_range'] <;> omega

theorem indexVectors_ids_three_by_two :
    ∃ events, indexVectors "index" 3 2 0 true (fun _ => ([] : List ℚ)) (fun _ => true) = .ok events ∧
      (events.filterMap IndexEvent.bulk?).length = ((3 : Int).toNat + (2 : Int).toNat - 1) / (2 : Int).toNat ∧
      (∀ j body, (events.filterMap IndexEvent.bulk?)[j]? = some body →
        body.filterMap BulkLine.document? =
          (List.range' (j * (2 : Int).toNat) (min ((j + 1) * (2 : Int).toNat) (3 : Int).toNat -
            j * (2 : Int).toNat)).map (fun d => (toString d, ([] : List ℚ))) ∧
        0 < (body.filterMap BulkLine.document?).length ∧
        (body.filterMap BulkLine.document?).length ≤ (2 : Int).toNat) ∧
      (events.filterMap IndexEvent.bulk?).flatMap (fun body => body.filterMap BulkLine.document?) =
        (List.range (3 : Int).toNat).map (fun d => (toString d, ([] : List ℚ))) ∧
      (events.filterMap IndexEvent.bulk?).flatMap (fun body => body.filterMap BulkLine.action?) =
        (List.range (3 : Int).toNat).map toString ∧
      events.filterMap IndexEvent.update? =
        (List.range (3 : Int).toNat).map (fun d => (toString d, ([] : List ℚ))) ∧
      ((List.range (3 : Int).toNat).map toString).Nodup :=
  indexVectors_ids "index" 3 2 0 (by decide) (by decide) _

/-! ## The intermediate force merge -/

/-- For a positive `force_merge_frequency`, Python's `%` is `Int.emod`: the test reads
`0 < f ∧ end_idx % f < batch_size`. -/
theorem mergeAfter_eq_true_iff (batchSize forceMergeFrequency endIdx : Int) :
    mergeAfter batchSize forceMergeFrequency endIdx = true ↔
      0 < forceMergeFrequency ∧ endIdx % forceMergeFrequency < batchSize := by
  simp only [mergeAfter, Bool.and_eq_true, decide_eq_true_eq]
  exact and_congr_right fun hf => by rw [Int.fmod_eq_emod _ hf.le]

/-- `(s, s + b]` holds a positive multiple of `f` exactly when `f` is positive and
`(s + b) % f < b`. -/
theorem crosses_multiple_iff (b f s : Int) (hs : 0 ≤ s) :
    (0 < f ∧ (s + b) % f < b) ↔ ∃ m : Int, 0 < m ∧ s < m * f ∧ m * f ≤ s + b := by
  rcases le_or_lt f 0 with hf | hf
  · simp only [not_lt.mpr hf, false_and, false_iff, not_exists, not_and]
    intro m hm hlt
    linarith [mul_nonpos_of_nonneg_of_nonpos hm.le hf]
  · have hdiv := Int.ediv_add_emod (s + b) f
    have hr0 := Int.emod_nonneg (s + b) hf.ne'
    have hrf := Int.emod_lt_of_pos (s + b) hf
    simp only [hf, true_and]
    generalize (s + b) / f = q at hdiv
    generalize (s + b) % f = r at hdiv hr0 hrf ⊢
    rw [mul_comm] at hdiv
    constructor
    · intro hr
      refine ⟨q, ?_, by omega, by omega⟩
      by_contra hq
      linarith [mul_nonpos_of_nonpos_of_nonneg (not_lt.mp hq) hf.le]
    · rintro ⟨m, -, hsm, hmb⟩
      by_contra hr
      have hqm : q < m := lt_of_mul_lt_mul_right (by omega) hf.le
      have : (q + 1) * f ≤ m * f := mul_le_mul_of_nonneg_right (by omega) hf.le
      linarith

/-- The merge test against the full `batch_size` is right for a full batch `(s, s + b]`: it
passes exactly when the batch crosses a positive multiple of `force_merge_frequency`. -/
theorem mergeAfter_full_batch_iff (batchSize forceMergeFrequency s : Int) (hs : 0 ≤ s) :
    mergeAfter batchSize forceMergeFrequency (s + batchSize) = true ↔
      ∃ m : Int, 0 < m ∧ s < m * forceMergeFrequency ∧ m * forceMergeFrequency ≤ s + batchSize :=
  (mergeAfter_eq_true_iff _ _ _).trans (crosses_multiple_iff batchSize forceMergeFrequency s hs)

theorem mergeAfter_full_batch_iff_twenty :
    (mergeAfter 10 25 (20 + 10) = true ↔ ∃ m : Int, 0 < m ∧ 20 < m * 25 ∧ m * 25 ≤ 20 + 10) :=
  mergeAfter_full_batch_iff 10 25 20 (by decide)

theorem forceMerge?_batchMerge (numVectors batchSize forceMergeFrequency : Int) (batch : Nat) :
    (batchMerge numVectors batchSize forceMergeFrequency batch : List (IndexEvent R)).filterMap
        IndexEvent.forceMerge? =
      if mergeAfter batchSize forceMergeFrequency (endIdx numVectors batchSize batch) then
        [endIdx numVectors batchSize batch]
      else [] := by
  unfold batchMerge; split <;> rfl

/-- **Force merges when every batch is full.** With `n ≥ 0`, `b ≥ 1`, `b ∣ n` and every request
answered, `index_vectors` runs an intermediate force merge after `x` documents exactly when
`x` ends a batch `(j * b, (j + 1) * b]` that crosses a positive multiple of
`force_merge_frequency`. -/
theorem indexVectors_merges_of_dvd (indexName : String) (n b forceMergeFrequency : Int)
    (hn : 0 ≤ n) (hb : 1 ≤ b) (hdvd : b ∣ n) (groundTruthTracker : Bool) (draw : Nat → List R) :
    ∃ events, indexVectors indexName n b forceMergeFrequency groundTruthTracker draw (fun _ => true) =
        .ok events ∧
      ∀ x, x ∈ events.filterMap IndexEvent.forceMerge? ↔
        ∃ j < n.toNat / b.toNat, x = (j + 1) * b ∧
          ∃ m : Int, 0 < m ∧ j * b < m * forceMergeFrequency ∧ m * forceMergeFrequency ≤ x := by
  obtain ⟨N, rfl⟩ := Int.eq_ofNat_of_zero_le hn
  obtain ⟨B, rfl⟩ := Int.eq_ofNat_of_zero_le (by omega : 0 ≤ b)
  have hB : 1 ≤ B := by omega
  obtain ⟨c, rfl⟩ : B ∣ N := Int.natCast_dvd_natCast.mp hdvd
  have hT : (B * c + B - 1) / B = c := by
    rw [show B * c + B - 1 = (B - 1) + c * B by rw [Nat.mul_comm]; omega,
      Nat.add_mul_div_right _ _ (by omega), Nat.div_eq_of_lt (by omega), Nat.zero_add]
  refine ⟨_, indexVectors_natCast indexName hB forceMergeFrequency groundTruthTracker draw, fun x => ?_⟩
  simp only [List.filterMap_flatMap, List.filterMap_append, forceMerge?_batchRequest,
    List.nil_append, forceMerge?_batchMerge, List.mem_flatMap, List.mem_range, hT, Int.toNat_ofNat,
    Nat.mul_div_cancel_left _ (by omega : 0 < B)]
  refine exists_congr fun j => and_congr_right fun hj => ?_
  have hend : endIdx ((B * c : Nat) : Int) (B : Int) j = (j + 1) * B := by
    have : (j + 1) * B ≤ B * c := by rw [Nat.mul_comm B]; exact Nat.mul_le_mul_right B hj
    have : ((j : Int) + 1) * B ≤ B * c := by exact_mod_cast this
    rw [endIdx_natCast]; push_cast; omega
  have hcross := (mergeAfter_eq_true_iff (B : Int) forceMergeFrequency _).trans
    (crosses_multiple_iff (B : Int) forceMergeFrequency (j * B) (by positivity))
  rw [show (j : Int) * B + B = (j + 1) * B by ring] at hcross
  rw [hend]
  split
  · rename_i hm
    simp only [List.mem_singleton]
    exact ⟨fun hx => ⟨hx, by subst hx; exact hcross.mp hm⟩, fun h => h.1⟩
  · rename_i hm
    simp only [List.not_mem_nil, false_iff, not_and]
    exact fun hx hc => hm (hcross.mpr (hx ▸ hc))

theorem indexVectors_merges_of_dvd_thirty :
    ∃ events, indexVectors "index" 30 10 25 false (fun _ => ([] : List ℚ)) (fun _ => true) =
        .ok events ∧
      ∀ x, x ∈ events.filterMap IndexEvent.forceMerge? ↔
        ∃ j < (30 : Int).toNat / (10 : Int).toNat, x = (j + 1) * 10 ∧
          ∃ m : Int, 0 < m ∧ j * 10 < m * 25 ∧ m * 25 ≤ x :=
  indexVectors_merges_of_dvd "index" 30 10 25 (by decide) (by decide) (by decide) false _

/-- After a short batch the test compares `end_idx % force_merge_frequency` with the full
`batch_size`: with `n = 33`, `b = 10`, `f = 25`, the run merges after `30` documents, which
crossed `25`, and again after `33`, though no multiple of `25` lies in `(30, 33]`. -/
theorem indexVectors_merges_after_short_batch :
    (indexVectors "index" 33 10 25 false (fun _ => ([] : List ℚ)) (fun _ => true)).map
        (fun events => events.filterMap IndexEvent.forceMerge?) = .ok [30, 33] ∧
      ¬ ∃ m : Int, 0 < m ∧ 30 < m * 25 ∧ m * 25 ≤ 33 :=
  ⟨rfl, by rintro ⟨m, -, h₁, h₂⟩; omega⟩

end JVectorBench

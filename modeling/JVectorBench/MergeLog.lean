import JVectorBench.Csv
import JVectorBench.PyInt

/-!
# JVectorBench.MergeLog

The merge log: the CSV file `index_vectors` writes when it is given `csv_file`, and
`plot_merge_times`, which reads it back to plot the merge times.

* `mergeLog` is the text of the file over a run of `index_vectors` (its `IndexEvent`s): the
  header, then, after each intermediate force merge whose `force_merge` returned its times
  (it returns `False` when the merge request fails), the row `end_idx, graph_merge_time,
  quantization_time, duration, index_size`. `str` of a number can raise (`strInt`); the run
  stops there.
* `plotMergeTimes` is `plot_merge_times` up to the plot: the three columns it reads through
  `csv.DictReader` and `int`, `none` when there is no row, or the exception that stops it.

The round trip (`plotMergeTimes_mergeLog`): whenever the log is written, the plot gets the
document counts and the two times of the merges that returned, in order, and nothing else.
-/

namespace JVectorBench

/-- What `force_merge` returns when the merge request succeeds: the growth of the two KNN
stats over the merge, and `str` of the seconds it took. -/
structure MergeResult where
  graphMergeTime : Int
  quantizationTime : Int
  duration : String
  deriving DecidableEq, Repr

/-! ## Writing: `index_vectors` -/

/-- The header row of the merge log. -/
def csvHeader : List String :=
  ["num_documents", "graph_merge_time_ms", "quantization_training_time_ms",
    "force_merge_duration_sec", "index_size_bytes"]

/-- `csv_writer.writerow([end_idx, graph_merge_time, quantization_time, duration, index_size])`:
`str` of each number in turn (`str` of the float `duration` does not raise). -/
def mergeLogRow (endIdx : Int) (result : MergeResult) (indexSize : Int) :
    Except PyError (List String) := do
  let numDocuments ← strInt endIdx
  let graphMergeTime ← strInt result.graphMergeTime
  let quantizationTime ← strInt result.quantizationTime
  let indexSize ← strInt indexSize
  pure [numDocuments, graphMergeTime, quantizationTime, result.duration, indexSize]

/-- The rows written after the intermediate merges that ended with `merges` documents indexed:
one for each merge whose `force_merge` returned, `mergeResult endIdx`, with the index size
read after it (`0` when the stats request failed). -/
def mergeLogRows (mergeResult : Int → Option MergeResult) (indexSize : Int → Int) :
    List Int → Except PyError (List (List String))
  | [] => .ok []
  | endIdx :: merges =>
    match mergeResult endIdx with
    | none => mergeLogRows mergeResult indexSize merges
    | some result => do
      let row ← mergeLogRow endIdx result (indexSize endIdx)
      let rows ← mergeLogRows mergeResult indexSize merges
      pure (row :: rows)

/-- The merge log of a run of `index_vectors`. -/
def mergeLog {R : Type} (mergeResult : Int → Option MergeResult) (indexSize : Int → Int)
    (events : List (IndexEvent R)) : Except PyError (List Char) := do
  let rows ← mergeLogRows mergeResult indexSize (events.filterMap IndexEvent.forceMerge?)
  pure ((csvHeader :: rows).flatMap Csv.writeRow)

/-! ## Reading: `plot_merge_times` -/

/-- The exceptions `plot_merge_times` can meet while it reads the log. -/
inductive ReadError where
  /-- `csv.Error` from the reader. -/
  | csvError (msg : String)
  /-- `KeyError`: the header has no such column. -/
  | keyError (key : String)
  /-- `TypeError` from `int(None)`. -/
  | typeError (msg : String)
  /-- The `ValueError` of `int(s)`. -/
  | pyError (e : PyError)
  deriving DecidableEq, Repr

/-- `d[key]` (or `None` for a missing key) on a `dict` built by assigning `entries` in order:
the last value assigned to `key`. -/
def dictGet {α : Type} (entries : List (String × α)) (key : String) : Option α :=
  (entries.reverse.find? (·.1 == key)).map (·.2)

/-- `row[key]` on the `dict` that `DictReader` built. -/
def getField (row : List (String × Option String)) (key : String) : Except ReadError (Option String) :=
  match dictGet row key with
  | some value => .ok value
  | none => .error (.keyError key)

/-- The `TypeError` of `int(x)` for an `x` of the type `typeName`. -/
def intTypeError (typeName : String) : ReadError :=
  .typeError ("int() argument must be a string, a bytes-like object or a real number, not \x27" ++
    typeName ++ "\x27")

/-- `int(row[key])`: `None`, the value of a column a short row lacks, raises `TypeError`. -/
def intField (row : List (String × Option String)) (key : String) : Except ReadError Int := do
  match ← getField row key with
  | none => .error (intTypeError "NoneType")
  | some s => (pyInt s).mapError .pyError

/-- The point `plot_merge_times` takes from a row: `int` of its three columns, in order. -/
def plotPoint (row : List (String × Option String)) : Except ReadError (Int × Int × Int) := do
  let numDocuments ← intField row "num_documents"
  let graphMergeTime ← intField row "graph_merge_time_ms"
  let quantizationTime ← intField row "quantization_training_time_ms"
  pure (numDocuments, graphMergeTime, quantizationTime)

/-- `plot_merge_times(csv_file)` on the file's text, up to the plot: the numbers of documents,
the graph merge times and the quantization times it plots, `none` for "No data found in CSV
file", or the exception that stops it. The rows before a `csv.Error` are read first. -/
def plotMergeTimes (text : List Char) : Except ReadError (Option (List Int × List Int × List Int)) := do
  let read := Csv.readLines .init (Csv.fileLines text)
  let points ← (Csv.dictRows read.1).mapM plotPoint
  if let some msg := read.2 then throw (.csvError msg)
  pure (if points = [] then none
    else some (points.map (·.1), points.map (·.2.1), points.map (·.2.2)))

/-! ## The round trip -/

/-- The merges that reach the log: those whose `force_merge` returned, with what it returned. -/
def loggedMerges (mergeResult : Int → Option MergeResult) (merges : List Int) :
    List (Int × MergeResult) :=
  merges.filterMap fun endIdx => (mergeResult endIdx).map (endIdx, ·)

/-- What a plot of the logged merges shows: their document counts and their two times, in
order; nothing when no merge was logged. -/
def mergePlot (logged : List (Int × MergeResult)) : Option (List Int × List Int × List Int) :=
  if logged = [] then none
  else some (logged.map (·.1), logged.map (·.2.graphMergeTime), logged.map (·.2.quantizationTime))

/-- A written row is `str` of its four numbers around the duration. -/
theorem mergeLogRow_eq_ok {endIdx indexSize : Int} {result : MergeResult} {row : List String}
    (h : mergeLogRow endIdx result indexSize = .ok row) :
    ∃ s₁ s₂ s₃ s₅, strInt endIdx = .ok s₁ ∧ strInt result.graphMergeTime = .ok s₂ ∧
      strInt result.quantizationTime = .ok s₃ ∧ strInt indexSize = .ok s₅ ∧
      row = [s₁, s₂, s₃, result.duration, s₅] := by
  obtain ⟨s₁, h₁, h⟩ := bind_eq_ok h
  obtain ⟨s₂, h₂, h⟩ := bind_eq_ok h
  obtain ⟨s₃, h₃, h⟩ := bind_eq_ok h
  obtain ⟨s₅, h₅, h⟩ := bind_eq_ok h
  exact ⟨s₁, s₂, s₃, s₅, h₁, h₂, h₃, h₅, (Except.ok.inj h).symm⟩

/-- The rows written are those of the logged merges, in order. -/
theorem mergeLogRows_eq_ok (mergeResult : Int → Option MergeResult) (indexSize : Int → Int) :
    ∀ {merges : List Int} {rows : List (List String)},
      mergeLogRows mergeResult indexSize merges = .ok rows →
      List.Forall₂ (fun row (logged : Int × MergeResult) =>
          mergeLogRow logged.1 logged.2 (indexSize logged.1) = .ok row)
        rows (loggedMerges mergeResult merges)
  | [], _, h => by cases h; exact .nil
  | endIdx :: merges, rows, h => by
    unfold mergeLogRows at h
    simp only [loggedMerges, List.filterMap_cons]
    cases hr : mergeResult endIdx with
    | none =>
      rw [hr] at h
      exact mergeLogRows_eq_ok mergeResult indexSize h
    | some result =>
      rw [hr] at h
      obtain ⟨row, hrow, h⟩ := bind_eq_ok h
      obtain ⟨rest, hrest, h⟩ := bind_eq_ok h
      cases h
      exact .cons hrow (mergeLogRows_eq_ok mergeResult indexSize hrest)

theorem mem_loggedMerges {mergeResult : Int → Option MergeResult} {merges : List Int}
    {logged : Int × MergeResult} (h : logged ∈ loggedMerges mergeResult merges) :
    mergeResult logged.1 = some logged.2 := by
  obtain ⟨endIdx, -, h⟩ := List.mem_filterMap.mp h
  obtain ⟨result, hr, rfl⟩ := Option.map_eq_some'.mp h
  exact hr

/-- `str` of a number is a CSV field the round trip keeps. -/
theorem strInt_csvField {n : Int} {s : String} (h : strInt n = .ok s) :
    '\r' ∉ s.toList ∧ s.length ≤ Csv.fieldSizeLimit := by
  obtain ⟨hc, hlen⟩ := strInt_chars h
  refine ⟨fun hr => ?_, hlen.trans (by decide)⟩
  rcases hc _ hr with h | h
  · exact absurd h (by decide)
  · exact absurd h (by decide)

theorem plotPoint_rowDict {s₁ s₂ s₃ s₄ s₅ : String} {a b c : Int} (h₁ : pyInt s₁ = .ok a)
    (h₂ : pyInt s₂ = .ok b) (h₃ : pyInt s₃ = .ok c) :
    plotPoint (Csv.rowDict csvHeader [s₁, s₂, s₃, s₄, s₅]) = .ok (a, b, c) := by
  simp [plotPoint, intField, getField, dictGet, Csv.rowDict, csvHeader, h₁, h₂, h₃, Except.mapError]

/-- A written row: every field is one the CSV round trip keeps, and its point is the merge's. -/
theorem mergeLogRow_read {endIdx indexSize : Int} {result : MergeResult} {row : List String}
    (h : mergeLogRow endIdx result indexSize = .ok row)
    (hd : '\r' ∉ result.duration.toList ∧ result.duration.length ≤ Csv.fieldSizeLimit) :
    (∀ f ∈ row, '\r' ∉ f.toList ∧ f.length ≤ Csv.fieldSizeLimit) ∧ row ≠ [] ∧
      plotPoint (Csv.rowDict csvHeader row) =
        .ok (endIdx, result.graphMergeTime, result.quantizationTime) := by
  obtain ⟨s₁, s₂, s₃, s₅, h₁, h₂, h₃, h₅, rfl⟩ := mergeLogRow_eq_ok h
  refine ⟨?_, List.cons_ne_nil _ _,
    plotPoint_rowDict (pyInt_of_strInt h₁) (pyInt_of_strInt h₂) (pyInt_of_strInt h₃)⟩
  simp only [List.mem_cons, List.not_mem_nil, or_false]
  rintro f (rfl | rfl | rfl | rfl | rfl)
  exacts [strInt_csvField h₁, strInt_csvField h₂, strInt_csvField h₃, hd, strInt_csvField h₅]

/-- The written rows, read back through `DictReader`, give the points of the logged merges. -/
theorem mergeLogRows_read {indexSize : Int → Int} :
    ∀ {rows : List (List String)} {logged : List (Int × MergeResult)},
      List.Forall₂ (fun row (p : Int × MergeResult) => mergeLogRow p.1 p.2 (indexSize p.1) = .ok row)
        rows logged →
      (∀ p ∈ logged, '\r' ∉ p.2.duration.toList ∧ p.2.duration.length ≤ Csv.fieldSizeLimit) →
      (∀ row ∈ rows, ∀ f ∈ row, '\r' ∉ f.toList ∧ f.length ≤ Csv.fieldSizeLimit) ∧
        ((rows.filter fun r => r ≠ []).map (Csv.rowDict csvHeader)).mapM plotPoint =
          .ok (logged.map fun p => (p.1, p.2.graphMergeTime, p.2.quantizationTime))
  | _, _, .nil, _ => ⟨fun _ h => absurd h (List.not_mem_nil _), rfl⟩
  | row :: rows, p :: logged, .cons hrow hF, hd => by
    obtain ⟨hf, hne, hpt⟩ := mergeLogRow_read hrow (hd p (List.mem_cons_self _ _))
    obtain ⟨ihf, ihpt⟩ := mergeLogRows_read hF fun q hq => hd q (List.mem_cons_of_mem _ hq)
    refine ⟨fun r hr => ?_, ?_⟩
    · rcases List.mem_cons.mp hr with rfl | hr
      exacts [hf, ihf r hr]
    · rw [List.filter_cons_of_pos (by simpa using hne), List.map_cons, List.mapM_cons, hpt, ihpt]
      rfl

/-- **The merge log's round trip.** Whenever `index_vectors` writes its merge log (no number has
more digits than `str` allows), `plot_merge_times` reads it back without an exception and plots,
in order, the document counts, graph merge times and quantization times of exactly the
intermediate merges whose `force_merge` returned; "No data found" when none did. The durations
are `str` of floats: no `\r`, and far shorter than `field_size_limit()`. -/
theorem plotMergeTimes_mergeLog {R : Type} (mergeResult : Int → Option MergeResult)
    (indexSize : Int → Int) (events : List (IndexEvent R)) {text : List Char}
    (hlog : mergeLog mergeResult indexSize events = .ok text)
    (hduration : ∀ endIdx result, mergeResult endIdx = some result →
      '\r' ∉ result.duration.toList ∧ result.duration.length ≤ Csv.fieldSizeLimit) :
    plotMergeTimes text =
      .ok (mergePlot (loggedMerges mergeResult (events.filterMap IndexEvent.forceMerge?))) := by
  obtain ⟨rows, hrows, htext⟩ := bind_eq_ok hlog
  obtain rfl := (Except.ok.inj htext).symm
  obtain ⟨hfields, hpoints⟩ := mergeLogRows_read (mergeLogRows_eq_ok mergeResult indexSize hrows)
    fun p hp => hduration p.1 p.2 (mem_loggedMerges hp)
  have hheader : ∀ f ∈ csvHeader, '\r' ∉ f.toList ∧ f.length ≤ Csv.fieldSizeLimit := by decide
  have hread := Csv.readLines_writeRows (csvHeader :: rows) fun row hrow =>
    (List.mem_cons.mp hrow).elim (fun h => h ▸ hheader) (hfields row)
  unfold plotMergeTimes
  rw [hread]
  simp only [Csv.dictRows, hpoints, ok_bind]
  unfold mergePlot
  simp only [List.map_eq_nil_iff, List.map_map, Function.comp_def]
  rfl

/-- Merges after 2 and 4 documents, the second failing: the log has one row, and the plot its
point. -/
theorem plotMergeTimes_mergeLog_one_of_two :
    plotMergeTimes ([csvHeader, ["2", "5", "7", "0.5", "1024"]].flatMap Csv.writeRow) =
      .ok (some ([2], [5], [7])) :=
  plotMergeTimes_mergeLog (R := Nat) (fun n => if n = 2 then some ⟨5, 7, "0.5"⟩ else none)
    (fun _ => 1024) [.forceMerge 2, .forceMerge 4] rfl fun n r h => by
      dsimp only at h
      split_ifs at h
      cases h
      decide

end JVectorBench

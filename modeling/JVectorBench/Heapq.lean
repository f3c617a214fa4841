import JVectorBench.Python

/-!
# JVectorBench.Heapq

Python's `heapq`, the two entry points the tracker calls (`heappush`, `heapreplace`) and the
two loops behind them, as CPython writes them:

* `_siftdown(heap, startpos, pos)` moves the item at `pos` towards the root, copying each
  larger parent down into the hole, and writes the item where it fits (`siftdown`);
* `_siftup(heap, pos)` first walks the hole at `pos` all the way down to a leaf, always
  moving the smaller child up (`siftupLoop`), then puts the item in that leaf and lets
  `_siftdown` carry it back up (`siftup`).

Both loops only compare with `<`, and only on positions inside the list: every `getD`
below reads an index that is in bounds, so its default is never used.

This module proves what the loops do to the list as a multiset: nothing but a permutation
of the items, once the item is placed (`perm_siftdown`, `perm_siftup`). The order they
restore is `JVectorBench.Heapq.Order`.
-/

namespace JVectorBench

namespace Heapq

variable {α : Type} [LinearOrder α]

/-- The loop of `heapq._siftdown(heap, startpos, pos)`; the caller has just written `newitem`
at `pos`. While `pos > startpos`, the parent `heap[(pos - 1) >> 1]` moves down into the hole
if `newitem` is smaller. -/
def siftdown (heap : List α) (startpos : Nat) (newitem : α) (pos : Nat) : List α :=
  if startpos < pos then
    if newitem < heap.getD ((pos - 1) / 2) newitem then
      siftdown (heap.set pos (heap.getD ((pos - 1) / 2) newitem)) startpos newitem ((pos - 1) / 2)
    else heap.set pos newitem
  else heap.set pos newitem
termination_by pos
decreasing_by omega

/-- The index `_siftup` moves up ("Set childpos to index of smaller child"): the right child
`2 * pos + 2` unless it is missing or the left child `2 * pos + 1` is strictly smaller. -/
def smallerChild (heap : List α) (newitem : α) (pos : Nat) : Nat :=
  let childpos := 2 * pos + 1
  let rightpos := childpos + 1
  if rightpos < heap.length ∧ ¬ heap.getD childpos newitem < heap.getD rightpos newitem then rightpos
  else childpos

theorem smallerChild_bounds (heap : List α) (newitem : α) (pos : Nat) :
    2 * pos + 1 ≤ smallerChild heap newitem pos ∧ smallerChild heap newitem pos ≤ 2 * pos + 2 ∧
      (2 * pos + 1 < heap.length → smallerChild heap newitem pos < heap.length) := by
  dsimp only [smallerChild]; split <;> omega

/-- The loop of `heapq._siftup(heap, pos)`: move the smaller child up into the hole until the
hole is a leaf (`2 * pos + 1 >= len(heap)`), and return the heap with that leaf. -/
def siftupLoop (heap : List α) (newitem : α) (pos : Nat) : List α × Nat :=
  if 2 * pos + 1 < heap.length then
    siftupLoop (heap.set pos (heap.getD (smallerChild heap newitem pos) newitem)) newitem
      (smallerChild heap newitem pos)
  else (heap, pos)
termination_by heap.length - pos
decreasing_by
  have := smallerChild_bounds heap newitem pos
  simp only [List.length_set]; omega

/-- `heapq._siftup(heap, pos)`, with `newitem = heap[pos]`: after the loop, the item goes into
the leaf and `_siftdown(heap, startpos, pos)` bubbles it up, no higher than `startpos`. -/
def siftup (heap : List α) (newitem : α) (pos : Nat) : List α :=
  let r := siftupLoop heap newitem pos
  siftdown (r.1.set r.2 newitem) pos newitem r.2

/-- `heapq.heappush(heap, item)`: append, then `_siftdown(heap, 0, len(heap) - 1)`. -/
def heappush (heap : List α) (item : α) : List α :=
  siftdown (heap ++ [item]) 0 item heap.length

/-- `heapq.heapreplace(heap, item)`: read `heap[0]` (`IndexError` on an empty heap), put
`item` there and `_siftup(heap, 0)`; returns the old root and the new heap. -/
def heapreplace (heap : List α) (item : α) : Except PyError (α × List α) :=
  match heap with
  | [] => .error (.indexError "index out of range")
  | returnitem :: _ => .ok (returnitem, siftup (heap.set 0 item) item 0)

/-! ## One step of each loop -/

section Steps

variable {heap : List α} {startpos pos : Nat} {newitem : α}

theorem siftdown_of_lt (h : startpos < pos) (hlt : newitem < heap.getD ((pos - 1) / 2) newitem) :
    siftdown heap startpos newitem pos =
      siftdown (heap.set pos (heap.getD ((pos - 1) / 2) newitem)) startpos newitem ((pos - 1) / 2) := by
  rw [siftdown, if_pos h]; exact if_pos hlt

theorem siftdown_of_not_lt (h : startpos < pos) (hlt : ¬ newitem < heap.getD ((pos - 1) / 2) newitem) :
    siftdown heap startpos newitem pos = heap.set pos newitem := by
  rw [siftdown, if_pos h]; exact if_neg hlt

theorem siftdown_of_le (h : pos ≤ startpos) : siftdown heap startpos newitem pos = heap.set pos newitem := by
  rw [siftdown, if_neg (by omega)]

theorem siftupLoop_of_lt (h : 2 * pos + 1 < heap.length) :
    siftupLoop heap newitem pos =
      siftupLoop (heap.set pos (heap.getD (smallerChild heap newitem pos) newitem)) newitem
        (smallerChild heap newitem pos) := by
  rw [siftupLoop, if_pos h]

theorem siftupLoop_of_le (h : heap.length ≤ 2 * pos + 1) : siftupLoop heap newitem pos = (heap, pos) := by
  rw [siftupLoop, if_neg (by omega)]

end Steps

/-! ## Lengths and leaves -/

@[simp] theorem length_siftdown (heap : List α) (startpos : Nat) (newitem : α) (pos : Nat) :
    (siftdown heap startpos newitem pos).length = heap.length := by
  induction heap, startpos, newitem, pos using siftdown.induct with
  | case1 heap startpos newitem pos h hlt ih => rw [siftdown_of_lt h hlt, ih, List.length_set]
  | case2 heap startpos newitem pos h hlt => rw [siftdown_of_not_lt h hlt, List.length_set]
  | case3 heap startpos newitem pos h => rw [siftdown_of_le (by omega), List.length_set]

/-- The loop keeps the length and ends on a leaf inside the list. -/
theorem siftupLoop_spec (heap : List α) (newitem : α) (pos : Nat) (hpos : pos < heap.length) :
    (siftupLoop heap newitem pos).1.length = heap.length ∧
      (siftupLoop heap newitem pos).2 < heap.length ∧
      heap.length ≤ 2 * (siftupLoop heap newitem pos).2 + 1 := by
  induction heap, newitem, pos using siftupLoop.induct with
  | case1 heap newitem pos h ih =>
    have hc := smallerChild_bounds heap newitem pos
    rw [siftupLoop_of_lt h]
    simpa only [List.length_set] using ih (by rw [List.length_set]; omega)
  | case2 heap newitem pos h => rw [siftupLoop_of_le (by omega)]; dsimp only; omega

/-! ## The loops permute the list -/

/-- Writing `l[j]` at `i` and then `x` at `j` swaps: it is `x` at `i` with the items moved. -/
theorem perm_set_set {l : List α} {i j : Nat} (hi : i < l.length) (hj : j < l.length)
    (hij : i ≠ j) (x : α) : ((l.set i l[j]).set j x).Perm (l.set i x) := by
  rw [List.perm_iff_count]
  intro b
  have hmem : (if l[i] == b then 1 else 0) ≤ l.count b := by
    split
    · rename_i h
      exact List.count_pos_iff.mpr (beq_iff_eq.mp h ▸ List.getElem_mem hi)
    · exact Nat.zero_le _
  rw [List.count_set _ _ _ _ (by simpa using hj), List.count_set _ _ _ _ hi,
    List.count_set _ _ _ _ hi, List.getElem_set_ne hij]
  omega

theorem perm_siftdown {heap : List α} {startpos pos : Nat} {newitem : α} (hpos : pos < heap.length) :
    (siftdown heap startpos newitem pos).Perm (heap.set pos newitem) := by
  induction heap, startpos, newitem, pos using siftdown.induct with
  | case1 heap startpos newitem pos h hlt ih =>
    have hp : (pos - 1) / 2 < heap.length := by omega
    rw [siftdown_of_lt h hlt]
    refine (ih (by rw [List.length_set]; exact hp)).trans ?_
    rw [List.getD_eq_getElem _ _ hp]
    exact perm_set_set hpos hp (by omega) newitem
  | case2 heap startpos newitem pos h hlt => rw [siftdown_of_not_lt h hlt]
  | case3 heap startpos newitem pos h => rw [siftdown_of_le (by omega)]

theorem perm_siftupLoop {heap : List α} {newitem : α} {pos : Nat} (hpos : pos < heap.length) :
    ((siftupLoop heap newitem pos).1.set (siftupLoop heap newitem pos).2 newitem).Perm
      (heap.set pos newitem) := by
  induction heap, newitem, pos using siftupLoop.induct with
  | case1 heap newitem pos h ih =>
    have hc := smallerChild_bounds heap newitem pos
    have hcl : smallerChild heap newitem pos < heap.length := hc.2.2 h
    rw [siftupLoop_of_lt h]
    refine (ih (by rw [List.length_set]; exact hcl)).trans ?_
    rw [List.getD_eq_getElem _ _ hcl]
    exact perm_set_set hpos hcl (by omega) newitem
  | case2 heap newitem pos h => rw [siftupLoop_of_le (by omega)]

theorem perm_siftup {heap : List α} {newitem : α} {pos : Nat} (hpos : pos < heap.length) :
    (siftup heap newitem pos).Perm (heap.set pos newitem) := by
  have hs := siftupLoop_spec heap newitem pos hpos
  refine (perm_siftdown (by rw [List.length_set, hs.1]; exact hs.2.1)).trans ?_
  rw [List.set_set]
  exact perm_siftupLoop hpos

theorem perm_heappush (heap : List α) (item : α) : (heappush heap item).Perm (heap ++ [item]) := by
  refine (perm_siftdown (by simp)).trans ?_
  simp

@[simp] theorem length_heappush (heap : List α) (item : α) :
    (heappush heap item).length = heap.length + 1 := by
  simp [heappush]

theorem heapreplace_cons (top : α) (rest : List α) (item : α) :
    heapreplace (top :: rest) item = .ok (top, siftup (item :: rest) item 0) :=
  rfl

theorem perm_heapreplace (rest : List α) (item : α) :
    (siftup (item :: rest) item 0).Perm (item :: rest) :=
  (perm_siftup (by simp)).trans (by simp)

end Heapq

end JVectorBench

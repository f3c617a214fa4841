import JVectorBench.Heapq

/-!
# JVectorBench.Heapq.Order

The heap invariant `heap[k] <= heap[2*k+1]` and `heap[k] <= heap[2*k+2]` (`IsHeap`), and the
proof that `heappush` and `heapreplace` keep it, so that `heap[0]` is always a smallest item
(`root_le`).

The proof follows the two loops. Each carries a list with a *hole*: a position whose pairs
with its neighbours may be out of order.

* `UpHole heap pos` is what `_siftdown` keeps while `newitem` rises: every parent/child pair
  is in order except the one between `pos` and its parent, and that parent is at most the
  children of `pos`. One iteration swaps `pos` with its parent (`UpHole.swap`); at the root,
  or once the parent is not larger, the list is a heap (`UpHole.isHeap_of_root`,
  `UpHole.isHeap_of_le`).
* `DownHole heap pos` is what `_siftup`'s loop keeps while the hole descends: every pair
  that does not touch `pos` is in order, and the hole's parent is at most its children. One
  iteration moves the smaller child up (`DownHole.move`); at a leaf, writing the item there
  gives an `UpHole` (`DownHole.upHole_of_leaf`), and `_siftdown` finishes the job.

Pairs are read through `l[i]?`, so a pair past the end of the list holds vacuously and no
statement carries bounds it does not need.
-/

namespace JVectorBench

namespace Heapq

theorem getElem?_set_of_lt {α : Type} {l : List α} {i : Nat} (hi : i < l.length) (a : α) (m : Nat) :
    (l.set i a)[m]? = if m = i then some a else l[m]? := by
  rw [List.getElem?_set]
  by_cases h : m = i
  · subst h; simp [hi]
  · simp [h, Ne.symm h]

theorem lt_length_of_getElem? {α : Type} {l : List α} {i : Nat} {b : α} (h : l[i]? = some b) :
    i < l.length := by
  by_contra hn
  rw [List.getElem?_eq_none (by omega)] at h
  cases h

variable {α : Type} [LinearOrder α]

/-- The heapq invariant: `heap[k] <= heap[2*k+1]` and `heap[k] <= heap[2*k+2]` for every `k`
where both items exist. -/
def IsHeap (heap : List α) : Prop :=
  ∀ k a b, heap[k]? = some a →
    (heap[2 * k + 1]? = some b → a ≤ b) ∧ (heap[2 * k + 2]? = some b → a ≤ b)

/-- Only the positions of the list need checking. -/
theorem isHeap_iff_forall_lt (heap : List α) :
    IsHeap heap ↔ ∀ k < heap.length, ∀ a ∈ heap[k]?,
      (∀ b ∈ heap[2 * k + 1]?, a ≤ b) ∧ (∀ b ∈ heap[2 * k + 2]?, a ≤ b) := by
  constructor
  · intro h k _ a ha
    exact ⟨fun b => (h k a b ha).1, fun b => (h k a b ha).2⟩
  · intro h k a b ha
    exact ⟨(h k (lt_length_of_getElem? ha) a ha).1 b, (h k (lt_length_of_getElem? ha) a ha).2 b⟩

instance (heap : List α) : Decidable (IsHeap heap) :=
  decidable_of_iff' _ (isHeap_iff_forall_lt heap)

/-- Position `c` and its parent `(c - 1) >> 1` are in order (vacuous at the root and past the
end). -/
def OrderedAt (heap : List α) (c : Nat) : Prop :=
  0 < c → ∀ a b, heap[(c - 1) / 2]? = some a → heap[c]? = some b → a ≤ b

theorem isHeap_iff_orderedAt {heap : List α} : IsHeap heap ↔ ∀ c, OrderedAt heap c := by
  constructor
  · intro h c hc a b ha hb
    rcases Nat.even_or_odd c with ⟨m, rfl⟩ | ⟨m, rfl⟩
    · have hk : (m + m - 1) / 2 = m - 1 := by omega
      rw [hk] at ha
      exact (h (m - 1) a b ha).2 (by rwa [show 2 * (m - 1) + 2 = m + m by omega])
    · have hk : (2 * m + 1 - 1) / 2 = m := by omega
      rw [hk] at ha
      exact (h m a b ha).1 hb
  · intro h k a b ha
    exact ⟨fun hb => h (2 * k + 1) (by omega) a b (by rwa [show (2 * k + 1 - 1) / 2 = k by omega]) hb,
      fun hb => h (2 * k + 2) (by omega) a b (by rwa [show (2 * k + 2 - 1) / 2 = k by omega]) hb⟩

/-- The parent of the hole is at most the hole's children. -/
def GrandOrdered (heap : List α) (pos : Nat) : Prop :=
  0 < pos → ∀ c, 0 < c → (c - 1) / 2 = pos →
    ∀ a b, heap[(pos - 1) / 2]? = some a → heap[c]? = some b → a ≤ b

/-- What `_siftdown` keeps, with `newitem` written at `pos`. -/
structure UpHole (heap : List α) (pos : Nat) : Prop where
  except : ∀ c, c ≠ pos → OrderedAt heap c
  grand : GrandOrdered heap pos

/-- What `_siftup`'s loop keeps, with the hole at `pos`. -/
structure DownHole (heap : List α) (pos : Nat) : Prop where
  except : ∀ c, c ≠ pos → (c - 1) / 2 ≠ pos → OrderedAt heap c
  grand : GrandOrdered heap pos

theorem parent_lt {c : Nat} (h : 0 < c) : (c - 1) / 2 < c := by omega

/-! ## `_siftdown` -/

/-- One iteration of `_siftdown`: `newitem` at `pos` is below its parent, and the two swap. -/
theorem UpHole.swap {L : List α} {pos : Nat} (h : UpHole L pos) (hpos : pos < L.length)
    (h0 : 0 < pos) (hpl : (pos - 1) / 2 < L.length) (hlt : L[pos] < L[(pos - 1) / 2]) :
    UpHole ((L.set pos L[(pos - 1) / 2]).set ((pos - 1) / 2) L[pos]) ((pos - 1) / 2) := by
  have hp : (pos - 1) / 2 < pos := parent_lt h0
  have hx : L[pos]? = some L[pos] := List.getElem?_eq_getElem hpos
  have hy : L[(pos - 1) / 2]? = some L[(pos - 1) / 2] := List.getElem?_eq_getElem hpl
  have hread : ∀ m, ((L.set pos L[(pos - 1) / 2]).set ((pos - 1) / 2) L[pos])[m]? =
      if m = (pos - 1) / 2 then some L[pos] else if m = pos then some L[(pos - 1) / 2] else L[m]? := by
    intro m
    rw [getElem?_set_of_lt (by simpa using hpl), getElem?_set_of_lt hpos]
  constructor
  · intro c hc hc0 a b ha hb
    rw [hread] at ha hb
    by_cases hcp : c = pos
    · subst hcp
      simp only [hc, if_false, if_true] at ha hb
      simp only [Option.some.injEq] at ha hb
      subst ha hb; exact le_of_lt hlt
    · simp only [hc, hcp, if_false] at hb
      have hord := h.except c hcp hc0
      by_cases hq : (c - 1) / 2 = (pos - 1) / 2
      · simp only [hq, if_true, Option.some.injEq] at ha
        subst ha
        exact le_of_lt (lt_of_lt_of_le hlt (hord _ b (by rw [hq]; exact hy) hb))
      · by_cases hq' : (c - 1) / 2 = pos
        · simp only [hq', if_true, Option.some.injEq, show pos ≠ (pos - 1) / 2 by omega,
            if_false] at ha
          subst ha; exact h.grand h0 c hc0 hq' _ b hy hb
        · simp only [hq, hq', if_false] at ha
          exact hord a b ha hb
  · intro hq0 c hc0 hcq a b ha hb
    have hpp : (((pos - 1) / 2) - 1) / 2 < (pos - 1) / 2 := parent_lt hq0
    rw [hread, if_neg (by omega), if_neg (by omega)] at ha
    rw [hread, if_neg (by omega)] at hb
    have hq := h.except ((pos - 1) / 2) (by omega) hq0 a _ ha hy
    by_cases hcp : c = pos
    · simp only [hcp, if_true, Option.some.injEq] at hb
      subst hb; exact hq
    · simp only [hcp, if_false] at hb
      exact le_trans hq (h.except c hcp hc0 _ b (by rw [hcq]; exact hy) hb)

theorem UpHole.isHeap_of_root {L : List α} (h : UpHole L 0) : IsHeap L :=
  isHeap_iff_orderedAt.mpr fun c hc0 => h.except c (by omega) hc0

theorem UpHole.isHeap_of_le {L : List α} {pos : Nat} (h : UpHole L pos)
    (hle : ∀ a b, L[(pos - 1) / 2]? = some a → L[pos]? = some b → a ≤ b) : IsHeap L := by
  refine isHeap_iff_orderedAt.mpr fun c => ?_
  by_cases hc : c = pos
  · subst hc; exact fun _ => hle
  · exact h.except c hc

/-- `_siftdown(heap, 0, pos)` with `newitem` at `pos` ends in a heap. -/
theorem isHeap_siftdown {heap : List α} {startpos : Nat} {newitem : α} {pos : Nat}
    (hs : startpos = 0) (hpos : pos < heap.length) (h : UpHole (heap.set pos newitem) pos) :
    IsHeap (siftdown heap startpos newitem pos) := by
  induction heap, startpos, newitem, pos using siftdown.induct with
  | case1 heap startpos newitem pos h0 hlt ih =>
    have hp : (pos - 1) / 2 < heap.length := by omega
    rw [siftdown_of_lt h0 hlt]
    refine ih hs (by simpa using hp) ?_
    have hsw := h.swap (by simpa using hpos) (by omega) (by simpa using hp)
    simp only [List.getElem_set_self, List.getElem_set_ne (show pos ≠ (pos - 1) / 2 by omega),
      List.set_set] at hsw
    rw [List.getD_eq_getElem _ _ hp] at hlt ⊢
    exact hsw hlt
  | case2 heap startpos newitem pos h0 hlt =>
    rw [siftdown_of_not_lt h0 hlt]
    refine h.isHeap_of_le fun a b ha hb => ?_
    rw [getElem?_set_of_lt hpos, if_neg (by omega)] at ha
    rw [getElem?_set_of_lt hpos, if_pos rfl, Option.some.injEq] at hb
    rw [List.getD_eq_getElem?_getD, ha, Option.getD_some] at hlt
    exact hb ▸ not_lt.mp hlt
  | case3 heap startpos newitem pos h0 =>
    obtain rfl : pos = 0 := by omega
    rw [siftdown_of_le (by omega)]
    exact h.isHeap_of_root

/-! ## `_siftup` -/

/-- The child `_siftup` moves up is at most its sibling. -/
theorem smallerChild_le {H : List α} {x : α} {pos : Nat} :
    ∀ s, 0 < s → (s - 1) / 2 = pos → ∀ b, H[s]? = some b → H.getD (smallerChild H x pos) x ≤ b := by
  intro s hs0 hsp b hb
  have hgb : H.getD s x = b := by rw [List.getD_eq_getElem?_getD, hb, Option.getD_some]
  have hs : s = 2 * pos + 1 ∨ s = 2 * pos + 2 := by omega
  dsimp only [smallerChild]
  split
  · rename_i hr
    rcases hs with rfl | rfl
    · exact hgb ▸ not_lt.mp hr.2
    · exact hgb.le
  · rename_i hr
    rcases hs with rfl | rfl
    · exact hgb.le
    · have := lt_length_of_getElem? hb
      exact hgb ▸ (not_and_not_right.mp hr this).le

/-- One iteration of `_siftup`'s loop: the smaller child moves up into the hole. -/
theorem DownHole.move {H : List α} {pos : Nat} (h : DownHole H pos) (x : α)
    (hc : 2 * pos + 1 < H.length) :
    DownHole (H.set pos (H.getD (smallerChild H x pos) x)) (smallerChild H x pos) := by
  have hb := smallerChild_bounds H x pos
  have hcl := hb.2.2 hc
  have hcp : (smallerChild H x pos - 1) / 2 = pos := by omega
  have hz : H[smallerChild H x pos]? = some (H.getD (smallerChild H x pos) x) := by
    rw [List.getD_eq_getElem _ _ hcl]; exact List.getElem?_eq_getElem hcl
  have hread := getElem?_set_of_lt (show pos < H.length by omega) (H.getD (smallerChild H x pos) x)
  constructor
  · intro m hm hpm hm0 a b ha hb'
    rw [hread] at ha hb'
    by_cases hmp : m = pos
    · subst hmp
      rw [if_neg (by omega)] at ha
      rw [if_pos rfl, Option.some.injEq] at hb'
      exact hb' ▸ h.grand hm0 _ (by omega) hcp a _ ha hz
    · rw [if_neg hmp] at hb'
      by_cases hq : (m - 1) / 2 = pos
      · rw [if_pos hq, Option.some.injEq] at ha
        exact ha ▸ smallerChild_le m hm0 hq b hb'
      · rw [if_neg hq] at ha
        exact h.except m hmp hq hm0 a b ha hb'
  · intro _ m hm0 hmc a b ha hb'
    rw [hread, hcp, if_pos rfl, Option.some.injEq] at ha
    rw [hread, if_neg (by omega)] at hb'
    exact ha ▸ h.except m (by omega) (by omega) hm0 _ b (by rw [hmc]; exact hz) hb'

/-- At a leaf the hole takes the item, and what is left is `_siftdown`'s start. -/
theorem DownHole.upHole_of_leaf {H : List α} {pos : Nat} (h : DownHole H pos)
    (hpos : pos < H.length) (hleaf : H.length ≤ 2 * pos + 1) (x : α) : UpHole (H.set pos x) pos := by
  have hread := getElem?_set_of_lt hpos x
  constructor
  · intro c hc hc0 a b ha hb
    rw [hread, if_neg hc] at hb
    have := lt_length_of_getElem? hb
    have hq : (c - 1) / 2 ≠ pos := by omega
    rw [hread, if_neg hq] at ha
    exact h.except c hc hq hc0 a b ha hb
  · intro _ c _ hcq a b _ hb
    rw [hread, if_neg (by omega)] at hb
    have := lt_length_of_getElem? hb
    omega

theorem upHole_siftupLoop {H : List α} {x : α} {pos : Nat} (hpos : pos < H.length)
    (h : DownHole H pos) :
    UpHole ((siftupLoop H x pos).1.set (siftupLoop H x pos).2 x) (siftupLoop H x pos).2 := by
  induction H, x, pos using siftupLoop.induct with
  | case1 H x pos hc ih =>
    rw [siftupLoop_of_lt hc]
    exact ih (by rw [List.length_set]; exact (smallerChild_bounds H x pos).2.2 hc) (h.move x hc)
  | case2 H x pos hc =>
    rw [siftupLoop_of_le (by omega)]
    exact h.upHole_of_leaf hpos (by omega) x

/-- `_siftup(heap, 0)` from a hole at the root ends in a heap. -/
theorem isHeap_siftup {H : List α} {x : α} (hne : 0 < H.length) (h : DownHole H 0) :
    IsHeap (siftup H x 0) := by
  have hs := siftupLoop_spec H x 0 hne
  refine isHeap_siftdown rfl (by rw [List.length_set, hs.1]; exact hs.2.1) ?_
  rw [List.set_set]
  exact upHole_siftupLoop hne h

/-! ## `heappush` and `heapreplace` -/

/-- Appending to a heap leaves `_siftdown`'s start at the new last position. -/
theorem upHole_append {heap : List α} (h : IsHeap heap) (item : α) :
    UpHole (heap ++ [item]) heap.length := by
  have hord := isHeap_iff_orderedAt.mp h
  have hread : ∀ m, m ≠ heap.length → (heap ++ [item])[m]? = heap[m]? := by
    intro m hm
    by_cases hlt : m < heap.length
    · exact List.getElem?_append_left hlt
    · rw [List.getElem?_eq_none (by simp; omega), List.getElem?_eq_none (by omega)]
  constructor
  · intro c hc hc0 a b ha hb
    rw [hread c hc] at hb
    have := lt_length_of_getElem? hb
    rw [hread _ (by omega)] at ha
    exact hord c hc0 a b ha hb
  · intro _ c _ hcq a b _ hb
    have := lt_length_of_getElem? hb
    simp at this
    omega

theorem isHeap_heappush {heap : List α} (h : IsHeap heap) (item : α) :
    IsHeap (heappush heap item) :=
  isHeap_siftdown rfl (by simp) (by simpa using upHole_append h item)

/-- Overwriting the root of a heap leaves `_siftup`'s start. -/
theorem downHole_set_zero {heap : List α} (h : IsHeap heap) (item : α) : DownHole (heap.set 0 item) 0 := by
  have hord := isHeap_iff_orderedAt.mp h
  constructor
  · intro c hc hq hc0 a b ha hb
    rw [List.getElem?_set_ne (Ne.symm hc)] at hb
    rw [List.getElem?_set_ne (Ne.symm hq)] at ha
    exact hord c hc0 a b ha hb
  · intro h0; omega

theorem isHeap_heapreplace {top : α} {rest : List α} (h : IsHeap (top :: rest)) (item : α) :
    IsHeap (siftup (item :: rest) item 0) :=
  isHeap_siftup (by simp) (downHole_set_zero h item)

/-- The root of a heap is at most every item: heapq's `heap[0]` is its smallest. -/
theorem root_le {heap : List α} (h : IsHeap heap) {r : α} (hr : heap[0]? = some r) :
    ∀ x ∈ heap, r ≤ x := by
  have hord := isHeap_iff_orderedAt.mp h
  have key : ∀ (i : Nat) (x : α), heap[i]? = some x → r ≤ x := by
    intro i
    induction i using Nat.strongRecOn with
    | ind i ih =>
      intro x hx
      rcases Nat.eq_zero_or_pos i with rfl | hi
      · rw [hr, Option.some.injEq] at hx; exact hx ▸ le_rfl
      · have hpl : (i - 1) / 2 < heap.length := by have := lt_length_of_getElem? hx; omega
        have hp := List.getElem?_eq_getElem hpl
        exact le_trans (ih _ (parent_lt hi) _ hp) (hord i hi _ x hp hx)
  intro x hx
  obtain ⟨i, hi⟩ := List.mem_iff_getElem?.mp hx
  exact key i x hi

/-- **`heappush` and `heapreplace` on a heap.** `heappush` gives a heap of the old entries and
the new item. `heapreplace` raises `IndexError` on an empty list; on a heap it returns the
smallest entry and leaves a heap of the other entries and the new item. -/
theorem heappush_heapreplace_spec {heap : List α} (hh : IsHeap heap) (item : α) :
    IsHeap (heappush heap item) ∧ (heappush heap item).Perm (heap ++ [item]) ∧
    (heap = [] → heapreplace heap item = .error (.indexError "index out of range")) ∧
    ∀ top rest, heap = top :: rest →
      (∀ x ∈ heap, top ≤ x) ∧
      ∃ heap', heapreplace heap item = .ok (top, heap') ∧ IsHeap heap' ∧ heap'.Perm (item :: rest) := by
  refine ⟨isHeap_heappush hh item, perm_heappush heap item, fun h => by rw [h]; rfl, ?_⟩
  rintro top rest rfl
  exact ⟨root_le hh List.getElem?_cons_zero, _, heapreplace_cons top rest item,
    isHeap_heapreplace hh item, perm_heapreplace rest item⟩

theorem heappush_heapreplace_spec_two :
    IsHeap (heappush [1, 3] 2) ∧ (heappush [1, 3] 2).Perm ([1, 3] ++ [2]) ∧
    ([1, 3] = [] → heapreplace [1, 3] 2 = .error (.indexError "index out of range")) ∧
    ∀ top rest, [1, 3] = top :: rest →
      (∀ x ∈ [1, 3], top ≤ x) ∧
      ∃ heap', heapreplace [1, 3] 2 = .ok (top, heap') ∧ IsHeap heap' ∧ heap'.Perm (2 :: rest) :=
  @heappush_heapreplace_spec Nat _ [1, 3] (by decide) 2

end Heapq

end JVectorBench

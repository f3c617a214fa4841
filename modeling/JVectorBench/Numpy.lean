import JVectorBench.Python

/-!
# JVectorBench.Numpy

The three numpy operations `GroundTruthTracker.update` computes distances with, on 1-d arrays
(`List R`), over an ordered field `R` standing for float64:

1. `query_vector - vector_np` broadcasts: shapes `(n,)` and `(m,)` combine when `n = m` or
   one of them is `1`, and numpy raises `ValueError` otherwise (`sub`);
2. `np.linalg.norm(x)` is `sqrt(dot(x, x))` (`norm`); the square root is a parameter, `Real.sqrt`
   when `R = ℝ`;
3. `np.dot(a, b)` of two 1-d arrays needs equal lengths; it does not broadcast (`dot`).

The error messages are numpy's.
-/

namespace JVectorBench

namespace Numpy

variable {R : Type} [LinearOrderedField R]

/-- numpy's `ValueError` for an operation on 1-d shapes `(n,)` and `(m,)` that do not
broadcast. -/
def broadcastError (n m : Nat) : PyError :=
  .valueError s!"operands could not be broadcast together with shapes ({n},) ({m},) "

/-- numpy's `ValueError` for `np.dot` of 1-d arrays of lengths `n ≠ m`. -/
def alignError (n m : Nat) : PyError :=
  .valueError s!"shapes ({n},) and ({m},) not aligned: {n} (dim 0) != {m} (dim 0)"

/-- `a - b` for 1-d arrays, with numpy broadcasting. -/
def sub (a b : List R) : Except PyError (List R) :=
  let n := a.length
  let m := b.length
  if n = m then .ok (List.zipWith (· - ·) a b)
  else if n = 1 then .ok (b.map fun y => a.headD 0 - y)
  else if m = 1 then .ok (a.map fun x => x - b.headD 0)
  else .error (broadcastError n m)

/-- `np.dot(a, b)` for 1-d arrays: the inner product, `ValueError` on unequal lengths. -/
def dot (a b : List R) : Except PyError R :=
  let n := a.length
  let m := b.length
  if n = m then .ok (List.zipWith (· * ·) a b).sum
  else .error (alignError n m)

/-- `np.linalg.norm(x)` for a 1-d array: `sqrt` of the sum of squares. -/
def norm (sqrt : R → R) (x : List R) : R :=
  sqrt (List.zipWith (· * ·) x x).sum

/-- Numpy accepts `a - b` exactly on broadcastable shapes. -/
theorem sub_isOk_iff (a b : List R) :
    (∃ c, sub a b = .ok c) ↔ a.length = b.length ∨ a.length = 1 ∨ b.length = 1 := by
  dsimp only [sub]
  split_ifs <;> simp_all

theorem dot_of_length_eq {a b : List R} (h : a.length = b.length) :
    dot a b = .ok (List.zipWith (· * ·) a b).sum := by
  simp [dot, h]

theorem dot_of_length_ne {a b : List R} (h : a.length ≠ b.length) :
    dot a b = .error (alignError a.length b.length) := by
  simp [dot, h]

theorem sub_of_not_broadcast {a b : List R}
    (h : ¬ (a.length = b.length ∨ a.length = 1 ∨ b.length = 1)) :
    sub a b = .error (broadcastError a.length b.length) := by
  simp only [not_or] at h
  simp [sub, h.1, h.2.1, h.2.2]

theorem sub_of_length_eq {a b : List R} (h : a.length = b.length) :
    sub a b = .ok (List.zipWith (· - ·) a b) := by
  simp [sub, h]

/-- The sum of squares under the square root is never negative. -/
theorem sum_mul_self_nonneg : ∀ v : List R, 0 ≤ (List.zipWith (· * ·) v v).sum
  | [] => by simp
  | a :: v => by
    simp only [List.zipWith_cons_cons, List.sum_cons]
    exact add_nonneg (mul_self_nonneg a) (sum_mul_self_nonneg v)

end Numpy

end JVectorBench

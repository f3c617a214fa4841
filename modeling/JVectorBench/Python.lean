import Mathlib

/-!
# JVectorBench.Python

The pieces of the Python runtime that `create_and_test_large_index.py` leans on and that the
model needs to state what the script does on every input, including the inputs where it fails:

1. the exceptions a call can raise (`PyError`), with the messages Python gives them;
2. list subscription `l[i]`, which counts a negative `i` from the end and raises
   `IndexError` outside the list (`getItem`);
3. a method that mutates its receiver in place keeps the mutations it made before raising,
   so a call's `Outcome` carries the receiver's state on both paths.

Python's `int`s are `Int` here, with Python's floor division and modulo (`Int.fdiv`,
`Int.fmod`) wherever the script divides.
-/

namespace JVectorBench

/-- The exceptions the modelled code can raise, each with its message. -/
inductive PyError where
  | indexError (msg : String)
  | valueError (msg : String)
  | zeroDivisionError (msg : String)
  deriving DecidableEq, Repr

/-- `l[i]`: a negative index counts from the end; `IndexError` outside `-len(l) <= i < len(l)`. -/
def getItem {α : Type} (l : List α) (i : Int) : Except PyError α :=
  let j := if i < 0 then i + l.length else i
  match (if 0 ≤ j then l[j.toNat]? else none) with
  | some a => .ok a
  | none => .error (.indexError "list index out of range")

/-- At a non-negative index, `l[i]` reads `l[i]?`. -/
theorem getItem_natCast {α : Type} (l : List α) (n : Nat) :
    getItem l n = match l[n]? with
      | some a => .ok a
      | none => .error (.indexError "list index out of range") := by
  have h1 : ¬ (n : Int) < 0 := by omega
  have h2 : (0 : Int) ≤ n := by omega
  simp only [getItem, h1, h2, if_false, if_true, Int.toNat_natCast]

theorem getItem_of_getElem? {α : Type} {l : List α} {n : Nat} {a : α} (h : l[n]? = some a) :
    getItem l n = .ok a := by
  rw [getItem_natCast, h]

@[simp] theorem getItem_cons_zero {α : Type} (a : α) (l : List α) : getItem (a :: l) 0 = .ok a :=
  getItem_of_getElem? (n := 0) (by simp)

@[simp] theorem getItem_nil {α : Type} (i : Int) :
    getItem ([] : List α) i = .error (.indexError "list index out of range") := by
  simp [getItem]

@[simp] theorem ok_bind {ε α β : Type} (a : α) (f : α → Except ε β) : (Except.ok a >>= f) = f a :=
  rfl

/-- `l[i]` succeeds exactly on `-len(l) <= i < len(l)`. -/
theorem getItem_isOk_iff {α : Type} (l : List α) (i : Int) :
    (∃ a, getItem l i = .ok a) ↔ -(l.length : Int) ≤ i ∧ i < l.length := by
  have hj : (0 ≤ (if i < 0 then i + l.length else i) ∧ (if i < 0 then i + l.length else i) < l.length) ↔
      -(l.length : Int) ≤ i ∧ i < l.length := by
    split_ifs <;> omega
  rw [← hj, getItem]
  generalize (if i < 0 then i + (l.length : Int) else i) = j
  by_cases h0 : 0 ≤ j
  · rw [if_pos h0]
    cases h : l[j.toNat]? with
    | none => rw [List.getElem?_eq_none_iff] at h; simp; omega
    | some a => have := (List.getElem?_eq_some_iff.mp h).1; simp; omega
  · simp [h0]

/-- The only error `l[i]` raises is `IndexError`. -/
theorem getItem_error {α : Type} {l : List α} {i : Int} {e : PyError} (h : getItem l i = .error e) :
    e = .indexError "list index out of range" := by
  revert h
  unfold getItem
  generalize (if i < 0 then i + (l.length : Int) else i) = j
  dsimp only
  split <;> intro h <;> cases h
  rfl

/-- What `l[i]` returns is an item of `l`. -/
theorem mem_of_getItem {α : Type} {l : List α} {i : Int} {a : α} (h : getItem l i = .ok a) :
    a ∈ l := by
  revert h
  unfold getItem
  generalize (if i < 0 then i + (l.length : Int) else i) = j
  dsimp only
  split
  · rename_i a' h'
    intro h
    cases h
    split_ifs at h'
    exact List.getElem?_mem h'
  · intro h; cases h

@[simp] theorem error_bind {ε α β : Type} (e : ε) (f : α → Except ε β) :
    (Except.error e >>= f) = .error e :=
  rfl

@[simp] theorem map_ok {ε α β : Type} (f : α → β) (a : α) : (Except.ok a : Except ε α).map f = .ok (f a) :=
  rfl

@[simp] theorem map_error {ε α β : Type} (f : α → β) (e : ε) :
    (Except.error e : Except ε α).map f = .error e :=
  rfl

@[simp] theorem bind_ok {ε α : Type} (x : Except ε α) : (x >>= fun a => Except.ok a) = x := by
  cases x <;> rfl

theorem bind_eq_ok {ε α β : Type} {x : Except ε α} {f : α → Except ε β} {b : β}
    (h : (x >>= f) = .ok b) : ∃ a, x = .ok a ∧ f a = .ok b := by
  cases x with
  | error e => cases h
  | ok a => exact ⟨a, rfl, h⟩

/-- What a call that mutates its receiver in place leaves behind: the receiver, and the
exception it raised, if any. The call *completes* when `raised = none`. -/
structure Outcome (σ : Type) where
  state : σ
  raised : Option PyError

end JVectorBench

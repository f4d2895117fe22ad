import Mathlib.Data.List.TakeDrop
import Mathlib.Tactic.SplitIfs

/-!
# Counted output

A loop counts what it puts out and stops when the count has reached a
maximum. It looks at the count after each output, so that it puts out one
item even when the maximum is 0.
-/

set_option autoImplicit false

namespace RlStatsApi.CountedOutput

variable {α : Type*} (most : Option ℕ)

def reached (count : ℕ) : Bool := most.any (fun m => decide (m ≤ count))

/-- The count at which the loop stops, when it starts at 0. -/
def lastCount (m : ℕ) : ℕ := max m 1

/-- A count at which the loop is still running. -/
def Running (count : ℕ) : Prop := ∀ m, most = some m → count < lastCount m

/-- What is put out of the items from a count on. -/
def bounded (count : ℕ) (xs : List α) : List α :=
  match most with
  | none => xs
  | some m => xs.take (lastCount m-count)

theorem running_zero : Running most 0 := by
  intro m _
  exact Nat.lt_of_lt_of_le Nat.zero_lt_one (Nat.le_max_right m 1)

@[simp] theorem bounded_nil (count : ℕ) : bounded most count ([] : List α) = [] := by
  unfold bounded
  split
  · rfl
  · exact List.take_nil

@[simp] theorem bounded_none (count : ℕ) (xs : List α) : bounded none count xs = xs := rfl

theorem bounded_zero (m : ℕ) (xs : List α) : bounded (some m) 0 xs = xs.take (lastCount m) := rfl

theorem mem_bounded (count : ℕ) (xs : List α) (x : α) (h : x ∈ bounded most count xs) : x ∈ xs := by
  unfold bounded at h
  split at h
  · exact h
  · exact List.mem_of_mem_take h

theorem bounded_bounded (count : ℕ) (xs : List α) :
    bounded most count (bounded most count xs) = bounded most count xs := by
  cases most with
  | none => rfl
  | some m => exact List.take_eq_self_iff _ |>.mpr (List.length_take_le _ xs)

variable {most} {count : ℕ} (h : Running most count)
include h

theorem running_succ_iff : Running most (count+1) ↔ reached most (count+1) = false := by
  cases most with
  | none => simp [Running, reached]
  | some m =>
    have hm : count < max m 1 := h m rfl
    simp only [Running, lastCount, Option.some.injEq, forall_eq', reached, Option.any_some,
      decide_eq_false_iff_not]
    omega

/-- The items that leave the loop running are all put out. -/
theorem bounded_append_running (xs ys : List α) (hr : Running most (count+xs.length)) :
    bounded most count (xs++ys) = xs++bounded most (count+xs.length) ys := by
  cases most with
  | none => rfl
  | some m =>
    have hm := hr m rfl
    change (xs++ys).take _ = xs++ys.take _
    rw [List.take_append, List.take_of_length_le (by omega), Nat.sub_sub]

theorem bounded_append_stopped (xs ys : List α) (hr : ¬ Running most (count+xs.length)) :
    bounded most count (xs++ys) = bounded most count xs := by
  cases most with
  | none => exact absurd (fun m hm => by cases hm) hr
  | some m =>
    have hm : lastCount m ≤ count+xs.length := by
      by_contra hlt
      exact hr (fun m' he => by cases he; omega)
    change (xs++ys).take _ = xs.take _
    rw [List.take_append_of_le_length (by omega)]

theorem bounded_cons_stopped (x : α) (xs : List α) (hr : reached most (count+1) = true) :
    bounded most count (x::xs) = [x] := by
  have hn : ¬ Running most (count+[x].length) := by
    rw [List.length_singleton, running_succ_iff h, hr]
    simp
  rw [← List.singleton_append, bounded_append_stopped h [x] xs hn]
  cases most with
  | none => rfl
  | some m =>
    have hm := h m rfl
    change [x].take _ = [x]
    rw [List.take_of_length_le (by simp; omega)]

theorem bounded_cons_running (x : α) (xs : List α) (hr : reached most (count+1) = false) :
    bounded most count (x::xs) = x::bounded most (count+1) xs :=
  bounded_append_running h [x] xs ((running_succ_iff h).mpr hr)

omit h in
/-- A maximum is met exactly unless it is 0 and there is something to put out. -/
theorem bounded_take_iff (m : ℕ) (xs : List α) :
    bounded (some m) 0 xs = xs.take m ↔ 1 ≤ m ∨ xs = [] := by
  rw [bounded_zero, lastCount]
  cases m with
  | zero => simp
  | succ m => simp

end RlStatsApi.CountedOutput

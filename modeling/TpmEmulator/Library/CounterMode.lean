import Mathlib.Data.List.Basic
import Mathlib.Algebra.Order.Ring.Nat
import Mathlib.Tactic.Common

/-!
Streams of numbered blocks. A generator in counter mode makes block after block, all of
one length, and keeps as many cells as it is asked for. What it keeps does not depend on
how many blocks are made beyond those that are needed, and the pieces that it copies
tile the output.
-/
namespace CounterMode
variable {α : Type} {block : Nat → List α} {h n : Nat}

/-- The blocks 1 to `k`, one behind the other. -/
def stream (block : Nat → List α) (k : Nat) : List α :=
  (List.range k).flatMap fun i => block (i + 1)

/-- The number of blocks of `h` cells that it takes to have `n` cells. -/
def blocks (h n : Nat) : Nat := (n + h - 1) / h

@[simp] theorem stream_zero (block : Nat → List α) : stream block 0 = [] := rfl

theorem stream_succ (block : Nat → List α) (k : Nat) :
    stream block (k + 1) = stream block k ++ block (k + 1) := by
  simp [stream, List.range_succ]

theorem length_stream (hlen : ∀ i, (block i).length = h) (k : Nat) :
    (stream block k).length = k * h := by
  induction k with
  | zero => rw [Nat.zero_mul]; rfl
  | succ k ih => rw [stream_succ, List.length_append, ih, hlen, Nat.succ_mul]

theorem lt_blocks_iff (hh : 0 < h) {k : Nat} : k < blocks h n ↔ k * h < n := by
  rw [blocks, Nat.lt_iff_add_one_le, Nat.le_div_iff_mul_le hh, Nat.succ_mul]
  omega

theorem le_blocks_mul (hh : 0 < h) : n ≤ blocks h n * h := by
  have hlast := lt_blocks_iff hh (n := n) (k := blocks h n)
  omega

theorem blocks_le (hh : 0 < h) : blocks h n ≤ n := by
  refine Nat.le_of_not_lt fun hlt => ?_
  have hmul := (lt_blocks_iff hh).mp hlt
  exact absurd hmul (Nat.not_lt.mpr (Nat.le_mul_of_pos_right n hh))

/-- The part of the stream that is kept, when one more block is made. -/
theorem take_stream_succ (hlen : ∀ i, (block i).length = h) {k : Nat} (hk : k * h ≤ n) :
    (stream block (k + 1)).take n = stream block k ++ (block (k + 1)).take (n - k * h) := by
  have hfits : (stream block k).length ≤ n := by rwa [length_stream hlen]
  rw [stream_succ, List.take_append, List.take_of_length_le hfits, length_stream hlen]

/-- Blocks behind the cells that are kept do not matter. -/
theorem take_stream (hlen : ∀ i, (block i).length = h) {k k' : Nat} (hk : k ≤ k')
    (hn : n ≤ k * h) : (stream block k').take n = (stream block k).take n := by
  induction k', hk using Nat.le_induction with
  | base => rfl
  | succ k' hk ih =>
      have hlong : n ≤ (stream block k').length := by
        rw [length_stream hlen]
        exact hn.trans (Nat.mul_le_mul_right h hk)
      rw [stream_succ, List.take_append_of_le_length hlong, ih]

/-- The pieces that are copied, from each block what is still missing, tile the output. -/
theorem tiles (h n k : Nat) :
    ((List.range k).flatMap fun i => List.range' (i * h) (min h (n - i * h))) =
      List.range (min (k * h) n) := by
  induction k with
  | zero => rw [Nat.zero_mul, Nat.zero_min]; rfl
  | succ k ih =>
      have hnext : min ((k + 1) * h) n = min (k * h) n + min h (n - k * h) := by
        rw [Nat.succ_mul]
        omega
      rw [List.range_succ, List.flatMap_append, ih, List.flatMap_singleton, hnext,
        List.range_eq_range', List.range_eq_range', ← List.range'_append_1, Nat.zero_add]
      by_cases hk : k * h ≤ n
      · rw [Nat.min_eq_left hk]
      · rw [show min h (n - k * h) = 0 by omega, List.range'_zero, List.range'_zero]

end CounterMode

import Mathlib.Data.List.Basic
import Mathlib.Algebra.Order.Ring.Nat
import Mathlib.Tactic.Common

/-!
Memory as a total map from positions to cells, with the two operations a block
copy needs: reading a slice and storing a list of cells. A memory has no
length of its own. An access past the end of an array is therefore visible in
the model, and a bound on an access is a theorem and not a typing condition.
-/
namespace CellMemory
variable {α : Type}

/-- The `count` cells from `start` on, in order. -/
def slice (m : Nat → α) (start count : Nat) : List α :=
  (List.range count).map fun i => m (start + i)

/-- Block copy of `cells` to the positions from `start` on. -/
def store (m : Nat → α) (start : Nat) (cells : List α) : Nat → α :=
  fun i => if start ≤ i then (cells[i - start]?).getD (m i) else m i

/-- The memory seen through a pointer that is `start` cells further on. -/
def advance (m : Nat → α) (start : Nat) : Nat → α :=
  fun i => m (start + i)

@[simp] theorem advance_apply (m : Nat → α) (start i : Nat) :
    advance m start i = m (start + i) := rfl

theorem advance_advance (m : Nat → α) (a b : Nat) :
    advance (advance m a) b = advance m (a + b) := by
  funext i
  simp [advance, Nat.add_assoc]

@[simp] theorem length_slice (m : Nat → α) (start count : Nat) :
    (slice m start count).length = count := by
  simp [slice]

@[simp] theorem slice_zero (m : Nat → α) (start : Nat) : slice m start 0 = [] := rfl

theorem slice_advance (m : Nat → α) (a start count : Nat) :
    slice (advance m a) start count = slice m (a + start) count := by
  simp [slice, advance, Nat.add_assoc]

theorem getElem?_slice (m : Nat → α) (start : Nat) {count i : Nat} (h : i < count) :
    (slice m start count)[i]? = some (m (start + i)) := by
  simp [slice, h]

theorem getElem_slice (m : Nat → α) (start count i : Nat)
    (h : i < (slice m start count).length) :
    (slice m start count)[i] = m (start + i) := by
  simp [slice]

theorem slice_congr {m m' : Nat → α} {start start' count : Nat}
    (h : ∀ i, i < count → m (start + i) = m' (start' + i)) :
    slice m start count = slice m' start' count := by
  apply List.map_congr_left
  intro i hi
  exact h i (List.mem_range.mp hi)

theorem slice_add (m : Nat → α) (start a b : Nat) :
    slice m start (a + b) = slice m start a ++ slice m (start + a) b := by
  simp [slice, List.range_add, Nat.add_assoc]

theorem slice_append_slice (m : Nat → α) {a b : Nat} (h : a ≤ b) :
    slice m 0 a ++ slice m a (b - a) = slice m 0 b := by
  have hadd := slice_add m 0 a (b - a)
  rw [Nat.add_sub_cancel' h, Nat.zero_add] at hadd
  exact hadd.symm

/-- A list as memory holds each of its parts where it starts. -/
theorem slice_getD_append (a b c : List α) (d : α) :
    slice ((a ++ (b ++ c)).getD · d) a.length b.length = b := by
  apply List.ext_getElem
  · rw [length_slice]
  · intro i _ hi
    rw [getElem_slice, List.getD_eq_getElem?_getD, List.getElem?_append_right (by omega),
      Nat.add_sub_cancel_left, List.getElem?_append_left hi, List.getElem?_eq_getElem hi]
    rfl

theorem take_slice (m : Nat → α) (start : Nat) {n count : Nat} (h : n ≤ count) :
    (slice m start count).take n = slice m start n := by
  obtain ⟨rest, rfl⟩ := Nat.exists_eq_add_of_le h
  rw [slice_add, List.take_left' (length_slice m start n)]

theorem store_inside (m : Nat → α) (start : Nat) (cells : List α) (i : Nat)
    (h : i < cells.length) : store m start cells (start + i) = cells[i] := by
  simp [store, h]

theorem store_outside (m : Nat → α) (start : Nat) (cells : List α) (i : Nat)
    (h : i < start ∨ start + cells.length ≤ i) : store m start cells i = m i := by
  unfold store
  split
  · rename_i hle
    rw [List.getElem?_eq_none (by omega)]
    rfl
  · rfl

@[simp] theorem store_nil (m : Nat → α) (start : Nat) : store m start [] = m := by
  funext i
  exact store_outside m start [] i (by simp only [List.length_nil]; omega)

/-- Storing at a position behind a base address, seen from the base address. -/
theorem store_shift {m m' : Nat → α} {base start i : Nat} (cells : List α)
    (h : m (base + i) = m' i) :
    store m (base + start) cells (base + i) = store m' start cells i := by
  simp only [store, Nat.add_le_add_iff_left, Nat.add_sub_add_left, h]

theorem store_append (m : Nat → α) (start : Nat) (a b : List α) :
    store m start (a ++ b) = store (store m start a) (start + a.length) b := by
  funext i
  by_cases ha : i < start + a.length
  · rw [store_outside _ (start + a.length) b i (Or.inl ha)]
    unfold store
    split
    · rw [List.getElem?_append_left (by omega)]
    · rfl
  · by_cases hb : i < start + a.length + b.length
    · obtain ⟨k, rfl⟩ : ∃ k, i = start + a.length + k := ⟨i - (start + a.length), by omega⟩
      have hk : k < b.length := by omega
      rw [store_inside _ _ b k hk, Nat.add_assoc start a.length k,
        store_inside m start (a ++ b) (a.length + k) (by simp only [List.length_append]; omega)]
      simp
    · rw [store_outside _ _ b i (by omega), store_outside _ _ a i (by omega),
        store_outside _ _ (a ++ b) i (by simp only [List.length_append]; omega)]

/-- A slice inside the stored block reads the block. -/
theorem slice_store_inside (m : Nat → α) (start : Nat) (cells : List α) (k n : Nat)
    (h : k + n ≤ cells.length) :
    slice (store m start cells) (start + k) n = (cells.drop k).take n := by
  apply List.ext_getElem
  · simp only [length_slice, List.length_take, List.length_drop]
    omega
  · intro i h₁ h₂
    rw [length_slice] at h₁
    rw [getElem_slice, Nat.add_assoc, store_inside m start cells (k + i) (by omega)]
    simp

theorem slice_store_same (m : Nat → α) (start : Nat) (cells : List α) :
    slice (store m start cells) start cells.length = cells := by
  have h := slice_store_inside m start cells 0 cells.length (by omega)
  simpa using h

/-- Frame rule: a slice that does not meet the stored block is unchanged. -/
theorem slice_store_disjoint (m : Nat → α) (start : Nat) (cells : List α) (s n : Nat)
    (h : s + n ≤ start ∨ start + cells.length ≤ s) :
    slice (store m start cells) s n = slice m s n := by
  apply slice_congr
  intro i hi
  exact store_outside m start cells (s + i) (by omega)

/-- Storing what is already there changes nothing. -/
theorem store_slice_self (m : Nat → α) (start n : Nat) :
    store m start (slice m start n) = m := by
  funext i
  by_cases h : i < start ∨ start + n ≤ i
  · exact store_outside m start _ i (by simpa only [length_slice] using h)
  · obtain ⟨k, rfl⟩ : ∃ k, i = start + k := ⟨i - start, by omega⟩
    rw [store_inside m start _ k (by rw [length_slice]; omega), getElem_slice]

/-- Memories that agree below a bound agree up to the end of a block stored at or
below it. -/
theorem store_agree {m m' : Nat → α} {n : Nat} (h : ∀ i < n, m' i = m i) {start : Nat}
    (cells : List α) (hstart : start ≤ n) :
    ∀ i < max n (start + cells.length), store m' start cells i = store m start cells i := by
  intro i hi
  by_cases hout : i < start ∨ start + cells.length ≤ i
  · rw [store_outside m' start cells i hout, store_outside m start cells i hout]
    exact h i (by omega)
  · obtain ⟨k, rfl⟩ : ∃ k, i = start + k := ⟨i - start, by omega⟩
    rw [store_inside m' start cells k (by omega), store_inside m start cells k (by omega)]

/-- A store seen through a pointer that is not behind it. -/
theorem advance_store (m : Nat → α) (a start : Nat) (cells : List α) :
    advance (store m (a + start) cells) a = store (advance m a) start cells := by
  funext i
  simp only [advance, store, Nat.add_le_add_iff_left, Nat.add_sub_add_left]

/-- A pointer past the end of the stored block does not see it. -/
theorem advance_store_past (m : Nat → α) (start : Nat) (cells : List α) {a : Nat}
    (h : start + cells.length ≤ a) : advance (store m start cells) a = advance m a := by
  funext i
  exact store_outside m start cells (a + i) (Or.inr (by omega))

/-- Storing the image of one cell, seen in a slice from the beginning. -/
theorem slice_store_cell (m : Nat → α) (f : α → α) (i n : Nat) :
    slice (store m i [f (m i)]) 0 n = (slice m 0 n).modify i f := by
  apply List.ext_getElem
  · rw [List.length_modify, length_slice, length_slice]
  · intro k h₁ h₂
    rw [List.getElem_modify, getElem_slice, getElem_slice, Nat.zero_add]
    split
    · rename_i heq
      subst heq
      exact store_inside m i [f (m i)] 0 (by simp)
    · rename_i hne
      exact store_outside m i _ k (by simp only [List.length_singleton]; omega)

end CellMemory

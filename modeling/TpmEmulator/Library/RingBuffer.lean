import Mathlib.Data.List.Range
import Mathlib.Logic.Function.Basic
import Mathlib.Tactic.Common

/-!
A circular buffer with a read position, a count and two status flags that are
maintained incrementally: the producer clears `empty` and raises `full`, the
consumer clears `full` and raises `empty`. Neither operation checks for room,
so a put into a full buffer is part of the model. Its contents are the counted
cells from the read position on.
-/
namespace RingBuffer
variable {α : Type}

structure Fifo (α : Type) where
  cells : Nat → α
  depth : Nat
  pos : Nat
  count : Nat
  empty : Bool
  full : Bool

namespace Fifo

def put (r : Fifo α) (v : α) : Fifo α :=
  { r with
    cells := Function.update r.cells ((r.pos + r.count) % r.depth) v
    count := r.count + 1
    empty := false
    full := if r.count + 1 = r.depth then true else r.full }

/-- The consumer's step. On an empty buffer it moves nothing. -/
def get (r : Fifo α) : Fifo α :=
  { r with
    pos := if 0 < r.count then (r.pos + 1) % r.depth else r.pos
    count := r.count - 1
    empty := if r.count - 1 = 0 then true else r.empty
    full := false }

def clear (r : Fifo α) : Fifo α :=
  { r with pos := 0, count := 0, empty := true, full := false }

def putAll (r : Fifo α) (vs : List α) : Fifo α := vs.foldl put r

def contents (r : Fifo α) : List α :=
  (List.range r.count).map fun k => r.cells ((r.pos + k) % r.depth)

/-- What no operation can break, a put into a full buffer included. -/
structure Positioned (r : Fifo α) : Prop where
  pos_lt : r.pos < r.depth
  empty_iff : r.empty = true ↔ r.count = 0
  full_count : r.full = true → 0 < r.count

/-- The count is within the depth and both flags say what it is. -/
structure WellFormed (r : Fifo α) : Prop where
  count_le : r.count ≤ r.depth
  pos_lt : r.pos < r.depth
  empty_iff : r.empty = true ↔ r.count = 0
  full_iff : r.full = true ↔ r.count = r.depth

theorem Positioned.put {r : Fifo α} (h : r.Positioned) (v : α) : (r.put v).Positioned where
  pos_lt := h.pos_lt
  empty_iff := by simp [Fifo.put]
  full_count := fun _ => Nat.succ_pos r.count

theorem Positioned.get {r : Fifo α} (h : r.Positioned) : r.get.Positioned where
  pos_lt := by
    have hpos := h.pos_lt
    simp only [Fifo.get]
    split
    · exact Nat.mod_lt _ (by omega)
    · exact hpos
  empty_iff := by
    have hempty := h.empty_iff
    simp only [Fifo.get]
    split
    · simp [*]
    · rw [hempty]
      omega
  full_count := by simp [Fifo.get]

theorem Positioned.clear {r : Fifo α} (h : 0 < r.depth) : r.clear.Positioned :=
  ⟨h, by simp [Fifo.clear], by simp [Fifo.clear]⟩

theorem Positioned.putAll {r : Fifo α} (h : r.Positioned) (vs : List α) :
    (r.putAll vs).Positioned := by
  induction vs generalizing r with
  | nil => exact h
  | cons v vs ih => exact ih (h.put v)

theorem Positioned.withDepth {r : Fifo α} (h : r.Positioned) {depth : Nat} (hpos : r.pos < depth) :
    { r with depth := depth }.Positioned :=
  ⟨hpos, h.empty_iff, h.full_count⟩

theorem WellFormed.positioned {r : Fifo α} (h : r.WellFormed) : r.Positioned where
  pos_lt := h.pos_lt
  empty_iff := h.empty_iff
  full_count := fun hfull => by
    rw [h.full_iff.mp hfull]
    exact Nat.zero_lt_of_lt h.pos_lt

theorem Positioned.wellFormed {r : Fifo α} (h : r.Positioned) (hzero : r.count = 0) :
    r.WellFormed where
  count_le := by omega
  pos_lt := h.pos_lt
  empty_iff := h.empty_iff
  full_iff := by
    have hpos := h.pos_lt
    constructor
    · intro hfull
      have := h.full_count hfull
      omega
    · omega

/-- A put keeps the buffer well formed exactly when there is room. -/
theorem wellFormed_put_iff {r : Fifo α} (h : r.WellFormed) (v : α) :
    (r.put v).WellFormed ↔ r.count < r.depth := by
  constructor
  · intro hput
    exact hput.count_le
  · intro hroom
    refine ⟨hroom, h.pos_lt, by simp [put], ?_⟩
    have hfull := h.full_iff
    simp only [put]
    split
    · simp [*]
    · rw [hfull]
      omega

theorem WellFormed.get {r : Fifo α} (h : r.WellFormed) : r.get.WellFormed := by
  have hcount := h.count_le
  have hpos := h.pos_lt
  refine ⟨?_, h.positioned.get.pos_lt, h.positioned.get.empty_iff, ?_⟩
  · simp only [Fifo.get]
    omega
  · simp only [Fifo.get, Bool.false_eq_true, false_iff]
    omega

theorem WellFormed.clear {r : Fifo α} (h : 0 < r.depth) : r.clear.WellFormed :=
  (Positioned.clear h).wellFormed rfl

theorem contents_of_count_zero {r : Fifo α} (h : r.count = 0) : r.contents = [] := by
  simp [contents, h]

/-- Two positions of the window share a cell only if they are equal. -/
theorem cell_ne {depth pos k count : Nat} (hk : k < count) (hcount : count < depth) :
    (pos + k) % depth ≠ (pos + count) % depth := by
  intro heq
  have hdvd : depth ∣ (pos + count) - (pos + k) :=
    Nat.dvd_of_mod_eq_zero (Nat.sub_mod_eq_zero_of_mod_eq heq.symm)
  have hzero := Nat.eq_zero_of_dvd_of_lt hdvd (by omega)
  omega

theorem contents_put {r : Fifo α} (hroom : r.count < r.depth) (v : α) :
    (r.put v).contents = r.contents ++ [v] := by
  simp only [contents, put, List.range_succ, List.map_append, List.map_cons, List.map_nil,
    Function.update_self]
  congr 1
  apply List.map_congr_left
  intro k hk
  exact Function.update_of_ne (cell_ne (List.mem_range.mp hk) hroom) _ _

theorem contents_get {r : Fifo α} (hpos : r.pos < r.depth) (hcount : 0 < r.count) :
    r.cells r.pos :: r.get.contents = r.contents := by
  obtain ⟨count, hsucc⟩ : ∃ count, r.count = count + 1 := ⟨r.count - 1, by omega⟩
  have hhead : r.cells ((r.pos + 0) % r.depth) = r.cells r.pos := by
    rw [Nat.add_zero, Nat.mod_eq_of_lt hpos]
  simp only [contents, get, hsucc, if_pos (Nat.succ_pos count), Nat.add_sub_cancel,
    List.range_succ_eq_map, List.map_cons, List.map_map, hhead]
  congr 1
  apply List.map_congr_left
  intro k _
  rw [Function.comp_apply, Nat.mod_add_mod, Nat.add_assoc, Nat.add_comm 1 k]

theorem contents_get_of_count_zero {r : Fifo α} (h : r.count = 0) :
    r.get.contents = r.contents := by
  simp [contents, get, h]

theorem WellFormed.putAll {r : Fifo α} (h : r.WellFormed) {vs : List α}
    (hroom : r.count + vs.length ≤ r.depth) : (r.putAll vs).WellFormed := by
  induction vs generalizing r with
  | nil => exact h
  | cons v vs ih =>
      rw [List.length_cons] at hroom
      refine ih ((wellFormed_put_iff h v).mpr (by omega)) ?_
      simp only [put]
      omega

theorem contents_putAll {r : Fifo α} {vs : List α} (hroom : r.count + vs.length ≤ r.depth) :
    (r.putAll vs).contents = r.contents ++ vs := by
  induction vs generalizing r with
  | nil => simp [Fifo.putAll]
  | cons v vs ih =>
      rw [List.length_cons] at hroom
      have htail : (r.put v).count + vs.length ≤ (r.put v).depth := by
        simp only [put]
        omega
      calc ((r.put v).putAll vs).contents = (r.put v).contents ++ vs := ih htail
        _ = (r.contents ++ [v]) ++ vs := by rw [contents_put (by omega)]
        _ = r.contents ++ v :: vs := by simp

end Fifo

end RingBuffer

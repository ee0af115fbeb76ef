import TpmEmulator.Library.CellMemory

/-!
Frames in a memory of which only the first `size` cells count. A frame stands at a
position when all its cells lie there before the end, and it is cut when the end
comes inside it. Both notions split over a concatenation: the parts stand one behind
the other, and a cut lies in one of the parts with the parts before it in place.
-/
namespace Framing
open CellMemory
variable {α : Type} {m : Nat → α} {size start : Nat}

/-- The frame stands at `start` before the end. -/
def Starts (m : Nat → α) (size start : Nat) (frame : List α) : Prop :=
  start + frame.length ≤ size ∧ slice m start frame.length = frame

/-- From `start` to the end stands a proper prefix of the frame. -/
def Cut (m : Nat → α) (size start : Nat) (frame : List α) : Prop :=
  start ≤ size ∧ size < start + frame.length ∧
    slice m start (size - start) = frame.take (size - start)

theorem starts_slice {n : Nat} (h : start + n ≤ size) : Starts m size start (slice m start n) := by
  refine ⟨?_, ?_⟩
  · rwa [length_slice]
  · rw [length_slice]

theorem starts_append {a b : List α} :
    Starts m size start (a ++ b) ↔ Starts m size start a ∧ Starts m size (start + a.length) b := by
  unfold Starts
  rw [List.length_append, slice_add]
  constructor
  · rintro ⟨hsize, hslice⟩
    obtain ⟨ha, hb⟩ := List.append_inj hslice (length_slice m start a.length)
    exact ⟨⟨by omega, ha⟩, ⟨by omega, hb⟩⟩
  · rintro ⟨⟨-, ha⟩, hsize, hb⟩
    exact ⟨by omega, by rw [ha, hb]⟩

/-- Where the same frame stands, the same cells do. -/
theorem Starts.congr {m' : Nat → α} {size' start' : Nat} {frame : List α}
    (h : Starts m size start frame) (h' : Starts m' size' start' frame) {k : Nat}
    (hk : k < frame.length) : m (start + k) = m' (start' + k) := by
  have hcells := h.2.trans h'.2.symm
  rw [← Option.some_inj, ← getElem?_slice m start hk, hcells, getElem?_slice m' start' hk]

/-- A cut lies in the first part, or behind it in the second. -/
theorem Cut.append {a b : List α} (h : Cut m size start (a ++ b)) :
    Cut m size start a ∨ Starts m size start a ∧ Cut m size (start + a.length) b := by
  obtain ⟨hstart, hend, hslice⟩ := h
  rw [List.length_append] at hend
  by_cases ha : size < start + a.length
  · refine .inl ⟨hstart, ha, ?_⟩
    rw [hslice, List.take_append_of_le_length (by omega)]
  · obtain ⟨rest, hrest⟩ : ∃ rest, size - start = a.length + rest :=
      ⟨size - start - a.length, by omega⟩
    rw [hrest, slice_add, List.take_length_add_append] at hslice
    obtain ⟨hfirst, hsecond⟩ := List.append_inj hslice (length_slice m start a.length)
    have hleft : size - (start + a.length) = rest := by omega
    refine .inr ⟨⟨by omega, hfirst⟩, by omega, by omega, ?_⟩
    rw [hleft, hsecond]

/-- A frame behind a pointer that is `offset` cells further on. -/
theorem starts_advance {offset : Nat} (h : offset ≤ size) {frame : List α} :
    Starts (advance m offset) (size - offset) start frame ↔
      Starts m size (offset + start) frame := by
  unfold Starts
  rw [slice_advance]
  refine and_congr_left fun _ => ?_
  omega

theorem cut_advance {offset : Nat} (h : offset ≤ size) {frame : List α} :
    Cut (advance m offset) (size - offset) start frame ↔ Cut m size (offset + start) frame := by
  unfold Cut
  rw [slice_advance, show size - offset - start = size - (offset + start) by omega]
  refine and_congr (by omega) (and_congr_left fun _ => by omega)

/-- A frame at the beginning is a prefix of the cells that count. -/
theorem starts_iff_append {frame : List α} :
    Starts m size 0 frame ↔ ∃ rest, slice m 0 size = frame ++ rest := by
  constructor
  · rintro ⟨hsize, hslice⟩
    obtain ⟨n, rfl⟩ := Nat.exists_eq_add_of_le hsize
    rw [Nat.zero_add]
    exact ⟨slice m frame.length n, by rw [slice_add, Nat.zero_add, hslice]⟩
  · rintro ⟨rest, hslice⟩
    have hlen := congrArg List.length hslice
    rw [length_slice, List.length_append] at hlen
    refine ⟨by omega, ?_⟩
    rw [← take_slice m 0 (by omega : frame.length ≤ size), hslice, List.take_left]

end Framing

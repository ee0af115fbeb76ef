import Mathlib.Data.List.Range
import Mathlib.Tactic.Common

/-!
Blocks mapped into a container, and when they tile it: each offset lies in one
block, no block leaves the container, and the container holds nothing else. A
progression is a number of equal blocks whose starts are a fixed stride apart.
-/
namespace Tiling

structure Block where
  start : Nat
  size : Nat
deriving DecidableEq, Repr

/-- The block is mapped at this offset, clipped to a container of `size`. -/
def Block.Covers (b : Block) (size offset : Nat) : Prop :=
  b.start ≤ offset ∧ offset < b.start + b.size ∧ offset < size

instance (b : Block) (size offset : Nat) : Decidable (b.Covers size offset) :=
  inferInstanceAs (Decidable (_ ∧ _ ∧ _))

/-- The blocks tile a container of `size`, which is to hold `total` cells. -/
structure Tiled (size total : Nat) (blocks : List Block) : Prop where
  covered_once : ∀ offset, offset < total →
    ∃! i : Nat, ∃ b : Block, blocks[i]? = some b ∧ b.Covers size offset
  within : ∀ b ∈ blocks, b.start + b.size ≤ size
  size_eq : size = total

def progression (num blockSize stride : Nat) : List Block :=
  (List.range num).map fun i => ⟨i * stride, blockSize⟩

theorem getElem?_progression {num blockSize stride i : Nat} {b : Block} :
    (progression num blockSize stride)[i]? = some b ↔ i < num ∧ b = ⟨i * stride, blockSize⟩ := by
  rw [progression, List.getElem?_map, Option.map_eq_some_iff]
  constructor
  · rintro ⟨j, hj, rfl⟩
    obtain ⟨hi, rfl⟩ := List.getElem?_eq_some_iff.mp hj
    rw [List.length_range] at hi
    simp [hi]
  · rintro ⟨hi, rfl⟩
    exact ⟨i, List.getElem?_range hi, rfl⟩

/-- Block `i` of a progression covers the offset. -/
theorem covers_progression {num blockSize stride size offset i : Nat} :
    (∃ b : Block, (progression num blockSize stride)[i]? = some b ∧ b.Covers size offset) ↔
      i < num ∧ i * stride ≤ offset ∧ offset < i * stride + blockSize ∧ offset < size := by
  constructor
  · rintro ⟨b, hb, hcovers⟩
    obtain ⟨hi, rfl⟩ := getElem?_progression.mp hb
    exact ⟨hi, hcovers⟩
  · rintro ⟨hi, hcovers⟩
    exact ⟨_, getElem?_progression.mpr ⟨hi, rfl⟩, hcovers⟩

/-- With two blocks or more, a stride below the block size makes the first two
overlap, and a stride above it leaves a hole after the first. -/
theorem stride_eq_of_tiled {num blockSize stride size : Nat} (hblock : 0 < blockSize)
    (hnum : 2 ≤ num) (h : Tiled size (num * blockSize) (progression num blockSize stride)) :
    stride = blockSize := by
  have htwo : 2 * blockSize ≤ num * blockSize := Nat.mul_le_mul_right _ hnum
  have hsize := h.size_eq
  rcases Nat.lt_trichotomy stride blockSize with hlt | heq | hgt
  · obtain ⟨i, -, hunique⟩ := h.covered_once stride (by omega)
    have hfirst : 0 = i := hunique 0 (covers_progression.mpr (by omega))
    have hsecond : 1 = i := hunique 1 (covers_progression.mpr (by omega))
    omega
  · exact heq
  · obtain ⟨i, hcovers, -⟩ := h.covered_once blockSize (by omega)
    obtain ⟨-, hstart, hend, -⟩ := covers_progression.mp hcovers
    cases i with
    | zero => omega
    | succ i =>
        have hstep : stride ≤ (i + 1) * stride := Nat.le_mul_of_pos_left _ i.succ_pos
        omega

theorem tiled_of_stride_eq {num blockSize : Nat} (hblock : 0 < blockSize) :
    Tiled (num * blockSize) (num * blockSize) (progression num blockSize blockSize) where
  covered_once := by
    intro offset hoffset
    have hdiv : offset / blockSize < num := Nat.div_lt_of_lt_mul (by rwa [Nat.mul_comm])
    have hlow := Nat.div_mul_le_self offset blockSize
    have hhigh := Nat.lt_div_mul_add hblock (a := offset)
    refine ⟨offset / blockSize, covers_progression.mpr ⟨hdiv, hlow, hhigh, hoffset⟩, ?_⟩
    intro i hi
    obtain ⟨-, hstart, hend, -⟩ := covers_progression.mp hi
    refine (Nat.div_eq_of_lt_le hstart ?_).symm
    rwa [Nat.succ_mul]
  within := by
    intro b hb
    obtain ⟨i, hi⟩ := List.mem_iff_getElem?.mp hb
    obtain ⟨hlt, rfl⟩ := getElem?_progression.mp hi
    calc i * blockSize + blockSize = (i + 1) * blockSize := (Nat.succ_mul i blockSize).symm
      _ ≤ num * blockSize := Nat.mul_le_mul_right _ hlt
  size_eq := rfl

/-- A progression tiles a container exactly when the container has the size of
its blocks, and the stride of two blocks or more is the block size. -/
theorem tiled_progression_iff {num blockSize stride size : Nat} (hblock : 0 < blockSize) :
    Tiled size (num * blockSize) (progression num blockSize stride) ↔
      (num ≤ 1 ∨ stride = blockSize) ∧ size = num * blockSize := by
  constructor
  · intro h
    refine ⟨?_, h.size_eq⟩
    rcases Nat.lt_or_ge 1 num with hnum | hnum
    · exact .inr (stride_eq_of_tiled hblock hnum h)
    · exact .inl hnum
  · rintro ⟨hnum | rfl, rfl⟩
    · -- Up to one block starts at zero whatever the stride is.
      have hprogression : progression num blockSize stride =
          progression num blockSize blockSize := by
        apply List.map_congr_left
        intro i hi
        have hzero : i = 0 := by
          have := List.mem_range.mp hi
          omega
        simp [hzero]
      rw [hprogression]
      exact tiled_of_stride_eq hblock
    · exact tiled_of_stride_eq hblock

end Tiling

import TpmEmulator.Library.CellMemory
import Mathlib.Tactic.Ring

/-!
The layout of structures in memory. Members follow one another, each at the next
position that its alignment allows; bit-fields are allocated from the least significant
bit of a unit, and a field that does not fit opens the next unit. Numbers are stored with
the low byte first.
-/
namespace StructLayout

open CellMemory

/-- The first multiple of `align` that is not below `n`. -/
def alignUp (align n : Nat) : Nat := (n + align - 1) / align * align

theorem le_alignUp {align : Nat} (h : 0 < align) (n : Nat) : n ≤ alignUp align n := by
  have hmod := Nat.mod_lt (n + align - 1) h
  have hdiv := Nat.div_add_mod (n + align - 1) align
  rw [alignUp, Nat.mul_comm]
  omega

section Members

variable {α : Type}

/-- A member with the cells of its value. -/
structure Member (α : Type) where
  align : Nat
  align_pos : 0 < align
  cells : List α

/-- The first position behind members that are placed from `cursor` on. -/
def endOf (cursor : Nat) : List (Member α) → Nat
  | [] => cursor
  | m :: ms => endOf (alignUp m.align cursor + m.cells.length) ms

/-- The positions of the members. -/
def offsets (cursor : Nat) : List (Member α) → List Nat
  | [] => []
  | m :: ms => alignUp m.align cursor :: offsets (alignUp m.align cursor + m.cells.length) ms

/-- The size of the structure: the strictest alignment decides about the padding at the
end. -/
def sizeofMembers (members : List (Member α)) : Nat :=
  alignUp (members.foldl (fun align m => max align m.align) 1) (endOf 0 members)

/-- The memory after the members have been assigned. Padding keeps what was there. -/
def image (memory : Nat → α) (cursor : Nat) : List (Member α) → Nat → α
  | [] => memory
  | m :: ms =>
    image (store memory (alignUp m.align cursor) m.cells)
      (alignUp m.align cursor + m.cells.length) ms

/-- Members do not reach below the position they are placed from. -/
theorem image_below (memory : Nat → α) (cursor : Nat) (members : List (Member α)) {i : Nat}
    (hi : i < cursor) : image memory cursor members i = memory i := by
  induction members generalizing memory cursor with
  | nil => rfl
  | cons m ms ih =>
      have hle := le_alignUp m.align_pos cursor
      rw [image, ih _ _ (by omega)]
      exact store_outside memory _ _ i (Or.inl (by omega))

/-- A member is found at its position, whatever is assigned behind it. -/
theorem slice_image (memory : Nat → α) (cursor : Nat) (members : List (Member α))
    {i offset : Nat} {m : Member α} (hoffset : (offsets cursor members)[i]? = some offset)
    (hm : members[i]? = some m) :
    slice (image memory cursor members) offset m.cells.length = m.cells := by
  induction members generalizing memory cursor i with
  | nil => cases hm
  | cons first rest ih =>
      cases i with
      | zero =>
          cases hoffset
          cases hm
          rw [image]
          refine (slice_congr fun k hk => image_below _ _ rest (by omega)).trans ?_
          exact slice_store_same memory _ m.cells
      | succ i => exact ih _ _ hoffset hm

end Members

/-- The low byte comes first. -/
def leBytes : Nat → Nat → List UInt8
  | 0, _ => []
  | size + 1, value => UInt8.ofNat value :: leBytes size (value / 256)

def ofLeBytes : List UInt8 → Nat
  | [] => 0
  | b :: bs => b.toNat + 256 * ofLeBytes bs

@[simp] theorem length_leBytes (size value : Nat) :
    (leBytes size value).length = size := by
  induction size generalizing value with
  | zero => rfl
  | succ size ih => rw [leBytes, List.length_cons, ih]

theorem ofLeBytes_leBytes {size value : Nat} (h : value < 256 ^ size) :
    ofLeBytes (leBytes size value) = value := by
  induction size generalizing value with
  | zero => exact (Nat.lt_one_iff.mp h).symm
  | succ size ih =>
      have hrest : value / 256 < 256 ^ size := by
        rw [Nat.div_lt_iff_lt_mul (by decide), ← Nat.pow_succ]
        exact h
      rw [leBytes, ofLeBytes, ih hrest]
      simp only [UInt8.toNat_ofNat']
      omega

theorem ofLeBytes_append (low high : List UInt8) :
    ofLeBytes (low ++ high) =
      ofLeBytes low + 256 ^ low.length * ofLeBytes high := by
  induction low with
  | nil => simp [ofLeBytes]
  | cons b bs ih =>
      simp only [List.cons_append, ofLeBytes, ih, List.length_cons, pow_succ]
      ring

/-- Members that hold an unsigned number, aligned to its size. -/
def uint16 (value : Nat) : Member UInt8 := ⟨2, by decide, leBytes 2 value⟩

def uint32 (value : Nat) : Member UInt8 := ⟨4, by decide, leBytes 4 value⟩

/-- A member that is an array of bytes. -/
def byteArray (size : Nat) (buffer : Nat → UInt8) : Member UInt8 :=
  ⟨1, Nat.one_pos, slice buffer 0 size⟩

/-- The unit and the lowest bit of each field, when `used` bits of unit `current` are
taken. -/
def fieldPlaces (unit : Nat) (current used : Nat) : List Nat → List (Nat × Nat)
  | [] => []
  | width :: widths =>
    if used + width ≤ unit then (current, used) :: fieldPlaces unit current (used + width) widths
    else (current + 1, 0) :: fieldPlaces unit (current + 1) width widths

/-- The value of a field of the units `words`. -/
def fieldValue (words : Nat → Nat) (place : Nat × Nat) (width : Nat) : Nat :=
  words place.1 / 2 ^ place.2 % 2 ^ width

end StructLayout

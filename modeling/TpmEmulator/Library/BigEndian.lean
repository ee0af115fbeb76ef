import TpmEmulator.Library.CellMemory

/-!
Unsigned 16-bit and 32-bit numbers in big-endian byte order: the two readers,
the two encoders, and the laws that relate them. The encoders truncate, as a
store of a wider value through byte-sized lanes does.
-/
namespace BigEndian
open CellMemory

def be16 (a b : UInt8) : Nat := a.toNat * 2 ^ 8 + b.toNat

def be32 (a b c d : UInt8) : Nat :=
  a.toNat * 2 ^ 24 + b.toNat * 2 ^ 16 + c.toNat * 2 ^ 8 + d.toNat

def bytes16 (n : Nat) : List UInt8 := [UInt8.ofNat (n / 2 ^ 8), UInt8.ofNat n]

def bytes32 (n : Nat) : List UInt8 :=
  [UInt8.ofNat (n / 2 ^ 24), UInt8.ofNat (n / 2 ^ 16), UInt8.ofNat (n / 2 ^ 8), UInt8.ofNat n]

/-- The 16-bit number at position `i`. -/
def get16 (m : Nat → UInt8) (i : Nat) : Nat := be16 (m i) (m (i + 1))

/-- The 32-bit number at position `i`. -/
def get32 (m : Nat → UInt8) (i : Nat) : Nat := be32 (m i) (m (i + 1)) (m (i + 2)) (m (i + 3))

@[simp] theorem length_bytes16 (n : Nat) : (bytes16 n).length = 2 := rfl

@[simp] theorem length_bytes32 (n : Nat) : (bytes32 n).length = 4 := rfl

/-- The upper half of a number that fits in the lower one. -/
theorem bytes32_of_lt {n : Nat} (h : n < 2 ^ 16) : bytes32 n = bytes16 0 ++ bytes16 n := by
  have h₁ : n / 2 ^ 24 = 0 := by omega
  have h₂ : n / 2 ^ 16 = 0 := by omega
  rw [bytes32, h₁, h₂]
  rfl

theorem be16_lt (a b : UInt8) : be16 a b < 2 ^ 16 := by
  have ha := a.toNat_lt
  have hb := b.toNat_lt
  unfold be16
  omega

theorem be32_lt (a b c d : UInt8) : be32 a b c d < 2 ^ 32 := by
  have ha := a.toNat_lt
  have hb := b.toNat_lt
  have hc := c.toNat_lt
  have hd := d.toNat_lt
  unfold be32
  omega

theorem be16_bytes16 (n : Nat) :
    be16 (UInt8.ofNat (n / 2 ^ 8)) (UInt8.ofNat n) = n % 2 ^ 16 := by
  simp only [be16, UInt8.toNat_ofNat']
  omega

theorem bytes16_inj {a b : Nat} (ha : a < 2 ^ 16) (hb : b < 2 ^ 16) (h : bytes16 a = bytes16 b) :
    a = b := by
  simp only [bytes16, List.cons.injEq, and_true] at h
  rw [← Nat.mod_eq_of_lt ha, ← Nat.mod_eq_of_lt hb, ← be16_bytes16, ← be16_bytes16, h.1, h.2]

theorem be32_bytes32 (n : Nat) :
    be32 (UInt8.ofNat (n / 2 ^ 24)) (UInt8.ofNat (n / 2 ^ 16)) (UInt8.ofNat (n / 2 ^ 8))
      (UInt8.ofNat n) = n % 2 ^ 32 := by
  simp only [be32, UInt8.toNat_ofNat']
  omega

theorem bytes16_be16 (a b : UInt8) : bytes16 (be16 a b) = [a, b] := by
  have ha := a.toNat_lt
  have hb := b.toNat_lt
  have high : UInt8.ofNat (be16 a b / 2 ^ 8) = a := by
    apply UInt8.toNat_inj.mp
    simp only [be16, UInt8.toNat_ofNat']
    omega
  have low : UInt8.ofNat (be16 a b) = b := by
    apply UInt8.toNat_inj.mp
    simp only [be16, UInt8.toNat_ofNat']
    omega
  simp only [bytes16, high, low]

theorem bytes32_be32 (a b c d : UInt8) : bytes32 (be32 a b c d) = [a, b, c, d] := by
  have ha := a.toNat_lt
  have hb := b.toNat_lt
  have hc := c.toNat_lt
  have hd := d.toNat_lt
  have first : UInt8.ofNat (be32 a b c d / 2 ^ 24) = a := by
    apply UInt8.toNat_inj.mp
    simp only [be32, UInt8.toNat_ofNat']
    omega
  have second : UInt8.ofNat (be32 a b c d / 2 ^ 16) = b := by
    apply UInt8.toNat_inj.mp
    simp only [be32, UInt8.toNat_ofNat']
    omega
  have third : UInt8.ofNat (be32 a b c d / 2 ^ 8) = c := by
    apply UInt8.toNat_inj.mp
    simp only [be32, UInt8.toNat_ofNat']
    omega
  have fourth : UInt8.ofNat (be32 a b c d) = d := by
    apply UInt8.toNat_inj.mp
    simp only [be32, UInt8.toNat_ofNat']
    omega
  simp only [bytes32, first, second, third, fourth]

theorem get16_lt (m : Nat → UInt8) (i : Nat) : get16 m i < 2 ^ 16 := be16_lt _ _

theorem get32_lt (m : Nat → UInt8) (i : Nat) : get32 m i < 2 ^ 32 := be32_lt _ _ _ _

theorem get16_congr {m m' : Nat → UInt8} {i j : Nat}
    (h : ∀ k, k < 2 → m (i + k) = m' (j + k)) : get16 m i = get16 m' j := by
  have h0 : m i = m' j := h 0 (by omega)
  simp only [get16, h0, h 1 (by omega)]

theorem get32_congr {m m' : Nat → UInt8} {i j : Nat}
    (h : ∀ k, k < 4 → m (i + k) = m' (j + k)) : get32 m i = get32 m' j := by
  have h0 : m i = m' j := h 0 (by omega)
  simp only [get32, h0, h 1 (by omega), h 2 (by omega), h 3 (by omega)]

@[simp] theorem get16_advance (m : Nat → UInt8) (p i : Nat) :
    get16 (advance m p) i = get16 m (p + i) := rfl

@[simp] theorem get32_advance (m : Nat → UInt8) (p i : Nat) :
    get32 (advance m p) i = get32 m (p + i) := rfl

theorem slice_two (m : Nat → UInt8) (i : Nat) : slice m i 2 = [m i, m (i + 1)] := rfl

theorem slice_four (m : Nat → UInt8) (i : Nat) :
    slice m i 4 = [m i, m (i + 1), m (i + 2), m (i + 3)] := rfl

/-- A position that holds an encoded number reads back as that number. -/
theorem get16_of_slice {m : Nat → UInt8} {i n : Nat} (h : slice m i 2 = bytes16 n) :
    get16 m i = n % 2 ^ 16 := by
  rw [slice_two] at h
  injection h with h0 h
  injection h with h1 _
  rw [get16, h0, h1, be16_bytes16]

theorem get32_of_slice {m : Nat → UInt8} {i n : Nat} (h : slice m i 4 = bytes32 n) :
    get32 m i = n % 2 ^ 32 := by
  rw [slice_four] at h
  injection h with h0 h
  injection h with h1 h
  injection h with h2 h
  injection h with h3 _
  rw [get32, h0, h1, h2, h3, be32_bytes32]

theorem slice_eq_bytes16 (m : Nat → UInt8) (i : Nat) : slice m i 2 = bytes16 (get16 m i) := by
  rw [slice_two, get16, bytes16_be16]

theorem slice_eq_bytes32 (m : Nat → UInt8) (i : Nat) : slice m i 4 = bytes32 (get32 m i) := by
  rw [slice_four, get32, bytes32_be32]

/-- Equal numbers have equal bytes. -/
theorem byte_of_get16 {m m' : Nat → UInt8} {i j : Nat} (h : get16 m i = get16 m' j) {k : Nat}
    (hk : k < 2) : m (i + k) = m' (j + k) := by
  have hslice : slice m i 2 = slice m' j 2 := by rw [slice_eq_bytes16, h, ← slice_eq_bytes16]
  have hbyte := congrArg (·[k]?) hslice
  simpa only [getElem?_slice _ _ hk, Option.some.injEq] using hbyte

theorem byte_of_get32 {m m' : Nat → UInt8} {i j : Nat} (h : get32 m i = get32 m' j) {k : Nat}
    (hk : k < 4) : m (i + k) = m' (j + k) := by
  have hslice : slice m i 4 = slice m' j 4 := by rw [slice_eq_bytes32, h, ← slice_eq_bytes32]
  have hbyte := congrArg (·[k]?) hslice
  simpa only [getElem?_slice _ _ hk, Option.some.injEq] using hbyte

-- Unfolding an integer read from memory in the middle of a reduction only costs time.
attribute [irreducible] be16 be32

end BigEndian

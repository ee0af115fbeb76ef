import TpmEmulator.Library.CipherFeedback
import Mathlib.Data.List.Induction

/-!
A memory written in fragments, each enciphered as a text of its own. Fragments may
overlap, and the last one that covers a position decides what is there. Reading
deciphers a range as one text. The two agree where the range lines up with the
fragments: every cell of the first block of the range was last written by a fragment
that starts where the range starts, and every later cell by a fragment that also
wrote the whole preceding block and whose blocks fall on the blocks of the range.
-/
namespace FragmentStore

open CellMemory CipherFeedback

variable {α : Type}

structure Fragment (α : Type) where
  offset : Nat
  cells : List α
  deriving DecidableEq

def Fragment.Covers (w : Fragment α) (p : Nat) : Prop :=
  w.offset ≤ p ∧ p < w.offset + w.cells.length

instance (w : Fragment α) (p : Nat) : Decidable (w.Covers p) :=
  inferInstanceAs (Decidable (_ ∧ _))

/-- The last fragment of the history that covers the position. -/
def lastWrite (writes : List (Fragment α)) (p : Nat) : Option (Fragment α) :=
  writes.foldl (fun last w => if w.Covers p then some w else last) none

/-- The memory after the history, when `f` is what is stored for the cells of a
fragment. -/
def image (f : List α → List α) (blank : Nat → α) (writes : List (Fragment α)) : Nat → α :=
  writes.foldl (fun m w => store m w.offset (f w.cells)) blank

theorem lastWrite_append (writes : List (Fragment α)) (w : Fragment α) (p : Nat) :
    lastWrite (writes ++ [w]) p = if w.Covers p then some w else lastWrite writes p := by
  simp [lastWrite]

theorem image_append (f : List α → List α) (blank : Nat → α) (writes : List (Fragment α))
    (w : Fragment α) :
    image f blank (writes ++ [w]) = store (image f blank writes) w.offset (f w.cells) := by
  simp [image]

theorem covers_of_lastWrite {writes : List (Fragment α)} {w : Fragment α} {p : Nat}
    (h : lastWrite writes p = some w) : w.Covers p := by
  induction writes using List.reverseRecOn with
  | nil => cases h
  | append_singleton writes w' ih =>
      rw [lastWrite_append] at h
      split at h
      · rename_i hcovers
        cases h
        exact hcovers
      · exact ih h

/-- A covered position holds what the last fragment put there. -/
theorem image_of_lastWrite {f : List α → List α} (hf : ∀ cells, (f cells).length = cells.length)
    (blank : Nat → α) {writes : List (Fragment α)} {w : Fragment α} {p : Nat}
    (h : lastWrite writes p = some w) :
    (f w.cells)[p - w.offset]? = some (image f blank writes p) := by
  induction writes using List.reverseRecOn with
  | nil => cases h
  | append_singleton writes w' ih =>
      rw [lastWrite_append] at h
      rw [image_append]
      split at h
      · rename_i hcovers
        cases h
        obtain ⟨hlow, hhigh⟩ := hcovers
        obtain ⟨k, rfl⟩ := Nat.exists_eq_add_of_le hlow
        have hk : k < (f w.cells).length := by
          rw [hf]
          omega
        rw [Nat.add_sub_cancel_left, store_inside _ _ _ _ hk]
        exact List.getElem?_eq_getElem hk
      · rename_i hcovers
        rw [store_outside _ _ _ _ (by rw [hf, Fragment.Covers] at *; omega)]
        exact ih h

variable (b : Nat)

/-- The start of the block before the one that cell `j` of a range at `start` lies in. -/
def previousBlock (start j : Nat) : Nat := start + (j / b * b - b)

/-- Cell `j` of the range at `start` lines up with the fragment that wrote it last. -/
def AlignedAt (writes : List (Fragment α)) (start j : Nat) : Prop :=
  ∃ w, lastWrite writes (start + j) = some w ∧
    ((j < b ∧ w.offset = start) ∨
      (b ≤ j ∧ w.offset ≤ previousBlock b start j ∧ b ∣ previousBlock b start j - w.offset ∧
        ∀ r < b, lastWrite writes (previousBlock b start j + r) = some w))

def Aligned (writes : List (Fragment α)) (start count : Nat) : Prop :=
  ∀ j < count, AlignedAt b writes start j

section Decrypt

variable {b} [NeZero b] (mix : α → α → α) (E : List α → Fin b → α) (iv : List α)
  (blank blank' : Nat → α) {writes : List (Fragment α)} {start : Nat}

/-- Cell `j` of the range, seen from a position that is a whole number of blocks
before the block that precedes the cell: same preceding block, same place in its own. -/
theorem place_of_aligned {offset j : Nat} (hj : b ≤ j) (hle : offset ≤ previousBlock b start j)
    (hdvd : b ∣ previousBlock b start j - offset) :
    b ≤ start + j - offset ∧
      (start + j - offset) / b * b - b = previousBlock b start j - offset ∧
      (start + j - offset) % b = j % b := by
  have hb : 0 < b := Nat.pos_of_ne_zero (NeZero.ne b)
  obtain ⟨k, hk⟩ := hdvd
  have hmod := Nat.mod_add_div j b
  have hdiv : b ≤ j / b * b := Nat.le_mul_of_pos_left b (Nat.div_pos hj hb)
  have hcomm : b * (j / b) = j / b * b := Nat.mul_comm _ _
  have hprev : previousBlock b start j = start + (j / b * b - b) := rfl
  -- The cell is `b + j % b` cells behind the start of the preceding block.
  have hm : start + j - offset = b * (k + 1) + j % b := by
    rw [Nat.mul_succ]
    omega
  refine ⟨?_, ?_, ?_⟩
  · rw [hm, Nat.mul_succ]
    omega
  · rw [hm, Nat.mul_add_div hb, Nat.div_eq_of_lt (Nat.mod_lt j hb), Nat.add_zero, hk,
      Nat.mul_comm (k + 1) b, Nat.mul_succ, Nat.add_sub_cancel]
  · rw [hm, Nat.mul_add_mod, Nat.mod_mod]

/-- The register is the same for a range and for the fragment that its cell lines up
with, and so is the place in the block. -/
theorem keystream_aligned {w : Fragment α} {j : Nat}
    (h : (j < b ∧ w.offset = start) ∨
      (b ≤ j ∧ w.offset ≤ previousBlock b start j ∧ b ∣ previousBlock b start j - w.offset ∧
        ∀ r < b, lastWrite writes (previousBlock b start j + r) = some w))
    (hcovers : w.Covers (start + j)) :
    keystream E iv (slice (image (encrypt mix E iv) blank writes) start j) =
      keystream E iv ((encrypt mix E iv w.cells).take (start + j - w.offset)) := by
  obtain ⟨hlow, hhigh⟩ := hcovers
  have hlen : ((encrypt mix E iv w.cells).take (start + j - w.offset)).length =
      start + j - w.offset := by
    rw [List.length_take, length_encrypt]
    omega
  obtain ⟨hj, rfl⟩ | ⟨hj, hle, hdvd, hblock⟩ := h
  · have hplace : w.offset + j - w.offset = j := by omega
    rw [hplace] at hlen ⊢
    rw [keystream, keystream, register, register, length_slice, hlen, if_pos hj, if_pos hj]
  · obtain ⟨hbig, hquot, hmod⟩ := place_of_aligned hj hle hdvd
    have hplace : Fin.ofNat b j = Fin.ofNat b (start + j - w.offset) := Fin.ext hmod.symm
    rw [keystream, keystream, register, register, length_slice, hlen, if_neg (Nat.not_lt.mpr hj),
      if_neg (Nat.not_lt.mpr hbig), hplace, hquot]
    congr 1
    -- Both registers are the preceding block, as the fragment has written it.
    apply List.ext_getElem?
    intro r
    by_cases hr : r < b
    · have hcell := image_of_lastWrite (length_encrypt mix E iv) blank (hblock r hr)
      have hend : j / b * b ≤ j := Nat.div_mul_le_self j b
      have hdiv : b ≤ j / b * b := Nat.le_mul_of_pos_left b (Nat.div_pos hj (by omega))
      have hprev : previousBlock b start j = start + (j / b * b - b) := rfl
      rw [List.getElem?_take_of_lt hr, List.getElem?_take_of_lt hr, List.getElem?_drop,
        List.getElem?_drop, getElem?_slice _ _ (by omega),
        List.getElem?_take_of_lt (by omega)]
      rw [show previousBlock b start j - w.offset + r = previousBlock b start j + r - w.offset by
        omega, hcell, hprev, Nat.add_assoc]
    · rw [List.getElem?_eq_none (by rw [List.length_take]; omega),
        List.getElem?_eq_none (by rw [List.length_take]; omega)]

/-- Deciphering an aligned range gives the cells that were last written there. -/
theorem decrypt_image (cancel : ∀ x k, mix (mix x k) k = x) {count : Nat}
    (h : Aligned b writes start count) :
    decrypt mix E iv (slice (image (encrypt mix E iv) blank writes) start count) =
      slice (image id blank' writes) start count := by
  apply List.ext_getElem?
  intro j
  by_cases hj : j < count
  · obtain ⟨w, hlast, haligned⟩ := h j hj
    have hcovers := covers_of_lastWrite hlast
    have hin : start + j - w.offset < w.cells.length := by
      have := hcovers.1
      have := hcovers.2
      omega
    have hplain := image_of_lastWrite (f := id) (fun _ => rfl) blank' hlast
    have hcipher := image_of_lastWrite (length_encrypt mix E iv) blank hlast
    rw [getElem_encrypt mix E iv w.cells _ hin] at hcipher
    rw [id_eq, List.getElem?_eq_getElem hin] at hplain
    rw [getElem_decrypt mix E iv _ j (by rw [length_slice]; exact hj), getElem_slice,
      take_slice _ _ (Nat.le_of_lt hj), keystream_aligned mix E iv blank haligned hcovers,
      getElem?_slice _ _ hj, ← Option.some.inj hcipher, cancel, hplain]
  · rw [List.getElem?_eq_none (by rw [length_decrypt, length_slice]; omega),
      List.getElem?_eq_none (by rw [length_slice]; omega)]

end Decrypt

end FragmentStore

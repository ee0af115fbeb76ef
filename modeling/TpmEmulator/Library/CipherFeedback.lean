import TpmEmulator.Library.CellMemory

/-!
Full-block cipher feedback over an arbitrary block function. The register that
is enciphered next is the initial value, and after that the last complete
ciphertext block. A cell of the text is mixed with the cell of the enciphered
register that has its place in the block. The two directions are written cell
by cell, with the ciphertext seen so far as an argument. A text whose last
block is short is then no special case.
-/
namespace CipherFeedback
variable {α : Type} {b : Nat} [NeZero b]

/-- The block that is enciphered for the cell after the ciphertext `seen`. -/
def register (b : Nat) (iv seen : List α) : List α :=
  if seen.length < b then iv else (seen.drop (seen.length / b * b - b)).take b

/-- The cell of the enciphered register that belongs to the cell after `seen`. -/
def keystream (E : List α → Fin b → α) (iv seen : List α) : α :=
  E (register b iv seen) (Fin.ofNat b seen.length)

def encryptFrom (mix : α → α → α) (E : List α → Fin b → α) (iv : List α) :
    List α → List α → List α
  | _, [] => []
  | seen, p :: ps =>
      let c := mix p (keystream E iv seen)
      c :: encryptFrom mix E iv (seen ++ [c]) ps

def decryptFrom (mix : α → α → α) (E : List α → Fin b → α) (iv : List α) :
    List α → List α → List α
  | _, [] => []
  | seen, c :: cs => mix c (keystream E iv seen) :: decryptFrom mix E iv (seen ++ [c]) cs

def encrypt (mix : α → α → α) (E : List α → Fin b → α) (iv text : List α) : List α :=
  encryptFrom mix E iv [] text

def decrypt (mix : α → α → α) (E : List α → Fin b → α) (iv text : List α) : List α :=
  decryptFrom mix E iv [] text

variable (mix : α → α → α) (E : List α → Fin b → α) (iv : List α)

theorem length_encryptFrom (seen text : List α) :
    (encryptFrom mix E iv seen text).length = text.length := by
  induction text generalizing seen with
  | nil => rfl
  | cons p ps ih => simp only [encryptFrom, List.length_cons, ih]

theorem length_decryptFrom (seen text : List α) :
    (decryptFrom mix E iv seen text).length = text.length := by
  induction text generalizing seen with
  | nil => rfl
  | cons c cs ih => simp only [decryptFrom, List.length_cons, ih]

@[simp] theorem length_encrypt (text : List α) :
    (encrypt mix E iv text).length = text.length := length_encryptFrom mix E iv [] text

@[simp] theorem length_decrypt (text : List α) :
    (decrypt mix E iv text).length = text.length := length_decryptFrom mix E iv [] text

theorem decryptFrom_encryptFrom (cancel : ∀ x k, mix (mix x k) k = x) (seen text : List α) :
    decryptFrom mix E iv seen (encryptFrom mix E iv seen text) = text := by
  induction text generalizing seen with
  | nil => rfl
  | cons p ps ih => simp only [encryptFrom, decryptFrom, cancel, ih]

theorem decryptFrom_take (n : Nat) (seen text : List α) :
    decryptFrom mix E iv seen (text.take n) = (decryptFrom mix E iv seen text).take n := by
  induction text generalizing seen n with
  | nil => simp [decryptFrom]
  | cons c cs ih =>
      cases n with
      | zero => rfl
      | succ n => simp only [List.take_succ_cons, decryptFrom, ih]

/-- The prefix law: the first `n` cells of the ciphertext decrypt to the first
`n` cells of the text. -/
theorem decrypt_take_encrypt (cancel : ∀ x k, mix (mix x k) k = x) (n : Nat) (text : List α) :
    decrypt mix E iv ((encrypt mix E iv text).take n) = text.take n := by
  rw [decrypt, decryptFrom_take, encrypt, decryptFrom_encryptFrom mix E iv cancel]

theorem getElem_decryptFrom (seen text : List α) (i : Nat) (h : i < text.length) :
    (decryptFrom mix E iv seen text)[i]? =
      some (mix text[i] (keystream E iv (seen ++ text.take i))) := by
  induction text generalizing seen i with
  | nil => simp at h
  | cons c cs ih =>
      cases i with
      | zero => simp [decryptFrom]
      | succ i =>
          have hi : i < cs.length := by simpa using h
          simp only [decryptFrom, List.getElem?_cons_succ, ih (seen ++ [c]) i hi,
            List.getElem_cons_succ, List.take_succ_cons, List.append_assoc, List.cons_append,
            List.nil_append]

theorem getElem_encryptFrom (seen text : List α) (i : Nat) (h : i < text.length) :
    (encryptFrom mix E iv seen text)[i]? =
      some (mix text[i] (keystream E iv (seen ++ (encryptFrom mix E iv seen text).take i))) := by
  induction text generalizing seen i with
  | nil => simp at h
  | cons p ps ih =>
      cases i with
      | zero => simp [encryptFrom]
      | succ i =>
          have hi : i < ps.length := by simpa using h
          simp only [encryptFrom, List.getElem?_cons_succ, ih _ i hi,
            List.getElem_cons_succ, List.take_succ_cons, List.append_assoc, List.cons_append,
            List.nil_append]

/-- Cell `i` of the text, read from the ciphertext alone. -/
theorem getElem_decrypt (text : List α) (i : Nat) (h : i < text.length) :
    (decrypt mix E iv text)[i]? = some (mix text[i] (keystream E iv (text.take i))) := by
  exact getElem_decryptFrom mix E iv [] text i h

theorem getElem_encrypt (text : List α) (i : Nat) (h : i < text.length) :
    (encrypt mix E iv text)[i]? =
      some (mix text[i] (keystream E iv ((encrypt mix E iv text).take i))) := by
  exact getElem_encryptFrom mix E iv [] text i h

/-- In the first block the cells of the text are mixed with the enciphered initial
value, whatever the text is. -/
theorem getElem_encrypt_first (text : List α) (i : Nat) (h : i < text.length) (hblock : i < b) :
    (encrypt mix E iv text)[i]? = some (mix text[i] (E iv ⟨i, hblock⟩)) := by
  have hlen : ((encrypt mix E iv text).take i).length = i := by
    rw [List.length_take, length_encrypt]
    omega
  rw [getElem_encrypt mix E iv text i h, keystream, register, if_pos (by omega)]
  have hplace : Fin.ofNat b ((encrypt mix E iv text).take i).length = ⟨i, hblock⟩ := by
    rw [hlen]
    exact Fin.ext (Nat.mod_eq_of_lt hblock)
  rw [hplace]

end CipherFeedback

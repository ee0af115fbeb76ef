import TpmEmulator.Nv

/-!
What the operations on the NV bank can do. An operation that fails leaves the
state as it was and reports an error code. A definition that succeeds appends a
zeroed slice and an entry for it; a write that succeeds stores one ciphertext in
the slice of its index and marks the entry. Later proofs use the case lemmas and
not the definitions.
-/
namespace TpmEmulator

open CellMemory

/-- The branch that a conditional result comes from. -/
theorem ite_eq_cases {α : Type} {p : Prop} [Decidable p] {a b r : α}
    (h : (if p then a else b) = r) : (p ∧ r = a) ∨ (¬ p ∧ b = r) := by
  by_cases hp : p
  · rw [if_pos hp] at h
    exact .inl ⟨hp, h.symm⟩
  · rw [if_neg hp] at h
    exact .inr ⟨hp, h⟩

private theorem ite_code {p : Prop} [Decidable p] {a b : Nat} (ha : a < 2 ^ 32)
    (hb : b < 2 ^ 32) : (if p then a else b) < 2 ^ 32 := by
  split
  · exact ha
  · exact hb

theorem nvTypeRules_lt (attrs : TpmaNv) (dataSize : Nat) :
    nvTypeRules attrs dataSize < 2 ^ 32 := by
  unfold nvTypeRules
  repeat' apply ite_code
  all_goals decide

theorem nvDefineSpaceChecks_lt (s : Tpm2State) (authHandle : Provision) (nv : NvPublic) :
    nvDefineSpaceChecks s authHandle nv < 2 ^ 32 := by
  unfold nvDefineSpaceChecks
  iterate 10 refine ite_code (by decide) ?_
  refine ite_code (nvTypeRules_lt _ _) ?_
  iterate 2 refine ite_code (by decide) ?_
  decide

/-- A chain of checks that reports success has passed the first one. -/
theorem ite_success {p : Prop} [Decidable p] {a b : Nat} (ha : a ≠ tpmRcSuccess)
    (h : (if p then a else b) = tpmRcSuccess) : ¬ p ∧ b = tpmRcSuccess := by
  by_cases hp : p
  · rw [if_pos hp] at h
    exact absurd h ha
  · rw [if_neg hp] at h
    exact ⟨hp, h⟩

/-- What the later steps rely on after the checks have passed. -/
theorem nvDefineSpaceChecks_success {s : Tpm2State} {authHandle : Provision} {nv : NvPublic}
    (h : nvDefineSpaceChecks s authHandle nv = tpmRcSuccess) :
    nv.nvIndex ∉ s.nvMap ∧ s.nvCount < tpm2MaxNvIndexes := by
  unfold nvDefineSpaceChecks at h
  obtain ⟨-, h⟩ := ite_success (by decide) h
  obtain ⟨hfresh, h⟩ := ite_success (by decide) h
  obtain ⟨hcount, -⟩ := ite_success (by decide) h
  exact ⟨hfresh, Nat.lt_of_not_le hcount⟩

/-- The state after a successful definition. -/
def nvDefined (s : Tpm2State) (nv : NvPublic) : Tpm2State :=
  { s with
    nvBank := store (store s.nvBank s.nvAllocOffset (List.replicate 16 0))
      (s.nvAllocOffset + 16) (List.replicate nv.dataSize 0)
    nvAllocOffset := (s.nvAllocOffset + (16 + nv.dataSize)) % 2 ^ 32
    nvMap := s.nvMap.insert nv.nvIndex
      (newEntry s.nvAllocOffset nv.nvIndex nv.dataSize nv.nameAlg nv.attributes)
    nvCount := (s.nvCount + 1) % 2 ^ 32
    nvDirty := true }

theorem tpm2NvDefineSpace_success {s : Tpm2State} {authHandle : Provision} {nv : NvPublic}
    (auth : Tpm2b) (hchecks : nvDefineSpaceChecks s authHandle nv = tpmRcSuccess)
    (hroom : s.nvAllocOffset + (16 + nv.dataSize) ≤ s.nvBankSize) :
    tpm2NvDefineSpace s authHandle auth nv = (tpmRcSuccess, nvDefined s nv) := by
  simp only [tpm2NvDefineSpace, hchecks, ne_eq, not_true_eq_false, if_false, nvEntryAlloc,
    if_neg (Nat.not_lt.mpr hroom)]
  rfl

theorem tpm2NvDefineSpace_full {s : Tpm2State} {authHandle : Provision} {nv : NvPublic}
    (auth : Tpm2b) (hchecks : nvDefineSpaceChecks s authHandle nv = tpmRcSuccess)
    (hroom : ¬ s.nvAllocOffset + (16 + nv.dataSize) ≤ s.nvBankSize) :
    tpm2NvDefineSpace s authHandle auth nv = (tpmRcMemory, s) := by
  simp only [tpm2NvDefineSpace, hchecks, ne_eq, not_true_eq_false, if_false, nvEntryAlloc,
    if_pos (Nat.lt_of_not_le hroom)]

theorem tpm2NvDefineSpace_rejected {s : Tpm2State} {authHandle : Provision} {nv : NvPublic}
    (auth : Tpm2b) (hchecks : nvDefineSpaceChecks s authHandle nv ≠ tpmRcSuccess) :
    tpm2NvDefineSpace s authHandle auth nv = (nvDefineSpaceChecks s authHandle nv, s) := by
  simp only [tpm2NvDefineSpace, ne_eq, hchecks, not_false_eq_true, if_true]

theorem tpm2NvDefineSpace_cases (s : Tpm2State) (authHandle : Provision) (auth : Tpm2b)
    (nv : NvPublic) :
    (∃ rc, IsErrorCode rc ∧ tpm2NvDefineSpace s authHandle auth nv = (rc, s)) ∨
    (nvDefineSpaceChecks s authHandle nv = tpmRcSuccess ∧
      s.nvAllocOffset + (16 + nv.dataSize) ≤ s.nvBankSize) := by
  by_cases hchecks : nvDefineSpaceChecks s authHandle nv = tpmRcSuccess
  · by_cases hroom : s.nvAllocOffset + (16 + nv.dataSize) ≤ s.nvBankSize
    · exact .inr ⟨hchecks, hroom⟩
    · exact .inl ⟨tpmRcMemory, by decide, tpm2NvDefineSpace_full auth hchecks hroom⟩
  · exact .inl ⟨_, ⟨hchecks, nvDefineSpaceChecks_lt s authHandle nv⟩,
      tpm2NvDefineSpace_rejected auth hchecks⟩

/-- The lengths for which a cipher is selected. -/
def IsKeyLength (keylen : Nat) : Prop := keylen = 16 ∨ keylen = 24 ∨ keylen = 32

theorem nvCrypt_of_isKeyLength (host : Host) (s : Tpm2State) (e : NvEntry) (input : List UInt8)
    (enc : Bool) (hkey : IsKeyLength s.primarySensitive.ecc.size) :
    nvCrypt host s e input enc =
      let block := host.aesBlock
        (slice s.primarySensitive.ecc.buffer 0 s.primarySensitive.ecc.size)
      if enc then CipherFeedback.encrypt (· ^^^ ·) block (nvIv s e) input
      else CipherFeedback.decrypt (· ^^^ ·) block (nvIv s e) input :=
  if_pos hkey

theorem nvCrypt_of_not_isKeyLength (host : Host) (s : Tpm2State) (e : NvEntry)
    (input : List UInt8) (enc : Bool) (hkey : ¬ IsKeyLength s.primarySensitive.ecc.size) :
    nvCrypt host s e input enc = [] :=
  if_neg hkey

theorem length_nvCrypt (host : Host) (s : Tpm2State) (e : NvEntry) (input : List UInt8)
    (enc : Bool) (hkey : IsKeyLength s.primarySensitive.ecc.size) :
    (nvCrypt host s e input enc).length = input.length := by
  rw [nvCrypt_of_isKeyLength host s e input enc hkey]
  cases enc with
  | true => exact CipherFeedback.length_encryptFrom (· ^^^ ·) _ (nvIv s e) [] input
  | false => exact CipherFeedback.length_decryptFrom (· ^^^ ·) _ (nvIv s e) [] input

/-- A call that returned a positive count had a key and some input. -/
theorem nvCrypt_length_pos {host : Host} {s : Tpm2State} {e : NvEntry} {input : List UInt8}
    {enc : Bool} (h : 0 < (nvCrypt host s e input enc).length) :
    IsKeyLength s.primarySensitive.ecc.size ∧ 0 < input.length := by
  by_cases hkey : IsKeyLength s.primarySensitive.ecc.size
  · rw [length_nvCrypt host s e input enc hkey] at h
    exact ⟨hkey, h⟩
  · rw [nvCrypt_of_not_isKeyLength host s e input enc hkey] at h
    cases h

/-- What is stored for the plaintext of `data`. -/
def nvCiphertext (host : Host) (s : Tpm2State) (e : NvEntry) (data : Tpm2b) : List UInt8 :=
  nvCrypt host s e (slice data.buffer 0 data.size) true

/-- The state in which `TPM2_NV_Write` reports success. -/
def nvStored (host : Host) (s : Tpm2State) (nvIndex : Nat) (e : NvEntry) (data : Tpm2b)
    (offset : Nat) : Tpm2State :=
  { s with
    nvBank := store s.nvBank (e.data + offset) (nvCiphertext host s e data)
    nvMap := s.nvMap.insert nvIndex e.markWritten }

/-- Comparing before copying makes no difference. -/
theorem store_unless_equal (bank : Nat → UInt8) (dst size : Nat) (bytes : List UInt8)
    (hlen : bytes.length = size) :
    (if slice bank dst size ≠ bytes.take size then store bank dst (bytes.take size) else bank) =
      store bank dst bytes := by
  rw [List.take_of_length_le (by omega)]
  split
  · rfl
  · rename_i heq
    rw [← not_not.mp heq, store_slice_self]

/-- What `TPM2_NV_Write` checks before it stores `data` for the entry. -/
structure NvWritable (s : Tpm2State) (e : NvEntry) (data : Tpm2b) (offset : Nat) : Prop where
  unlocked : e.writeLocked = false
  kind : ¬ (e.pub.attributes.nvType = tpmNtCounter ∨ e.pub.attributes.nvType = tpmNtBits ∨
    e.pub.attributes.nvType = tpmNtExtend)
  fits : offset + data.size ≤ e.dataLen
  whole : ¬ (e.pub.attributes.writeAll ∧ data.size ≠ e.dataLen)
  permitted : e.pub.attributes.ownerWrite || e.pub.attributes.authWrite ||
    e.pub.attributes.policyWrite || e.pub.attributes.ppWrite
  max : data.size ≤ maxNvBufferSize
  nonempty : 0 < data.size
  key : IsKeyLength s.primarySensitive.ecc.size

theorem tpm2NvWrite_stored (host : Host) {s : Tpm2State} (authHandle : Provision) {nvIndex : Nat}
    {e : NvEntry} {data : Tpm2b} {offset : Nat} (hlookup : s.nvMap.lookup nvIndex = some e)
    (h : NvWritable s e data offset) :
    tpm2NvWrite host s authHandle nvIndex data offset =
      (tpmRcSuccess, nvStored host s nvIndex e data offset) := by
  have hlen := length_nvCrypt host s e (slice data.buffer 0 data.size) true h.key
  rw [length_slice] at hlen
  have hfits := h.fits
  have hpos := h.nonempty
  simp only [tpm2NvWrite, hlookup]
  rw [if_neg (Bool.eq_false_iff.mp h.unlocked), if_neg h.kind, if_neg (by omega),
    if_neg (by omega), if_neg h.whole,
    if_neg (by rw [h.permitted]; decide),
    if_neg (Nat.not_lt.mpr h.max), if_neg (by omega), store_unless_equal _ _ _ _ hlen]
  rfl

/-- The write passes the checks before that of the offset, and the offset lies behind
the end of the data. -/
structure NvWriteBeyond (e : NvEntry) (offset : Nat) : Prop where
  unlocked : e.writeLocked = false
  kind : ¬ (e.pub.attributes.nvType = tpmNtCounter ∨ e.pub.attributes.nvType = tpmNtBits ∨
    e.pub.attributes.nvType = tpmNtExtend)
  beyond : e.dataLen < offset

theorem tpm2NvWrite_beyond (host : Host) {s : Tpm2State} (authHandle : Provision) {nvIndex : Nat}
    {e : NvEntry} (data : Tpm2b) {offset : Nat} (hlookup : s.nvMap.lookup nvIndex = some e)
    (h : NvWriteBeyond e offset) :
    tpm2NvWrite host s authHandle nvIndex data offset = (tpmRcSuccess, s) := by
  simp only [tpm2NvWrite, hlookup]
  rw [if_neg (Bool.eq_false_iff.mp h.unlocked), if_neg h.kind, if_pos h.beyond]
  rfl

theorem tpm2NvWrite_cases (host : Host) (s : Tpm2State) (authHandle : Provision) (nvIndex : Nat)
    (data : Tpm2b) (offset : Nat) :
    (∃ rc, IsErrorCode rc ∧ tpm2NvWrite host s authHandle nvIndex data offset = (rc, s)) ∨
    (∃ e, s.nvMap.lookup nvIndex = some e ∧ NvWriteBeyond e offset) ∨
    (∃ e, s.nvMap.lookup nvIndex = some e ∧ NvWritable s e data offset) := by
  generalize hr : tpm2NvWrite host s authHandle nvIndex data offset = r
  cases hlookup : s.nvMap.lookup nvIndex with
  | none =>
      simp only [tpm2NvWrite, hlookup] at hr
      exact .inl ⟨_, by decide, hr.symm⟩
  | some e =>
      simp only [tpm2NvWrite, hlookup] at hr
      obtain ⟨-, hr⟩ | ⟨hunlocked, hr⟩ := ite_eq_cases hr
      · exact .inl ⟨_, by decide, hr⟩
      obtain ⟨-, hr⟩ | ⟨hkind, hr⟩ := ite_eq_cases hr
      · exact .inl ⟨_, by decide, hr⟩
      obtain ⟨hoffset, -⟩ | ⟨-, hr⟩ := ite_eq_cases hr
      · exact .inr (.inl ⟨e, rfl, Bool.eq_false_iff.mpr hunlocked, hkind, hoffset⟩)
      obtain ⟨-, hr⟩ | ⟨hrange, hr⟩ := ite_eq_cases hr
      · exact .inl ⟨_, by decide, hr⟩
      obtain ⟨-, hr⟩ | ⟨hwhole, hr⟩ := ite_eq_cases hr
      · exact .inl ⟨_, by decide, hr⟩
      obtain ⟨-, hr⟩ | ⟨hpermitted, hr⟩ := ite_eq_cases hr
      · exact .inl ⟨_, by decide, hr⟩
      obtain ⟨-, hr⟩ | ⟨hmax, hr⟩ := ite_eq_cases hr
      · exact .inl ⟨_, by decide, hr⟩
      obtain ⟨-, hr⟩ | ⟨hcount, -⟩ := ite_eq_cases hr
      · exact .inl ⟨_, by decide, hr⟩
      obtain ⟨hkey, hpos⟩ := nvCrypt_length_pos (Nat.pos_of_ne_zero hcount)
      rw [length_slice] at hpos
      rw [Bool.not_eq_true', Bool.not_eq_false] at hpermitted
      exact .inr (.inr ⟨e, rfl, Bool.eq_false_iff.mpr hunlocked, hkind, Nat.le_of_not_lt hrange,
        hwhole, hpermitted, Nat.le_of_not_lt hmax, hpos, hkey⟩)

/-- What `nv_read_decrypt_from_bank` writes to its output. -/
def nvPlaintext (host : Host) (s : Tpm2State) (e : NvEntry) (len offset : Nat) : List UInt8 :=
  nvCrypt host s e (slice s.nvBank (e.data + offset) len) false

theorem nvReadDecryptFromBank_eq_ok (host : Host) {s : Tpm2State} {e : NvEntry} {len offset : Nat}
    (hfits : offset + len ≤ e.dataLen) (hpos : 0 < len)
    (hkey : IsKeyLength s.primarySensitive.ecc.size) :
    nvReadDecryptFromBank host s e len offset = .ok (nvPlaintext host s e len offset) := by
  have hlen := length_nvCrypt host s e (slice s.nvBank (e.data + offset) len) false hkey
  rw [length_slice] at hlen
  unfold nvReadDecryptFromBank
  rw [if_neg (Nat.not_lt.mpr hfits)]
  dsimp only
  rw [if_pos (by omega)]
  rfl

theorem nvReadDecryptFromBank_ok {host : Host} {s : Tpm2State} {e : NvEntry} {len offset : Nat}
    {out : List UInt8} (h : nvReadDecryptFromBank host s e len offset = .ok out) :
    offset + len ≤ e.dataLen ∧ 0 < len ∧ IsKeyLength s.primarySensitive.ecc.size ∧
      out = nvPlaintext host s e len offset := by
  unfold nvReadDecryptFromBank at h
  split at h
  · cases h
  rename_i hrange
  dsimp only at h
  split at h
  · rename_i hcount
    cases h
    obtain ⟨hkey, hpos⟩ := nvCrypt_length_pos hcount
    rw [length_slice] at hpos
    exact ⟨Nat.le_of_not_lt hrange, hpos, hkey, rfl⟩
  · cases h

theorem length_nvPlaintext (host : Host) {s : Tpm2State} (e : NvEntry) (len offset : Nat)
    (hkey : IsKeyLength s.primarySensitive.ecc.size) :
    (nvPlaintext host s e len offset).length = len := by
  rw [nvPlaintext, length_nvCrypt host s e _ false hkey, length_slice]

theorem nvReadDecryptFromBank_error {host : Host} {s : Tpm2State} {e : NvEntry}
    {len offset rc : Nat} (h : nvReadDecryptFromBank host s e len offset = .error rc) :
    IsErrorCode rc := by
  unfold nvReadDecryptFromBank at h
  split at h
  · cases h; decide
  · dsimp only at h
    split at h <;> cases h
    decide

end TpmEmulator

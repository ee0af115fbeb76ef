import TpmEmulator.State
import TpmEmulator.Library.BigEndian

/-!
Command and response headers: `tpm_cc.c` and `cc_header.h`. A validator that
fills an output and returns a code becomes an `Except`: the code when it is not
success, the output otherwise.
-/
namespace TpmEmulator

open BigEndian

/-- `TPM_CMD_HEADER` and `TPM_RSP_HEADER`, which have the same members. -/
structure Header where
  tag : Nat
  size : Nat
  code : Nat
  deriving DecidableEq, Repr

def isValidCcCommand (commandCode : Nat) : Bool :=
  (tpmCcFirst ≤ commandCode && commandCode ≤ tpmCcLast) ||
    (ccVend ≤ commandCode && commandCode ≤ 0x2FFFFFFF)

def tpmUnpackHeader (buffer : Nat → UInt8) (bufferSize : Nat) : Option Header :=
  if bufferSize < 10 then none
  else some ⟨get16 buffer 0, get32 buffer 2, get32 buffer 6⟩

def tpm2ValidateCommandHeader (cmdBuf : Nat → UInt8) (bufSize : Nat) : Except Nat Header :=
  if bufSize < 10 then .error tpmRcCommandSize
  else match tpmUnpackHeader cmdBuf bufSize with
    | none => .error tpmRcCommandSize
    | some hdr =>
      if hdr.tag ≠ tpmStNoSessions ∧ hdr.tag ≠ tpmStSessions then .error tpmRcBadTag
      else if hdr.size < 10 ∨ hdr.size ≠ bufSize then .error tpmRcCommandSize
      else if isValidCcCommand hdr.code then .ok hdr
      else .error tpmRcCommandCode

/-- The response code of the mode check. -/
def tpm2ValidateMode (cmdHeader : Header) (mode : TpmMode) : Nat :=
  match mode with
  | .failure =>
    if (cmdHeader.code = tpmCcGetTestResult ∨ cmdHeader.code = tpmCcGetCapability) ∧
        cmdHeader.tag = tpmStNoSessions then tpmRcSuccess
    else tpmRcFailure
  | .field => if cmdHeader.code = tpmCcFieldUpgradeData then tpmRcSuccess else tpmRcUpgrade
  | .noInit => if cmdHeader.code = tpmCcStartup then tpmRcSuccess else tpmRcInitialize
  | .normal => tpmRcSuccess

def unmarshalCommandTag (tag : Nat) : Nat :=
  if tag ≠ tpmStNoSessions ∧ tag ≠ tpmStSessions then tpmRcBadTag else tpmRcSuccess

def unmarshalCommandSize (commandSize : Nat) : Nat :=
  if commandSize < tpmCmdHeaderSize ∨ tpmMaxCommandSize < commandSize then tpmRcCommandSize
  else tpmRcSuccess

def unmarshalCommandCode (commandCode : Nat) : Nat :=
  if (tpmCcFirst ≤ commandCode ∧ commandCode ≤ tpmCcLast) ∨
      (ccVend ≤ commandCode ∧ commandCode ≤ 0x2FFFFFFF) then tpmRcSuccess
  else tpmRcCommandCode

/-- The header and the number of bytes read. -/
def unmarshalCommandHeader (buffer : Nat → UInt8) (bufferSize : Nat) :
    Except Nat (Header × Nat) :=
  if bufferSize < tpmCmdHeaderSize then .error tpmRcInsufficient
  else
    let tag := get16 buffer 0
    if unmarshalCommandTag tag ≠ tpmRcSuccess then .error (unmarshalCommandTag tag)
    else
      let size := get32 buffer 2
      if unmarshalCommandSize size ≠ tpmRcSuccess then .error (unmarshalCommandSize size)
      else if bufferSize < size then .error tpmRcCommandSize
      else
        let code := get32 buffer 6
        if unmarshalCommandCode code ≠ tpmRcSuccess then .error (unmarshalCommandCode code)
        else .ok (⟨tag, size, code⟩, 10)

def unmarshalResponseTag (tag : Nat) : Nat :=
  if tag ≠ tpmStNoSessions ∧ tag ≠ tpmStSessions then tpmRcBadTag else tpmRcSuccess

def unmarshalResponseSize (responseSize : Nat) : Nat :=
  if responseSize < tpmRspHeaderSize ∨ tpmMaxResponseSize < responseSize then tpmRcSize
  else tpmRcSuccess

/-- The header and the number of bytes read. -/
def unmarshalResponseHeader (buffer : Nat → UInt8) (bufferSize : Nat) :
    Except Nat (Header × Nat) :=
  if bufferSize < tpmRspHeaderSize then .error tpmRcInsufficient
  else
    let tag := get16 buffer 0
    if unmarshalResponseTag tag ≠ tpmRcSuccess then .error (unmarshalResponseTag tag)
    else
      let size := get32 buffer 2
      if unmarshalResponseSize size ≠ tpmRcSuccess then .error (unmarshalResponseSize size)
      else if bufferSize < size then .error tpmRcSize
      else .ok (⟨tag, size, get32 buffer 6⟩, 10)

theorem tpm2ValidateCommandHeader_ok {cmdBuf : Nat → UInt8} {bufSize : Nat} {hdr : Header}
    (h : tpm2ValidateCommandHeader cmdBuf bufSize = .ok hdr) :
    10 ≤ bufSize ∧ hdr = ⟨get16 cmdBuf 0, bufSize, get32 cmdBuf 6⟩ ∧ get32 cmdBuf 2 = bufSize ∧
      (hdr.tag = tpmStNoSessions ∨ hdr.tag = tpmStSessions) ∧ isValidCcCommand hdr.code := by
  simp only [tpm2ValidateCommandHeader, tpmUnpackHeader] at h
  by_cases hsize : bufSize < 10
  · simp [hsize] at h
  simp only [if_neg hsize] at h
  split at h
  · cases h
  rename_i htag
  split at h
  · cases h
  rename_i hfield
  split at h
  · rename_i hcode
    cases h
    have hlen : get32 cmdBuf 2 = bufSize := by omega
    exact ⟨by omega, by rw [hlen], hlen, by simp only at htag ⊢; omega, hcode⟩
  · cases h

/-- The codes with which a header is rejected, and when it is the size. -/
theorem tpm2ValidateCommandHeader_rejects {cmdBuf : Nat → UInt8} {bufSize rc : Nat}
    (h : tpm2ValidateCommandHeader cmdBuf bufSize = .error rc) :
    (rc = tpmRcCommandSize ∧ (bufSize < 10 ∨ get32 cmdBuf 2 ≠ bufSize)) ∨
      rc = tpmRcBadTag ∨ rc = tpmRcCommandCode := by
  simp only [tpm2ValidateCommandHeader, tpmUnpackHeader] at h
  by_cases hsize : bufSize < 10
  · simp only [if_pos hsize, Except.error.injEq] at h
    exact .inl ⟨h.symm, .inl hsize⟩
  simp only [if_neg hsize] at h
  split at h
  · cases h
    exact .inr (.inl rfl)
  split at h
  · rename_i hfield
    cases h
    exact .inl ⟨rfl, by omega⟩
  split at h
  · cases h
  · cases h
    exact .inr (.inr rfl)

theorem tpm2ValidateCommandHeader_error {cmdBuf : Nat → UInt8} {bufSize rc : Nat}
    (h : tpm2ValidateCommandHeader cmdBuf bufSize = .error rc) : IsErrorCode rc := by
  obtain ⟨rfl, -⟩ | rfl | rfl := tpm2ValidateCommandHeader_rejects h <;> decide

/-- The converse of `tpm2ValidateCommandHeader_ok`. -/
theorem tpm2ValidateCommandHeader_eq_ok {cmdBuf : Nat → UInt8} {bufSize : Nat}
    (hsize : 10 ≤ bufSize) (hfield : get32 cmdBuf 2 = bufSize)
    (htag : get16 cmdBuf 0 = tpmStNoSessions ∨ get16 cmdBuf 0 = tpmStSessions)
    (hcode : isValidCcCommand (get32 cmdBuf 6)) :
    tpm2ValidateCommandHeader cmdBuf bufSize =
      .ok ⟨get16 cmdBuf 0, bufSize, get32 cmdBuf 6⟩ := by
  have hlt : ¬ bufSize < 10 := by omega
  have hgood : ¬ (get16 cmdBuf 0 ≠ tpmStNoSessions ∧ get16 cmdBuf 0 ≠ tpmStSessions) := by omega
  simp only [tpm2ValidateCommandHeader, tpmUnpackHeader, hlt, if_false, hgood, hfield]
  simp [hcode]

/-- Only the ten header bytes matter to the validator. -/
theorem tpm2ValidateCommandHeader_congr {cmdBuf cmdBuf' : Nat → UInt8} {bufSize : Nat}
    (h : ∀ i < 10, cmdBuf i = cmdBuf' i) :
    tpm2ValidateCommandHeader cmdBuf bufSize = tpm2ValidateCommandHeader cmdBuf' bufSize := by
  have htag : get16 cmdBuf 0 = get16 cmdBuf' 0 := get16_congr fun k hk => h _ (by omega)
  have hsize : get32 cmdBuf 2 = get32 cmdBuf' 2 := get32_congr fun k hk => h _ (by omega)
  have hcode : get32 cmdBuf 6 = get32 cmdBuf' 6 := get32_congr fun k hk => h _ (by omega)
  simp only [tpm2ValidateCommandHeader, tpmUnpackHeader, htag, hsize, hcode]

/-- The code with which a mode rejects a command. -/
theorem tpm2ValidateMode_rejects (header : Header) (mode : TpmMode) :
    tpm2ValidateMode header mode = tpmRcSuccess ∨
      (mode = .failure ∧ tpm2ValidateMode header mode = tpmRcFailure) ∨
      (mode = .field ∧ tpm2ValidateMode header mode = tpmRcUpgrade) ∨
      (mode = .noInit ∧ tpm2ValidateMode header mode = tpmRcInitialize) := by
  cases mode with
  | normal => exact .inl rfl
  | failure =>
      unfold tpm2ValidateMode
      dsimp only
      split
      · exact .inl rfl
      · exact .inr (.inl ⟨rfl, rfl⟩)
  | field =>
      unfold tpm2ValidateMode
      dsimp only
      split
      · exact .inl rfl
      · exact .inr (.inr (.inl ⟨rfl, rfl⟩))
  | noInit =>
      unfold tpm2ValidateMode
      dsimp only
      split
      · exact .inl rfl
      · exact .inr (.inr (.inr ⟨rfl, rfl⟩))

theorem tpm2ValidateMode_code (cmdHeader : Header) (mode : TpmMode) :
    tpm2ValidateMode cmdHeader mode = tpmRcSuccess ∨
      IsErrorCode (tpm2ValidateMode cmdHeader mode) := by
  obtain hrc | ⟨-, hrc⟩ | ⟨-, hrc⟩ | ⟨-, hrc⟩ := tpm2ValidateMode_rejects cmdHeader mode
  · exact .inl hrc
  all_goals
    rw [hrc]
    exact .inr (by decide)

end TpmEmulator

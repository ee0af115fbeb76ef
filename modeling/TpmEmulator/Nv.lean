import TpmEmulator.Crypto

/-!
`tpm_nv.c`: the allocator of the NV bank, the definition of an index, the
encrypted write and the decrypted read. The feature stubs
`impl_supports_counter`, `impl_supports_setbits`,
`impl_supports_undefine_policy_delete` and `tpm2_nv_flush_dirty` return true, so
the branches behind their failure are left out. The hash table keeps pointers to
entries; an update through such a pointer is an insertion under the same key.
-/
namespace TpmEmulator

open CellMemory

/-- The entry that `nv_entry_alloc` fills for a slice starting at `base`. -/
def newEntry (base index dataSize nameAlg : Nat) (attrs : TpmaNv) : NvEntry where
  pub :=
    { nvIndex := index
      nameAlg := nameAlg
      attributes := attrs
      authPolicy := zeroBytes
      authPolicySize := 0
      dataSize := dataSize }
  authValue := zeroBytes
  authValueLen := 0
  ivPtr := base
  data := base + 16
  dataLen := dataSize
  written := false
  readLocked := false
  writeLocked := false

/-- `nv_entry_alloc`. The authorization value is not stored. -/
def nvEntryAlloc (s : Tpm2State) (index dataSize nameAlg : Nat) (attrs : TpmaNv) (_auth : Tpm2b) :
    Option (NvEntry × Tpm2State) :=
  let need := 16 + dataSize
  if s.nvBankSize < s.nvAllocOffset + need then none
  else
    let e := newEntry s.nvAllocOffset index dataSize nameAlg attrs
    some (e,
      { s with
        nvBank := store (store s.nvBank e.ivPtr (List.replicate 16 0)) e.data
          (List.replicate e.dataLen 0)
        nvAllocOffset := (s.nvAllocOffset + need) % 2 ^ 32 })

def anyReadBit (a : TpmaNv) : Bool := a.ppRead || a.ownerRead || a.authRead || a.policyRead

def anyWriteBit (a : TpmaNv) : Bool := a.ppWrite || a.ownerWrite || a.authWrite || a.policyWrite

/-- The `switch` on the index type, step 10 of `tpm2_nv_define_space`. -/
def nvTypeRules (attrs : TpmaNv) (dataSize : Nat) : Nat :=
  if attrs.nvType = tpmNtCounter then
    if attrs.clearStClear then tpmRcAttributes
    else if dataSize ≠ 8 then tpmRcSize
    else tpmRcSuccess
  else if attrs.nvType = tpmNtBits then
    if dataSize ≠ 8 then tpmRcSize else tpmRcSuccess
  else if attrs.nvType = tpmNtPinFail then
    if !attrs.noDa then tpmRcAttributes
    else if dataSize ≠ 8 then tpmRcSize
    else if attrs.authWrite then tpmRcAttributes
    else if !(attrs.ppWrite || attrs.ownerWrite || attrs.policyWrite) then tpmRcAttributes
    else tpmRcSuccess
  else if attrs.nvType = tpmNtPinPass then
    if dataSize ≠ 8 then tpmRcSize
    else if attrs.authWrite then tpmRcAttributes
    else if !(attrs.ppWrite || attrs.ownerWrite || attrs.policyWrite) then tpmRcAttributes
    else tpmRcSuccess
  else tpmRcSuccess

/-- Steps 2 to 12 of `tpm2_nv_define_space`, which only check. -/
def nvDefineSpaceChecks (s : Tpm2State) (authHandle : Provision) (nv : NvPublic) : Nat :=
  let attrs := nv.attributes
  let platformAuth : Bool := authHandle.platform = tpmRhPlatform
  if nv.nvIndex = 0 ∨ tpm2NvStorageSize < nv.dataSize then tpmRcSize
  else if nv.nvIndex ∈ s.nvMap then tpmRcNvDefined
  else if tpm2MaxNvIndexes ≤ s.nvCount then tpmRcNvSpace
  else if attrs.written || attrs.readLocked || attrs.writeLocked then tpmRcAttributes
  else if tpmNtPinPass < attrs.nvType then tpmRcAttributes
  else if !anyReadBit attrs then tpmRcAttributes
  else if !anyWriteBit attrs then tpmRcAttributes
  else if platformAuth && !attrs.platformCreate then tpmRcAttributes
  else if !platformAuth && attrs.platformCreate then tpmRcAttributes
  else if attrs.policyDelete && !platformAuth then tpmRcAttributes
  else if nvTypeRules attrs nv.dataSize ≠ tpmRcSuccess then nvTypeRules attrs nv.dataSize
  else if attrs.nvType = tpmNtOrdinary ∧ s.nvBankSize < nv.dataSize then tpmRcSize
  else if attrs.nvType = tpmNtOrdinary ∧ attrs.writeAll ∧ maxNvBufferSize < nv.dataSize then
    tpmRcSize
  else tpmRcSuccess

def tpm2NvDefineSpace (s : Tpm2State) (authHandle : Provision) (auth : Tpm2b) (nv : NvPublic) :
    Nat × Tpm2State :=
  let rc := nvDefineSpaceChecks s authHandle nv
  if rc ≠ tpmRcSuccess then (rc, s)
  else match nvEntryAlloc s nv.nvIndex nv.dataSize nv.nameAlg nv.attributes auth with
    | none => (tpmRcMemory, s)
    | some (e, s) =>
      (tpmRcSuccess,
        { s with
          nvMap := s.nvMap.insert nv.nvIndex e
          nvCount := (s.nvCount + 1) % 2 ^ 32
          nvDirty := true })

/-- `tpm2_nv_init` on a device whose table has not been created. -/
def tpm2NvInit (s : Tpm2State) : Tpm2State :=
  { s with
    nvMap := ∅
    nvCount := 0
    nvDirty := false
    nvBankSize := tpm2NvStorageSize
    nvAllocOffset := 0 }

/-- The two assignments of `TPM2_NV_Write` to the entry it has written. -/
def NvEntry.markWritten (e : NvEntry) : NvEntry :=
  { e with
    written := true
    pub := { e.pub with attributes := { e.pub.attributes with written := true } } }

/-- The sixteen bytes behind `iv_ptr`. -/
def nvIv (s : Tpm2State) (e : NvEntry) : List UInt8 := slice s.nvBank e.ivPtr 16

/-- The call of `TPM2_AES_CFB_Crypt` with the primary private key and the entry's
initialization vector. -/
def nvCrypt (host : Host) (s : Tpm2State) (e : NvEntry) (input : List UInt8) (enc : Bool) :
    List UInt8 :=
  tpm2AesCfbCrypt host s.primarySensitive.ecc.buffer s.primarySensitive.ecc.size (nvIv s e)
    input enc

/-- `TPM2_NV_Write`. Its `TPM_RC_VALUE` is the success code. -/
def tpm2NvWrite (host : Host) (s : Tpm2State) (_authHandle : Provision) (nvIndex : Nat)
    (data : Tpm2b) (offset : Nat) : Nat × Tpm2State :=
  match s.nvMap.lookup nvIndex with
  | none => (tpmRcHandle, s)
  | some e =>
    let attrs := e.pub.attributes
    if e.writeLocked then (tpmRcNvLocked, s)
    else if attrs.nvType = tpmNtCounter ∨ attrs.nvType = tpmNtBits ∨ attrs.nvType = tpmNtExtend
    then (tpmRcAttributes, s)
    else if e.dataLen < offset then (tpmRcValue, s)
    else if e.dataLen < offset + data.size then (tpmRcNvRange, s)
    else if attrs.writeAll ∧ data.size ≠ e.dataLen then (tpmRcNvRange, s)
    else if !(attrs.ownerWrite || attrs.authWrite || attrs.policyWrite || attrs.ppWrite) then
      (tpmRcAuthFail, s)
    else if maxNvBufferSize < data.size then (tpmRcSize, s)
    else
      let ciphertext := nvCrypt host s e (slice data.buffer 0 data.size) true
      if ciphertext.length = 0 then (tpmRcFailure, s)
      else
        let dst := e.data + offset
        (tpmRcSuccess,
          { s with
            nvBank :=
              if slice s.nvBank dst data.size ≠ ciphertext.take data.size then
                store s.nvBank dst (ciphertext.take data.size)
              else s.nvBank
            nvMap := s.nvMap.insert nvIndex e.markWritten })

/-- `nv_read_decrypt_from_bank`: the bytes written to `out`. -/
def nvReadDecryptFromBank (host : Host) (s : Tpm2State) (e : NvEntry) (len offset : Nat) :
    Except Nat (List UInt8) :=
  if e.dataLen < offset + len then .error tpmRcSize
  else
    let out := nvCrypt host s e (slice s.nvBank (e.data + offset) len) false
    if 0 < out.length then .ok out else .error tpmRcFailure

end TpmEmulator

import TpmEmulator.Constants
import TpmEmulator.Library.CellMemory
import Mathlib.Data.Finmap

/-!
The device state of `tpm2_device.h` and the structures it is made of. Byte
arrays are memories: total maps from positions to bytes. The NV bank pointers
of an entry are offsets from `nv_bank_ptr`. The hash table of NV entries is a
finite map.

Two kinds of value come from outside the repository. `Host` holds the library
functions the device calls, which are deterministic. `Surroundings` holds what
one register access may find in its environment: the bytes of the random
source, the previous contents of the handlers' uninitialised locals, and the
memory after the command buffer. The surroundings of two accesses are unrelated.
-/
namespace TpmEmulator

/-- `enum tpm_state`, in the order of its enumerators. -/
inductive TpmState
  | idle
  | ready
  | receiving
  | processing
  | sending
  deriving DecidableEq, Repr

/-- The value of the enumerator, as the status register shows it. -/
def TpmState.value : TpmState → Nat
  | .idle => 0
  | .ready => 1
  | .receiving => 2
  | .processing => 3
  | .sending => 4

/-- `enum tpm_operational_mode`. -/
inductive TpmMode
  | normal
  | failure
  | field
  | noInit
  deriving DecidableEq, Repr

/-- The bit-fields of `TPMA_NV`. -/
structure TpmaNv where
  ppWrite : Bool
  ownerWrite : Bool
  authWrite : Bool
  policyWrite : Bool
  reserved1 : Nat
  nvType : Nat
  policyDelete : Bool
  writeLocked : Bool
  writeAll : Bool
  writeDefine : Bool
  writeStClear : Bool
  globalLock : Bool
  ppRead : Bool
  ownerRead : Bool
  authRead : Bool
  policyRead : Bool
  reserved2 : Nat
  noDa : Bool
  orderly : Bool
  clearStClear : Bool
  readLocked : Bool
  written : Bool
  platformCreate : Bool
  readStClear : Bool
  deriving DecidableEq, Repr

/-- The bit-fields take 33 bits. They are allocated from the least significant
bit, and the last one does not fit and opens a second 32-bit unit. -/
def TpmaNv.ofWords (first second : Nat) : TpmaNv where
  ppWrite := first.testBit 0
  ownerWrite := first.testBit 1
  authWrite := first.testBit 2
  policyWrite := first.testBit 3
  reserved1 := first / 2 ^ 4 % 2 ^ 3
  nvType := first / 2 ^ 7 % 2 ^ 4
  policyDelete := first.testBit 11
  writeLocked := first.testBit 12
  writeAll := first.testBit 13
  writeDefine := first.testBit 14
  writeStClear := first.testBit 15
  globalLock := first.testBit 16
  ppRead := first.testBit 17
  ownerRead := first.testBit 18
  authRead := first.testBit 19
  policyRead := first.testBit 20
  reserved2 := first / 2 ^ 21 % 2 ^ 5
  noDa := first.testBit 26
  orderly := first.testBit 27
  clearStClear := first.testBit 28
  readLocked := first.testBit 29
  written := first.testBit 30
  platformCreate := first.testBit 31
  readStClear := second.testBit 0

/-- A size field and the array behind it: `TPM2B_DIGEST`, `TPM2B_AUTH`,
`TPM2B_ECC_PARAMETER`, `TPM2B_SENSITIVE_DATA` and `TPM2B_MAX_NV_BUFFER`. -/
structure Tpm2b where
  size : Nat
  buffer : Nat → UInt8

/-- All-zero memory, as `memset` and `g_malloc0` leave it. -/
def zeroBytes : Nat → UInt8 := fun _ => 0

def Tpm2b.zero : Tpm2b := ⟨0, zeroBytes⟩

/-- `TPMS_NV_PUBLIC`. -/
structure NvPublic where
  nvIndex : Nat
  nameAlg : Nat
  attributes : TpmaNv
  authPolicy : Nat → UInt8
  authPolicySize : Nat
  dataSize : Nat

/-- `NVEntry`. The pointers `data` and `iv_ptr` are offsets into the NV bank. -/
structure NvEntry where
  pub : NvPublic
  authValue : Nat → UInt8
  authValueLen : Nat
  data : Nat
  dataLen : Nat
  ivPtr : Nat
  written : Bool
  readLocked : Bool
  writeLocked : Bool

/-- `TPMI_RH_PROVISION`. -/
structure Provision where
  owner : Nat
  platform : Nat
  responseFailCode : Nat
  deriving DecidableEq, Repr

/-- The members of `TPMT_PUBLIC` that the device reads or writes. The other
members of the `parameters` union stay zero. -/
structure TpmtPublic where
  type : Nat
  nameAlg : Nat
  objectAttributes : Nat
  authPolicy : Tpm2b
  curveId : Nat
  x : Tpm2b
  y : Tpm2b

def TpmtPublic.zero : TpmtPublic := ⟨0, 0, 0, .zero, 0, .zero, .zero⟩

/-- `TPM2B_PUBLIC`. -/
structure Tpm2bPublic where
  size : Nat
  publicArea : TpmtPublic

def Tpm2bPublic.zero : Tpm2bPublic := ⟨0, .zero⟩

/-- `TPM2B_SENSITIVE` with its `TPMT_SENSITIVE`; of the composite union only
the `ecc` member is used. -/
structure Tpm2bSensitive where
  size : Nat
  sensitiveType : Nat
  authValue : Tpm2b
  seedValue : Tpm2b
  ecc : Tpm2b

def Tpm2bSensitive.zero : Tpm2bSensitive := ⟨0, 0, .zero, .zero, .zero⟩

/-- `TPMS_SENSITIVE_CREATE` inside `TPM2B_SENSITIVE_CREATE`. -/
structure SensitiveCreate where
  userAuth : Tpm2b
  data : Tpm2b

/-- `TPM2B_NAME`. The array is a flexible member: it has no storage inside the
structure, and a structure assignment copies the size alone. -/
structure Tpm2bName where
  size : Nat
  name : Nat → UInt8

def Tpm2bName.zero : Tpm2bName := ⟨0, zeroBytes⟩

/-- The structure assignment `*target = *source` of two `TPM2B_NAME`. -/
def Tpm2bName.assign (target source : Tpm2bName) : Tpm2bName :=
  { target with size := source.size }

/-- `CreatePrimary_Params`. -/
structure CreatePrimaryParams where
  primaryHandle : Nat
  inSensitiveSize : Nat
  userAuthSize : Nat
  userAuth : Nat → UInt8
  dataSize : Nat
  data : Nat → UInt8
  inPublicSize : Nat

/-- `NV_DefineSpace_Params`. -/
structure NvDefineSpaceParams where
  authHandle : Nat
  authSize : Nat
  auth : Nat → UInt8
  publicSize : Nat
  nvIndex : Nat
  nameAlg : Nat
  attributes : Nat
  authPolicySize : Nat
  authPolicy : Nat → UInt8
  dataSize : Nat

/-- `NV_Write_Params`. -/
structure NvWriteParams where
  authHandle : Nat
  nvIndex : Nat
  data : Tpm2b
  offset : Nat

/-- `NV_Read_Params`. -/
structure NvReadParams where
  authHandle : Nat
  nvIndex : Nat
  sizeToRead : Nat
  offset : Nat
  deriving DecidableEq, Repr

/-- The library functions behind the device, and two facts of the compiler's
structure layout: the bytes of a `TPMT_PUBLIC` object with zero padding, and
its size. `aesBlock` enciphers one block under a key of 16, 24 or 32 bytes;
`basePointMul` gives the affine coordinates of a multiple of the P-256 base
point. -/
structure Host where
  aesBlock : List UInt8 → List UInt8 → Fin 16 → UInt8
  hmacSha256 : List UInt8 → List UInt8 → Vector UInt8 32
  sha256 : List UInt8 → Vector UInt8 32
  basePointMul : List UInt8 → Vector UInt8 32 × Vector UInt8 32
  publicBytes : TpmtPublic → List UInt8
  sizeofTpmtPublic : Nat

/-- What one register access finds around it: the next bytes of the random
source, the indeterminate initial values of the handlers' locals `params` and
`bytesRead`, and the memory past the end of `command_buffer`, by its distance
from the start of that buffer. -/
structure Surroundings where
  random : Nat → UInt8
  createPrimaryParams : CreatePrimaryParams
  nvDefineSpaceParams : NvDefineSpaceParams
  nvWriteParams : NvWriteParams
  nvReadParams : NvReadParams
  bytesRead : Nat
  pastCommandBuffer : Nat → UInt8

/-- The two buffers of the register interface. -/
inductive Buffer
  | command
  | response
  deriving DecidableEq, Repr

/-- `TPM2State`. The field `touched` is a ghost: it lists every index that the
register handlers and the two response builders have used into the buffers. -/
structure Tpm2State where
  nvBank : Nat → UInt8
  nvBankSize : Nat
  nvAllocOffset : Nat
  nvMap : Finmap (fun _ : Nat => NvEntry)
  nvCount : Nat
  nvDirty : Bool
  ctrl : Nat
  status : Nat
  keyGenerated : Nat
  randomData : Nat → UInt8
  commandBuffer : Nat → UInt8
  responseBuffer : Nat → UInt8
  cmdSize : Nat
  respSize : Nat
  respIdx : Nat
  state : TpmState
  tpmMode : TpmMode
  pps : Nat → UInt8
  sps : Nat → UInt8
  eps : Nat → UInt8
  phProof : Nat → UInt8
  shProof : Nat → UInt8
  ehProof : Nat → UInt8
  primarySensitive : Tpm2bSensitive
  primaryPublic : Tpm2bPublic
  primaryName : Tpm2bName
  nextTransientHandle : Nat
  initialized : Bool
  touched : List (Buffer × Nat)

end TpmEmulator

import Mathlib.Algebra.Order.Ring.Nat
import Mathlib.Tactic.Common

/-!
The numeric constants of the TPM headers that the device model reads: response
codes, command codes, structure tags, handles, algorithm identifiers, register
offsets and buffer capacities.

One response code has two definitions. The enumeration of `tpm2_rc.h` gives
`TPM_RC_VALUE` the value 0x084. A macro of `tpm2_alg_structs.h`, which
`tpm2_device.h` brings in after the enumeration, redefines the name to 0x000.
The three places of the device that return `TPM_RC_VALUE` are compiled in
`tpm_hw.c` and `tpm_nv.c` after `tpm2_device.h`, so what they return is the
success code.
-/
namespace TpmEmulator

/-! Response codes. -/

def tpmRcSuccess : Nat := 0x000
def tpmRcBadTag : Nat := 0x01E
def tpmRcInitialize : Nat := 0x100
def tpmRcFailure : Nat := 0x101
def tpmRcUpgrade : Nat := 0x12D
def tpmRcCommandSize : Nat := 0x142
def tpmRcCommandCode : Nat := 0x143
def tpmRcNvRange : Nat := 0x146
def tpmRcNvLocked : Nat := 0x148
def tpmRcNvUninitialized : Nat := 0x14A
def tpmRcNvSpace : Nat := 0x14B
def tpmRcNvDefined : Nat := 0x14C
def tpmRcAsymmetric : Nat := 0x081
def tpmRcAttributes : Nat := 0x082
def tpmRcValue : Nat := 0x000
def tpmRcHierarchy : Nat := 0x085
def tpmRcHandle : Nat := 0x08B
def tpmRcAuthFail : Nat := 0x08E
def tpmRcSize : Nat := 0x095
def tpmRcInsufficient : Nat := 0x09A
def tpmRcMemory : Nat := 0x904

/-! Command codes. -/

def tpmCcFirst : Nat := 0x0000011F
def tpmCcNvDefineSpace : Nat := 0x0000012A
def tpmCcCreatePrimary : Nat := 0x00000131
def tpmCcNvWrite : Nat := 0x00000137
def tpmCcFieldUpgradeData : Nat := 0x00000141
def tpmCcStartup : Nat := 0x00000144
def tpmCcNvRead : Nat := 0x0000014E
def tpmCcGetCapability : Nat := 0x0000017A
def tpmCcGetRandom : Nat := 0x0000017B
def tpmCcGetTestResult : Nat := 0x0000017C
def tpmCcLast : Nat := 0x0000019F
def ccVend : Nat := 0x20000000

/-! Structure tags, hierarchy handles, algorithms and NV index types. -/

def tpmStNoSessions : Nat := 0x8001
def tpmStSessions : Nat := 0x8002
def tpmStCreation : Nat := 0x8021

def tpmRhOwner : Nat := 0x40000001
def tpmRhEndorsement : Nat := 0x4000000B
def tpmRhPlatform : Nat := 0x4000000C

/-- `TPM_RH_FIRST` and `TPM_RH_LAST`, the bounds of the permanent handles. -/
def permanentFirst : Nat := 0x40000000
def permanentLast : Nat := 0x4004FFFF

def nvIndexFirst : Nat := 0x01000000
def nvIndexLast : Nat := 0x01FFFFFF
def externalNvFirst : Nat := 0x11000000
def externalNvLast : Nat := 0x11FFFFFF
def permanentNvFirst : Nat := 0x12000000
def permanentNvLast : Nat := 0x12FFFFFF

/-- The last transient handle leaves room for 32 loaded objects. -/
def transientFirst : Nat := 0x80000000
def transientLast : Nat := 0x8000001F

def tpmAlgSha256 : Nat := 0x000B
def tpmAlgEcc : Nat := 0x0023
def tpmEccNistP256 : Nat := 0x0003

def tpmNtOrdinary : Nat := 0x0
def tpmNtCounter : Nat := 0x1
def tpmNtBits : Nat := 0x2
def tpmNtExtend : Nat := 0x4
def tpmNtPinFail : Nat := 0x8
def tpmNtPinPass : Nat := 0x9

/-! Register offsets and sizes. -/

def tpm2CtrlReg : Nat := 0x00
def tpm2StatusReg : Nat := 0x04
def tpm2CmdReg : Nat := 0x0C
def tpm2DataReg : Nat := 0x10

def tpmCmdHeaderSize : Nat := 10
def tpmRspHeaderSize : Nat := 10
def tpmMaxCommandSize : Nat := 4096
def tpmMaxResponseSize : Nat := 4096
def commandBufferSize : Nat := 1024
def responseBufferSize : Nat := 1024
def tpm2NvStorageSize : Nat := 6962
def tpm2MaxNvIndexes : Nat := 16
def maxNvBufferSize : Nat := 1024

/-- Subtraction of `UINT32` operands, which wraps below zero. -/
def sub32 (a b : Nat) : Nat := if b ≤ a then a - b else a + 2 ^ 32 - b

theorem sub32_of_le {a b : Nat} (h : b ≤ a) : sub32 a b = a - b := if_pos h

/-- What an error exit reports: a 32-bit response code other than success. -/
def IsErrorCode (rc : Nat) : Prop := rc ≠ tpmRcSuccess ∧ rc < 2 ^ 32

instance (rc : Nat) : Decidable (IsErrorCode rc) :=
  inferInstanceAs (Decidable (rc ≠ tpmRcSuccess ∧ rc < 2 ^ 32))

end TpmEmulator

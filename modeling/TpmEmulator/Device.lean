import TpmEmulator.Handlers
import TpmEmulator.Library.Runs

/-!
The device: reset, the register interface and realization. A guest access is one
read or write of a register, and a run of the device is a sequence of accesses
from the realized state. A write may execute a command and so comes with the
surroundings it is made in. `step` is what an access does if all copies of its
handler fit, and `process` what becomes of the emulator. The RSA key, which no
register access creates, is left out, as is `tpm2_init`, whose body is commented out.
-/
namespace TpmEmulator

open CellMemory BigEndian

def tpm2Reset (s : Tpm2State) : Tpm2State :=
  { s with
    ctrl := 0
    status := 0
    keyGenerated := 0
    state := .idle
    cmdSize := 0
    respSize := 0
    respIdx := 0
    commandBuffer := zeroBytes
    responseBuffer := zeroBytes
    randomData := zeroBytes }

/-- The value read and the state after the read. -/
def tpm2MmioRead (s : Tpm2State) (addr : Nat) : Nat × Tpm2State :=
  if addr = tpm2CtrlReg then (s.ctrl, s)
  else if addr = tpm2StatusReg then (s.state.value, s)
  else if addr = tpm2DataReg then
    if s.state ≠ .sending then (0, s)
    else if s.respSize ≤ s.respIdx then (0, s)
    else
      let (val, response) := s.responseCells.loadWord s.respIdx
      let s := { s with respIdx := (s.respIdx + 4) % 2 ^ 32, touched := response.touched }
      if s.respSize ≤ s.respIdx then (val, { s with state := .idle, respIdx := 0, respSize := 0 })
      else (val, s)
  else (0, s)

/-- The branch of the write handler that executes: 1 to the command register in
state RECEIVING. -/
def executeCommand (host : Host) (env : Surroundings) (s : Tpm2State) : Tpm2State :=
  let (actualSize, command) := s.commandCells.loadWord 2
  let s := { s with touched := command.touched }
  if s.cmdSize < actualSize then buildErrorResponse { s with state := .idle } tpmRcCommandSize
  else tpm2ProcessCommand host env { s with cmdSize := actualSize, state := .processing }

def tpm2MmioWrite (host : Host) (env : Surroundings) (s : Tpm2State) (addr value : Nat) :
    Tpm2State :=
  if addr = tpm2CtrlReg then
    if value = 1 then { s with state := .receiving, cmdSize := 0, respSize := 0, respIdx := 0 }
    else if value = 0 then tpm2Reset s
    else s
  else if addr = tpm2CmdReg then
    if value = 1 then
      if s.state ≠ .receiving then { s with state := .idle } else executeCommand host env s
    else s
  else if addr = tpm2DataReg then
    if s.state ≠ .receiving then s
    else if commandBufferSize < (s.cmdSize + 4) % 2 ^ 32 then { s with state := .idle }
    else
      let command := s.commandCells.storeBytes s.cmdSize (bytes32 (value % 2 ^ 32))
      { s with
        commandBuffer := command.memory
        cmdSize := (s.cmdSize + 4) % 2 ^ 32
        touched := command.touched }
  else s

/-- The zeroed object that `tpm2_realize` starts from. -/
def tpm2Instance : Tpm2State where
  nvBank := zeroBytes
  nvBankSize := 0
  nvAllocOffset := 0
  nvMap := ∅
  nvCount := 0
  nvDirty := false
  ctrl := 0
  status := 0
  keyGenerated := 0
  randomData := zeroBytes
  commandBuffer := zeroBytes
  responseBuffer := zeroBytes
  cmdSize := 0
  respSize := 0
  respIdx := 0
  state := .idle
  tpmMode := .normal
  pps := zeroBytes
  sps := zeroBytes
  eps := zeroBytes
  phProof := zeroBytes
  shProof := zeroBytes
  ehProof := zeroBytes
  primarySensitive := .zero
  primaryPublic := .zero
  primaryName := .zero
  nextTransientHandle := 0
  initialized := false
  touched := []

def tpm2ProvisionOwner : Provision := ⟨tpmRhOwner, tpmRhOwner, tpmRhPlatform⟩

/-- The public area of the index defined at realization. -/
def testNvPublic : NvPublic where
  nvIndex := 0x1500016
  nameAlg := 0x000B
  attributes :=
    { TpmaNv.ofWords 0 0 with
      ownerRead := true, ownerWrite := true, authRead := true, authWrite := true, noDa := true,
      nvType := tpmNtOrdinary }
  authPolicy := zeroBytes
  authPolicySize := 0
  dataSize := 32

def tpm2TestDefinespace (s : Tpm2State) : Tpm2State :=
  (tpm2NvDefineSpace s tpm2ProvisionOwner
    ⟨4, store zeroBytes 0 [0x31, 0x32, 0x33, 0x34]⟩ testNvPublic).2

/-- A seed or proof of 32 consecutive byte values. -/
def consecutiveBytes (first : Nat) (i : Nat) : UInt8 :=
  if i < 32 then UInt8.ofNat (first + i) else 0

/-- The template of the key created at realization. -/
def testTemplate : TpmtPublic :=
  { TpmtPublic.zero with
    type := tpmAlgEcc
    nameAlg := tpmAlgSha256
    objectAttributes := 0x00030072
    curveId := tpmEccNistP256 }

/-- Step 1 of `tpm2_test_CreatePrimary`: seeds and proofs. -/
def withSeeds (s : Tpm2State) : Tpm2State :=
  { s with
    sps := consecutiveBytes 0x10
    shProof := consecutiveBytes 0x20
    pps := consecutiveBytes 0x30
    phProof := consecutiveBytes 0x40
    eps := consecutiveBytes 0x50
    ehProof := consecutiveBytes 0x60
    nextTransientHandle := 1
    initialized := true }

/-- The user authorization `"passwd"` and no data. -/
def testSensitive : SensitiveCreate :=
  ⟨⟨6, store zeroBytes 0 [0x70, 0x61, 0x73, 0x73, 0x77, 0x64]⟩, .zero⟩

def tpm2TestCreatePrimary (host : Host) (s : Tpm2State) : Tpm2State :=
  (tpm2CreatePrimary host (withSeeds s) tpmRhOwner testSensitive
    ⟨host.sizeofTpmtPublic, testTemplate⟩ .zero .zero).2.1

/-- The device after `tpm2_nv_init`. -/
def blankDevice : Tpm2State :=
  let s := { tpm2Instance with nvBank := zeroBytes, nvBankSize := tpm2NvStorageSize }
  { tpm2NvInit s with nvAllocOffset := 0 }

def tpm2Realize (host : Host) : Tpm2State :=
  tpm2TestCreatePrimary host (tpm2TestDefinespace blankDevice)

/-- One guest access to the register window. -/
inductive Access
  | read (addr : Nat)
  | write (env : Surroundings) (addr value : Nat)

def step (host : Host) (s : Tpm2State) : Access → Tpm2State
  | .read addr => (tpm2MmioRead s addr).2
  | .write env addr value => tpm2MmioWrite host env s addr value

/-- The copies into local arrays that the access makes. -/
def accessCopies (host : Host) (s : Tpm2State) : Access → List LocalCopy
  | .read _ => []
  | .write env addr value =>
    if addr = tpm2CmdReg ∧ value = 1 ∧ s.state = .receiving then
      let (actualSize, command) := s.commandCells.loadWord 2
      let s := { s with touched := command.touched }
      if s.cmdSize < actualSize then []
      else commandCopies host env { s with cmdSize := actualSize, state := .processing }
    else []

/-- The emulator as a process. A copy that does not fit writes over what lies behind the
array, from where on the source says nothing; the process is then gone. -/
def process (host : Host) : Option Tpm2State → Access → Option Tpm2State :=
  Runs.stopping (fun s a => (accessCopies host s a).all LocalCopy.fits) (step host)

abbrev Reachable (host : Host) : Tpm2State → Prop :=
  Runs.Reachable (step host) (· = tpm2Realize host)

theorem reachable_realize (host : Host) : Reachable host (tpm2Realize host) := .start rfl

end TpmEmulator

import TpmEmulator.Unmarshal
import TpmEmulator.Marshal
import TpmEmulator.Nv

/-!
The command handlers and the response builders of `tpm_hw.c`. Every exit of a
handler calls `build_error_response` with a code or `build_success_response` with
the size of the body, and returns. The model of a handler returns the argument of
that last call with the state it is made in, as a `Reply`; `respond` makes the
call.

Some handlers copy into an array of a local object without checking that it has
room for the bytes. Each such copy is a `LocalCopy`, which a handler takes the
contents of the array from and which says whether the bytes fit. If they do not,
the process does not come back from the handler: `commandCopies` lists the copies of
a command, and `process` of the device stops at one that does not fit. The name of a
primary object, whose array has no size, is not among them. The bytes that
CreatePrimary reads behind the end of the command buffer come from the surroundings.
-/
namespace TpmEmulator

open CellMemory BigEndian

/-- A buffer of the interface and the indices used so far. -/
structure Cells where
  buffer : Buffer
  memory : Nat → UInt8
  touched : List (Buffer × Nat)

def Tpm2State.commandCells (s : Tpm2State) : Cells := ⟨.command, s.commandBuffer, s.touched⟩

def Tpm2State.responseCells (s : Tpm2State) : Cells := ⟨.response, s.responseBuffer, s.touched⟩

/-- The record of the `count` indices from `start` on. -/
def Cells.record (c : Cells) (start count : Nat) : List (Buffer × Nat) :=
  c.touched ++ (List.range' start count).map (c.buffer, ·)

/-- The word in the four bytes from `start` on. -/
def Cells.loadWord (c : Cells) (start : Nat) : Nat × Cells :=
  (get32 c.memory start, ⟨c.buffer, c.memory, c.record start 4⟩)

def Cells.storeBytes (c : Cells) (start : Nat) (bytes : List UInt8) : Cells :=
  ⟨c.buffer, store c.memory start bytes, c.record start bytes.length⟩

/-- The call of `MarshalResponseHeader`, which writes as many bytes as it reports. -/
def Cells.storeHeader (c : Cells) (header : Header) : Cells :=
  let result := marshalResponseHeader c.memory 0 responseBufferSize header
  ⟨c.buffer, result.2, c.record 0 (result.1.toOption.getD 0)⟩

def buildErrorResponse (s : Tpm2State) (rc : Nat) : Tpm2State :=
  let header : Header := ⟨tpmStNoSessions, tpmRspHeaderSize, rc⟩
  let response := s.responseCells.storeHeader header
  { s with
    responseBuffer := response.memory
    respSize := header.size
    respIdx := 0
    state := .sending
    touched := response.touched }

def buildSuccessResponse (s : Tpm2State) (bodySize : Nat) : Tpm2State :=
  let header : Header :=
    ⟨tpmStNoSessions, (tpmRspHeaderSize + bodySize) % 2 ^ 32, tpmRcSuccess⟩
  let response := s.responseCells.storeHeader header
  let actualSize := header.size
  let paddedSize := (actualSize + 3) % 2 ^ 32 / 4 * 4
  let response := response.storeBytes actualSize (List.replicate (paddedSize - actualSize) 0)
  { s with
    responseBuffer := response.memory
    respSize := paddedSize
    respIdx := 0
    state := .sending
    touched := response.touched }

/-- What a handler passes to a response builder, an error code or a body size, and
the state it does so in. -/
abbrev Reply := Except Nat Nat × Tpm2State

def respond : Reply → Tpm2State
  | (.error rc, s) => buildErrorResponse s rc
  | (.ok bodySize, s) => buildSuccessResponse s bodySize

/-- The last part of a handler: marshal the response body behind the header and
pass on what the marshaller reports. -/
def marshalBody (marshal : (Nat → UInt8) → Nat → Nat → Marshalled) (s : Tpm2State) : Reply :=
  let result := marshal s.responseBuffer tpmRspHeaderSize (responseBufferSize - tpmRspHeaderSize)
  (result.1, { s with responseBuffer := result.2 })

def tpm2GenerateRandom (env : Surroundings) (s : Tpm2State) : Tpm2State :=
  { s with randomData := store s.randomData 0 (slice env.random 0 32) }

def handleGetRandom (env : Surroundings) (s : Tpm2State) (cmdBody : Nat → UInt8)
    (bodySize : Nat) : Reply :=
  match unmarshalGetRandom cmdBody bodySize with
  | .error rc => (.error rc, s)
  | .ok (bytesRequested, _) =>
    if 32 < bytesRequested then (.error tpmRcSize, s)
    else
      let s := tpm2GenerateRandom env s
      marshalBody (marshalGetRandomResponse ⟨bytesRequested, s.randomData⟩) s

/-- A copy of `bytes` into an array of `capacity` bytes. -/
structure LocalCopy where
  capacity : Nat
  bytes : List UInt8

/-- What the array holds if it has room, with zeros behind the copy. -/
def LocalCopy.contents (c : LocalCopy) : Nat → UInt8 := store zeroBytes 0 c.bytes

/-- Nothing is written behind the array. -/
def LocalCopy.fits (c : LocalCopy) : Bool := c.bytes.length ≤ c.capacity

/-- The copy into `TPM2B_AUTH.buffer`. -/
def userAuthCopy (params : CreatePrimaryParams) : LocalCopy :=
  ⟨64, slice params.userAuth 0 params.userAuthSize⟩

/-- The copy into `TPM2B_SENSITIVE_DATA.buffer`. -/
def dataCopy (params : CreatePrimaryParams) : LocalCopy :=
  ⟨128, slice params.data 0 params.dataSize⟩

/-- `inSensitive` as the handler fills it from the parameters. -/
def inSensitiveOf (params : CreatePrimaryParams) : SensitiveCreate where
  userAuth := ⟨params.userAuthSize, (userAuthCopy params).contents⟩
  data := ⟨params.dataSize, (dataCopy params).contents⟩

/-- The position of the curve identifier behind `pubBuf`: the fixed members, the
policy, the symmetric algorithm and the scheme come before it. -/
def curveIdOffset (pubBuf : Nat → UInt8) : Nat := 10 + get16 pubBuf 8 + 4

/-- The template that the handler reads by hand at `pubBuf`. No read is compared
with the size of the template or of the command. -/
def parseTemplate (pubBuf : Nat → UInt8) : TpmtPublic :=
  { TpmtPublic.zero with
    type := get16 pubBuf 0
    nameAlg := get16 pubBuf 2
    objectAttributes := get32 pubBuf 4
    curveId := if get16 pubBuf 0 = tpmAlgEcc then get16 pubBuf (curveIdOffset pubBuf) else 0 }

/-- The bytes collected in `tempBuf`. -/
def outPublicBytes (p : TpmtPublic) : List UInt8 :=
  bytes16 p.type ++ bytes16 p.nameAlg ++ bytes32 p.objectAttributes ++ [0x00, 0x00] ++
    if p.type = tpmAlgEcc then
      [0x00, 0x10] ++ [0x00, 0x10] ++ bytes16 p.curveId ++ [0x00, 0x10] ++
        bytes16 p.x.size ++ slice p.x.buffer 0 p.x.size ++
        bytes16 p.y.size ++ slice p.y.buffer 0 p.y.size
    else []

def createPrimaryResponse (objectHandle primaryHandle : Nat) (outPublic : Tpm2bPublic)
    (name : Tpm2bName) : CreatePrimaryResponse where
  objectHandle := objectHandle
  outPublic :=
    ⟨(outPublicBytes outPublic.publicArea).length,
      store zeroBytes 0 (outPublicBytes outPublic.publicArea)⟩
  creationData := .zero
  creationHash := .zero
  creationTicketTag := tpmStCreation
  creationTicketHierarchy := primaryHandle
  creationTicketDigest := .zero
  name := ⟨name.size, store zeroBytes 0 (slice name.name 0 name.size)⟩

def advanceHandle (s : Tpm2State) : Tpm2State :=
  { s with nextTransientHandle := (s.nextTransientHandle + 1) % 2 ^ 32 }

/-- The part of the handler behind the unmarshaller. The handle counter advances
before the key is created, whatever becomes of the creation. -/
def createPrimaryFrom (host : Host) (s : Tpm2State) (params : CreatePrimaryParams)
    (pubBuf : Nat → UInt8) : Reply :=
  let inPublic : Tpm2bPublic := ⟨host.sizeofTpmtPublic, parseTemplate pubBuf⟩
  let objectHandle := 0x80000000 ||| s.nextTransientHandle
  match tpm2CreatePrimary host (advanceHandle s) params.primaryHandle (inSensitiveOf params)
      inPublic Tpm2bPublic.zero Tpm2bName.zero with
  | (rc, s, outPublic, name) =>
    if rc ≠ tpmRcSuccess then (.error rc, s)
    else
      marshalBody (marshalCreatePrimaryResponse
        (createPrimaryResponse objectHandle params.primaryHandle outPublic name)) s

def handleCreatePrimary (host : Host) (env : Surroundings) (s : Tpm2State)
    (cmdBody : Nat → UInt8) (bodySize : Nat) : Reply :=
  match unmarshalCreatePrimary env.createPrimaryParams cmdBody bodySize with
  | .error rc => (.error rc, s)
  | .ok (params, bytesRead) =>
    createPrimaryFrom host s params (advance cmdBody (bytesRead - params.inPublicSize))

def createPrimaryCopies (env : Surroundings) (cmdBody : Nat → UInt8) (bodySize : Nat) :
    List LocalCopy :=
  match unmarshalCreatePrimary env.createPrimaryParams cmdBody bodySize with
  | .error _ => []
  | .ok (params, _) => [userAuthCopy params, dataCopy params]

/-- The handle check that NV_DefineSpace and NV_Write make. -/
def provisionOf (authHandle : Nat) : Option Provision :=
  if authHandle = 0x4000000C then some ⟨tpmRhPlatform, tpmRhPlatform, tpmRhPlatform⟩
  else if authHandle = 0x40000001 then some ⟨tpmRhOwner, tpmRhOwner, tpmRhOwner⟩
  else none

/-- The copy into `TPM2B_AUTH.buffer`. -/
def authCopy (params : NvDefineSpaceParams) : LocalCopy :=
  ⟨64, slice params.auth 0 params.authSize⟩

/-- The copy into `TPMS_NV_PUBLIC.authPolicy`. -/
def authPolicyCopy (params : NvDefineSpaceParams) : LocalCopy :=
  ⟨64, slice params.authPolicy 0 params.authPolicySize⟩

/-- The public area built from the parameters. `TPMA_NV` is eight bytes long: its
copy takes the four bytes of `attributes` and the next four bytes of the
structure, `authPolicySize` and the start of `authPolicy`. -/
def nvPublicOf (params : NvDefineSpaceParams) : NvPublic where
  nvIndex := params.nvIndex
  nameAlg := params.nameAlg
  attributes := TpmaNv.ofWords params.attributes params.authPolicySize
  authPolicy := (authPolicyCopy params).contents
  authPolicySize := params.authPolicySize
  dataSize := params.dataSize

def handleNvDefineSpace (env : Surroundings) (s : Tpm2State) (cmdBody : Nat → UInt8)
    (bodySize : Nat) : Reply :=
  match unmarshalNvDefineSpace env.nvDefineSpaceParams cmdBody bodySize with
  | .error rc => (.error rc, s)
  | .ok (params, _) =>
    match provisionOf params.authHandle with
    | none => (.error tpmRcHandle, s)
    | some provHandle =>
      let auth : Tpm2b := ⟨params.authSize, (authCopy params).contents⟩
      match tpm2NvDefineSpace s provHandle auth (nvPublicOf params) with
      | (rc, s) => if rc ≠ tpmRcSuccess then (.error rc, s) else (.ok 0, s)

def nvDefineSpaceCopies (env : Surroundings) (cmdBody : Nat → UInt8) (bodySize : Nat) :
    List LocalCopy :=
  match unmarshalNvDefineSpace env.nvDefineSpaceParams cmdBody bodySize with
  | .error _ => []
  | .ok (params, _) =>
    match provisionOf params.authHandle with
    | none => []
    | some _ => [authCopy params, authPolicyCopy params]

/-- The handler's own assignments after a successful write. -/
def markNvWritten (s : Tpm2State) (nvIndex : Nat) : Tpm2State :=
  { s with
    nvMap :=
      match s.nvMap.lookup nvIndex with
      | none => s.nvMap
      | some e => s.nvMap.insert nvIndex { e with written := true }
    nvDirty := true }

def handleNvWrite (host : Host) (env : Surroundings) (s : Tpm2State) (cmdBody : Nat → UInt8)
    (bodySize : Nat) : Reply :=
  match unmarshalNvWrite env.nvWriteParams env.bytesRead cmdBody bodySize with
  | .error rc => (.error rc, s)
  | .ok (params, _) =>
    match s.nvMap.lookup params.nvIndex with
    | none => (.error tpmRcHandle, s)
    | some e =>
      if e.pub.dataSize < params.offset + params.data.size then (.error tpmRcNvRange, s)
      else match provisionOf params.authHandle with
        | none => (.error tpmRcHandle, s)
        | some provHandle =>
          match tpm2NvWrite host s provHandle params.nvIndex params.data params.offset with
          | (rc, s) =>
            if rc ≠ tpmRcSuccess then (.error rc, s) else (.ok 0, markNvWritten s params.nvIndex)

/-- The handler up to the decrypted read: the parameters and the bytes written to the
array of the response, or the code that it answers. -/
def nvReadOutput (host : Host) (env : Surroundings) (s : Tpm2State) (cmdBody : Nat → UInt8)
    (bodySize : Nat) : Except Nat (NvReadParams × List UInt8) :=
  match unmarshalNvRead env.nvReadParams env.bytesRead cmdBody bodySize with
  | .error rc => .error rc
  | .ok (params, _) =>
    match s.nvMap.lookup params.nvIndex with
    | none => .error tpmRcHandle
    | some e =>
      if !e.written then .error tpmRcNvUninitialized
      else if e.pub.dataSize < params.offset + params.sizeToRead then .error tpmRcNvRange
      else if e.readLocked then .error tpmRcNvLocked
      else match nvReadDecryptFromBank host s e params.sizeToRead params.offset with
        | .error rc => .error rc
        | .ok out => .ok (params, out)

/-- The decrypted bytes are written to `TPM2B_MAX_NV_BUFFER.buffer`. -/
def readCopy (out : List UInt8) : LocalCopy := ⟨1024, out⟩

def handleNvRead (host : Host) (env : Surroundings) (s : Tpm2State) (cmdBody : Nat → UInt8)
    (bodySize : Nat) : Reply :=
  match nvReadOutput host env s cmdBody bodySize with
  | .error rc => (.error rc, s)
  | .ok (params, out) =>
    marshalBody (marshalNvReadResponse ⟨params.sizeToRead, (readCopy out).contents⟩) s

def nvReadCopies (host : Host) (env : Surroundings) (s : Tpm2State) (cmdBody : Nat → UInt8)
    (bodySize : Nat) : List LocalCopy :=
  match nvReadOutput host env s cmdBody bodySize with
  | .error _ => []
  | .ok (_, out) => [readCopy out]

/-- The bytes at `command_buffer` and behind it. -/
def commandMemory (env : Surroundings) (s : Tpm2State) (i : Nat) : UInt8 :=
  if i < commandBufferSize then s.commandBuffer i else env.pastCommandBuffer i

/-- The `switch` on the command code. -/
def dispatch (host : Host) (env : Surroundings) (s : Tpm2State) (code : Nat) : Reply :=
  let cmdBody := advance (commandMemory env s) tpmCmdHeaderSize
  let bodySize := sub32 s.cmdSize tpmCmdHeaderSize
  if code = tpmCcGetRandom then handleGetRandom env s cmdBody bodySize
  else if code = tpmCcCreatePrimary then handleCreatePrimary host env s cmdBody bodySize
  else if code = tpmCcNvDefineSpace then handleNvDefineSpace env s cmdBody bodySize
  else if code = tpmCcNvWrite then handleNvWrite host env s cmdBody bodySize
  else if code = tpmCcNvRead then handleNvRead host env s cmdBody bodySize
  else (.error tpmRcCommandCode, s)

/-- The copies that the handler makes. The random bytes and the ciphertext of a write are
compared with the size of their arrays. -/
def dispatchCopies (host : Host) (env : Surroundings) (s : Tpm2State) (code : Nat) :
    List LocalCopy :=
  let cmdBody := advance (commandMemory env s) tpmCmdHeaderSize
  let bodySize := sub32 s.cmdSize tpmCmdHeaderSize
  if code = tpmCcCreatePrimary then createPrimaryCopies env cmdBody bodySize
  else if code = tpmCcNvDefineSpace then nvDefineSpaceCopies env cmdBody bodySize
  else if code = tpmCcNvRead then nvReadCopies host env s cmdBody bodySize
  else []

/-- The header that passes both validators, or the code of the one that rejects. -/
def validateCommand (s : Tpm2State) : Except Nat Header :=
  match tpm2ValidateCommandHeader s.commandBuffer s.cmdSize with
  | .error rc => .error rc
  | .ok header =>
    if tpm2ValidateMode header s.tpmMode ≠ tpmRcSuccess then
      .error (tpm2ValidateMode header s.tpmMode)
    else .ok header

def commandReply (host : Host) (env : Surroundings) (s : Tpm2State) : Reply :=
  match validateCommand s with
  | .error rc => (.error rc, s)
  | .ok header => dispatch host env s header.code

def commandCopies (host : Host) (env : Surroundings) (s : Tpm2State) : List LocalCopy :=
  match validateCommand s with
  | .error _ => []
  | .ok header => dispatchCopies host env s header.code

def tpm2ProcessCommand (host : Host) (env : Surroundings) (s : Tpm2State) : Tpm2State :=
  respond (commandReply host env s)

-- Reducing a command in the middle of a unification check only costs time.
attribute [irreducible] validateCommand dispatch commandReply commandCopies

end TpmEmulator

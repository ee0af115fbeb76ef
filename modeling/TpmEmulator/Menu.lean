import TpmEmulator.Session
import TpmEmulator.NvAvailability
import TpmEmulator.PublicAreas

/-!
What the keys of the menu come to. The firmware sends twelve fixed commands, so all of
the TPM that a session can tell apart is whether the index of the commands has been
defined and written, and how many keys have been created. `Menu` is the machine with
these states. A session prints what this machine answers, for every sequence of keys.
-/
namespace TpmEmulator
open CellMemory BigEndian Framing

inductive MenuCommand
  | getRandom
  | createPrimary
  | nvDefineSpace
  | nvWrite
  | nvRead
  | badHdr
  | getRandomTooBig
  | nvReadOversize
  | nvWriteOversize
  | nvWriteFmtStr
  | nvReadUninit
  | intOverflow
  deriving DecidableEq, Repr

def MenuCommand.bytes : MenuCommand → List UInt8
  | .getRandom => cmdGetRandom
  | .createPrimary => cmdCreatePrimary
  | .nvDefineSpace => cmdNvDefineSpace
  | .nvWrite => cmdNvWrite
  | .nvRead => cmdNvRead
  | .badHdr => cmdBadHdr
  | .getRandomTooBig => cmdGetRandomTooBig
  | .nvReadOversize => cmdNvReadOversize
  | .nvWriteOversize => cmdNvWriteOversize
  | .nvWriteFmtStr => cmdNvWriteFmtStr
  | .nvReadUninit => cmdNvReadUninit
  | .intOverflow => cmdIntOverflow

def menuKeys : List (UInt8 × MenuCommand) :=
  [(ascii '1', .getRandom), (ascii '2', .createPrimary), (ascii '3', .nvDefineSpace),
    (ascii '4', .nvWrite), (ascii '5', .nvRead), (ascii '6', .badHdr),
    (ascii '7', .getRandomTooBig), (ascii '8', .nvReadOversize), (ascii '9', .nvWriteOversize),
    (ascii 'a', .nvWriteFmtStr), (ascii 'A', .nvWriteFmtStr), (ascii 'b', .nvReadUninit),
    (ascii 'B', .nvReadUninit), (ascii 'c', .intOverflow), (ascii 'C', .intOverflow)]

def menuKey (c : UInt8) : Option MenuCommand :=
  (menuKeys.find? fun key => key.1 == c).map Prod.snd

theorem menuCommand_eq (c : UInt8) : menuCommand c = (menuKey c).map MenuCommand.bytes := by
  have hcases : menuCases = menuKeys.map fun key => (key.1, key.2.bytes) := rfl
  rw [menuCommand, menuKey, hcases, List.find?_map, Option.map_map, Option.map_map]
  rfl

/-- A response: an error code, or a success with its body. -/
inductive Answer
  | error (code : Nat)
  | success (body : List UInt8)

namespace Answer

def body : Answer → List UInt8
  | .error _ => []
  | .success body => body

def header : Answer → Header
  | .error code => ⟨tpmStNoSessions, tpmRspHeaderSize, code⟩
  | .success body => ⟨tpmStNoSessions, tpmRspHeaderSize + body.length, tpmRcSuccess⟩

def bytes (a : Answer) : List UInt8 := headerBytes a.header ++ a.body

/-- What is printed of a response. -/
def text (a : Answer) : List UInt8 :=
  (readMessages a.header.size ++ headerMessages a.header ++ [Message.fullResponse]).flatMap
      Message.text ++
    uartPrintHex (a.bytes.getD · 0) (.ofNat 32 a.header.size)

end Answer

/-- What has become of the index that the commands of the menu name. -/
inductive Slot
  | undefined
  | defined
  | written
  deriving DecidableEq, Repr

structure Menu where
  slot : Slot
  created : Nat
  commands : Nat

/-- The key of the owner hierarchy. -/
def ownerKey (host : Host) : List UInt8 := primaryPrivate host (consecutiveBytes 0x10)

/-- The template of the menu's CreatePrimary as the device decodes it, with curve 0. -/
def menuTemplate : TpmtPublic := { testTemplate with curveId := 0 }

/-- The response to the menu's CreatePrimary. -/
def menuPrimary (host : Host) (objectHandle : Nat) : List UInt8 :=
  let outPublic := primaryOutPublic host menuTemplate (ownerKey host)
  (createPrimaryParts (createPrimaryResponse objectHandle tpmRhOwner outPublic
    (primaryNameOf host outPublic .zero))).flatten

/-- The text that the menu's NV_Write stores. -/
def menuData : List UInt8 := [0x54, 0x45, 0x53, 0x54]

namespace Menu

def start : Menu := ⟨.undefined, 0, 0⟩

/-- The answer to a read of the index that finds `found` once it has been written. -/
def readAnswer (found : Answer) : Slot → Answer
  | .undefined => .error tpmRcHandle
  | .defined => .error tpmRcNvUninitialized
  | .written => found

def answer (host : Host) (env : Nat → Surroundings) (m : Menu) : MenuCommand → Answer
  | .getRandom => .success (bytes16 32 ++ slice (env m.commands).random 0 32)
  | .createPrimary =>
      .success (menuPrimary host (0x80000000 ||| (1 + m.created) % 2 ^ 32))
  | .nvDefineSpace => if m.slot = .undefined then .success [] else .error tpmRcNvDefined
  | .nvWrite => if m.slot = .undefined then .error tpmRcHandle else .success []
  | .nvRead => readAnswer (.success (bytes16 4 ++ menuData)) m.slot
  | .nvReadOversize => readAnswer (.error tpmRcNvRange) m.slot
  | .nvReadUninit => .error tpmRcHandle
  | .badHdr | .nvWriteOversize | .nvWriteFmtStr => .error tpmRcCommandSize
  | .getRandomTooBig | .intOverflow => .error tpmRcSize

def slotAfter (slot : Slot) : MenuCommand → Slot
  | .nvDefineSpace => if slot = .undefined then .defined else slot
  | .nvWrite => if slot = .undefined then .undefined else .written
  | _ => slot

def next (m : Menu) (cmd : MenuCommand) : Menu where
  slot := slotAfter m.slot cmd
  created := if cmd = .createPrimary then m.created + 1 else m.created
  commands := m.commands + 1

def serve (m : Menu) (word : BitVec 32) : Menu :=
  match menuKey (.ofBitVec (word.setWidth 8)) with
  | none => m
  | some cmd => m.next cmd

/-- What is printed from a key on to the next menu. -/
def shows (host : Host) (env : Nat → Surroundings) (m : Menu) (word : BitVec 32) : List UInt8 :=
  let c : UInt8 := .ofBitVec (word.setWidth 8)
  let served :=
    match menuKey c with
    | none => (Message.invalidOption c).text
    | some cmd =>
        (Message.sending (.ofNat 32 cmd.bytes.length) (.ofNat 32 (padded cmd.bytes.length))).text ++
          (m.answer host env cmd).text
  (Message.echo c).text ++ served ++ menuText

end Menu

/-- The response in the device is this answer. -/
structure Answered (t : Tpm2State) (a : Answer) : Prop where
  header : responseHeader t = a.header
  body : slice t.responseBuffer tpmRspHeaderSize a.body.length = a.body

theorem size_header (a : Answer) : a.header.size = tpmRspHeaderSize + a.body.length := by
  cases a with
  | error code => rfl
  | success body => rfl

theorem Answered.text {t : Tpm2State} {a : Answer} (h : Answered t a)
    (hsize : a.header.size < 2 ^ 32) : answerText t = a.text := by
  have hbytes : slice t.responseBuffer 0 a.header.size = a.bytes := by
    rw [size_header, slice_add, slice_responseHeader, h.header, Nat.zero_add, h.body]
    rfl
  have hlength : a.bytes.length = a.header.size := by rw [← hbytes, length_slice]
  have hdump : slice (a.bytes.getD · 0) 0 a.header.size = a.bytes := by
    rw [← hlength]
    exact (starts_getD a.bytes).2
  simp only [answerText, Answer.text, h.header, uartPrintHex, BitVec.toNat_ofNat,
    Nat.mod_eq_of_lt hsize]
  rw [hbytes, hdump]

/-- What an execution comes to: its answer and the persistent state it leaves. -/
structure Executed (host : Host) (env : Surroundings) (s : Tpm2State) (a : Answer)
    (p : Persistent) : Prop where
  answered : Answered (step host s (.write env tpm2CmdReg 1)) a
  persistent : (step host s (.write env tpm2CmdReg 1)).persistent = p

section Executed
variable {host : Host} {env : Surroundings} {s t : Tpm2State} {p : Persistent}

theorem executed_error {rc : Nat} (hstate : s.state = .receiving)
    (hreply : executeReply host env s = (.error rc, t)) (hp : t.persistent = p) :
    Executed host env s (.error rc) p := by
  have hcode := (executeReply_wellFormed host env s).error_code (congrArg Prod.fst hreply)
  refine ⟨?_, ?_⟩
  · rw [step_executes host ⟨rfl, hstate⟩, hreply]
    exact ⟨responseHeader_error t hcode, slice_zero _ _⟩
  · rw [persistent_execute host env hstate, hreply]
    exact hp

theorem executed_success {body : List UInt8} (hstate : s.state = .receiving)
    (hreply : executeReply host env s = (.ok body.length, t))
    (hbody : slice t.responseBuffer tpmRspHeaderSize body.length = body)
    (hp : t.persistent = p) : Executed host env s (.success body) p := by
  have hroom := (executeReply_wellFormed host env s).body_le (congrArg Prod.fst hreply)
  refine ⟨?_, ?_⟩
  · rw [step_executes host ⟨rfl, hstate⟩, hreply]
    exact ⟨responseHeader_ok t hroom, (slice_responseBody t hroom).trans hbody⟩
  · rw [persistent_execute host env hstate, hreply]
    exact hp

end Executed

/-- The code with which a read is refused on account of its index. -/
def readRefusal (entry : Option NvEntry) (p : NvReadParams) : Option Nat :=
  match entry with
  | none => some tpmRcHandle
  | some e =>
      if !e.written then some tpmRcNvUninitialized
      else if e.pub.dataSize < p.offset + p.sizeToRead then some tpmRcNvRange
      else none

section Refusals
variable {env : Surroundings} {s : Tpm2State} {cmdBody : Nat → UInt8} {bodySize bytesRead : Nat}

theorem handleNvRead_refused (host : Host) {p : NvReadParams} {rc : Nat}
    (hread : unmarshalNvRead env.nvReadParams env.bytesRead cmdBody bodySize = .ok (p, bytesRead))
    (hrefused : readRefusal (s.nvMap.lookup p.nvIndex) p = some rc) :
    handleNvRead host env s cmdBody bodySize = (.error rc, s) := by
  have houtput : nvReadOutput host env s cmdBody bodySize = .error rc := by
    simp only [nvReadOutput, hread]
    cases hentry : s.nvMap.lookup p.nvIndex with
    | none =>
        rw [hentry] at hrefused
        cases hrefused
        rfl
    | some e =>
        simp only [hentry, readRefusal] at hrefused ⊢
        split_ifs at hrefused ⊢ <;> cases hrefused
        · rfl
        · rfl
  rw [handleNvRead, houtput]

theorem handleNvWrite_undefined (host : Host) {p : NvWriteParams}
    (hread : unmarshalNvWrite env.nvWriteParams env.bytesRead cmdBody bodySize =
      .ok (p, bytesRead)) (hnone : s.nvMap.lookup p.nvIndex = none) :
    handleNvWrite host env s cmdBody bodySize = (.error tpmRcHandle, s) := by
  simp only [handleNvWrite, hread, hnone]

theorem handleNvDefineSpace_rejected {p : NvDefineSpaceParams} {provHandle : Provision}
    (hread : unmarshalNvDefineSpace env.nvDefineSpaceParams cmdBody bodySize = .ok (p, bytesRead))
    (hprov : provisionOf p.authHandle = some provHandle)
    (hchecks : nvDefineSpaceChecks s provHandle (nvPublicOf p) ≠ tpmRcSuccess) :
    handleNvDefineSpace env s cmdBody bodySize =
      (.error (nvDefineSpaceChecks s provHandle (nvPublicOf p)), s) := by
  simp only [handleNvDefineSpace, hread, hprov, tpm2NvDefineSpace_rejected _ hchecks, ne_eq,
    hchecks, not_false_eq_true, if_true]

end Refusals

/-- The device finds the curve in the middle of the symmetric algorithm. -/
theorem parseTemplate_firmware {template : Nat → UInt8} {size : Nat}
    (h : Starts template size 0 (firmwareTemplate 0x00030072 tpmEccNistP256)) :
    parseTemplate template = menuTemplate := by
  obtain ⟨htype, hattributes, hcurve⟩ := firmwareTemplate_fields (by decide) h
  obtain ⟨hname, -⟩ := starts_append.mp (starts_append.mp h).2
  have hnameAlg : get16 template 2 = tpmAlgSha256 := ((starts_bytes16 (by decide)).mp hname).2
  rw [parseTemplate, if_pos htype, htype, hnameAlg, hattributes, hcurve]
  rfl

section Commands
variable {host : Host} {s : Tpm2State} (hreach : Reachable host s) (env : Surroundings)
include hreach

theorem Pending.taken {code : Nat} {body : List UInt8}
    (h : Pending s (commandBytes tpmStNoSessions code body)) (hvalid : isValidCcCommand code)
    (hcode : code < 2 ^ 32) :
    dispatchedCode s = some code ∧ Starts (commandBody env s) (commandBodySize s) 0 body := by
  have hmax := (transportInvariant_reachable hreach).cmdSize_le
  obtain ⟨-, hsize, hbody⟩ := h.fields hmax hcode
  exact ⟨h.dispatched (keyInvariant_reachable hreach).mode hmax (.inl rfl) hvalid hcode,
    hsize ▸ starts_commandBody env hbody⟩

/-- Up to 32 random bytes are given out. -/
theorem executed_getRandom {n : Nat} (hn : n < 2 ^ 16)
    (h : Pending s (commandBytes tpmStNoSessions tpmCcGetRandom (bytes16 n))) :
    Executed host env s
      (if 32 < n then .error tpmRcSize else .success (bytes16 n ++ slice env.random 0 n))
      s.persistent := by
  obtain ⟨hcode, hbody⟩ := h.taken hreach env (by decide) (by decide)
  obtain ⟨hsize, hread⟩ := (starts_bytes16 hn).mp hbody
  have hreply := executeReply_getRandom host env hcode
  rw [handleGetRandom, unmarshalGetRandom, unmarshalUint16, if_neg (by omega), hread] at hreply
  dsimp only at hreply
  by_cases hbig : 32 < n
  · rw [if_pos hbig] at hreply ⊢
    exact executed_error h.state hreply rfl
  · rw [if_neg hbig] at hreply ⊢
    have hbytes : tpm2bBytes ⟨n, (tpm2GenerateRandom env (accept s)).randomData⟩ =
        bytes16 n ++ slice env.random 0 n := by
      refine congrArg (bytes16 n ++ ·) ?_
      have hstored := slice_store_same (accept s).randomData 0 (slice env.random 0 32)
      rw [length_slice] at hstored
      have htake : n ≤ 32 := Nat.le_of_not_lt hbig
      rw [← take_slice _ 0 htake, ← take_slice _ 0 htake]
      exact congrArg (List.take n) hstored
    rw [marshalBody, marshalGetRandomResponse, encodes_tpm2b _ _ _ _ (by
      rw [length_tpm2bBytes, responseBufferSize, tpmRspHeaderSize]
      change 2 + n ≤ _
      omega), hbytes] at hreply
    exact executed_success h.state hreply (slice_store_same _ _ _) rfl

omit hreach in
/-- A header that states more bytes than were sent. -/
theorem executed_short (tag size : Nat) {rest : List UInt8} (hsize : size < 2 ^ 32)
    (h : Pending s (bytes16 tag ++ (bytes32 size ++ rest))) (hshort : s.cmdSize < size) :
    Executed host env s (.error tpmRcCommandSize) s.persistent := by
  obtain ⟨-, hrest⟩ := starts_append.mp h.buffer
  have hfield : get32 s.commandBuffer 2 = size :=
    ((starts_bytes32 hsize).mp (starts_append.mp hrest).1).2
  exact executed_error h.state (executeReply_short host env (hfield ▸ hshort)) rfl

section Read
variable {p : NvReadParams} (hindex : p.nvIndex < 2 ^ 32) (hsize : p.sizeToRead < 2 ^ 16)
  (hplatform : p.authHandle = tpmRhPlatform) (hstart : p.offset = 0)
  (h : Pending s (commandBytes tpmStNoSessions tpmCcNvRead (encodeNvRead p)))
include hindex hsize hplatform hstart h

theorem Pending.nvRead :
    dispatchedCode s = some tpmCcNvRead ∧
      unmarshalNvRead env.nvReadParams env.bytesRead (commandBody env s) (commandBodySize s) =
        .ok (p, 14) := by
  obtain ⟨hcode, hbody⟩ := h.taken hreach env (by decide) (by decide)
  exact ⟨hcode, unmarshalNvRead_sentence _ _ ⟨p, hplatform ▸ (by decide), hindex, hsize,
    hstart ▸ (by decide), hbody, rfl⟩⟩

theorem executed_nvRead_refused {rc : Nat}
    (hrefused : readRefusal (s.nvMap.lookup p.nvIndex) p = some rc) :
    Executed host env s (.error rc) s.persistent := by
  obtain ⟨hcode, hread⟩ := h.nvRead hreach env hindex hsize hplatform hstart
  have hreply := executeReply_nvRead host env hcode
  rw [handleNvRead_refused host (s := accept s) hread hrefused] at hreply
  exact executed_error h.state hreply rfl

/-- A read of what is stored gives out its plaintext. -/
theorem executed_nvRead {c key : List UInt8} (hstored : Stored s.persistent p.nvIndex p.offset c)
    (hkey : HasKey s.persistent key) (hpos : 0 < p.sizeToRead) (hn : p.sizeToRead ≤ c.length)
    (hmax : p.sizeToRead ≤ 1012) :
    Executed host env s
      (.success (bytes16 p.sizeToRead ++ plaintextOf host key (c.take p.sizeToRead)))
      s.persistent := by
  obtain ⟨hcode, hread⟩ := h.nvRead hreach env hindex hsize hplatform hstart
  obtain ⟨e, hentry, hwritten, hunlocked, hfits, hslice⟩ := hstored
  have hlen := (bankInvariant_reachable hreach).sizes hentry
  have hreads : Reads env s p e :=
    ⟨hcode, ⟨14, hread⟩, hentry, hwritten, by omega, hunlocked, by omega, hpos, hkey.isKeyLength,
      hmax⟩
  have hreply := hreads.reply host
  have hlength := length_nvPlaintext host e p.sizeToRead p.offset hkey.isKeyLength
  rw [nvPlaintext_eq hreach hkey hentry hslice hn] at hreply hlength
  rw [← hlength, ← length_bytes16 p.sizeToRead, ← List.length_append, hlength] at hreply
  exact executed_success h.state hreply (slice_store_same _ _ _) rfl

end Read

theorem executed_nvWrite_undefined {authHandle i offset : Nat} {data : List UInt8}
    (hauth : authHandle < 2 ^ 32) (hindex : i < 2 ^ 32) (hoffset : offset < 2 ^ 16)
    (hdata : data.length ≤ maxNvBufferSize)
    (h : Pending s (commandBytes tpmStNoSessions tpmCcNvWrite
      (encodeNvWrite authHandle i data offset)))
    (hnone : s.nvMap.lookup i = none) : Executed host env s (.error tpmRcHandle) s.persistent := by
  obtain ⟨hcode, hbody⟩ := h.taken hreach env (by decide) (by decide)
  have hsentence : NvWriteSentence env.nvWriteParams _ _ _ :=
    ⟨authHandle, i, data, offset, hauth, hindex, hdata, hoffset, hbody, rfl⟩
  have hread := unmarshalNvWrite_sentence env.bytesRead hsentence
  have hreply := executeReply_nvWrite host env hcode
  rw [handleNvWrite_undefined host (s := accept s) hread hnone] at hreply
  exact executed_error h.state hreply rfl

section Define
variable {p : NvDefineSpaceParams} (hp : p.InRange) (howner : p.authHandle = tpmRhOwner)
  (h : Pending s (commandBytes tpmStNoSessions tpmCcNvDefineSpace (encodeNvDefineSpace p)))
include hp howner h

theorem Pending.nvDefineSpace :
    dispatchedCode s = some tpmCcNvDefineSpace ∧
      unmarshalNvDefineSpace env.nvDefineSpaceParams (commandBody env s) (commandBodySize s) =
        .ok (env.nvDefineSpaceParams.over p, (encodeNvDefineSpace p).length) ∧
      provisionOf (env.nvDefineSpaceParams.over p).authHandle =
        some ⟨tpmRhOwner, tpmRhOwner, tpmRhOwner⟩ := by
  obtain ⟨hcode, hbody⟩ := h.taken hreach env (by decide) (by decide)
  refine ⟨hcode, unmarshalNvDefineSpace_starts hp hbody, ?_⟩
  rw [NvDefineSpaceParams.over, howner]
  rfl

theorem executed_nvDefineSpace
    (hchecks : nvDefineSpaceChecks s ⟨tpmRhOwner, tpmRhOwner, tpmRhOwner⟩
      (nvPublicOf (env.nvDefineSpaceParams.over p)) = tpmRcSuccess)
    (hroom : s.nvAllocOffset + (16 + p.dataSize) ≤ s.nvBankSize) :
    Executed host env s (.success [])
      (nvDefined s (nvPublicOf (env.nvDefineSpaceParams.over p))).persistent := by
  obtain ⟨hcode, hread, hprovision⟩ := h.nvDefineSpace hreach env hp howner
  have hdefines : Defines env s (env.nvDefineSpaceParams.over p) :=
    ⟨hcode, ⟨_, hread⟩, ⟨_, hprovision, hchecks⟩, hroom⟩
  exact executed_success h.state (hdefines.reply host) (slice_zero _ _) rfl

theorem executed_nvDefineSpace_refused {rc : Nat} (hrc : rc ≠ tpmRcSuccess)
    (hchecks : nvDefineSpaceChecks s ⟨tpmRhOwner, tpmRhOwner, tpmRhOwner⟩
      (nvPublicOf (env.nvDefineSpaceParams.over p)) = rc) :
    Executed host env s (.error rc) s.persistent := by
  obtain ⟨hcode, hread, hprovision⟩ := h.nvDefineSpace hreach env hp howner
  have hchecks' : nvDefineSpaceChecks (accept s) ⟨tpmRhOwner, tpmRhOwner, tpmRhOwner⟩
      (nvPublicOf (env.nvDefineSpaceParams.over p)) = rc := hchecks
  have hreply := executeReply_nvDefineSpace host env hcode
  rw [handleNvDefineSpace_rejected hread hprovision (hchecks' ▸ hrc), hchecks'] at hreply
  exact executed_error h.state hreply rfl

end Define

theorem executed_createPrimary (h : Pending s cmdCreatePrimary) :
    ∃ params template, Executed host env s
      (.success (menuPrimary host (0x80000000 ||| s.nextTransientHandle)))
      (primaryCreated host s params template (consecutiveBytes 0x10)).persistent := by
  have hcommand : cmdCreatePrimary = firmwareCommand 0x00030072 tpmEccNistP256
      [0x70, 0x61, 0x73, 0x73, 0x77, 0x64] := by decide
  rw [hcommand] at h
  obtain ⟨params, template, hcreates, hhandle, -, size, hstarts⟩ :=
    Pending.creates hreach h (.inl rfl) (by decide) (by decide) env
  have htype := (firmwareTemplate_fields (by decide) hstarts).1
  have hseed : hierarchySeed (accept s) params.primaryHandle = some (consecutiveBytes 0x10) := by
    rw [hhandle, ← (keyInvariant_reachable hreach).sps]
    exact if_pos rfl
  have hresponse : (createPrimaryParts (primaryResponse host (accept s) params template
      (consecutiveBytes 0x10))).flatten =
      menuPrimary host (0x80000000 ||| s.nextTransientHandle) := by
    rw [primaryResponse, parseTemplate_firmware hstarts, hhandle]
    rfl
  have hreply := hcreates.reply host
  rw [createPrimaryFrom_created host (accept s) params template hseed htype, hresponse] at hreply
  exact ⟨params, template, executed_success h.state hreply (slice_store_same _ _ _) rfl⟩

end Commands

/-- The index that the commands of the menu name. -/
def menuIndex : Nat := 0x01000001

/-- The parameters of the menu's NV_DefineSpace. -/
def menuDefine : NvDefineSpaceParams where
  authHandle := tpmRhOwner
  authSize := 0
  auth := zeroBytes
  publicSize := 14
  nvIndex := menuIndex
  nameAlg := tpmAlgSha256
  attributes := 0x024C0006
  authPolicySize := 0
  authPolicy := zeroBytes
  dataSize := 32

/-- Read and write access for the owner and with the authorization value. -/
def menuAttributes : TpmaNv := TpmaNv.ofWords 0x024C0006 0

/-- What the later commands rely on in the entry that it defines. -/
structure MenuEntry (e : NvEntry) : Prop where
  dataSize : e.pub.dataSize = 32
  kind : e.pub.attributes.nvType = tpmNtOrdinary
  writeAll : e.pub.attributes.writeAll = false

def SlotHolds (host : Host) (p : Persistent) : Slot → Prop
  | .undefined => p.nvMap.lookup menuIndex = none ∧ p.nvCount = 1 ∧ p.nvAllocOffset = 48
  | .defined => ∃ e, p.nvMap.lookup menuIndex = some e ∧ MenuEntry e ∧ e.written = false
  | .written => (∃ e, p.nvMap.lookup menuIndex = some e ∧ MenuEntry e) ∧
      Stored p menuIndex 0 (ciphertextOf host (ownerKey host) menuData)

/-- The TPM is in the state of the machine. -/
structure Menu.Holds (host : Host) (m : Menu) (p : Persistent) : Prop where
  key : HasKey p (ownerKey host)
  handle : p.nextTransientHandle = (1 + m.created) % 2 ^ 32
  other : p.nvMap.lookup 0x01000002 = none
  slot : SlotHolds host p m.slot

theorem Menu.holds_start (host : Host) : Menu.start.Holds host (tpm2Realize host).persistent := by
  rw [tpm2Realize_eq]
  refine ⟨⟨rfl, installedKey_withPrimary host _ _ _ _ _⟩, rfl, ?_, ?_, rfl, rfl⟩
  · rfl
  · rfl

section Define
variable {s : Tpm2State} {p : NvPublic} (hindex : p.nvIndex = menuIndex)
  (hattributes : p.attributes = menuAttributes) (hsize : p.dataSize = 32)
include hindex hsize

theorem checks_defined (hmem : menuIndex ∈ s.nvMap) (authHandle : Provision) :
    nvDefineSpaceChecks s authHandle p = tpmRcNvDefined := by
  rw [nvDefineSpaceChecks, hindex, hsize, if_neg (by decide), if_pos hmem]

include hattributes

theorem checks_undefined (hnot : menuIndex ∉ s.nvMap) (hcount : s.nvCount = 1)
    (hbank : s.nvBankSize = tpm2NvStorageSize) :
    nvDefineSpaceChecks s ⟨tpmRhOwner, tpmRhOwner, tpmRhOwner⟩ p = tpmRcSuccess := by
  rw [nvDefineSpaceChecks, hindex, hsize, hattributes, hcount, hbank, if_neg (by decide),
    if_neg hnot]
  decide

end Define

section Step
variable {host : Host} {s : Tpm2State} {m : Menu}

/-- One command brings the TPM from one state of the machine to the next. -/
structure Menu.Steps (host : Host) (env : Nat → Surroundings) (m : Menu) (s : Tpm2State)
    (cmd : MenuCommand) : Prop where
  answered : Answered (step host s (.write (env m.commands) tpm2CmdReg 1)) (m.answer host env cmd)
  holds : (m.next cmd).Holds host (step host s (.write (env m.commands) tpm2CmdReg 1)).persistent

theorem Executed.steps {env : Nat → Surroundings} {cmd : MenuCommand} {a : Answer} {p : Persistent}
    (h : Executed host (env m.commands) s a p) (hanswer : m.answer host env cmd = a)
    (hholds : (m.next cmd).Holds host p) : m.Steps host env s cmd :=
  ⟨hanswer ▸ h.answered, h.persistent ▸ hholds⟩

/-- A command that changes nothing. -/
theorem Menu.Holds.next (h : m.Holds host s.persistent) {cmd : MenuCommand}
    (hslot : Menu.slotAfter m.slot cmd = m.slot) (hcreate : cmd ≠ .createPrimary) :
    (m.next cmd).Holds host s.persistent := by
  refine ⟨h.key, ?_, h.other, ?_⟩
  · rw [Menu.next, if_neg hcreate]
    exact h.handle
  · rw [Menu.next, hslot]
    exact h.slot

theorem Menu.Holds.entry (h : m.Holds host s.persistent) (hslot : m.slot ≠ .undefined) :
    ∃ e, s.nvMap.lookup menuIndex = some e ∧ MenuEntry e := by
  have hholds := h.slot
  cases hm : m.slot with
  | undefined => exact absurd hm hslot
  | defined =>
      rw [hm] at hholds
      obtain ⟨e, hentry, hmenu, -⟩ := hholds
      exact ⟨e, hentry, hmenu⟩
  | written =>
      rw [hm] at hholds
      exact hholds.1

section Commands
variable (hreach : Reachable host s) (hholds : m.Holds host s.persistent)
  (env : Nat → Surroundings)
include hreach hholds

theorem steps_nvDefineSpace (h : Pending s cmdNvDefineSpace) :
    m.Steps host env s .nvDefineSpace := by
  have hcommand : cmdNvDefineSpace =
      commandBytes tpmStNoSessions tpmCcNvDefineSpace (encodeNvDefineSpace menuDefine) := by decide
  rw [hcommand] at h
  have hrange : menuDefine.InRange := by
    constructor <;> decide
  have hslot := hholds.slot
  by_cases hundefined : m.slot = .undefined
  · rw [hundefined] at hslot
    obtain ⟨hnone, hcount, hcursor⟩ := hslot
    have hbank : s.nvBankSize = tpm2NvStorageSize := (bankInvariant_reachable hreach).bankSize
    have hchecks := checks_undefined (p := nvPublicOf
      ((env m.commands).nvDefineSpaceParams.over menuDefine)) rfl rfl rfl
      (fun hmem => Finmap.lookup_eq_none.mp hnone hmem) hcount hbank
    have hroom : s.nvAllocOffset + (16 + menuDefine.dataSize) ≤ s.nvBankSize := by
      rw [hbank, show s.nvAllocOffset = 48 from hcursor]
      decide
    refine (executed_nvDefineSpace hreach _ hrange rfl h hchecks hroom).steps (if_pos hundefined) ?_
    refine ⟨hholds.key, hholds.handle, ?_, ?_⟩
    · exact (Finmap.lookup_insert_of_ne _ (show 0x01000002 ≠ menuIndex by decide)).trans
        hholds.other
    · rw [Menu.next, Menu.slotAfter, if_pos hundefined]
      refine ⟨_, Finmap.lookup_insert _, ⟨rfl, ?_, ?_⟩, rfl⟩
      · exact show menuAttributes.nvType = tpmNtOrdinary by decide
      · exact show menuAttributes.writeAll = false by decide
  · obtain ⟨e, hentry, -⟩ := hholds.entry hundefined
    have hchecks := checks_defined (p := nvPublicOf
      ((env m.commands).nvDefineSpaceParams.over menuDefine)) rfl rfl
      (Finmap.mem_of_lookup_eq_some hentry) ⟨tpmRhOwner, tpmRhOwner, tpmRhOwner⟩
    exact (executed_nvDefineSpace_refused hreach _ hrange rfl h (by decide) hchecks).steps
      (if_neg hundefined) (hholds.next (if_neg hundefined) (by decide))

theorem steps_nvWrite (h : Pending s cmdNvWrite) : m.Steps host env s .nvWrite := by
  have hcommand : cmdNvWrite = commandBytes tpmStNoSessions tpmCcNvWrite
      (encodeNvWrite tpmRhPlatform menuIndex menuData 0) := by decide
  rw [hcommand] at h
  by_cases hundefined : m.slot = .undefined
  · have hslot := hholds.slot
    rw [hundefined] at hslot
    exact (executed_nvWrite_undefined hreach _ (by decide) (by decide) (by decide) (by decide) h
      hslot.1).steps (if_pos hundefined)
      (hholds.next ((if_pos hundefined).trans hundefined.symm) (by decide))
  obtain ⟨e, hentry, hmenu⟩ := hholds.entry hundefined
  have hwritable : NvWritable s e ⟨menuData.length,
      store (env m.commands).nvWriteParams.data.buffer 0 menuData⟩ 0 := by
    rw [ordinary_writable hreach hholds.key.1 hentry hmenu.kind, hmenu.dataSize, hmenu.writeAll]
    exact show 0 + menuData.length ≤ 32 ∧ (false = true → menuData.length = 32) ∧
      0 < menuData.length ∧ menuData.length ≤ maxNvBufferSize by decide
  rw [← List.append_nil (encodeNvWrite _ _ _ _)] at h
  have hwrites := h.writes hreach hentry (env m.commands) (.inl rfl) (by decide) (.inl rfl)
    hwritable
  have hexecuted : Executed host (env m.commands) s (.success []) _ :=
    executed_success h.state (hwrites.reply host) (slice_zero _ _) rfl
  refine hexecuted.steps (if_neg hundefined) ⟨hholds.key, hholds.handle, ?_, ?_⟩
  · exact (Finmap.lookup_insert_of_ne _ (show 0x01000002 ≠ menuIndex by decide)).trans
      hholds.other
  · rw [Menu.next, Menu.slotAfter, if_neg hundefined]
    refine ⟨⟨_, Finmap.lookup_insert _, ⟨hmenu.dataSize, hmenu.kind, hmenu.writeAll⟩⟩, ?_⟩
    have hstored := (hwrites.readable hreach h.state).stored
    rw [hexecuted.persistent, hholds.key.2] at hstored
    have hdata := slice_store_same (env m.commands).nvWriteParams.data.buffer 0 menuData
    rwa [hdata] at hstored

theorem steps_createPrimary (h : Pending s cmdCreatePrimary) :
    m.Steps host env s .createPrimary := by
  obtain ⟨params, template, hexecuted⟩ := executed_createPrimary hreach (env m.commands) h
  have hhandle : s.nextTransientHandle = (1 + m.created) % 2 ^ 32 := hholds.handle
  refine hexecuted.steps (by rw [Menu.answer, hhandle]) ⟨⟨rfl, ?_⟩, ?_, hholds.other, ?_⟩
  · exact installedKey_withPrimary host _ _ _ _ _
  · change (s.nextTransientHandle + 1) % 2 ^ 32 = (1 + (m.created + 1)) % 2 ^ 32
    omega
  · have hslot := hholds.slot
    change SlotHolds host _ m.slot
    cases hm : m.slot with
    | undefined | defined | written =>
        rw [hm] at hslot
        exact hslot

/-- A read of the index that has not been written, of any size. -/
theorem executed_read_unwritten (hwritten : m.slot ≠ .written) {n : Nat} (hn : n < 2 ^ 16)
    (h : Pending s (commandBytes tpmStNoSessions tpmCcNvRead
      (encodeNvRead ⟨tpmRhPlatform, menuIndex, n, 0⟩))) (found : Answer) (env : Surroundings) :
    Executed host env s (Menu.readAnswer found m.slot) s.persistent := by
  have hslot := hholds.slot
  have hindex : menuIndex < 2 ^ 32 := by decide
  cases hm : m.slot with
  | undefined =>
      rw [hm] at hslot
      refine executed_nvRead_refused hreach env hindex hn rfl rfl h ?_
      exact show readRefusal (s.nvMap.lookup menuIndex) _ = some tpmRcHandle from
        (congrArg (readRefusal · _) hslot.1)
  | defined =>
      rw [hm] at hslot
      obtain ⟨e, hentry, -, hunwritten⟩ := hslot
      refine executed_nvRead_refused hreach env hindex hn rfl rfl h ?_
      have hlookup : s.nvMap.lookup menuIndex = some e := hentry
      rw [hlookup, readRefusal, hunwritten]
      rfl
  | written => exact absurd hm hwritten

theorem steps_nvRead (h : Pending s cmdNvRead) : m.Steps host env s .nvRead := by
  have hcommand : cmdNvRead = commandBytes tpmStNoSessions tpmCcNvRead
      (encodeNvRead ⟨tpmRhPlatform, menuIndex, 4, 0⟩) := by decide
  rw [hcommand] at h
  by_cases hwritten : m.slot = .written
  · have hslot := hholds.slot
    rw [hwritten] at hslot
    have hlength : (ciphertextOf host (ownerKey host) menuData).length = 4 :=
      CipherFeedback.length_encrypt _ _ _ _
    have hexecuted := executed_nvRead hreach (env m.commands) (by decide) (by decide) rfl rfl h
      hslot.2 hholds.key (by decide) hlength.ge (by decide)
    have htext : plaintextOf host (ownerKey host)
        ((ciphertextOf host (ownerKey host) menuData).take 4) = menuData :=
      CipherFeedback.decrypt_take_encrypt _ _ _ xor_xor_self _ _
    rw [htext] at hexecuted
    exact hexecuted.steps (congrArg (Menu.readAnswer _) hwritten) (hholds.next rfl (by decide))
  · exact (executed_read_unwritten hreach hholds hwritten (by decide) h _ _).steps rfl
      (hholds.next rfl (by decide))

theorem steps_nvReadOversize (h : Pending s cmdNvReadOversize) :
    m.Steps host env s .nvReadOversize := by
  have hcommand : cmdNvReadOversize = commandBytes tpmStNoSessions tpmCcNvRead
      (encodeNvRead ⟨tpmRhPlatform, menuIndex, 1024, 0⟩) := by decide
  rw [hcommand] at h
  by_cases hwritten : m.slot = .written
  · have hslot := hholds.slot
    rw [hwritten] at hslot
    obtain ⟨⟨e, hentry, hmenu⟩, e', hentry', hmarked, -⟩ := hslot
    cases hentry.symm.trans hentry'
    have hlookup : s.nvMap.lookup menuIndex = some e := hentry
    have hrefused : readRefusal (s.nvMap.lookup menuIndex)
        ⟨tpmRhPlatform, menuIndex, 1024, 0⟩ = some tpmRcNvRange := by
      rw [hlookup, readRefusal, hmarked, hmenu.dataSize]
      rfl
    exact (executed_nvRead_refused hreach _ (by decide) (by decide) rfl rfl h hrefused).steps
      (congrArg (Menu.readAnswer _) hwritten) (hholds.next rfl (by decide))
  · exact (executed_read_unwritten hreach hholds hwritten (by decide) h _ _).steps rfl
      (hholds.next rfl (by decide))

theorem steps_nvReadUninit (h : Pending s cmdNvReadUninit) :
    m.Steps host env s .nvReadUninit := by
  have hcommand : cmdNvReadUninit = commandBytes tpmStNoSessions tpmCcNvRead
      (encodeNvRead ⟨tpmRhPlatform, 0x01000002, 4, 0⟩) := by decide
  rw [hcommand] at h
  have hrefused : readRefusal (s.nvMap.lookup 0x01000002)
      ⟨tpmRhPlatform, 0x01000002, 4, 0⟩ = some tpmRcHandle :=
    congrArg (readRefusal · _) hholds.other
  exact (executed_nvRead_refused hreach _ (by decide) (by decide) rfl rfl h hrefused).steps rfl
    (hholds.next rfl (by decide))

end Commands

/-- Every command of the menu does in every state what the machine does. -/
theorem menu_steps (hreach : Reachable host s) (hholds : m.Holds host s.persistent)
    (env : Nat → Surroundings) {cmd : MenuCommand} (h : Pending s cmd.bytes)
    (hsize : s.cmdSize = 4 * ((cmd.bytes.length + 3) / 4)) : m.Steps host env s cmd := by
  have hsame (hslot : Menu.slotAfter m.slot cmd = m.slot) (hcreate : cmd ≠ .createPrimary) :
      (m.next cmd).Holds host s.persistent := hholds.next hslot hcreate
  cases cmd with
  | createPrimary => exact steps_createPrimary hreach hholds env h
  | nvDefineSpace => exact steps_nvDefineSpace hreach hholds env h
  | nvWrite => exact steps_nvWrite hreach hholds env h
  | nvRead => exact steps_nvRead hreach hholds env h
  | nvReadOversize => exact steps_nvReadOversize hreach hholds env h
  | nvReadUninit => exact steps_nvReadUninit hreach hholds env h
  | getRandom =>
      exact (executed_getRandom hreach _ (n := 32) (by decide) h).steps rfl
        (hsame rfl (by decide))
  | getRandomTooBig | intOverflow =>
      exact (executed_getRandom hreach _ (n := 65535) (by decide) h).steps rfl
        (hsame rfl (by decide))
  | badHdr =>
      exact (executed_short _ tpmStNoSessions 0x30 (by decide) h
        (by rw [hsize]; decide)).steps rfl (hsame rfl (by decide))
  | nvWriteOversize =>
      exact (executed_short _ tpmStNoSessions 0x3D (by decide) h
        (by rw [hsize]; decide)).steps rfl (hsame rfl (by decide))
  | nvWriteFmtStr =>
      exact (executed_short _ tpmStNoSessions 0x2B (by decide) h
        (by rw [hsize]; decide)).steps rfl (hsame rfl (by decide))

end Step

/-- The terminal and the machine are in the same state. -/
structure Terminal.Follows (host : Host) (t : Terminal) (m : Menu) : Prop where
  reachable : Reachable host t.tpm
  holds : m.Holds host t.tpm.persistent
  commands : t.commands = m.commands

theorem persistent_reads (host : Host) (t : Tpm2State) (n addr : Nat) :
    (Runs.run (step host) t (List.replicate n (.read addr))).persistent = t.persistent := by
  induction n generalizing t with
  | zero => rfl
  | succ n ih =>
      rw [List.replicate_succ, Runs.run_cons, ih]
      exact persistent_mmioRead t addr

section Sessions
variable {host : Host} {s : Session} {m : Menu}

theorem Terminal.Follows.exchange (h : s.terminal.Follows host m) (env : Nat → Surroundings)
    (cmd : MenuCommand) :
    (s.exchange host env cmd.bytes).terminal.Follows host (m.next cmd) ∧
      (s.exchange host env cmd.bytes).terminal.output = s.terminal.output ++
        ((Message.sending (.ofNat 32 cmd.bytes.length)
          (.ofNat 32 (padded cmd.bytes.length))).text ++ (m.answer host env cmd).text) := by
  have hlength : cmd.bytes.length ≤ 1024 := by cases cmd <;> decide
  let sent := Runs.run (step host) s.terminal.tpm (transmit (env m.commands) cmd.bytes)
  have hreach : Reachable host sent := h.reachable.run _
  have hsteps : m.Steps host env sent cmd := by
    refine menu_steps hreach ?_ env (pending_transmit host _ _ hlength)
      (receiving_transmit host _ _ hlength _).cmdSize
    rw [persistent_transmit]
    exact h.holds
  let t := step host sent (.write (env m.commands) tpm2CmdReg 1)
  have ht : Runs.run (step host) s.terminal.tpm (send (env s.terminal.commands) cmd.bytes) = t := by
    rw [h.commands]
    exact Runs.run_append _ _ _ _
  obtain ⟨-, -, -, hsize, hhigh⟩ := send_answers host (env m.commands) hlength s.terminal.tpm
  have htext : answerText t = (m.answer host env cmd).text := by
    refine hsteps.answered.text ?_
    rw [← hsteps.answered.header]
    rw [← h.commands, ht] at hsize hhigh
    exact Nat.lt_of_le_of_lt (Nat.le_trans hsize hhigh) (by decide)
  rw [Session.exchange, ht]
  refine ⟨⟨?_, ?_, congrArg (· + 1) h.commands⟩, ?_⟩
  · exact (hreach.next _).run _
  · exact (persistent_reads host t _ _).symm ▸ hsteps.holds
  · rw [htext]
    rfl

theorem Terminal.Follows.say (h : s.terminal.Follows host m) (text : List UInt8) :
    (s.say text).terminal.Follows host m :=
  ⟨h.reachable, h.holds, h.commands⟩

theorem output_say (s : Session) (text : List UInt8) :
    (s.say text).terminal.output = s.terminal.output ++ text := rfl

theorem Terminal.Follows.serve (h : s.terminal.Follows host m) (env : Nat → Surroundings)
    (word : BitVec 32) :
    (s.serve host env word).terminal.Follows host (m.serve word) ∧
      (s.serve host env word).terminal.output =
        s.terminal.output ++ m.shows host env word := by
  simp only [Session.serve, Session.serveKey, menuCommand_eq, Menu.serve, Menu.shows]
  generalize UInt8.ofBitVec (word.setWidth 8) = c
  have hechoed := h.say (Message.echo c).text
  cases menuKey c with
  | none =>
      refine ⟨(hechoed.say _).say _, ?_⟩
      simp only [Option.map_none, output_say, List.append_assoc]
  | some cmd =>
      obtain ⟨hfollows, houtput⟩ := hechoed.exchange env cmd
      refine ⟨hfollows.say _, ?_⟩
      simp only [Option.map_some, output_say, houtput, List.append_assoc]

theorem Terminal.Follows.run (h : s.terminal.Follows host m) (env : Nat → Surroundings)
    (words : List (BitVec 32)) :
    (Runs.run (Session.serve host env) s words).terminal.Follows host
        (Runs.run Menu.serve m words) ∧
      (Runs.run (Session.serve host env) s words).terminal.output =
        s.terminal.output ++ Runs.gather Menu.serve (Menu.shows host env) m words := by
  induction words generalizing s m with
  | nil => exact ⟨h, (List.append_nil _).symm⟩
  | cons word words ih =>
      obtain ⟨hserved, hfirst⟩ := h.serve env word
      obtain ⟨hfollows, houtput⟩ := ih hserved
      refine ⟨hfollows, ?_⟩
      rw [Runs.run_cons, houtput, hfirst, Runs.gather, List.append_assoc]

end Sessions

/-- Whatever is typed, the session prints what the machine of the menu answers. -/
theorem menu_transcript (host : Host) (env : Nat → Surroundings) (respBuf : Nat → UInt8)
    (words : List (BitVec 32)) :
    (Runs.run (Session.serve host env) (Session.start host respBuf) words).terminal.output =
      Message.started.text ++ menuText ++
        Runs.gather Menu.serve (Menu.shows host env) Menu.start words := by
  have hstart : (Session.start host respBuf).terminal.Follows host Menu.start :=
    ⟨reachable_realize host, Menu.holds_start host, rfl⟩
  exact (hstart.run env words).2

end TpmEmulator

import TpmEmulator.HeaderCodecs
import TpmEmulator.NvCommands
import TpmEmulator.DriverAgreement

/-!
Commands that wait to be executed. A command whose bytes stand at the beginning of the
command buffer is dispatched to the handler of its code, and the handler finds its body
behind the pointer that it is given.
-/
namespace TpmEmulator

open CellMemory BigEndian Framing

def commandBytes (tag code : Nat) (body : List UInt8) : List UInt8 :=
  headerBytes ⟨tag, 10 + body.length, code⟩ ++ body

/-- The device has received the command and waits for the write that executes it. -/
structure Pending (s : Tpm2State) (command : List UInt8) : Prop where
  state : s.state = .receiving
  buffer : Starts s.commandBuffer s.cmdSize 0 command

section Pending

variable {s : Tpm2State} {tag code : Nat} {body : List UInt8}

theorem Pending.fields (h : Pending s (commandBytes tag code body))
    (hmax : s.cmdSize ≤ commandBufferSize) (hcode : code < 2 ^ 32) :
    get32 s.commandBuffer 6 = code ∧ commandBodySize s = body.length ∧
      Starts s.commandBuffer commandBufferSize 10 body := by
  have hbuffer := h.buffer
  have hlength := hbuffer.1
  simp only [commandBytes, headerBytes, List.length_append, length_bytes16, length_bytes32]
    at hlength
  simp only [commandBufferSize] at hmax
  simp only [commandBytes, headerBytes, List.append_assoc, starts_append, length_bytes16,
    length_bytes32, Nat.reduceAdd] at hbuffer
  obtain ⟨-, hsize, hcode', hbody⟩ := hbuffer
  obtain ⟨-, hsize⟩ := (starts_bytes32 (by omega)).mp hsize
  obtain ⟨-, hcode'⟩ := (starts_bytes32 hcode).mp hcode'
  refine ⟨hcode', ?_, ?_, hbody.2⟩
  · rw [commandBodySize, hsize, tpmCmdHeaderSize, sub32_of_le (Nat.le_add_right _ _)]
    omega
  · simp only [commandBufferSize]
    omega

theorem starts_commandBody (env : Surroundings)
    (h : Starts s.commandBuffer commandBufferSize 10 body) :
    Starts (commandBody env s) body.length 0 body := by
  obtain ⟨hsize, hslice⟩ := h
  simp only [commandBufferSize] at hsize
  refine ⟨by omega, ?_⟩
  refine (slice_congr fun i hi => ?_).trans hslice
  rw [Nat.zero_add]
  exact commandBody_apply (by omega)

end Pending

theorem dispatchedCode_of_header {s : Tpm2State} {code : Nat} (hmode : s.tpmMode = .normal)
    (htag : get16 s.commandBuffer 0 = tpmStNoSessions ∨ get16 s.commandBuffer 0 = tpmStSessions)
    (hlow : 10 ≤ get32 s.commandBuffer 2) (hhigh : get32 s.commandBuffer 2 ≤ s.cmdSize)
    (hcode : get32 s.commandBuffer 6 = code) (hvalid : isValidCcCommand code) :
    dispatchedCode s = some code := by
  subst hcode
  have hheader : tpm2ValidateCommandHeader s.commandBuffer (get32 s.commandBuffer 2) = .ok
      ⟨get16 s.commandBuffer 0, get32 s.commandBuffer 2, get32 s.commandBuffer 6⟩ :=
    tpm2ValidateCommandHeader_eq_ok hlow rfl htag hvalid
  have haccept : validateCommand (accept s) = .ok
      ⟨get16 s.commandBuffer 0, get32 s.commandBuffer 2, get32 s.commandBuffer 6⟩ := by
    obtain ⟨rc, herror, -⟩ | ⟨header, hok, hrejects, -⟩ | ⟨header, hok, -, hvalidate⟩ :=
      validateCommand_cases (accept s)
    · cases herror.symm.trans hheader
    · cases hok.symm.trans hheader
      have hnormal : (accept s).tpmMode = .normal := hmode
      rw [hnormal] at hrejects
      exact absurd rfl hrejects
    · cases hok.symm.trans hheader
      exact hvalidate
  rw [dispatchedCode, if_neg (Nat.not_lt.mpr hhigh), haccept]
  rfl

theorem Pending.dispatched {s : Tpm2State} {tag code : Nat} {body : List UInt8}
    (h : Pending s (commandBytes tag code body)) (hmode : s.tpmMode = .normal)
    (hmax : s.cmdSize ≤ commandBufferSize) (htag : tag = tpmStNoSessions ∨ tag = tpmStSessions)
    (hvalid : isValidCcCommand code) (hcode : code < 2 ^ 32) : dispatchedCode s = some code := by
  have hbuffer := h.buffer
  have hlength := hbuffer.1
  have htag' : tag < 2 ^ 16 := by obtain rfl | rfl := htag <;> decide
  simp only [commandBytes, headerBytes, List.length_append, length_bytes16, length_bytes32]
    at hlength
  simp only [commandBufferSize] at hmax
  simp only [commandBytes, headerBytes, List.append_assoc, starts_append, length_bytes16,
    Nat.reduceAdd] at hbuffer
  obtain ⟨htagBytes, hsize, -⟩ := hbuffer
  obtain ⟨-, htagBytes⟩ := (starts_bytes16 htag').mp htagBytes
  obtain ⟨-, hsize⟩ := (starts_bytes32 (by omega)).mp hsize
  rw [← htagBytes] at htag
  exact dispatchedCode_of_header hmode htag (by omega) (by omega) (h.fields hmax hcode).1 hvalid

theorem pending_transmit (host : Host) (env : Surroundings) (s : Tpm2State) {cmd : List UInt8}
    (hlen : cmd.length ≤ 1024) : Pending (Runs.run (step host) s (transmit env cmd)) cmd := by
  have hreceiving := receiving_transmit host env (cmd.getD · 0) hlen s
  rw [← transmit] at hreceiving
  refine ⟨hreceiving.state, by rw [hreceiving.cmdSize]; omega, ?_⟩
  apply List.ext_getElem
  · rw [length_slice]
  · intro i h₁ h₂
    rw [getElem_slice, Nat.zero_add, hreceiving.bytes i (by omega), if_pos h₂]
    simp [h₂]

/-- The hierarchy is the first field of the body. -/
theorem Requests.handle {env : Surroundings} {s : Tpm2State} {params : CreatePrimaryParams}
    {template : Nat → UInt8} (h : Requests env s params template) :
    params.primaryHandle = pendingHandle s := by
  obtain ⟨bytesRead, hread, -⟩ := h
  obtain ⟨hsize, hread⟩ := field_uint32_ok (Nat.zero_le _) hread
  obtain ⟨hsize, hread⟩ := field_uint16_ok hsize hread
  obtain ⟨userAuth, data, offset, hoffset, hread⟩ := unmarshalInSensitive_ok hsize hread
  obtain ⟨-, hread⟩ := field_uint16_ok hoffset hread
  split at hread
  · cases hread
  cases hread
  exact get32_commandBody (by decide)

/-- The pending command is a CreatePrimary request that the unmarshaller accepts. -/
structure Creates (env : Surroundings) (s : Tpm2State) (params : CreatePrimaryParams)
    (template : Nat → UInt8) : Prop where
  code : dispatchedCode s = some tpmCcCreatePrimary
  requests : Requests env s params template

theorem Creates.reply (host : Host) {env : Surroundings} {s : Tpm2State}
    {params : CreatePrimaryParams} {template : Nat → UInt8} (h : Creates env s params template) :
    executeReply host env s = createPrimaryFrom host (accept s) params template := by
  obtain ⟨hcode, bytesRead, hread, rfl⟩ := h
  rw [executeReply_createPrimary host env hcode]
  obtain ⟨rc, -, herror, -⟩ | ⟨params', bytesRead', hread', heq⟩ :=
    handleCreatePrimary_cases host env (accept s) (commandBody env s) (commandBodySize s)
  · cases herror.symm.trans hread
  · cases hread.symm.trans hread'
    exact heq

theorem slice_responseHeader (t : Tpm2State) :
    slice t.responseBuffer 0 tpmRspHeaderSize = headerBytes (responseHeader t) := by
  rw [headerBytes, responseHeader, ← slice_eq_bytes16, ← slice_eq_bytes32, ← slice_eq_bytes32,
    ← slice_add, ← slice_add]
  rfl

end TpmEmulator

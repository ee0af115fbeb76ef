import TpmEmulator.Replies

/-!
Executing a command. A write of 1 to the command register in state RECEIVING is
the one access that runs a handler. `dispatchedCode` says which handler, if any,
and `executeReply` is the reply that the response is built from. Every other
access leaves the persistent part of the state alone.
-/
namespace TpmEmulator

open CellMemory BigEndian

/-- The state in which `tpm2_process_command` is called. -/
def accept (s : Tpm2State) : Tpm2State :=
  { s with
    touched := s.commandCells.record 2 4
    cmdSize := get32 s.commandBuffer 2
    state := .processing }

/-- What the response to the pending command is built from. -/
def executeReply (host : Host) (env : Surroundings) (s : Tpm2State) : Reply :=
  if s.cmdSize < get32 s.commandBuffer 2 then
    (.error tpmRcCommandSize,
      { s with touched := s.commandCells.record 2 4, state := .idle })
  else commandReply host env (accept s)

theorem executeCommand_eq_respond (host : Host) (env : Surroundings) (s : Tpm2State) :
    executeCommand host env s = respond (executeReply host env s) := by
  unfold executeCommand executeReply
  by_cases hsize : s.cmdSize < get32 s.commandBuffer 2
  · rw [if_pos hsize]
    exact if_pos hsize
  · rw [if_neg hsize]
    exact if_neg hsize

/-- The code of the pending command if its header passes every check. -/
def dispatchedCode (s : Tpm2State) : Option Nat :=
  if s.cmdSize < get32 s.commandBuffer 2 then none
  else (validateCommand (accept s)).toOption.map (·.code)

/-- The body of the pending command, with what lies behind it in memory. -/
def commandBody (env : Surroundings) (s : Tpm2State) : Nat → UInt8 :=
  advance (commandMemory env s) tpmCmdHeaderSize

def commandBodySize (s : Tpm2State) : Nat := sub32 (get32 s.commandBuffer 2) tpmCmdHeaderSize

/-- Which of the two validators decides. -/
theorem validateCommand_cases (s : Tpm2State) :
    (∃ rc, tpm2ValidateCommandHeader s.commandBuffer s.cmdSize = .error rc ∧
      validateCommand s = .error rc) ∨
    (∃ header, tpm2ValidateCommandHeader s.commandBuffer s.cmdSize = .ok header ∧
      tpm2ValidateMode header s.tpmMode ≠ tpmRcSuccess ∧
      validateCommand s = .error (tpm2ValidateMode header s.tpmMode)) ∨
    (∃ header, tpm2ValidateCommandHeader s.commandBuffer s.cmdSize = .ok header ∧
      tpm2ValidateMode header s.tpmMode = tpmRcSuccess ∧ validateCommand s = .ok header) := by
  unfold validateCommand
  cases hheader : tpm2ValidateCommandHeader s.commandBuffer s.cmdSize with
  | error rc => exact .inl ⟨rc, rfl, rfl⟩
  | ok header =>
      by_cases hmode : tpm2ValidateMode header s.tpmMode = tpmRcSuccess
      · exact .inr (.inr ⟨header, rfl, hmode, if_neg (not_not.mpr hmode)⟩)
      · exact .inr (.inl ⟨header, rfl, hmode, if_pos hmode⟩)

theorem validateCommand_congr {s s' : Tpm2State}
    (hheader : tpm2ValidateCommandHeader s.commandBuffer s.cmdSize =
      tpm2ValidateCommandHeader s'.commandBuffer s'.cmdSize)
    (hmode : s.tpmMode = s'.tpmMode) : validateCommand s = validateCommand s' := by
  unfold validateCommand
  rw [hheader, hmode]

theorem validateCommand_error {s : Tpm2State} {rc : Nat} (h : validateCommand s = .error rc) :
    IsErrorCode rc := by
  obtain ⟨rc', hheader, heq⟩ | ⟨header, -, hmode, heq⟩ | ⟨header, -, -, heq⟩ :=
    validateCommand_cases s
  · cases heq.symm.trans h
    exact tpm2ValidateCommandHeader_error hheader
  · cases heq.symm.trans h
    exact (tpm2ValidateMode_code header s.tpmMode).resolve_left hmode
  · cases heq.symm.trans h

theorem validateCommand_ok {s : Tpm2State} {header : Header}
    (h : validateCommand s = .ok header) :
    tpm2ValidateCommandHeader s.commandBuffer s.cmdSize = .ok header ∧
      tpm2ValidateMode header s.tpmMode = tpmRcSuccess := by
  obtain ⟨rc, -, heq⟩ | ⟨header', -, -, heq⟩ | ⟨header', hheader, hmode, heq⟩ :=
    validateCommand_cases s
  · cases heq.symm.trans h
  · cases heq.symm.trans h
  · cases heq.symm.trans h
    exact ⟨hheader, hmode⟩

theorem commandReply_error (host : Host) (env : Surroundings) {s : Tpm2State} {rc : Nat}
    (h : validateCommand s = .error rc) : commandReply host env s = (.error rc, s) := by
  simp only [commandReply, h]

theorem commandReply_ok (host : Host) (env : Surroundings) {s : Tpm2State} {header : Header}
    (h : validateCommand s = .ok header) :
    commandReply host env s = dispatch host env s header.code := by
  simp only [commandReply, h]

theorem executeReply_short (host : Host) (env : Surroundings) {s : Tpm2State}
    (h : s.cmdSize < get32 s.commandBuffer 2) :
    executeReply host env s = (.error tpmRcCommandSize,
      { s with touched := s.commandCells.record 2 4, state := .idle }) :=
  if_pos h

theorem executeReply_invalid (host : Host) (env : Surroundings) {s : Tpm2State} {rc : Nat}
    (h : get32 s.commandBuffer 2 ≤ s.cmdSize) (hvalid : validateCommand (accept s) = .error rc) :
    executeReply host env s = (.error rc, accept s) :=
  (if_neg (Nat.not_lt.mpr h)).trans (commandReply_error host env hvalid)

/-- A command that reaches no handler changes neither the persistent state nor the
random data, and writes nothing to the response buffer before its response. -/
theorem executeReply_rejected (host : Host) (env : Surroundings) {s : Tpm2State}
    (h : dispatchedCode s = none) :
    ∃ rc t, IsErrorCode rc ∧ executeReply host env s = (.error rc, t) ∧
      t.persistent = s.persistent ∧ t.randomData = s.randomData ∧
      t.responseBuffer = s.responseBuffer := by
  unfold dispatchedCode at h
  split at h
  · rename_i hsize
    exact ⟨_, _, by decide, executeReply_short host env hsize, rfl, rfl, rfl⟩
  · rename_i hsize
    cases hvalid : validateCommand (accept s) with
    | error rc =>
        exact ⟨rc, accept s, validateCommand_error hvalid,
          executeReply_invalid host env (Nat.le_of_not_lt hsize) hvalid, rfl, rfl, rfl⟩
    | ok header =>
        rw [hvalid] at h
        cases h

theorem executeReply_dispatched (host : Host) (env : Surroundings) {s : Tpm2State} {code : Nat}
    (h : dispatchedCode s = some code) :
    executeReply host env s = dispatch host env (accept s) code := by
  unfold dispatchedCode at h
  unfold executeReply
  split at h
  · cases h
  · rename_i hsize
    rw [if_neg hsize]
    cases hvalid : validateCommand (accept s) with
    | error rc =>
        rw [hvalid] at h
        cases h
    | ok header =>
        rw [hvalid] at h
        cases h
        exact commandReply_ok host env hvalid

/-- What the header of a dispatched command looks like. -/
theorem dispatchedCode_some {s : Tpm2State} {code : Nat} (h : dispatchedCode s = some code) :
    ∃ header, tpm2ValidateCommandHeader s.commandBuffer (get32 s.commandBuffer 2) = .ok header ∧
      tpm2ValidateMode header s.tpmMode = tpmRcSuccess ∧ header.code = code ∧
      10 ≤ get32 s.commandBuffer 2 ∧ get32 s.commandBuffer 2 ≤ s.cmdSize ∧
      get32 s.commandBuffer 6 = code := by
  unfold dispatchedCode at h
  split at h
  · cases h
  rename_i hsize
  cases hvalid : validateCommand (accept s) with
  | error rc =>
      rw [hvalid] at h
      cases h
  | ok header =>
      rw [hvalid] at h
      cases h
      obtain ⟨hheader, hmode⟩ := validateCommand_ok hvalid
      obtain ⟨hlong, rfl, -, -, -⟩ := tpm2ValidateCommandHeader_ok hheader
      exact ⟨_, hheader, hmode, rfl, hlong, Nat.le_of_not_lt hsize, rfl⟩

section Dispatch

variable (host : Host) (env : Surroundings) {s : Tpm2State}

theorem executeReply_getRandom (h : dispatchedCode s = some tpmCcGetRandom) :
    executeReply host env s =
      handleGetRandom env (accept s) (commandBody env s) (commandBodySize s) := by
  rw [executeReply_dispatched host env h]
  unfold dispatch
  dsimp only
  rw [if_pos rfl]
  rfl

theorem executeReply_createPrimary (h : dispatchedCode s = some tpmCcCreatePrimary) :
    executeReply host env s =
      handleCreatePrimary host env (accept s) (commandBody env s) (commandBodySize s) := by
  rw [executeReply_dispatched host env h]
  unfold dispatch
  dsimp only
  rw [if_neg (by decide), if_pos rfl]
  rfl

theorem executeReply_nvDefineSpace (h : dispatchedCode s = some tpmCcNvDefineSpace) :
    executeReply host env s =
      handleNvDefineSpace env (accept s) (commandBody env s) (commandBodySize s) := by
  rw [executeReply_dispatched host env h]
  unfold dispatch
  dsimp only
  rw [if_neg (by decide), if_neg (by decide), if_pos rfl]
  rfl

theorem executeReply_nvWrite (h : dispatchedCode s = some tpmCcNvWrite) :
    executeReply host env s =
      handleNvWrite host env (accept s) (commandBody env s) (commandBodySize s) := by
  rw [executeReply_dispatched host env h]
  unfold dispatch
  dsimp only
  rw [if_neg (by decide), if_neg (by decide), if_neg (by decide), if_pos rfl]
  rfl

theorem executeReply_nvRead (h : dispatchedCode s = some tpmCcNvRead) :
    executeReply host env s =
      handleNvRead host env (accept s) (commandBody env s) (commandBodySize s) := by
  rw [executeReply_dispatched host env h]
  unfold dispatch
  dsimp only
  rw [if_neg (by decide), if_neg (by decide), if_neg (by decide), if_neg (by decide), if_pos rfl]
  rfl

/-- The codes that the dispatcher has a handler for. -/
def handledCodes : List Nat :=
  [tpmCcGetRandom, tpmCcCreatePrimary, tpmCcNvDefineSpace, tpmCcNvWrite, tpmCcNvRead]

theorem executeReply_unhandled {code : Nat} (h : dispatchedCode s = some code)
    (hcode : code ∉ handledCodes) :
    executeReply host env s = (.error tpmRcCommandCode, accept s) := by
  simp only [handledCodes, List.mem_cons, List.not_mem_nil, or_false, not_or] at hcode
  obtain ⟨h₁, h₂, h₃, h₄, h₅⟩ := hcode
  rw [executeReply_dispatched host env h]
  unfold dispatch
  dsimp only
  rw [if_neg h₁, if_neg h₂, if_neg h₃, if_neg h₄, if_neg h₅]

/-- A code without a handler, or a header that did not pass: an error reply that
leaves the persistent state alone. -/
theorem executeReply_other (h₁ : dispatchedCode s ≠ some tpmCcGetRandom)
    (h₂ : dispatchedCode s ≠ some tpmCcCreatePrimary)
    (h₃ : dispatchedCode s ≠ some tpmCcNvDefineSpace)
    (h₄ : dispatchedCode s ≠ some tpmCcNvWrite) (h₅ : dispatchedCode s ≠ some tpmCcNvRead) :
    ∃ rc t, IsErrorCode rc ∧ executeReply host env s = (.error rc, t) ∧
      t.persistent = s.persistent ∧ t.randomData = s.randomData ∧
      t.responseBuffer = s.responseBuffer := by
  cases hcode : dispatchedCode s with
  | none => exact executeReply_rejected host env hcode
  | some code =>
      rw [hcode, ne_eq, Option.some.injEq] at h₁ h₂ h₃ h₄ h₅
      have hnot : code ∉ handledCodes := by
        simp only [handledCodes, List.mem_cons, List.not_mem_nil, or_false, not_or]
        exact ⟨h₁, h₂, h₃, h₄, h₅⟩
      exact ⟨_, _, by decide, executeReply_unhandled host env hcode hnot, rfl, rfl, rfl⟩

end Dispatch

/-! The frame of an execution. Between the command's acceptance and its response no
handler touches the command buffer, the count of received bytes or the trace. -/

theorem handleNvWrite_interface (host : Host) (env : Surroundings) (s : Tpm2State)
    (cmdBody : Nat → UInt8) (bodySize : Nat) :
    (handleNvWrite host env s cmdBody bodySize).2.interface = s.interface := by
  unfold handleNvWrite
  cases unmarshalNvWrite env.nvWriteParams env.bytesRead cmdBody bodySize with
  | error rc => rfl
  | ok result =>
      obtain ⟨params, bytesRead⟩ := result
      dsimp only
      cases s.nvMap.lookup params.nvIndex with
      | none => rfl
      | some e =>
          dsimp only
          split
          · rfl
          cases provisionOf params.authHandle with
          | none => rfl
          | some provHandle =>
              dsimp only
              obtain ⟨rc, hrc, heq⟩ | ⟨e', hlookup, hbeyond⟩ | ⟨e', hlookup, hwritable⟩ :=
                tpm2NvWrite_cases host s provHandle params.nvIndex params.data params.offset
              · rw [heq, if_pos hrc.1]
              · rw [tpm2NvWrite_beyond host provHandle params.data hlookup hbeyond]
                rfl
              · rw [tpm2NvWrite_stored host provHandle hlookup hwritable]
                rfl

theorem createPrimaryFrom_interface (host : Host) (s : Tpm2State) (params : CreatePrimaryParams)
    (pubBuf : Nat → UInt8) :
    (createPrimaryFrom host s params pubBuf).2.interface = s.interface := by
  obtain ⟨sensitive, publicArea, name, handle, buffer, heq⟩ :=
    createPrimaryFrom_frame host s params pubBuf
  rw [heq]
  rfl

theorem dispatch_interface (host : Host) (env : Surroundings) (s : Tpm2State) (code : Nat) :
    (dispatch host env s code).2.interface = s.interface := by
  unfold dispatch
  dsimp only
  split
  · obtain ⟨rc, -, heq⟩ | ⟨n, -, heq⟩ := handleGetRandom_cases env s
      (advance (commandMemory env s) tpmCmdHeaderSize) (sub32 s.cmdSize tpmCmdHeaderSize)
    · rw [heq]
    · rw [heq]
      rfl
  split
  · obtain ⟨rc, -, -, heq⟩ | ⟨params, bytesRead, -, heq⟩ := handleCreatePrimary_cases host env s
      (advance (commandMemory env s) tpmCmdHeaderSize) (sub32 s.cmdSize tpmCmdHeaderSize)
    · rw [heq]
    · rw [heq]
      exact createPrimaryFrom_interface _ _ _ _
  split
  · obtain ⟨rc, -, heq⟩ | ⟨params, bytesRead, provHandle, hread, hprov, hchecks, hroom⟩ :=
      handleNvDefineSpace_cases env s
        (advance (commandMemory env s) tpmCmdHeaderSize) (sub32 s.cmdSize tpmCmdHeaderSize)
    · rw [heq]
    · rw [handleNvDefineSpace_defined hread hprov hchecks hroom]
      rfl
  split
  · exact handleNvWrite_interface _ _ _ _ _
  split
  · obtain ⟨rc, -, heq⟩ | ⟨params, bytesRead, e, -, -, -, -, -, -, -, -, heq⟩ :=
      handleNvRead_cases host env s
        (advance (commandMemory env s) tpmCmdHeaderSize) (sub32 s.cmdSize tpmCmdHeaderSize)
    · rw [heq]
    · rw [heq]
      rfl
  · rfl

/-- What an execution does to the command side of the interface. -/
structure Framed (s t : Tpm2State) : Prop where
  commandBuffer : t.commandBuffer = s.commandBuffer
  cmdSize_le : t.cmdSize ≤ s.cmdSize
  touched : t.touched = s.commandCells.record 2 4

theorem commandReply_interface (host : Host) (env : Surroundings) (s : Tpm2State) :
    (commandReply host env s).2.interface = s.interface := by
  cases hvalid : validateCommand s with
  | error rc => rw [commandReply_error host env hvalid]
  | ok header =>
      rw [commandReply_ok host env hvalid]
      exact dispatch_interface host env s header.code

theorem executeReply_framed (host : Host) (env : Surroundings) (s : Tpm2State) :
    Framed s (executeReply host env s).2 := by
  by_cases hsize : s.cmdSize < get32 s.commandBuffer 2
  · rw [executeReply, if_pos hsize]
    exact ⟨rfl, Nat.le_refl _, rfl⟩
  · rw [executeReply, if_neg hsize]
    have hinterface := commandReply_interface host env (accept s)
    simp only [Tpm2State.interface, accept, Interface.mk.injEq] at hinterface
    obtain ⟨hbuffer, hcount, htouched⟩ := hinterface
    exact ⟨hbuffer, hcount.trans_le (Nat.le_of_not_lt hsize), htouched⟩

theorem dispatch_wellFormed (host : Host) (env : Surroundings) (s : Tpm2State) (code : Nat) :
    Reply.WellFormed (dispatch host env s code) := by
  unfold dispatch
  dsimp only
  split
  · obtain ⟨rc, hrc, heq⟩ | ⟨n, -, heq⟩ := handleGetRandom_cases env s
      (advance (commandMemory env s) tpmCmdHeaderSize) (sub32 s.cmdSize tpmCmdHeaderSize)
    · rw [heq]
      exact wellFormed_error _ hrc
    · rw [heq]
      exact wellFormed_marshalBody (isWriter_tpm2b _) _
  split
  · obtain ⟨rc, hrc, -, heq⟩ | ⟨params, bytesRead, -, heq⟩ := handleCreatePrimary_cases host env s
      (advance (commandMemory env s) tpmCmdHeaderSize) (sub32 s.cmdSize tpmCmdHeaderSize)
    · rw [heq]
      exact wellFormed_error _ hrc
    · rw [heq]
      exact createPrimaryFrom_wellFormed _ _ _ _
  split
  · obtain ⟨rc, hrc, heq⟩ | ⟨params, bytesRead, provHandle, hread, hprov, hchecks, hroom⟩ :=
      handleNvDefineSpace_cases env s
        (advance (commandMemory env s) tpmCmdHeaderSize) (sub32 s.cmdSize tpmCmdHeaderSize)
    · rw [heq]
      exact wellFormed_error _ hrc
    · rw [handleNvDefineSpace_defined hread hprov hchecks hroom]
      exact wellFormed_empty _
  split
  · exact handleNvWrite_wellFormed _ _ _ _ _
  split
  · obtain ⟨rc, hrc, heq⟩ | ⟨params, bytesRead, e, -, -, -, -, -, -, -, -, heq⟩ :=
      handleNvRead_cases host env s
        (advance (commandMemory env s) tpmCmdHeaderSize) (sub32 s.cmdSize tpmCmdHeaderSize)
    · rw [heq]
      exact wellFormed_error _ hrc
    · rw [heq]
      exact wellFormed_marshalBody (isWriter_nvReadResponse _) _
  · exact wellFormed_error _ (by decide)

/-- Every command is answered with an error code or with a body that fits. -/
theorem executeReply_wellFormed (host : Host) (env : Surroundings) (s : Tpm2State) :
    Reply.WellFormed (executeReply host env s) := by
  cases hcode : dispatchedCode s with
  | none =>
      obtain ⟨rc, t, hrc, heq, -⟩ := executeReply_rejected host env hcode
      rw [heq]
      exact wellFormed_error _ hrc
  | some code =>
      rw [executeReply_dispatched host env hcode]
      exact dispatch_wellFormed host env (accept s) code

-- From here on a command is known by the lemmas above and not by unfolding.
attribute [irreducible] executeReply

/-- The access runs the pending command. -/
def Access.Executes (s : Tpm2State) (a : Access) (env : Surroundings) : Prop :=
  a = .write env tpm2CmdReg 1 ∧ s.state = .receiving

theorem step_executes (host : Host) {s : Tpm2State} {a : Access} {env : Surroundings}
    (h : a.Executes s env) : step host s a = respond (executeReply host env s) := by
  obtain ⟨rfl, hstate⟩ := h
  rw [← executeCommand_eq_respond]
  change tpm2MmioWrite host env s tpm2CmdReg 1 = _
  rw [tpm2MmioWrite, if_neg (by decide), if_pos rfl, if_pos rfl, if_neg (not_not.mpr hstate)]

theorem persistent_mmioRead (s : Tpm2State) (addr : Nat) :
    (tpm2MmioRead s addr).2.persistent = s.persistent := by
  unfold tpm2MmioRead
  dsimp only
  split_ifs <;> rfl

theorem persistent_mmioWrite (host : Host) (env : Surroundings) (s : Tpm2State)
    (addr value : Nat) (h : ¬ (Access.write env addr value).Executes s env) :
    (tpm2MmioWrite host env s addr value).persistent = s.persistent := by
  unfold tpm2MmioWrite
  split
  · split_ifs <;> rfl
  split
  · rename_i haddr
    split
    · rename_i hvalue
      split
      · rfl
      · rename_i hstate
        exact absurd ⟨by rw [haddr, hvalue], not_not.mp hstate⟩ h
    · rfl
  split
  · split_ifs <;> rfl
  · rfl

/-- Only an execution changes the persistent state. -/
theorem persistent_step (host : Host) (s : Tpm2State) (a : Access) :
    (step host s a).persistent = s.persistent ∨
    ∃ env, a.Executes s env ∧
      (step host s a).persistent = (executeReply host env s).2.persistent := by
  cases a with
  | read addr => exact .inl (persistent_mmioRead s addr)
  | write env addr value =>
      by_cases h : (Access.write env addr value).Executes s env
      · refine .inr ⟨env, h, ?_⟩
        rw [step_executes host h, persistent_respond]
      · exact .inl (persistent_mmioWrite host env s addr value h)

end TpmEmulator

import TpmEmulator.Transport

/-!
What lies behind the command in the buffer. Entering state RECEIVING does not clear
the command buffer, so behind the bytes of a command stand its padding, words in
excess of its size and the remains of earlier commands. The header checks and the
unmarshallers do not look at them. The handler of CreatePrimary reads the template
without comparing its position with the size of the command, and so it can.
-/
namespace TpmEmulator

open CellMemory BigEndian

/-- The same state with another command buffer. -/
def withCommand (buffer : Nat → UInt8) (s : Tpm2State) : Tpm2State :=
  { s with commandBuffer := buffer }

section Fields

variable (buffer : Nat → UInt8) (s : Tpm2State)

@[simp] theorem nvBank_withCommand : (withCommand buffer s).nvBank = s.nvBank := rfl

@[simp] theorem nvMap_withCommand : (withCommand buffer s).nvMap = s.nvMap := rfl

end Fields

/-- The same for a result that comes with a state. -/
def onCommand {α : Type} (buffer : Nat → UInt8) (r : α × Tpm2State) : α × Tpm2State :=
  (r.1, withCommand buffer r.2)

theorem respond_onCommand (buffer : Nat → UInt8) (r : Reply) :
    respond (onCommand buffer r) = withCommand buffer (respond r) := by
  obtain ⟨report, s⟩ := r
  cases report <;> rfl

/-! The handlers read the command only through the body they are given, and all but that
of CreatePrimary only through an unmarshaller. -/

section Frame

variable (buffer : Nat → UInt8) (host : Host) (env : Surroundings) (s : Tpm2State)
  {cmdBody cmdBody' : Nat → UInt8} {bodySize : Nat}

theorem handleGetRandom_withCommand (hbody : ∀ i < bodySize, cmdBody i = cmdBody' i) :
    handleGetRandom env (withCommand buffer s) cmdBody' bodySize =
      onCommand buffer (handleGetRandom env s cmdBody bodySize) := by
  have hread : unmarshalGetRandom cmdBody bodySize = unmarshalGetRandom cmdBody' bodySize :=
    isReader_uint16.congr hbody
  unfold handleGetRandom
  rw [← hread]
  cases unmarshalGetRandom cmdBody bodySize with
  | error rc => rfl
  | ok result =>
      dsimp only
      rw [apply_ite (onCommand buffer)]
      rfl

theorem createPrimaryFrom_withCommand (params : CreatePrimaryParams) (pubBuf : Nat → UInt8) :
    createPrimaryFrom host (withCommand buffer s) params pubBuf =
      onCommand buffer (createPrimaryFrom host s params pubBuf) := by
  cases hseed : hierarchySeed s params.primaryHandle with
  | none =>
      rw [createPrimaryFrom_no_hierarchy host s params pubBuf hseed,
        createPrimaryFrom_no_hierarchy host (withCommand buffer s) params pubBuf hseed]
      rfl
  | some seed =>
      by_cases htype : get16 pubBuf 0 = tpmAlgEcc
      · rw [createPrimaryFrom_ecc host s params pubBuf hseed htype,
          createPrimaryFrom_ecc host (withCommand buffer s) params pubBuf hseed htype]
        rfl
      · rw [createPrimaryFrom_not_ecc host s params pubBuf hseed htype,
          createPrimaryFrom_not_ecc host (withCommand buffer s) params pubBuf hseed htype]
        rfl

theorem handleCreatePrimary_withCommand (cmdBody : Nat → UInt8) (bodySize : Nat) :
    handleCreatePrimary host env (withCommand buffer s) cmdBody bodySize =
      onCommand buffer (handleCreatePrimary host env s cmdBody bodySize) := by
  unfold handleCreatePrimary
  cases unmarshalCreatePrimary env.createPrimaryParams cmdBody bodySize with
  | error rc => rfl
  | ok result => exact createPrimaryFrom_withCommand buffer host s _ _

theorem tpm2NvDefineSpace_withCommand (authHandle : Provision) (auth : Tpm2b) (nv : NvPublic) :
    tpm2NvDefineSpace (withCommand buffer s) authHandle auth nv =
      onCommand buffer (tpm2NvDefineSpace s authHandle auth nv) := by
  by_cases hchecks : nvDefineSpaceChecks s authHandle nv = tpmRcSuccess
  · by_cases hroom : s.nvAllocOffset + (16 + nv.dataSize) ≤ s.nvBankSize
    · rw [tpm2NvDefineSpace_success auth hchecks hroom,
        tpm2NvDefineSpace_success auth (s := withCommand buffer s) hchecks hroom]
      rfl
    · rw [tpm2NvDefineSpace_full auth hchecks hroom,
        tpm2NvDefineSpace_full auth (s := withCommand buffer s) hchecks hroom]
      rfl
  · rw [tpm2NvDefineSpace_rejected auth hchecks,
      tpm2NvDefineSpace_rejected auth (s := withCommand buffer s) hchecks]
    rfl

theorem handleNvDefineSpace_withCommand (hbody : ∀ i < bodySize, cmdBody i = cmdBody' i) :
    handleNvDefineSpace env (withCommand buffer s) cmdBody' bodySize =
      onCommand buffer (handleNvDefineSpace env s cmdBody bodySize) := by
  unfold handleNvDefineSpace
  rw [← (isReader_nvDefineSpace _).congr hbody]
  cases unmarshalNvDefineSpace env.nvDefineSpaceParams cmdBody bodySize with
  | error rc => rfl
  | ok result =>
      dsimp only
      cases provisionOf result.1.authHandle with
      | none => rfl
      | some provHandle =>
          dsimp only
          rw [tpm2NvDefineSpace_withCommand, apply_ite (onCommand buffer)]
          rfl

theorem tpm2NvWrite_withCommand (authHandle : Provision) (nvIndex : Nat) (data : Tpm2b)
    (offset : Nat) :
    tpm2NvWrite host (withCommand buffer s) authHandle nvIndex data offset =
      onCommand buffer (tpm2NvWrite host s authHandle nvIndex data offset) := by
  have hcrypt : ∀ e input enc, nvCrypt host (withCommand buffer s) e input enc =
      nvCrypt host s e input enc := fun _ _ _ => rfl
  simp only [tpm2NvWrite, hcrypt, nvMap_withCommand, nvBank_withCommand]
  cases s.nvMap.lookup nvIndex with
  | none => rfl
  | some e =>
      simp only [apply_ite (onCommand buffer)]
      rfl

theorem handleNvWrite_withCommand (hbody : ∀ i < bodySize, cmdBody i = cmdBody' i) :
    handleNvWrite host env (withCommand buffer s) cmdBody' bodySize =
      onCommand buffer (handleNvWrite host env s cmdBody bodySize) := by
  unfold handleNvWrite
  rw [← unmarshalNvWrite_congr hbody]
  cases unmarshalNvWrite env.nvWriteParams env.bytesRead cmdBody bodySize with
  | error rc => rfl
  | ok result =>
      simp only [tpm2NvWrite_withCommand, nvMap_withCommand]
      cases s.nvMap.lookup result.1.nvIndex with
      | none => rfl
      | some e =>
          dsimp only
          rw [apply_ite (onCommand buffer)]
          cases provisionOf result.1.authHandle with
          | none => rfl
          | some provHandle =>
              simp only [apply_ite (onCommand buffer)]
              rfl

theorem nvReadOutput_withCommand (hbody : ∀ i < bodySize, cmdBody i = cmdBody' i) :
    nvReadOutput host env (withCommand buffer s) cmdBody' bodySize =
      nvReadOutput host env s cmdBody bodySize := by
  have hdecrypt : ∀ e len offset, nvReadDecryptFromBank host (withCommand buffer s) e len offset =
      nvReadDecryptFromBank host s e len offset := fun _ _ _ => rfl
  unfold nvReadOutput
  rw [← unmarshalNvRead_congr hbody]
  simp only [hdecrypt, nvMap_withCommand]

theorem handleNvRead_withCommand (hbody : ∀ i < bodySize, cmdBody i = cmdBody' i) :
    handleNvRead host env (withCommand buffer s) cmdBody' bodySize =
      onCommand buffer (handleNvRead host env s cmdBody bodySize) := by
  rw [handleNvRead, handleNvRead, nvReadOutput_withCommand _ _ _ _ hbody]
  cases nvReadOutput host env s cmdBody bodySize <;> rfl

end Frame

section Execute

variable {s : Tpm2State} {buffer : Nat → UInt8}

/-- The two buffers hold the same command. -/
def SameCommand (s : Tpm2State) (buffer : Nat → UInt8) : Prop :=
  ∀ i < get32 s.commandBuffer 2, buffer i = s.commandBuffer i

theorem get32_sameCommand (h : SameCommand s buffer) (hlow : 10 ≤ get32 s.commandBuffer 2) :
    get32 buffer 2 = get32 s.commandBuffer 2 :=
  get32_congr fun k hk => h (2 + k) (by omega)

theorem accept_withCommand (h : SameCommand s buffer) (hlow : 10 ≤ get32 s.commandBuffer 2) :
    accept (withCommand buffer s) = withCommand buffer (accept s) := by
  simp only [accept, withCommand, get32_sameCommand h hlow]
  rfl

theorem validateCommand_withCommand (h : SameCommand s buffer)
    (hlow : 10 ≤ get32 s.commandBuffer 2) :
    validateCommand (withCommand buffer (accept s)) = validateCommand (accept s) := by
  have hheader : ∀ size, tpm2ValidateCommandHeader buffer size =
      tpm2ValidateCommandHeader s.commandBuffer size := fun size =>
    tpm2ValidateCommandHeader_congr fun i hi => h i (by omega)
  exact validateCommand_congr (hheader _) rfl

theorem commandBodySize_withCommand (h : SameCommand s buffer)
    (hlow : 10 ≤ get32 s.commandBuffer 2) :
    commandBodySize (withCommand buffer s) = commandBodySize s := by
  simp only [commandBodySize, withCommand, get32_sameCommand h hlow]

theorem commandBody_withCommand (env : Surroundings) (h : SameCommand s buffer)
    (hlow : 10 ≤ get32 s.commandBuffer 2) :
    ∀ i < commandBodySize s, commandBody env s i = commandBody env (withCommand buffer s) i := by
  intro i hi
  rw [commandBodySize, tpmCmdHeaderSize, sub32_of_le hlow] at hi
  simp only [commandBody, advance_apply, commandMemory, tpmCmdHeaderSize, withCommand]
  split
  · exact (h (10 + i) (by omega)).symm
  · rfl

theorem dispatchedCode_withCommand (h : SameCommand s buffer)
    (hlow : 10 ≤ get32 s.commandBuffer 2) :
    dispatchedCode (withCommand buffer s) = dispatchedCode s := by
  have hsize : get32 (withCommand buffer s).commandBuffer 2 = get32 s.commandBuffer 2 :=
    get32_sameCommand h hlow
  unfold dispatchedCode
  rw [accept_withCommand h hlow, validateCommand_withCommand h hlow, hsize]
  rfl

/-- No handler but that of CreatePrimary looks behind the command. -/
theorem executeReply_withCommand (host : Host) (env : Surroundings) (h : SameCommand s buffer)
    (hlow : 10 ≤ get32 s.commandBuffer 2) (hhigh : get32 s.commandBuffer 2 ≤ s.cmdSize)
    (hcreate : dispatchedCode s ≠ some tpmCcCreatePrimary) :
    executeReply host env (withCommand buffer s) =
      onCommand buffer (executeReply host env s) := by
  have hdispatched := dispatchedCode_withCommand h hlow
  have hbody := commandBody_withCommand env h hlow
  cases hcode : dispatchedCode s with
  | none =>
      obtain ⟨rc, hinvalid⟩ : ∃ rc, validateCommand (accept s) = .error rc := by
        cases hvalid : validateCommand (accept s) with
        | error rc => exact ⟨rc, rfl⟩
        | ok header =>
            rw [dispatchedCode, if_neg (Nat.not_lt.mpr hhigh), hvalid] at hcode
            cases hcode
      have hinvalid' : validateCommand (accept (withCommand buffer s)) = .error rc := by
        rw [accept_withCommand h hlow, validateCommand_withCommand h hlow, hinvalid]
      have hhigh' : get32 (withCommand buffer s).commandBuffer 2 ≤ (withCommand buffer s).cmdSize :=
        (get32_sameCommand h hlow).le.trans hhigh
      rw [executeReply_invalid host env hhigh hinvalid,
        executeReply_invalid host env hhigh' hinvalid', accept_withCommand h hlow]
      rfl
  | some code =>
      rw [hcode] at hdispatched hcreate
      by_cases hhandled : code ∈ handledCodes
      · simp only [handledCodes, List.mem_cons, List.not_mem_nil, or_false] at hhandled
        obtain rfl | rfl | rfl | rfl | rfl := hhandled
        · rw [executeReply_getRandom host env hcode, executeReply_getRandom host env hdispatched,
            accept_withCommand h hlow, commandBodySize_withCommand h hlow]
          exact handleGetRandom_withCommand buffer env (accept s) hbody
        · exact absurd rfl hcreate
        · rw [executeReply_nvDefineSpace host env hcode,
            executeReply_nvDefineSpace host env hdispatched, accept_withCommand h hlow,
            commandBodySize_withCommand h hlow]
          exact handleNvDefineSpace_withCommand buffer env (accept s) hbody
        · rw [executeReply_nvWrite host env hcode, executeReply_nvWrite host env hdispatched,
            accept_withCommand h hlow, commandBodySize_withCommand h hlow]
          exact handleNvWrite_withCommand buffer host env (accept s) hbody
        · rw [executeReply_nvRead host env hcode, executeReply_nvRead host env hdispatched,
            accept_withCommand h hlow, commandBodySize_withCommand h hlow]
          exact handleNvRead_withCommand buffer host env (accept s) hbody
      · rw [executeReply_unhandled host env hcode hhandled,
          executeReply_unhandled host env hdispatched hhandled, accept_withCommand h hlow]
        rfl

end Execute

/-- What the handler of CreatePrimary takes from the two templates is the same. -/
def TemplatesAgree (pubBuf pubBuf' : Nat → UInt8) : Prop :=
  get16 pubBuf 0 = get16 pubBuf' 0 ∧
    (get16 pubBuf 0 = tpmAlgEcc → parseTemplate pubBuf = parseTemplate pubBuf')

section Template

variable (host : Host) (s : Tpm2State) (params : CreatePrimaryParams) {pubBuf pubBuf' : Nat → UInt8}

theorem createPrimaryFrom_congr (h : TemplatesAgree pubBuf pubBuf') :
    createPrimaryFrom host s params pubBuf = createPrimaryFrom host s params pubBuf' := by
  cases hseed : hierarchySeed s params.primaryHandle with
  | none =>
      rw [createPrimaryFrom_no_hierarchy host s params pubBuf hseed,
        createPrimaryFrom_no_hierarchy host s params pubBuf' hseed]
  | some seed =>
      by_cases htype : get16 pubBuf 0 = tpmAlgEcc
      · unfold createPrimaryFrom
        rw [h.2 htype]
      · rw [createPrimaryFrom_not_ecc host s params pubBuf hseed htype,
          createPrimaryFrom_not_ecc host s params pubBuf' hseed (h.1 ▸ htype)]
        simp only [primaryWiped, initialSensitive, templateOf, parseTemplate, h.1]

/-- The type of the template is stored whether the creation succeeds or not. -/
theorem sensitiveType_createPrimaryFrom {seed : Nat → UInt8}
    (hseed : hierarchySeed s params.primaryHandle = some seed) (pubBuf : Nat → UInt8) :
    (createPrimaryFrom host s params pubBuf).2.persistent.primarySensitive.sensitiveType =
      get16 pubBuf 0 := by
  by_cases htype : get16 pubBuf 0 = tpmAlgEcc
  · rw [createPrimaryFrom_created host s params pubBuf hseed htype]
    rfl
  · rw [createPrimaryFrom_not_ecc host s params pubBuf hseed htype]
    rfl

theorem primaryPublic_createPrimaryFrom {seed : Nat → UInt8}
    (hseed : hierarchySeed s params.primaryHandle = some seed)
    (htype : get16 pubBuf 0 = tpmAlgEcc) :
    (createPrimaryFrom host s params pubBuf).2.persistent.primaryPublic =
      primaryOutPublic host (parseTemplate pubBuf) (primaryPrivate host seed) := by
  rw [createPrimaryFrom_created host s params pubBuf hseed htype]
  rfl

theorem parseTemplate_congr (htype : get16 pubBuf 0 = get16 pubBuf' 0)
    (hname : get16 pubBuf 2 = get16 pubBuf' 2) (hattributes : get32 pubBuf 4 = get32 pubBuf' 4)
    (hcurve : (parseTemplate pubBuf).curveId = (parseTemplate pubBuf').curveId) :
    parseTemplate pubBuf = parseTemplate pubBuf' := by
  simp only [parseTemplate] at hcurve ⊢
  rw [hcurve, htype, hname, hattributes]

theorem templatesAgree_of_persistent (s' : Tpm2State) {params' : CreatePrimaryParams}
    {seed : Nat → UInt8} (hseed : hierarchySeed s params.primaryHandle = some seed)
    (hseed' : hierarchySeed s' params'.primaryHandle = some seed)
    (h : (createPrimaryFrom host s params pubBuf).2.persistent =
      (createPrimaryFrom host s' params' pubBuf').2.persistent) :
    TemplatesAgree pubBuf pubBuf' := by
  have htype : get16 pubBuf 0 = get16 pubBuf' 0 := by
    rw [← sensitiveType_createPrimaryFrom host s params hseed pubBuf, h,
      sensitiveType_createPrimaryFrom host s' params' hseed' pubBuf']
  refine ⟨htype, fun hecc => ?_⟩
  have hpublic : primaryOutPublic host (parseTemplate pubBuf) (primaryPrivate host seed) =
      primaryOutPublic host (parseTemplate pubBuf') (primaryPrivate host seed) := by
    rw [← primaryPublic_createPrimaryFrom host s params hseed hecc, h,
      primaryPublic_createPrimaryFrom host s' params' hseed' (htype ▸ hecc)]
  exact parseTemplate_congr htype (congrArg (·.publicArea.nameAlg) hpublic)
    (congrArg (·.publicArea.objectAttributes) hpublic) (congrArg (·.publicArea.curveId) hpublic)

end Template

/-- The command buffer and what lies behind it in memory. -/
def memoryOf (buffer past : Nat → UInt8) (i : Nat) : UInt8 :=
  if i < commandBufferSize then buffer i else past i

/-- What the handler reads of a template at `start` lies inside a command of `size`
bytes, or outside of the command buffer. -/
def TemplateInside (buffer : Nat → UInt8) (size start : Nat) : Prop :=
  start + 2 ≤ size ∧ (get16 buffer start = tpmAlgEcc → start + 10 ≤ size ∧
    (start + 14 + get16 buffer (start + 8) + 2 ≤ size ∨
      commandBufferSize ≤ start + 14 + get16 buffer (start + 8)))

section Memory

variable {buffer buffer' past : Nat → UInt8} {size start : Nat}

theorem memoryOf_inside (past : Nat → UInt8) {i : Nat} (h : i < commandBufferSize) :
    memoryOf buffer past i = buffer i :=
  if_pos h

theorem ne_succ (x : UInt8) : x ≠ x + 1 := by
  intro h
  have hnat := congrArg UInt8.toNat h
  have hlt := x.toNat_lt
  rw [UInt8.toNat_add] at hnat
  change x.toNat = (x.toNat + 1) % 2 ^ 8 at hnat
  omega

/-- A position behind the command whose byte is the same for all buffers with the same
command is no position of the buffer. -/
theorem not_stale (buffer : Nat → UInt8) {p : Nat} (hp : size ≤ p)
    (h : ∀ past buffer', (∀ i < size, buffer' i = buffer i) →
      memoryOf buffer past p = memoryOf buffer' past p) : commandBufferSize ≤ p := by
  refine Nat.le_of_not_lt fun hlt => ?_
  have hchanged := h zeroBytes (Function.update buffer p (buffer p + 1)) fun i hi =>
    Function.update_of_ne (by omega) _ _
  rw [memoryOf_inside _ hlt, memoryOf_inside _ hlt, Function.update_self] at hchanged
  exact ne_succ _ hchanged

theorem curveId_parseTemplate {pubBuf : Nat → UInt8} (h : get16 pubBuf 0 = tpmAlgEcc) :
    (parseTemplate pubBuf).curveId = get16 pubBuf (curveIdOffset pubBuf) :=
  if_pos h

theorem TemplateInside.agree (h : TemplateInside buffer size start)
    (hsize : size < commandBufferSize) (hsame : ∀ i < size, buffer' i = buffer i) :
    TemplatesAgree (advance (memoryOf buffer past) start)
      (advance (memoryOf buffer' past) start) := by
  have hbyte : ∀ i < size, memoryOf buffer past i = memoryOf buffer' past i := by
    intro i hi
    rw [memoryOf_inside _ (by omega), memoryOf_inside _ (by omega), hsame i hi]
  have hread : ∀ i < size, memoryOf buffer past i = buffer i := fun i hi =>
    memoryOf_inside _ (by omega)
  obtain ⟨htype, hecc⟩ := h
  have htypes : get16 (advance (memoryOf buffer past) start) 0 =
      get16 (advance (memoryOf buffer' past) start) 0 :=
    get16_congr fun k hk => hbyte _ (by omega)
  refine ⟨htypes, fun htemplate => ?_⟩
  obtain ⟨hfixed, hcurve⟩ :=
    hecc ((get16_congr fun k hk => (hread _ (by omega)).symm).trans htemplate)
  have hpolicy : get16 (advance (memoryOf buffer past) start) 8 = get16 buffer (start + 8) := by
    rw [get16_advance]
    exact get16_congr fun k hk => hread _ (by omega)
  have hpolicies : get16 (advance (memoryOf buffer past) start) 8 =
      get16 (advance (memoryOf buffer' past) start) 8 :=
    get16_congr fun k hk => hbyte _ (by omega)
  refine parseTemplate_congr htypes (get16_congr fun k hk => hbyte _ (by omega))
    (get32_congr fun k hk => hbyte _ (by omega)) ?_
  rw [curveId_parseTemplate htemplate, curveId_parseTemplate (htypes ▸ htemplate), curveIdOffset,
    curveIdOffset, ← hpolicies, hpolicy]
  refine get16_congr fun k hk => ?_
  obtain hinside | hbehind := hcurve
  · exact hbyte _ (by omega)
  · have hpast : ∀ b, memoryOf b past (start + (10 + get16 buffer (start + 8) + 4 + k)) =
        past (start + (10 + get16 buffer (start + 8) + 4 + k)) := fun b =>
      if_neg (by omega)
    exact (hpast buffer).trans (hpast buffer').symm

/-- The templates agree for all buffers that hold the same command. -/
def TemplateStable (buffer : Nat → UInt8) (size start : Nat) : Prop :=
  ∀ past buffer', (∀ i < size, buffer' i = buffer i) →
    TemplatesAgree (advance (memoryOf buffer past) start) (advance (memoryOf buffer' past) start)

theorem TemplateStable.type (h : TemplateStable buffer size start)
    (hsize : size < commandBufferSize) (hstart : start ≤ size) : start + 2 ≤ size := by
  refine Nat.le_of_not_lt fun hlt => Nat.not_le.mpr hsize (not_stale buffer (Nat.le_refl size) ?_)
  intro past buffer' hsame
  have hbyte := byte_of_get16 (h past buffer' hsame).1 (k := size - start) (by omega)
  rwa [advance_apply, advance_apply, Nat.zero_add, Nat.add_sub_cancel' hstart] at hbyte

theorem get16_memoryOf (past : Nat → UInt8) {i : Nat} (h : i + 2 ≤ commandBufferSize) :
    get16 (memoryOf buffer past) i = get16 buffer i :=
  get16_congr fun _ hk => memoryOf_inside _ (by omega)

theorem TemplateStable.parsed (h : TemplateStable buffer size start)
    (hsize : size < commandBufferSize) (hstart : start + 2 ≤ size)
    (hecc : get16 buffer start = tpmAlgEcc) (past buffer' : Nat → UInt8)
    (hsame : ∀ i < size, buffer' i = buffer i) :
    parseTemplate (advance (memoryOf buffer past) start) =
      parseTemplate (advance (memoryOf buffer' past) start) := by
  refine (h past buffer' hsame).2 ?_
  rw [get16_advance, Nat.add_zero, get16_memoryOf _ (by omega), hecc]

theorem TemplateStable.attributes (h : TemplateStable buffer size start)
    (hsize : size < commandBufferSize) (hstart : start + 2 ≤ size)
    (hecc : get16 buffer start = tpmAlgEcc) : start + 8 ≤ size := by
  refine Nat.le_of_not_lt fun hlt => Nat.not_le.mpr hsize (not_stale buffer (Nat.le_refl size) ?_)
  intro past buffer' hsame
  have hparsed := h.parsed hsize hstart hecc past buffer' hsame
  by_cases hname : size < start + 4
  · have hbyte := byte_of_get16 (congrArg TpmtPublic.nameAlg hparsed) (k := size - (start + 2))
      (by omega)
    rwa [advance_apply, advance_apply, ← Nat.add_assoc, Nat.add_sub_cancel' (by omega)] at hbyte
  · have hbyte := byte_of_get32 (congrArg TpmtPublic.objectAttributes hparsed)
      (k := size - (start + 4)) (by omega)
    rwa [advance_apply, advance_apply, ← Nat.add_assoc, Nat.add_sub_cancel' (by omega)] at hbyte

/-- The position of the curve identifier in memory. -/
def curvePosition (buffer past : Nat → UInt8) (start : Nat) : Nat :=
  start + curveIdOffset (advance (memoryOf buffer past) start)

theorem TemplateStable.curve (h : TemplateStable buffer size start)
    (hsize : size < commandBufferSize) (hstart : start + 2 ≤ size)
    (hecc : get16 buffer start = tpmAlgEcc) (past buffer' : Nat → UInt8)
    (hsame : ∀ i < size, buffer' i = buffer i) :
    get16 (memoryOf buffer past) (curvePosition buffer past start) =
      get16 (memoryOf buffer' past) (curvePosition buffer' past start) := by
  have htype : get16 (advance (memoryOf buffer past) start) 0 = tpmAlgEcc := by
    rw [get16_advance, Nat.add_zero, get16_memoryOf _ (by omega), hecc]
  have hcurve := congrArg TpmtPublic.curveId (h.parsed hsize hstart hecc past buffer' hsame)
  rwa [curveId_parseTemplate htype, curveId_parseTemplate ((h past buffer' hsame).1 ▸ htype)]
    at hcurve

theorem curvePosition_congr {past' : Nat → UInt8}
    (h : ∀ k < 2, memoryOf buffer past (start + 8 + k) = memoryOf buffer' past' (start + 8 + k)) :
    curvePosition buffer past start = curvePosition buffer' past' start := by
  have hpolicy : get16 (memoryOf buffer past) (start + 8) =
      get16 (memoryOf buffer' past') (start + 8) := get16_congr h
  simp only [curvePosition, curveIdOffset, get16_advance, hpolicy]

/-- With a byte of the size of the policy behind the command, the same command can have
its curve identifier somewhere else. -/
theorem exists_curvePosition_ne (buffer : Nat → UInt8) (hsize : size < commandBufferSize)
    (hlow : start + 8 ≤ size) (hhigh : size < start + 10) :
    ∃ buffer', (∀ i < size, buffer' i = buffer i) ∧
      curvePosition buffer' zeroBytes start ≠ curvePosition buffer zeroBytes start := by
  refine ⟨Function.update buffer size (buffer size + 1), fun i hi =>
    Function.update_of_ne (by omega) _ _, fun heq => ?_⟩
  have hpolicy : get16 (memoryOf buffer zeroBytes) (start + 8) =
      get16 (memoryOf (Function.update buffer size (buffer size + 1)) zeroBytes) (start + 8) := by
    simp only [curvePosition, curveIdOffset, get16_advance] at heq
    omega
  have hbyte := byte_of_get16 hpolicy (k := size - (start + 8)) (by omega)
  rw [Nat.add_sub_cancel' hlow, memoryOf_inside _ hsize, memoryOf_inside _ hsize,
    Function.update_self] at hbyte
  exact ne_succ _ hbyte

/-- The size of the policy lies inside the command: otherwise the identifier can be
moved to a position `q`, inside the buffer or behind it, with another byte at `q`. -/
theorem TemplateStable.policy (h : TemplateStable buffer size start)
    (hsize : size < commandBufferSize) (hstart : start + 8 ≤ size)
    (hecc : get16 buffer start = tpmAlgEcc) : start + 10 ≤ size := by
  refine Nat.le_of_not_lt fun hlt => ?_
  obtain ⟨moved, hsame, hne⟩ := exists_curvePosition_ne buffer hsize hstart hlt
  generalize hq : curvePosition moved zeroBytes start = q at hne
  generalize hx : memoryOf buffer zeroBytes (curvePosition buffer zeroBytes start) = x
  have hlow : start + 14 ≤ q := by
    rw [← hq, curvePosition, curveIdOffset]
    omega
  have hpast : ∀ i, i ≠ q →
      memoryOf buffer (Function.update zeroBytes q (x + 1)) i = memoryOf buffer zeroBytes i := by
    intro i hi
    rw [memoryOf, memoryOf, Function.update_of_ne hi]
  have hboth : ∀ i, i ≠ q → memoryOf (Function.update moved q (x + 1))
      (Function.update zeroBytes q (x + 1)) i = memoryOf moved zeroBytes i := by
    intro i hi
    rw [memoryOf, memoryOf, Function.update_of_ne hi, Function.update_of_ne hi]
  have hnew : memoryOf (Function.update moved q (x + 1)) (Function.update zeroBytes q (x + 1)) q =
      x + 1 := by
    rw [memoryOf, Function.update_self, Function.update_self, ite_self]
  have hcurve := h.curve hsize (by omega) hecc (Function.update zeroBytes q (x + 1))
    (Function.update moved q (x + 1)) fun i hi => by
      rw [Function.update_of_ne (by omega), hsame i hi]
  rw [curvePosition_congr fun k hk => hpast _ (by omega),
    curvePosition_congr fun k hk => hboth _ (by omega), hq] at hcurve
  have hbyte := byte_of_get16 hcurve (k := 0) (by decide)
  rw [Nat.add_zero, Nat.add_zero, hpast _ hne.symm, hx, hnew] at hbyte
  exact ne_succ x hbyte

theorem templateStable_iff (hsize : size < commandBufferSize) (hstart : start ≤ size) :
    TemplateStable buffer size start ↔ TemplateInside buffer size start := by
  refine ⟨fun h => ?_, fun h past buffer' hsame => h.agree hsize hsame⟩
  have htype := h.type hsize hstart
  refine ⟨htype, fun hecc => ?_⟩
  have hpolicy := h.policy hsize (h.attributes hsize htype hecc) hecc
  refine ⟨hpolicy, ?_⟩
  by_contra hcurve
  obtain ⟨hinside, hbehind⟩ := not_or.mp hcurve
  have hposition : ∀ past buffer', (∀ i < size, buffer' i = buffer i) →
      curvePosition buffer' past start = start + 14 + get16 buffer (start + 8) := by
    intro past buffer' hsame
    have hread : get16 (memoryOf buffer' past) (start + 8) = get16 buffer (start + 8) :=
      get16_congr fun k hk => (memoryOf_inside _ (by omega)).trans (hsame _ (by omega))
    rw [curvePosition, curveIdOffset, get16_advance, hread]
    omega
  -- The first position behind the command that the identifier takes up.
  have hstale : commandBufferSize ≤ max (start + 14 + get16 buffer (start + 8)) size := by
    refine not_stale buffer (Nat.le_max_right _ _) fun past buffer' hsame => ?_
    have hbyte := byte_of_get16 (h.curve hsize htype hecc past buffer' hsame)
      (k := max (start + 14 + get16 buffer (start + 8)) size -
        (start + 14 + get16 buffer (start + 8))) (by omega)
    rwa [hposition past buffer fun _ _ => rfl, hposition past buffer' hsame,
      Nat.add_sub_cancel' (Nat.le_max_left _ _)] at hbyte
  omega

end Memory

/-- The same response and the same NV store, keys and handle counter. -/
structure SameOutcome (t t' : Tpm2State) : Prop where
  persistent : t.persistent = t'.persistent
  respSize : t.respSize = t'.respSize
  response : slice t.responseBuffer 0 t.respSize = slice t'.responseBuffer 0 t'.respSize

def Surroundings.withPast (env : Surroundings) (past : Nat → UInt8) : Surroundings :=
  { env with pastCommandBuffer := past }

/-- Executing the command has the same outcome for all buffers that hold it, whatever
lies behind the buffer. -/
def IgnoresStale (host : Host) (env : Surroundings) (s : Tpm2State) : Prop :=
  ∀ past buffer, SameCommand s buffer →
    SameOutcome (step host s (.write (env.withPast past) tpm2CmdReg 1))
      (step host (withCommand buffer s) (.write (env.withPast past) tpm2CmdReg 1))

theorem sameOutcome_withCommand (buffer : Nat → UInt8) (t : Tpm2State) :
    SameOutcome t (withCommand buffer t) :=
  ⟨rfl, rfl, rfl⟩

section Executions

variable {host : Host} {env : Surroundings} {s : Tpm2State} {buffer : Nat → UInt8}

theorem sameOutcome_of_reply (hstate : s.state = .receiving)
    (h : executeReply host env (withCommand buffer s) =
      onCommand buffer (executeReply host env s)) :
    SameOutcome (step host s (.write env tpm2CmdReg 1))
      (step host (withCommand buffer s) (.write env tpm2CmdReg 1)) := by
  have hstate' : (withCommand buffer s).state = .receiving := hstate
  rw [step_executes host ⟨rfl, hstate⟩, step_executes host ⟨rfl, hstate'⟩, h, respond_onCommand]
  exact sameOutcome_withCommand buffer _

theorem handleCreatePrimary_congr (t : Tpm2State) {body body' : Nat → UInt8} {size : Nat}
    (hbody : ∀ i < size, body i = body' i)
    (htemplate : ∀ params bytesRead,
      unmarshalCreatePrimary env.createPrimaryParams body size = .ok (params, bytesRead) →
      (hierarchySeed t params.primaryHandle).isSome →
      TemplatesAgree (advance body (bytesRead - params.inPublicSize))
        (advance body' (bytesRead - params.inPublicSize))) :
    handleCreatePrimary host env t body' size = handleCreatePrimary host env t body size := by
  unfold handleCreatePrimary
  rw [← (isReader_createPrimary _).congr hbody]
  cases hread : unmarshalCreatePrimary env.createPrimaryParams body size with
  | error rc => rfl
  | ok result =>
      obtain ⟨params, bytesRead⟩ := result
      dsimp only
      cases hseed : hierarchySeed t params.primaryHandle with
      | none =>
          rw [createPrimaryFrom_no_hierarchy host t params _ hseed,
            createPrimaryFrom_no_hierarchy host t params _ hseed]
      | some seed =>
          exact (createPrimaryFrom_congr host t params
            (htemplate params bytesRead hread (hseed ▸ rfl))).symm

theorem executeReply_createPrimary_withCommand (hsame : SameCommand s buffer)
    (hlow : 10 ≤ get32 s.commandBuffer 2) (hcode : dispatchedCode s = some tpmCcCreatePrimary) :
    executeReply host env (withCommand buffer s) = onCommand buffer
      (handleCreatePrimary host env (accept s) (commandBody env (withCommand buffer s))
        (commandBodySize s)) := by
  rw [executeReply_createPrimary host env ((dispatchedCode_withCommand hsame hlow).trans hcode),
    accept_withCommand hsame hlow, commandBodySize_withCommand hsame hlow,
    handleCreatePrimary_withCommand]

theorem advance_commandBody (env : Surroundings) (past buffer : Nat → UInt8) (s : Tpm2State)
    (k : Nat) :
    advance (commandBody (env.withPast past) (withCommand buffer s)) k =
      advance (memoryOf buffer past) (10 + k) :=
  advance_advance _ _ _

/-- What lies behind the buffer is behind the command. -/
theorem commandBody_withPast (past : Nat → UInt8) (hlow : 10 ≤ get32 s.commandBuffer 2)
    (hsize : get32 s.commandBuffer 2 < commandBufferSize) :
    ∀ i < commandBodySize s, commandBody env s i = commandBody (env.withPast past) s i := by
  intro i hi
  rw [commandBodySize, tpmCmdHeaderSize, sub32_of_le hlow] at hi
  have hinside : ∀ env, commandBody env s i = s.commandBuffer (10 + i) := fun _ =>
    if_pos (show 10 + i < commandBufferSize by omega)
  rw [hinside, hinside]

/-- What becomes of the persistent state depends on the buffer through the template. -/
theorem persistent_createPrimary (past : Nat → UInt8) (hstate : s.state = .receiving)
    (hsame : SameCommand s buffer) (hlow : 10 ≤ get32 s.commandBuffer 2)
    (hsize : get32 s.commandBuffer 2 < commandBufferSize)
    (hcode : dispatchedCode s = some tpmCcCreatePrimary) {params : CreatePrimaryParams}
    {bytesRead : Nat}
    (hread : unmarshalCreatePrimary env.createPrimaryParams (commandBody env s)
      (commandBodySize s) = .ok (params, bytesRead)) :
    (step host (withCommand buffer s) (.write (env.withPast past) tpm2CmdReg 1)).persistent =
      (createPrimaryFrom host (accept s) params (advance (memoryOf buffer past)
        (10 + (bytesRead - params.inPublicSize)))).2.persistent := by
  have hstate' : (withCommand buffer s).state = .receiving := hstate
  have hread' : unmarshalCreatePrimary (env.withPast past).createPrimaryParams
      (commandBody (env.withPast past) (withCommand buffer s)) (commandBodySize s) =
      .ok (params, bytesRead) := by
    rw [← (isReader_createPrimary _).congr (commandBody_withCommand (env.withPast past) hsame hlow),
      ← (isReader_createPrimary _).congr (commandBody_withPast past hlow hsize)]
    exact hread
  rw [step_executes host ⟨rfl, hstate'⟩, persistent_respond,
    executeReply_createPrimary_withCommand hsame hlow hcode, handleCreatePrimary, hread',
    ← advance_commandBody]
  rfl

end Executions

/-- A command is executed by its own bytes alone unless it is a CreatePrimary request
for a known hierarchy whose template the handler reads, in part, behind the command. -/
theorem ignoresStale_iff (host : Host) (env : Surroundings) {s : Tpm2State}
    (hstate : s.state = .receiving) (hlow : 10 ≤ get32 s.commandBuffer 2)
    (hhigh : get32 s.commandBuffer 2 ≤ s.cmdSize) :
    IgnoresStale host env s ↔ commandBufferSize ≤ get32 s.commandBuffer 2 ∨
      ∀ params bytesRead, dispatchedCode s = some tpmCcCreatePrimary →
        unmarshalCreatePrimary env.createPrimaryParams (commandBody env s) (commandBodySize s) =
          .ok (params, bytesRead) →
        (hierarchySeed s params.primaryHandle).isSome →
        TemplateInside s.commandBuffer (get32 s.commandBuffer 2)
          (10 + (bytesRead - params.inPublicSize)) := by
  constructor
  · intro hignores
    refine or_iff_not_imp_left.mpr fun hnot params bytesRead hcode hread hknown => ?_
    have hsize := Nat.lt_of_not_le hnot
    obtain ⟨seed, hseed⟩ := Option.isSome_iff_exists.mp hknown
    have hconsumed := (isReader_createPrimary _).consumed_le hread
    rw [commandBodySize, tpmCmdHeaderSize, sub32_of_le hlow] at hconsumed
    refine (templateStable_iff hsize (by omega)).mp fun past buffer hsame => ?_
    have hpersistent := (hignores past buffer hsame).persistent
    have hown : SameCommand s s.commandBuffer := fun _ _ => rfl
    rw [persistent_createPrimary past hstate hsame hlow hsize hcode hread] at hpersistent
    exact templatesAgree_of_persistent host (accept s) params (accept s) hseed hseed
      ((persistent_createPrimary past hstate hown hlow hsize hcode hread).symm.trans hpersistent)
  · intro hinside past buffer hsame
    refine sameOutcome_of_reply hstate ?_
    by_cases hcode : dispatchedCode s = some tpmCcCreatePrimary
    swap
    · exact executeReply_withCommand host _ hsame hlow hhigh hcode
    rw [executeReply_createPrimary_withCommand hsame hlow hcode,
      executeReply_createPrimary host _ hcode]
    refine congrArg _ (handleCreatePrimary_congr (accept s)
      (commandBody_withCommand _ hsame hlow) fun params bytesRead hread hknown => ?_)
    change TemplatesAgree (advance (commandBody (env.withPast past)
      (withCommand s.commandBuffer s)) _) _
    rw [advance_commandBody, advance_commandBody]
    by_cases hsize : commandBufferSize ≤ get32 s.commandBuffer 2
    · have hmemory : memoryOf buffer past = memoryOf s.commandBuffer past := by
        funext i
        unfold memoryOf
        split
        · exact hsame i (by omega)
        · rfl
      rw [hmemory]
      exact ⟨rfl, fun _ => rfl⟩
    · have hsize' := Nat.lt_of_not_le hsize
      rw [← (isReader_createPrimary _).congr (commandBody_withPast past hlow hsize')] at hread
      exact (hinside.resolve_left hsize params bytesRead hcode hread hknown).agree hsize' hsame

theorem ignoresStale_iff_firmware :
    let s := pendingCommand [] cmdCreatePrimary
    s.state = .receiving ∧ dispatchedCode s = some tpmCcCreatePrimary ∧
      IgnoresStale referenceHost zeroSurroundings s := by
  intro s
  have hstate : s.state = .receiving := by decide +kernel
  refine ⟨hstate, by decide +kernel,
    (ignoresStale_iff referenceHost zeroSurroundings hstate (by decide +kernel)
      (by decide +kernel)).mpr (.inr fun params bytesRead _ hread _ => ?_)⟩
  have hstart : (unmarshalCreatePrimary zeroSurroundings.createPrimaryParams
      (commandBody zeroSurroundings s) (commandBodySize s)).toOption.map
        (fun result => result.2 - result.1.inPublicSize) = some 18 := by decide +kernel
  rw [hread] at hstart
  have hstart' : bytesRead - params.inPublicSize = 18 := Option.some.inj hstart
  rw [hstart']
  exact ⟨by decide +kernel, fun _ => ⟨by decide +kernel, .inl (by decide +kernel)⟩⟩

/-- A CreatePrimary command without sensitive data and with an empty template. -/
def cmdCreatePrimaryEmpty : List UInt8 :=
  [0x80, 0x01, 0x00, 0x00, 0x00, 0x12, 0x00, 0x00, 0x01, 0x31, 0x40, 0x00, 0x00, 0x01,
   0x00, 0x00, 0x00, 0x00]

/-- With the identifier of ECC in the padding the command creates a key, with zeros it
fails. -/
theorem ignoresStale_fails :
    let s := pendingCommand [] cmdCreatePrimaryEmpty
    let buffer := store s.commandBuffer 18 [0x00, 0x23]
    s.state = .receiving ∧ get32 s.commandBuffer 2 = 18 ∧ s.cmdSize = 20 ∧
      SameCommand s buffer ∧
      (responseHeader (step referenceHost s (.write zeroSurroundings tpm2CmdReg 1))).code =
        tpmRcAsymmetric ∧
      (responseHeader (step referenceHost (withCommand buffer s)
        (.write zeroSurroundings tpm2CmdReg 1))).code = tpmRcSuccess ∧
      ¬ IgnoresStale referenceHost zeroSurroundings s := by
  intro s buffer
  have hsize : get32 s.commandBuffer 2 = 18 := by decide +kernel
  have hsame : SameCommand s buffer := fun i hi => store_outside _ _ _ _ (.inl (by omega))
  refine ⟨by decide +kernel, hsize, by decide +kernel, hsame, by decide +kernel,
    by decide +kernel, fun hignores => ?_⟩
  have htype := congrArg (·.primarySensitive.sensitiveType)
    (hignores zeroBytes buffer hsame).persistent
  revert htype
  decide +kernel

end TpmEmulator

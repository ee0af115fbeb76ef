import TpmEmulator.NvOperations
import TpmEmulator.Device

/-!
What one command can do. For each handler a lemma lists its exits: the reply with
the state it is given in. `Persistent` is the part of the device state that
commands alone change: the NV store, the hierarchies' secrets, the primary object
and the handle counter. The register interface and the response builders leave it
alone, so for any access it changes only as the executed command's reply says.
-/
namespace TpmEmulator

open CellMemory BigEndian

/-- The part of the state behind the register interface. -/
structure Persistent where
  nvBank : Nat → UInt8
  nvBankSize : Nat
  nvAllocOffset : Nat
  nvMap : Finmap (fun _ : Nat => NvEntry)
  nvCount : Nat
  nvDirty : Bool
  tpmMode : TpmMode
  pps : Nat → UInt8
  sps : Nat → UInt8
  eps : Nat → UInt8
  phProof : Nat → UInt8
  shProof : Nat → UInt8
  ehProof : Nat → UInt8
  primarySensitive : Tpm2bSensitive
  primaryPublic : Tpm2bPublic
  primaryName : Tpm2bName
  nextTransientHandle : Nat
  initialized : Bool

def Tpm2State.persistent (s : Tpm2State) : Persistent where
  nvBank := s.nvBank
  nvBankSize := s.nvBankSize
  nvAllocOffset := s.nvAllocOffset
  nvMap := s.nvMap
  nvCount := s.nvCount
  nvDirty := s.nvDirty
  tpmMode := s.tpmMode
  pps := s.pps
  sps := s.sps
  eps := s.eps
  phProof := s.phProof
  shProof := s.shProof
  ehProof := s.ehProof
  primarySensitive := s.primarySensitive
  primaryPublic := s.primaryPublic
  primaryName := s.primaryName
  nextTransientHandle := s.nextTransientHandle
  initialized := s.initialized

/-- The part of the state that a handler does not touch before it responds. -/
structure Interface where
  commandBuffer : Nat → UInt8
  cmdSize : Nat
  touched : List (Buffer × Nat)

def Tpm2State.interface (s : Tpm2State) : Interface := ⟨s.commandBuffer, s.cmdSize, s.touched⟩

theorem persistent_respond (r : Reply) : (respond r).persistent = r.2.persistent := by
  obtain ⟨report, s⟩ := r
  cases report <;> rfl

/-- A reply that a response builder can turn into a response: an error code, or a
body that fits behind the header. -/
structure Reply.WellFormed (r : Reply) : Prop where
  error_code : ∀ {rc}, r.1 = .error rc → IsErrorCode rc
  body_le : ∀ {bodySize}, r.1 = .ok bodySize →
    bodySize ≤ responseBufferSize - tpmRspHeaderSize

theorem wellFormed_error {rc : Nat} (s : Tpm2State) (h : IsErrorCode rc) :
    Reply.WellFormed (.error rc, s) where
  error_code heq := by
    cases heq
    exact h
  body_le heq := by cases heq

theorem wellFormed_empty (s : Tpm2State) : Reply.WellFormed (.ok 0, s) where
  error_code heq := by cases heq
  body_le heq := by
    cases heq
    exact Nat.zero_le _

theorem wellFormed_marshalBody {marshal : (Nat → UInt8) → Nat → Nat → Marshalled}
    (h : IsWriter marshal) (s : Tpm2State) : Reply.WellFormed (marshalBody marshal s) where
  error_code heq := h.error_code heq
  body_le heq := h.written_le heq

theorem handleGetRandom_cases (env : Surroundings) (s : Tpm2State) (cmdBody : Nat → UInt8)
    (bodySize : Nat) :
    (∃ rc, IsErrorCode rc ∧ handleGetRandom env s cmdBody bodySize = (.error rc, s)) ∨
    (∃ bytesRequested, bytesRequested ≤ 32 ∧ handleGetRandom env s cmdBody bodySize =
      marshalBody (marshalTpm2b ⟨bytesRequested, (tpm2GenerateRandom env s).randomData⟩)
        (tpm2GenerateRandom env s)) := by
  unfold handleGetRandom
  split
  · rename_i rc hread
    exact .inl ⟨rc, isReader_uint16.error_code hread, rfl⟩
  · rename_i bytesRequested _ _
    by_cases hmax : 32 < bytesRequested
    · exact .inl ⟨tpmRcSize, by decide, if_pos hmax⟩
    · exact .inr ⟨bytesRequested, by omega, if_neg hmax⟩

/-- The template as the back end receives it. -/
def templateOf (host : Host) (pubBuf : Nat → UInt8) : Tpm2bPublic :=
  ⟨host.sizeofTpmtPublic, parseTemplate pubBuf⟩

/-- The state in which a key has been created from `seed`. -/
def primaryCreated (host : Host) (s : Tpm2State) (params : CreatePrimaryParams)
    (pubBuf seed : Nat → UInt8) : Tpm2State :=
  withPrimary host (advanceHandle s) (inSensitiveOf params) (templateOf host pubBuf) .zero seed

/-- The state after a template of another type than ECC was rejected. -/
def primaryWiped (host : Host) (s : Tpm2State) (params : CreatePrimaryParams)
    (pubBuf seed : Nat → UInt8) : Tpm2State :=
  { advanceHandle s with
    primarySensitive := initialSensitive (inSensitiveOf params) (templateOf host pubBuf) seed }

/-- The response to a successful creation. -/
def primaryResponse (host : Host) (s : Tpm2State) (params : CreatePrimaryParams)
    (pubBuf seed : Nat → UInt8) : CreatePrimaryResponse :=
  let outPublic := primaryOutPublic host (parseTemplate pubBuf) (primaryPrivate host seed)
  createPrimaryResponse (0x80000000 ||| s.nextTransientHandle) params.primaryHandle outPublic
    (primaryNameOf host outPublic .zero)

theorem length_outPublicBytes (p : TpmtPublic) :
    (outPublicBytes p).length ≤ 22 + p.x.size + p.y.size := by
  unfold outPublicBytes
  by_cases htype : p.type = tpmAlgEcc
  · rw [if_pos htype]
    simp only [List.length_append, List.length_cons, List.length_nil, length_bytes16,
      length_bytes32, length_slice]
    omega
  · rw [if_neg htype]
    simp only [List.length_append, List.length_cons, List.length_nil, length_bytes16,
      length_bytes32]
    omega

section CreatePrimary

variable (host : Host) (s : Tpm2State) (params : CreatePrimaryParams) (pubBuf : Nat → UInt8)

theorem hierarchySeed_advanceHandle (primaryHandle : Nat) :
    hierarchySeed (advanceHandle s) primaryHandle = hierarchySeed s primaryHandle := rfl

theorem createPrimaryFrom_no_hierarchy (h : hierarchySeed s params.primaryHandle = none) :
    createPrimaryFrom host s params pubBuf = (.error tpmRcHierarchy, advanceHandle s) := by
  rw [← hierarchySeed_advanceHandle] at h
  simp only [createPrimaryFrom, tpm2CreatePrimary_no_hierarchy host _ _ _ _ _ h]
  rfl

theorem createPrimaryFrom_not_ecc {seed : Nat → UInt8}
    (h : hierarchySeed s params.primaryHandle = some seed) (htype : get16 pubBuf 0 ≠ tpmAlgEcc) :
    createPrimaryFrom host s params pubBuf =
      (.error tpmRcAsymmetric, primaryWiped host s params pubBuf seed) := by
  rw [← hierarchySeed_advanceHandle] at h
  have htype' : (templateOf host pubBuf).publicArea.type ≠ tpmAlgEcc := htype
  have heq := tpm2CreatePrimary_not_ecc host (advanceHandle s) (inSensitiveOf params)
    (templateOf host pubBuf) .zero .zero h htype'
  simp only [templateOf] at heq
  simp only [createPrimaryFrom, heq]
  rfl

theorem createPrimaryFrom_ecc {seed : Nat → UInt8}
    (h : hierarchySeed s params.primaryHandle = some seed) (htype : get16 pubBuf 0 = tpmAlgEcc) :
    createPrimaryFrom host s params pubBuf =
      marshalBody (marshalCreatePrimaryResponse (primaryResponse host s params pubBuf seed))
        (primaryCreated host s params pubBuf seed) := by
  rw [← hierarchySeed_advanceHandle] at h
  have htype' : (templateOf host pubBuf).publicArea.type = tpmAlgEcc := htype
  have heq := tpm2CreatePrimary_ecc host (advanceHandle s) (inSensitiveOf params)
    (templateOf host pubBuf) .zero .zero h htype'
  simp only [templateOf] at heq
  simp only [createPrimaryFrom, heq]
  rfl

/-- The response of a created key fits behind the header. -/
theorem length_primaryResponse (seed : Nat → UInt8) :
    (createPrimaryParts (primaryResponse host s params pubBuf seed)).flatten.length ≤
      responseBufferSize - tpmRspHeaderSize := by
  have hpublic := length_outPublicBytes (primaryOutPublic host (parseTemplate pubBuf)
    (primaryPrivate host seed)).publicArea
  have hx : (primaryOutPublic host (parseTemplate pubBuf)
    (primaryPrivate host seed)).publicArea.x.size = 32 := rfl
  have hy : (primaryOutPublic host (parseTemplate pubBuf)
    (primaryPrivate host seed)).publicArea.y.size = 32 := rfl
  simp only [createPrimaryParts, primaryResponse, createPrimaryResponse, primaryNameOf,
    List.flatten_cons, List.flatten_nil, List.length_append, List.length_nil, length_bytes32,
    length_bytes16, length_tpm2bBytes, Tpm2b.zero, responseBufferSize, tpmRspHeaderSize]
  omega

/-- The key is created and the response written behind the header. -/
theorem createPrimaryFrom_created {seed : Nat → UInt8}
    (h : hierarchySeed s params.primaryHandle = some seed) (htype : get16 pubBuf 0 = tpmAlgEcc) :
    createPrimaryFrom host s params pubBuf =
      (.ok (createPrimaryParts (primaryResponse host s params pubBuf seed)).flatten.length,
        { primaryCreated host s params pubBuf seed with
          responseBuffer := store s.responseBuffer tpmRspHeaderSize
            (createPrimaryParts (primaryResponse host s params pubBuf seed)).flatten }) := by
  rw [createPrimaryFrom_ecc host s params pubBuf h htype]
  unfold marshalBody
  rw [encodes_createPrimaryResponse _ _ _ _ (length_primaryResponse host s params pubBuf seed)]
  rfl

/-- What a creation can change, whatever its outcome. -/
theorem createPrimaryFrom_frame : ∃ sensitive publicArea name handle buffer,
    (createPrimaryFrom host s params pubBuf).2 =
      { s with
        primarySensitive := sensitive, primaryPublic := publicArea, primaryName := name,
        nextTransientHandle := handle, responseBuffer := buffer } := by
  cases h : hierarchySeed s params.primaryHandle with
  | none =>
      rw [createPrimaryFrom_no_hierarchy host s params pubBuf h]
      exact ⟨_, _, _, _, _, rfl⟩
  | some seed =>
      by_cases htype : get16 pubBuf 0 = tpmAlgEcc
      · rw [createPrimaryFrom_created host s params pubBuf h htype]
        exact ⟨_, _, _, _, _, rfl⟩
      · rw [createPrimaryFrom_not_ecc host s params pubBuf h htype]
        exact ⟨_, _, _, _, _, rfl⟩

theorem createPrimaryFrom_wellFormed :
    Reply.WellFormed (createPrimaryFrom host s params pubBuf) := by
  cases h : hierarchySeed s params.primaryHandle with
  | none =>
      rw [createPrimaryFrom_no_hierarchy host s params pubBuf h]
      exact wellFormed_error _ (by decide)
  | some seed =>
      by_cases htype : get16 pubBuf 0 = tpmAlgEcc
      · rw [createPrimaryFrom_ecc host s params pubBuf h htype]
        exact wellFormed_marshalBody (isWriter_createPrimaryResponse _) _
      · rw [createPrimaryFrom_not_ecc host s params pubBuf h htype]
        exact wellFormed_error _ (by decide)

end CreatePrimary

theorem handleCreatePrimary_cases (host : Host) (env : Surroundings) (s : Tpm2State)
    (cmdBody : Nat → UInt8) (bodySize : Nat) :
    (∃ rc, IsErrorCode rc ∧
      unmarshalCreatePrimary env.createPrimaryParams cmdBody bodySize = .error rc ∧
      handleCreatePrimary host env s cmdBody bodySize = (.error rc, s)) ∨
    (∃ params bytesRead,
      unmarshalCreatePrimary env.createPrimaryParams cmdBody bodySize = .ok (params, bytesRead) ∧
      handleCreatePrimary host env s cmdBody bodySize =
        createPrimaryFrom host s params (advance cmdBody (bytesRead - params.inPublicSize))) := by
  unfold handleCreatePrimary
  cases hread : unmarshalCreatePrimary env.createPrimaryParams cmdBody bodySize with
  | error rc => exact .inl ⟨rc, (isReader_createPrimary _).error_code hread, rfl, rfl⟩
  | ok result =>
      obtain ⟨params, bytesRead⟩ := result
      exact .inr ⟨params, bytesRead, rfl, rfl⟩

theorem handleNvDefineSpace_defined {env : Surroundings} {s : Tpm2State} {cmdBody : Nat → UInt8}
    {bodySize : Nat} {params : NvDefineSpaceParams} {bytesRead : Nat} {provHandle : Provision}
    (hread : unmarshalNvDefineSpace env.nvDefineSpaceParams cmdBody bodySize =
      .ok (params, bytesRead))
    (hprov : provisionOf params.authHandle = some provHandle)
    (hchecks : nvDefineSpaceChecks s provHandle (nvPublicOf params) = tpmRcSuccess)
    (hroom : s.nvAllocOffset + (16 + params.dataSize) ≤ s.nvBankSize) :
    handleNvDefineSpace env s cmdBody bodySize = (.ok 0, nvDefined s (nvPublicOf params)) := by
  simp only [handleNvDefineSpace, hread, hprov, tpm2NvDefineSpace_success _ hchecks hroom, ne_eq,
    not_true_eq_false, if_false]

theorem handleNvDefineSpace_cases (env : Surroundings) (s : Tpm2State) (cmdBody : Nat → UInt8)
    (bodySize : Nat) :
    (∃ rc, IsErrorCode rc ∧ handleNvDefineSpace env s cmdBody bodySize = (.error rc, s)) ∨
    (∃ params bytesRead provHandle,
      unmarshalNvDefineSpace env.nvDefineSpaceParams cmdBody bodySize = .ok (params, bytesRead) ∧
      provisionOf params.authHandle = some provHandle ∧
      nvDefineSpaceChecks s provHandle (nvPublicOf params) = tpmRcSuccess ∧
      s.nvAllocOffset + (16 + params.dataSize) ≤ s.nvBankSize) := by
  unfold handleNvDefineSpace
  cases hread : unmarshalNvDefineSpace env.nvDefineSpaceParams cmdBody bodySize with
  | error rc => exact .inl ⟨rc, (isReader_nvDefineSpace _).error_code hread, rfl⟩
  | ok result =>
      obtain ⟨params, bytesRead⟩ := result
      cases hprov : provisionOf params.authHandle with
      | none =>
          simp only [hprov]
          exact .inl ⟨_, by decide, rfl⟩
      | some provHandle =>
          simp only [hprov]
          obtain ⟨rc, hrc, heq⟩ | ⟨hchecks, hroom⟩ :=
            tpm2NvDefineSpace_cases s provHandle
              ⟨params.authSize, (authCopy params).contents⟩
              (nvPublicOf params)
          · rw [heq]
            exact .inl ⟨rc, hrc, if_pos hrc.1⟩
          · exact .inr ⟨params, bytesRead, provHandle, rfl, hprov, hchecks, hroom⟩

/-- The state after a successful NV_Write command. -/
def nvWritten (host : Host) (s : Tpm2State) (nvIndex : Nat) (e : NvEntry) (data : Tpm2b)
    (offset : Nat) : Tpm2State :=
  { nvStored host s nvIndex e data offset with nvDirty := true }

theorem markNvWritten_nvStored (host : Host) (s : Tpm2State) (nvIndex : Nat) (e : NvEntry)
    (data : Tpm2b) (offset : Nat) :
    markNvWritten (nvStored host s nvIndex e data offset) nvIndex =
      nvWritten host s nvIndex e data offset := by
  have hlookup : (nvStored host s nvIndex e data offset).nvMap.lookup nvIndex =
      some e.markWritten := Finmap.lookup_insert _
  simp only [markNvWritten, hlookup]
  rw [show (nvStored host s nvIndex e data offset).nvMap =
    s.nvMap.insert nvIndex e.markWritten from rfl, Finmap.insert_insert]
  rfl

section NvWrite

variable (host : Host) (env : Surroundings) {s : Tpm2State} (cmdBody : Nat → UInt8)
  (bodySize : Nat)

theorem handleNvWrite_stored {params : NvWriteParams} {bytesRead : Nat} {e : NvEntry}
    {provHandle : Provision}
    (hread : unmarshalNvWrite env.nvWriteParams env.bytesRead cmdBody bodySize =
      .ok (params, bytesRead))
    (hlookup : s.nvMap.lookup params.nvIndex = some e)
    (hrange : params.offset + params.data.size ≤ e.pub.dataSize)
    (hprov : provisionOf params.authHandle = some provHandle)
    (hwritable : NvWritable s e params.data params.offset) :
    handleNvWrite host env s cmdBody bodySize =
      (.ok 0, nvWritten host s params.nvIndex e params.data params.offset) := by
  have hstored := tpm2NvWrite_stored host provHandle hlookup hwritable
  simp only [handleNvWrite, hread, hlookup, hprov, hstored, if_neg (Nat.not_lt.mpr hrange),
    ne_eq, not_true_eq_false, if_false, markNvWritten_nvStored]

/-- The entry's two sizes agree in every reachable state. Without that the write
could also report success without writing. -/
theorem handleNvWrite_cases
    (hsizes : ∀ i e, s.nvMap.lookup i = some e → e.dataLen = e.pub.dataSize) :
    (∃ rc, IsErrorCode rc ∧ handleNvWrite host env s cmdBody bodySize = (.error rc, s)) ∨
    (∃ params bytesRead e provHandle,
      unmarshalNvWrite env.nvWriteParams env.bytesRead cmdBody bodySize =
        .ok (params, bytesRead) ∧
      s.nvMap.lookup params.nvIndex = some e ∧
      params.offset + params.data.size ≤ e.pub.dataSize ∧
      provisionOf params.authHandle = some provHandle ∧
      NvWritable s e params.data params.offset) := by
  unfold handleNvWrite
  cases hread : unmarshalNvWrite env.nvWriteParams env.bytesRead cmdBody bodySize with
  | error rc => exact .inl ⟨rc, unmarshalNvWrite_error hread, rfl⟩
  | ok result =>
      obtain ⟨params, bytesRead⟩ := result
      cases hlookup : s.nvMap.lookup params.nvIndex with
      | none =>
          simp only [hlookup]
          exact .inl ⟨_, by decide, rfl⟩
      | some e =>
          simp only [hlookup]
          by_cases hrange : e.pub.dataSize < params.offset + params.data.size
          · exact .inl ⟨_, by decide, if_pos hrange⟩
          rw [if_neg hrange]
          cases hprov : provisionOf params.authHandle with
          | none => exact .inl ⟨_, by decide, rfl⟩
          | some provHandle =>
              have hlen := hsizes _ _ hlookup
              obtain ⟨rc, hrc, heq⟩ | ⟨e', hlookup', hbeyond⟩ | ⟨e', hlookup', hwritable⟩ :=
                tpm2NvWrite_cases host s provHandle params.nvIndex params.data params.offset
              · simp only [heq]
                exact .inl ⟨rc, hrc, if_pos hrc.1⟩
              · cases hlookup.symm.trans hlookup'
                have hbig := hbeyond.beyond
                omega
              · cases hlookup.symm.trans hlookup'
                exact .inr ⟨params, bytesRead, e, provHandle, rfl, hlookup,
                  Nat.le_of_not_lt hrange, hprov, hwritable⟩

end NvWrite

theorem handleNvWrite_wellFormed (host : Host) (env : Surroundings) (s : Tpm2State)
    (cmdBody : Nat → UInt8) (bodySize : Nat) :
    Reply.WellFormed (handleNvWrite host env s cmdBody bodySize) := by
  unfold handleNvWrite
  cases hread : unmarshalNvWrite env.nvWriteParams env.bytesRead cmdBody bodySize with
  | error rc => exact wellFormed_error _ (unmarshalNvWrite_error hread)
  | ok result =>
      obtain ⟨params, bytesRead⟩ := result
      dsimp only
      cases s.nvMap.lookup params.nvIndex with
      | none => exact wellFormed_error _ (by decide)
      | some e =>
          dsimp only
          split
          · exact wellFormed_error _ (by decide)
          cases provisionOf params.authHandle with
          | none => exact wellFormed_error _ (by decide)
          | some provHandle =>
              dsimp only
              obtain ⟨rc, hrc, heq⟩ | ⟨e', hlookup, hbeyond⟩ | ⟨e', hlookup, hwritable⟩ :=
                tpm2NvWrite_cases host s provHandle params.nvIndex params.data params.offset
              · rw [heq, if_pos hrc.1]
                exact wellFormed_error _ hrc
              · rw [tpm2NvWrite_beyond host provHandle params.data hlookup hbeyond]
                exact wellFormed_empty _
              · rw [tpm2NvWrite_stored host provHandle hlookup hwritable]
                exact wellFormed_empty _

section NvRead

variable (host : Host) (env : Surroundings) (s : Tpm2State) (cmdBody : Nat → UInt8)
  (bodySize : Nat)

/-- The bytes that the handler gets once its checks have passed. -/
theorem nvReadOutput_decrypted {params : NvReadParams} {bytesRead : Nat} {e : NvEntry}
    (hread : unmarshalNvRead env.nvReadParams env.bytesRead cmdBody bodySize =
      .ok (params, bytesRead))
    (hlookup : s.nvMap.lookup params.nvIndex = some e) (hwritten : e.written = true)
    (hrange : params.offset + params.sizeToRead ≤ e.pub.dataSize)
    (hunlocked : e.readLocked = false) (hfits : params.offset + params.sizeToRead ≤ e.dataLen)
    (hpos : 0 < params.sizeToRead) (hkey : IsKeyLength s.primarySensitive.ecc.size) :
    nvReadOutput host env s cmdBody bodySize =
      .ok (params, nvPlaintext host s e params.sizeToRead params.offset) := by
  have hout := nvReadDecryptFromBank_eq_ok host hfits hpos hkey
  simp only [nvReadOutput, hread, hlookup, hwritten, hunlocked, hout, Bool.not_true,
    Bool.false_eq_true, if_false, if_neg (Nat.not_lt.mpr hrange)]

theorem nvReadOutput_cases :
    (∃ rc, IsErrorCode rc ∧ nvReadOutput host env s cmdBody bodySize = .error rc) ∨
    (∃ params bytesRead e,
      unmarshalNvRead env.nvReadParams env.bytesRead cmdBody bodySize = .ok (params, bytesRead) ∧
      s.nvMap.lookup params.nvIndex = some e ∧ e.written = true ∧
      params.offset + params.sizeToRead ≤ e.pub.dataSize ∧ e.readLocked = false ∧
      params.offset + params.sizeToRead ≤ e.dataLen ∧ 0 < params.sizeToRead ∧
      IsKeyLength s.primarySensitive.ecc.size ∧
      nvReadOutput host env s cmdBody bodySize =
        .ok (params, nvPlaintext host s e params.sizeToRead params.offset)) := by
  unfold nvReadOutput
  cases hread : unmarshalNvRead env.nvReadParams env.bytesRead cmdBody bodySize with
  | error rc => exact .inl ⟨rc, unmarshalNvRead_error hread, rfl⟩
  | ok result =>
      obtain ⟨params, bytesRead⟩ := result
      cases hlookup : s.nvMap.lookup params.nvIndex with
      | none =>
          simp only [hlookup]
          exact .inl ⟨_, by decide, rfl⟩
      | some e =>
          simp only [hlookup]
          by_cases hwritten : e.written
          swap
          · exact .inl ⟨_, by decide, if_pos (by simp [hwritten])⟩
          rw [if_neg (by simp [hwritten])]
          by_cases hrange : e.pub.dataSize < params.offset + params.sizeToRead
          · exact .inl ⟨_, by decide, if_pos hrange⟩
          rw [if_neg hrange]
          by_cases hlocked : e.readLocked
          · exact .inl ⟨_, by decide, if_pos hlocked⟩
          rw [if_neg hlocked]
          cases hout : nvReadDecryptFromBank host s e params.sizeToRead params.offset with
          | error rc => exact .inl ⟨rc, nvReadDecryptFromBank_error hout, rfl⟩
          | ok out =>
              obtain ⟨hfits, hpos, hkey, rfl⟩ := nvReadDecryptFromBank_ok hout
              exact .inr ⟨params, bytesRead, e, rfl, hlookup, hwritten,
                Nat.le_of_not_lt hrange, Bool.eq_false_iff.mpr hlocked, hfits, hpos, hkey, rfl⟩

/-- The reply after the handler's checks have passed and the data is decrypted. -/
theorem handleNvRead_decrypted {params : NvReadParams} {bytesRead : Nat} {e : NvEntry}
    (hread : unmarshalNvRead env.nvReadParams env.bytesRead cmdBody bodySize =
      .ok (params, bytesRead))
    (hlookup : s.nvMap.lookup params.nvIndex = some e) (hwritten : e.written = true)
    (hrange : params.offset + params.sizeToRead ≤ e.pub.dataSize)
    (hunlocked : e.readLocked = false) (hfits : params.offset + params.sizeToRead ≤ e.dataLen)
    (hpos : 0 < params.sizeToRead) (hkey : IsKeyLength s.primarySensitive.ecc.size) :
    handleNvRead host env s cmdBody bodySize =
      marshalBody (marshalNvReadResponse ⟨params.sizeToRead,
        store zeroBytes 0 (nvPlaintext host s e params.sizeToRead params.offset)⟩) s := by
  rw [handleNvRead, nvReadOutput_decrypted host env s cmdBody bodySize hread hlookup hwritten
    hrange hunlocked hfits hpos hkey]
  rfl

theorem handleNvRead_cases :
    (∃ rc, IsErrorCode rc ∧ handleNvRead host env s cmdBody bodySize = (.error rc, s)) ∨
    (∃ params bytesRead e,
      unmarshalNvRead env.nvReadParams env.bytesRead cmdBody bodySize = .ok (params, bytesRead) ∧
      s.nvMap.lookup params.nvIndex = some e ∧ e.written = true ∧
      params.offset + params.sizeToRead ≤ e.pub.dataSize ∧ e.readLocked = false ∧
      params.offset + params.sizeToRead ≤ e.dataLen ∧ 0 < params.sizeToRead ∧
      IsKeyLength s.primarySensitive.ecc.size ∧
      handleNvRead host env s cmdBody bodySize =
        marshalBody (marshalNvReadResponse ⟨params.sizeToRead,
          store zeroBytes 0 (nvPlaintext host s e params.sizeToRead params.offset)⟩) s) := by
  obtain ⟨rc, hrc, heq⟩ | ⟨params, bytesRead, e, hread, hlookup, hwritten, hrange, hunlocked,
    hfits, hpos, hkey, heq⟩ := nvReadOutput_cases host env s cmdBody bodySize
  · refine .inl ⟨rc, hrc, ?_⟩
    rw [handleNvRead, heq]
  · exact .inr ⟨params, bytesRead, e, hread, hlookup, hwritten, hrange, hunlocked, hfits, hpos,
      hkey, handleNvRead_decrypted host env s cmdBody bodySize hread hlookup hwritten hrange
        hunlocked hfits hpos hkey⟩

end NvRead

end TpmEmulator

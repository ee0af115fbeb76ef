import TpmEmulator.Execution

/-!
What one access does to the persistent state, as one case list. `Defines`, `Writes`,
`Reads` and `Requests` say when a pending command passes every check of its handler
and what is then answered. An access leaves the persistent state alone, or it
executes a command with one of the five effects of `Effect`. The case list needs one
fact about the state, that an entry's buffer is as long as its public area says.
-/
namespace TpmEmulator

open CellMemory BigEndian

/-- The NV store is the same in both states. -/
structure SameNv (s t : Tpm2State) : Prop where
  bank : t.nvBank = s.nvBank
  map : t.nvMap = s.nvMap
  bankSize : t.nvBankSize = s.nvBankSize
  cursor : t.nvAllocOffset = s.nvAllocOffset
  count : t.nvCount = s.nvCount
  dirty : t.nvDirty = s.nvDirty

theorem SameNv.of_persistent {s t : Tpm2State} (h : t.persistent = s.persistent) :
    SameNv s t where
  bank := congrArg Persistent.nvBank h
  map := congrArg Persistent.nvMap h
  bankSize := congrArg Persistent.nvBankSize h
  cursor := congrArg Persistent.nvAllocOffset h
  count := congrArg Persistent.nvCount h
  dirty := congrArg Persistent.nvDirty h

theorem SameNv.trans {s t u : Tpm2State} (h : SameNv s t) (h' : SameNv t u) : SameNv s u :=
  ⟨h'.bank.trans h.bank, h'.map.trans h.map, h'.bankSize.trans h.bankSize,
    h'.cursor.trans h.cursor, h'.count.trans h.count, h'.dirty.trans h.dirty⟩

theorem SameNv.lookup {s t : Tpm2State} (h : SameNv s t) (i : Nat) :
    t.nvMap.lookup i = s.nvMap.lookup i := by
  rw [h.map]

/-- The primary object and the handle counter are the same in both states. -/
structure SamePrimary (s t : Tpm2State) : Prop where
  sensitive : t.primarySensitive = s.primarySensitive
  publicArea : t.primaryPublic = s.primaryPublic
  name : t.primaryName = s.primaryName
  handle : t.nextTransientHandle = s.nextTransientHandle

theorem SamePrimary.of_persistent {s t : Tpm2State} (h : t.persistent = s.persistent) :
    SamePrimary s t where
  sensitive := congrArg Persistent.primarySensitive h
  publicArea := congrArg Persistent.primaryPublic h
  name := congrArg Persistent.primaryName h
  handle := congrArg Persistent.nextTransientHandle h

theorem SamePrimary.trans {s t u : Tpm2State} (h : SamePrimary s t) (h' : SamePrimary t u) :
    SamePrimary s u :=
  ⟨h'.sensitive.trans h.sensitive, h'.publicArea.trans h.publicArea, h'.name.trans h.name,
    h'.handle.trans h.handle⟩

/-- The pending command is an NV_DefineSpace that passes every check. -/
structure Defines (env : Surroundings) (s : Tpm2State) (params : NvDefineSpaceParams) : Prop where
  code : dispatchedCode s = some tpmCcNvDefineSpace
  unmarshal : ∃ bytesRead, unmarshalNvDefineSpace env.nvDefineSpaceParams (commandBody env s)
    (commandBodySize s) = .ok (params, bytesRead)
  checks : ∃ provHandle, provisionOf params.authHandle = some provHandle ∧
    nvDefineSpaceChecks s provHandle (nvPublicOf params) = tpmRcSuccess
  room : s.nvAllocOffset + (16 + params.dataSize) ≤ s.nvBankSize

theorem Defines.fresh {env : Surroundings} {s : Tpm2State} {params : NvDefineSpaceParams}
    (h : Defines env s params) : params.nvIndex ∉ s.nvMap := by
  obtain ⟨provHandle, -, hchecks⟩ := h.checks
  exact (nvDefineSpaceChecks_success hchecks).1

theorem Defines.count_lt {env : Surroundings} {s : Tpm2State} {params : NvDefineSpaceParams}
    (h : Defines env s params) : s.nvCount < tpm2MaxNvIndexes := by
  obtain ⟨provHandle, -, hchecks⟩ := h.checks
  exact (nvDefineSpaceChecks_success hchecks).2

theorem Defines.reply (host : Host) {env : Surroundings} {s : Tpm2State}
    {params : NvDefineSpaceParams} (h : Defines env s params) :
    executeReply host env s = (.ok 0, nvDefined (accept s) (nvPublicOf params)) := by
  obtain ⟨bytesRead, hread⟩ := h.unmarshal
  obtain ⟨provHandle, hprov, hchecks⟩ := h.checks
  rw [executeReply_nvDefineSpace host env h.code]
  exact handleNvDefineSpace_defined (s := accept s) hread hprov hchecks h.room

/-- The pending command is an NV_Write that passes every check. -/
structure Writes (env : Surroundings) (s : Tpm2State) (params : NvWriteParams) (e : NvEntry) :
    Prop where
  code : dispatchedCode s = some tpmCcNvWrite
  unmarshal : ∃ bytesRead, unmarshalNvWrite env.nvWriteParams env.bytesRead (commandBody env s)
    (commandBodySize s) = .ok (params, bytesRead)
  entry : s.nvMap.lookup params.nvIndex = some e
  range : params.offset + params.data.size ≤ e.pub.dataSize
  provision : ∃ provHandle, provisionOf params.authHandle = some provHandle
  writable : NvWritable s e params.data params.offset

theorem Writes.reply (host : Host) {env : Surroundings} {s : Tpm2State} {params : NvWriteParams}
    {e : NvEntry} (h : Writes env s params e) :
    executeReply host env s =
      (.ok 0, nvWritten host (accept s) params.nvIndex e params.data params.offset) := by
  obtain ⟨bytesRead, hread⟩ := h.unmarshal
  obtain ⟨provHandle, hprov⟩ := h.provision
  have hwritable := h.writable
  have hwritable' : NvWritable (accept s) e params.data params.offset :=
    ⟨hwritable.unlocked, hwritable.kind, hwritable.fits, hwritable.whole, hwritable.permitted,
      hwritable.max, hwritable.nonempty, hwritable.key⟩
  rw [executeReply_nvWrite host env h.code]
  exact handleNvWrite_stored host env (s := accept s) _ _ hread h.entry h.range hprov hwritable'

/-- The pending command is an NV_Read that passes every check and whose data fits in
the response. -/
structure Reads (env : Surroundings) (s : Tpm2State) (params : NvReadParams) (e : NvEntry) :
    Prop where
  code : dispatchedCode s = some tpmCcNvRead
  unmarshal : ∃ bytesRead, unmarshalNvRead env.nvReadParams env.bytesRead (commandBody env s)
    (commandBodySize s) = .ok (params, bytesRead)
  entry : s.nvMap.lookup params.nvIndex = some e
  written : e.written = true
  range : params.offset + params.sizeToRead ≤ e.pub.dataSize
  unlocked : e.readLocked = false
  fits : params.offset + params.sizeToRead ≤ e.dataLen
  nonempty : 0 < params.sizeToRead
  key : IsKeyLength s.primarySensitive.ecc.size
  size_le : params.sizeToRead ≤ 1012

/-- The response to a read: the size and the plaintext behind the header. -/
theorem Reads.reply (host : Host) {env : Surroundings} {s : Tpm2State} {params : NvReadParams}
    {e : NvEntry} (h : Reads env s params e) :
    executeReply host env s =
      (.ok (2 + params.sizeToRead),
        { accept s with
          responseBuffer := store s.responseBuffer tpmRspHeaderSize
            (bytes16 params.sizeToRead ++
              nvPlaintext host s e params.sizeToRead params.offset) }) := by
  obtain ⟨bytesRead, hread⟩ := h.unmarshal
  have hsize := h.size_le
  have hlen := length_nvPlaintext host e params.sizeToRead params.offset h.key
  have hbytes : tpm2bBytes ⟨params.sizeToRead,
      store zeroBytes 0 (nvPlaintext host s e params.sizeToRead params.offset)⟩ =
      bytes16 params.sizeToRead ++ nvPlaintext host s e params.sizeToRead params.offset := by
    have hslice := slice_store_same zeroBytes 0
      (nvPlaintext host s e params.sizeToRead params.offset)
    rw [hlen] at hslice
    exact congrArg (bytes16 params.sizeToRead ++ ·) hslice
  rw [executeReply_nvRead host env h.code, handleNvRead_decrypted host env (accept s) _ _ hread
    h.entry h.written h.range h.unlocked h.fits h.nonempty h.key]
  unfold marshalBody
  rw [encodes_nvReadResponse (show params.sizeToRead ≤ maxNvBufferSize by
      rw [maxNvBufferSize]; omega) _ _ _ (by
      rw [length_tpm2bBytes, responseBufferSize, tpmRspHeaderSize]
      change 2 + params.sizeToRead ≤ _
      omega), length_tpm2bBytes]
  exact congrArg (fun bytes => ((.ok (2 + params.sizeToRead), { accept s with
    responseBuffer := store s.responseBuffer tpmRspHeaderSize bytes }) : Reply)) hbytes

/-- The parameters that the CreatePrimary unmarshaller accepts from the pending
command, and the memory from which the handler then reads the template. -/
def Requests (env : Surroundings) (s : Tpm2State) (params : CreatePrimaryParams)
    (template : Nat → UInt8) : Prop :=
  ∃ bytesRead, unmarshalCreatePrimary env.createPrimaryParams (commandBody env s)
      (commandBodySize s) = .ok (params, bytesRead) ∧
    template = advance (commandBody env s) (bytesRead - params.inPublicSize)

theorem Requests.unique {env : Surroundings} {s : Tpm2State} {params params' : CreatePrimaryParams}
    {template template' : Nat → UInt8} (h : Requests env s params template)
    (h' : Requests env s params' template') : params' = params ∧ template' = template := by
  obtain ⟨bytesRead, hread, rfl⟩ := h
  obtain ⟨bytesRead', hread', rfl⟩ := h'
  cases hread.symm.trans hread'
  exact ⟨rfl, rfl⟩

section Commands

variable (host : Host) (env : Surroundings) (s : Tpm2State)

theorem getRandom_persistent (h : dispatchedCode s = some tpmCcGetRandom) :
    (executeReply host env s).2.persistent = s.persistent := by
  rw [executeReply_getRandom host env h]
  obtain ⟨rc, -, heq⟩ | ⟨n, -, heq⟩ :=
    handleGetRandom_cases env (accept s) (commandBody env s) (commandBodySize s)
  · rw [heq]
    rfl
  · rw [heq]
    rfl

theorem nvRead_persistent (h : dispatchedCode s = some tpmCcNvRead) :
    (executeReply host env s).2.persistent = s.persistent := by
  rw [executeReply_nvRead host env h]
  obtain ⟨rc, -, heq⟩ | ⟨params, bytesRead, e, -, -, -, -, -, -, -, -, heq⟩ :=
    handleNvRead_cases host env (accept s) (commandBody env s) (commandBodySize s)
  · rw [heq]
    rfl
  · rw [heq]
    rfl

theorem nvRead_effect (h : dispatchedCode s = some tpmCcNvRead) :
    (∃ rc, IsErrorCode rc ∧ (executeReply host env s).1 = .error rc) ∨
    ∃ params e, Reads env s params e := by
  have hreply := executeReply_nvRead host env h
  obtain ⟨rc, hrc, heq⟩ | ⟨params, bytesRead, e, hread, hlookup, hwritten, hrange, hunlocked,
      hfits, hpos, hkey, heq⟩ :=
    handleNvRead_cases host env (accept s) (commandBody env s) (commandBodySize s)
  · exact .inl ⟨rc, hrc, congrArg Prod.fst (hreply.trans heq)⟩
  have hwf := executeReply_wellFormed host env s
  cases hreport : (executeReply host env s).1 with
  | error rc => exact .inl ⟨rc, hwf.error_code hreport, rfl⟩
  | ok written =>
      rw [hreply.trans heq] at hreport
      obtain ⟨-, hroom⟩ := marshalNvReadResponse_ok hreport
      have hsize : 2 + params.sizeToRead ≤ 1014 := hroom
      exact .inr ⟨params, e, h, ⟨bytesRead, hread⟩, hlookup, hwritten, hrange, hunlocked, hfits,
        hpos, hkey, by omega⟩

theorem nvDefineSpace_effect (h : dispatchedCode s = some tpmCcNvDefineSpace) :
    (∃ rc, IsErrorCode rc ∧ executeReply host env s = (.error rc, accept s)) ∨
    ∃ params, Defines env s params := by
  have hreply := executeReply_nvDefineSpace host env h
  obtain ⟨rc, hrc, heq⟩ | ⟨params, bytesRead, provHandle, hread, hprov, hchecks, hroom⟩ :=
    handleNvDefineSpace_cases env (accept s) (commandBody env s) (commandBodySize s)
  · exact .inl ⟨rc, hrc, hreply.trans heq⟩
  · exact .inr ⟨params, h, ⟨bytesRead, hread⟩, ⟨provHandle, hprov, hchecks⟩, hroom⟩

theorem nvWrite_effect (h : dispatchedCode s = some tpmCcNvWrite)
    (hsizes : ∀ i e, s.nvMap.lookup i = some e → e.dataLen = e.pub.dataSize) :
    (∃ rc, IsErrorCode rc ∧ executeReply host env s = (.error rc, accept s)) ∨
    ∃ params e, Writes env s params e := by
  have hreply := executeReply_nvWrite host env h
  obtain ⟨rc, hrc, heq⟩ | ⟨params, bytesRead, e, provHandle, hread, hlookup, hrange, hprov,
      hwritable⟩ :=
    handleNvWrite_cases host env (s := accept s) (commandBody env s) (commandBodySize s) hsizes
  · exact .inl ⟨rc, hrc, hreply.trans heq⟩
  · exact .inr ⟨params, e, h, ⟨bytesRead, hread⟩, hlookup, hrange, ⟨provHandle, hprov⟩,
      ⟨hwritable.unlocked, hwritable.kind, hwritable.fits, hwritable.whole, hwritable.permitted,
        hwritable.max, hwritable.nonempty, hwritable.key⟩⟩

/-- Whatever the unmarshaller accepts advances the handle counter; the rest depends
on the hierarchy and on the type of the template. -/
theorem createPrimary_effect (h : dispatchedCode s = some tpmCcCreatePrimary) :
    (∃ rc, IsErrorCode rc ∧ (∀ params template, ¬ Requests env s params template) ∧
      executeReply host env s = (.error rc, accept s)) ∨
    (∃ params template, Requests env s params template ∧
      ((hierarchySeed s params.primaryHandle = none ∧
        executeReply host env s = (.error tpmRcHierarchy, advanceHandle (accept s))) ∨
      (∃ seed, hierarchySeed s params.primaryHandle = some seed ∧
        get16 template 0 ≠ tpmAlgEcc ∧ executeReply host env s =
          (.error tpmRcAsymmetric, primaryWiped host (accept s) params template seed)) ∨
      (∃ seed, hierarchySeed s params.primaryHandle = some seed ∧
        get16 template 0 = tpmAlgEcc ∧ executeReply host env s =
          (.ok (createPrimaryParts
              (primaryResponse host (accept s) params template seed)).flatten.length,
            { primaryCreated host (accept s) params template seed with
              responseBuffer := store s.responseBuffer tpmRspHeaderSize
                (createPrimaryParts
                  (primaryResponse host (accept s) params template seed)).flatten })))) := by
  have hreply := executeReply_createPrimary host env h
  obtain ⟨rc, hrc, herror, heq⟩ | ⟨params, bytesRead, hread, heq⟩ :=
    handleCreatePrimary_cases host env (accept s) (commandBody env s) (commandBodySize s)
  · refine .inl ⟨rc, hrc, ?_, hreply.trans heq⟩
    rintro params template ⟨bytesRead, hread, -⟩
    cases herror.symm.trans hread
  · refine .inr ⟨params, _, ⟨bytesRead, hread, rfl⟩, ?_⟩
    generalize advance (commandBody env s) (bytesRead - params.inPublicSize) = template at heq ⊢
    rw [hreply, heq]
    cases hseed : hierarchySeed s params.primaryHandle with
    | none => exact .inl ⟨rfl, createPrimaryFrom_no_hierarchy host (accept s) params template hseed⟩
    | some seed =>
        by_cases htype : get16 template 0 = tpmAlgEcc
        · exact .inr (.inr ⟨seed, rfl, htype,
            createPrimaryFrom_created host (accept s) params template hseed htype⟩)
        · exact .inr (.inl ⟨seed, rfl, htype,
            createPrimaryFrom_not_ecc host (accept s) params template hseed htype⟩)

end Commands

/-- The persistent states that an access can lead to. -/
inductive Effect (host : Host) (s : Tpm2State) (a : Access) : Persistent → Prop
  | none : Effect host s a s.persistent
  | define (env : Surroundings) (params : NvDefineSpaceParams) :
      a.Executes s env → Defines env s params →
      Effect host s a (nvDefined s (nvPublicOf params)).persistent
  | write (env : Surroundings) (params : NvWriteParams) (e : NvEntry) :
      a.Executes s env → Writes env s params e →
      Effect host s a (nvWritten host s params.nvIndex e params.data params.offset).persistent
  | advance (env : Surroundings) (params : CreatePrimaryParams) (template : Nat → UInt8) :
      a.Executes s env → dispatchedCode s = some tpmCcCreatePrimary →
      Requests env s params template → hierarchySeed s params.primaryHandle = .none →
      Effect host s a (advanceHandle s).persistent
  | wipe (env : Surroundings) (params : CreatePrimaryParams) (template seed : Nat → UInt8) :
      a.Executes s env → dispatchedCode s = some tpmCcCreatePrimary →
      Requests env s params template → hierarchySeed s params.primaryHandle = some seed →
      get16 template 0 ≠ tpmAlgEcc →
      Effect host s a (primaryWiped host s params template seed).persistent
  | create (env : Surroundings) (params : CreatePrimaryParams) (template seed : Nat → UInt8) :
      a.Executes s env → dispatchedCode s = some tpmCcCreatePrimary →
      Requests env s params template → hierarchySeed s params.primaryHandle = some seed →
      get16 template 0 = tpmAlgEcc →
      Effect host s a (primaryCreated host s params template seed).persistent

section Execute

variable (host : Host) (env : Surroundings) {s : Tpm2State} {a : Access}

theorem effect_createPrimary (hexec : a.Executes s env)
    (hcode : dispatchedCode s = some tpmCcCreatePrimary) :
    Effect host s a (executeReply host env s).2.persistent := by
  obtain ⟨rc, -, -, heq⟩ | ⟨params, template, hrequests, hcases⟩ :=
    createPrimary_effect host env s hcode
  · rw [heq]
    exact .none
  obtain ⟨hseed, heq⟩ | ⟨seed, hseed, htype, heq⟩ | ⟨seed, hseed, htype, heq⟩ := hcases
  · rw [heq]
    exact .advance env params template hexec hcode hrequests hseed
  · rw [heq]
    exact .wipe env params template seed hexec hcode hrequests hseed htype
  · rw [heq]
    exact .create env params template seed hexec hcode hrequests hseed htype

theorem effect_executeReply
    (hsizes : ∀ i e, s.nvMap.lookup i = some e → e.dataLen = e.pub.dataSize)
    (hexec : a.Executes s env) :
    Effect host s a (executeReply host env s).2.persistent := by
  by_cases hrandom : dispatchedCode s = some tpmCcGetRandom
  · rw [getRandom_persistent host env s hrandom]
    exact .none
  by_cases hcreate : dispatchedCode s = some tpmCcCreatePrimary
  · exact effect_createPrimary host env hexec hcreate
  by_cases hread : dispatchedCode s = some tpmCcNvRead
  · rw [nvRead_persistent host env s hread]
    exact .none
  by_cases hdefine : dispatchedCode s = some tpmCcNvDefineSpace
  · obtain ⟨rc, -, heq⟩ | ⟨params, hdefines⟩ := nvDefineSpace_effect host env s hdefine
    · rw [heq]
      exact .none
    · rw [hdefines.reply host]
      exact .define env params hexec hdefines
  by_cases hwrite : dispatchedCode s = some tpmCcNvWrite
  · obtain ⟨rc, -, heq⟩ | ⟨params, e, hwrites⟩ := nvWrite_effect host env s hwrite hsizes
    · rw [heq]
      exact .none
    · rw [hwrites.reply host]
      exact .write env params e hexec hwrites
  obtain ⟨rc, t, -, heq, hsame, -⟩ :=
    executeReply_other host env hrandom hcreate hdefine hwrite hread
  rw [heq, hsame]
  exact .none

end Execute

/-- The case list covers every access. -/
theorem effect_step (host : Host) {s : Tpm2State}
    (hsizes : ∀ i e, s.nvMap.lookup i = some e → e.dataLen = e.pub.dataSize) (a : Access) :
    Effect host s a (step host s a).persistent := by
  obtain hsame | ⟨env, hexec, heq⟩ := persistent_step host s a
  · rw [hsame]
    exact .none
  · rw [heq]
    exact effect_executeReply host env hsizes hexec

end TpmEmulator

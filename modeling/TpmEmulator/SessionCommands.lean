import TpmEmulator.PendingCommands
import TpmEmulator.PrimaryKeys
import TpmEmulator.TemplateReads
import TpmEmulator.UnmarshalBounds

/-!
Commands with an authorization area. The header validator accepts the tag of a command
with sessions, and nothing after it looks at the tag: the handlers parse the area as
parameters. Its size starts with two zero bytes, which pass for an empty authorization
or an empty sensitive area, and the other two are taken for the size that comes next.

A session command is compared with the plain command that has the area removed. For
each command `Outcome` says when it is accepted and what it then results in, and one
rule turns two outcomes into the condition under which the comparison holds. The traced
unmarshallers say which bytes of the area are read as parameters.
-/
namespace TpmEmulator

open CellMemory BigEndian Framing

inductive HandleCommand
  | createPrimary
  | nvDefineSpace
  | nvWrite
  | nvRead
  deriving DecidableEq, Repr

def HandleCommand.code : HandleCommand → Nat
  | .createPrimary => tpmCcCreatePrimary
  | .nvDefineSpace => tpmCcNvDefineSpace
  | .nvWrite => tpmCcNvWrite
  | .nvRead => tpmCcNvRead

/-- The bytes that the handles of the command take up. -/
def HandleCommand.handleLength : HandleCommand → Nat
  | .createPrimary => 4
  | .nvDefineSpace => 4
  | .nvWrite => 8
  | .nvRead => 8

def sessionBody (handles authorization parameters : List UInt8) : List UInt8 :=
  handles ++ (bytes32 authorization.length ++ (authorization ++ parameters))

def sessionCommand (cmd : HandleCommand) (handles authorization parameters : List UInt8) :
    List UInt8 :=
  commandBytes tpmStSessions cmd.code (sessionBody handles authorization parameters)

def plainCommand (cmd : HandleCommand) (handles parameters : List UInt8) : List UInt8 :=
  commandBytes tpmStNoSessions cmd.code (handles ++ parameters)

section Area

variable {buffer : Nat → UInt8} {size : Nat} {handles authorization parameters : List UInt8}

theorem sessionBody_eq (h : authorization.length < 2 ^ 16) :
    sessionBody handles authorization parameters = handles ++
      (bytes16 0 ++ (bytes16 authorization.length ++ (authorization ++ parameters))) := by
  rw [sessionBody, bytes32_of_lt h, List.append_assoc]

/-- The buffer holds the body of a session command and no more. -/
structure SessionBuffer (buffer : Nat → UInt8) (size : Nat)
    (handles authorization parameters : List UInt8) : Prop where
  small : authorization.length ≤ 1024
  contents : slice buffer 0 size =
    handles ++ (bytes16 0 ++ (bytes16 authorization.length ++ (authorization ++ parameters)))

theorem sessionBuffer_of_starts (env : Surroundings) {s : Tpm2State}
    (hsize : commandBodySize s = (sessionBody handles authorization parameters).length)
    (h : Starts s.commandBuffer commandBufferSize 10
      (sessionBody handles authorization parameters)) :
    SessionBuffer (commandBody env s) (commandBodySize s) handles authorization parameters := by
  have hlength := h.1
  simp only [sessionBody, List.length_append, commandBufferSize] at hlength
  refine ⟨by omega, ?_⟩
  rw [← sessionBody_eq (by omega), hsize]
  exact (starts_commandBody env h).2

theorem SessionBuffer.lt (h : SessionBuffer buffer size handles authorization parameters) :
    authorization.length < 2 ^ 16 :=
  h.small.trans_lt (by decide)

theorem SessionBuffer.size_eq (h : SessionBuffer buffer size handles authorization parameters) :
    size = handles.length + 4 + authorization.length + parameters.length := by
  have hlength := congrArg List.length h.contents
  simp only [length_slice, List.length_append, length_bytes16] at hlength
  omega

theorem SessionBuffer.words (h : SessionBuffer buffer size handles authorization parameters) :
    get16 buffer handles.length = 0 ∧
      get16 buffer (handles.length + 2) = authorization.length ∧
      Starts buffer size (handles.length + 4) (authorization ++ parameters) := by
  have hstarts : Starts buffer size 0 (handles ++ (bytes16 0 ++
      (bytes16 authorization.length ++ (authorization ++ parameters)))) :=
    starts_iff_append.mpr ⟨[], by rw [h.contents, List.append_nil]⟩
  rw [starts_append, starts_append, starts_append, Nat.zero_add, length_bytes16, length_bytes16,
    starts_bytes16 (by decide), starts_bytes16 h.lt] at hstarts
  exact ⟨hstarts.2.1.2, hstarts.2.2.1.2, hstarts.2.2.2⟩

/-- What a parse that finds two zero bytes and a size behind the handles takes for that
size and for the rest. -/
theorem SessionBuffer.split (h : SessionBuffer buffer size handles authorization parameters)
    (read : List UInt8) {rest : List UInt8} {n : Nat} (hn : n < 2 ^ 16)
    (hhandles : handles.length = read.length)
    (hread : slice buffer 0 size = read ++ (bytes16 0 ++ (bytes16 n ++ rest))) :
    n = authorization.length ∧ authorization ++ parameters = rest := by
  rw [h.contents] at hread
  obtain ⟨-, hread⟩ := List.append_inj hread hhandles
  obtain ⟨hlength, hrest⟩ := List.append_inj (List.append_cancel_left hread) rfl
  exact ⟨(bytes16_inj h.lt hn hlength).symm, hrest⟩

theorem SessionBuffer.nvWrite (h : SessionBuffer buffer size handles authorization parameters)
    (hhandles : handles.length = 8) {locals params : NvWriteParams} {bytesRead consumed : Nat}
    (hread : unmarshalNvWrite locals bytesRead buffer size = .ok (params, consumed)) :
    slice params.data.buffer 0 params.data.size = authorization ∧
      ∃ rest, parameters = bytes16 params.offset ++ rest := by
  have hzero := h.words.1
  rw [hhandles] at hzero
  obtain ⟨-, hskips⟩ | ⟨authHandle, nvIndex, data, offset, -, -, hdata, -, hstarts, heq⟩ :=
    unmarshalNvWrite_only hread
  · exact absurd hzero hskips
  cases heq
  obtain ⟨rest, hrest⟩ := starts_iff_append.mp hstarts
  have hsmall : data.length < 2 ^ 16 := by
    simp only [maxNvBufferSize] at hdata
    omega
  obtain ⟨hlength, hrest⟩ := h.split (bytes32 authHandle ++ bytes32 nvIndex) hsmall hhandles
    (hrest.trans (by simp only [encodeNvWrite, encodeNvHandles, List.append_assoc]; rfl))
  obtain ⟨hdata, hrest⟩ := List.append_inj hrest hlength.symm
  refine ⟨?_, rest, hrest⟩
  rw [hdata]
  exact slice_store_same locals.data.buffer 0 data

theorem SessionBuffer.nvRead (h : SessionBuffer buffer size handles authorization parameters)
    (hhandles : handles.length = 8) {locals params : NvReadParams} {bytesRead consumed : Nat}
    (hread : unmarshalNvRead locals bytesRead buffer size = .ok (params, consumed)) :
    params.sizeToRead = authorization.length ∧
      ∃ rest, authorization ++ parameters = bytes16 params.offset ++ rest := by
  have hzero := h.words.1
  rw [hhandles] at hzero
  obtain ⟨-, hskips⟩ | ⟨p, -, -, hsizeToRead, -, hstarts, heq⟩ := unmarshalNvRead_only hread
  · exact absurd hzero hskips
  cases heq
  obtain ⟨rest, hrest⟩ := starts_iff_append.mp hstarts
  obtain ⟨hlength, hrest⟩ := h.split (bytes32 params.authHandle ++ bytes32 params.nvIndex)
    hsizeToRead hhandles
    (hrest.trans (by simp only [encodeNvRead, encodeNvHandles, List.append_assoc]; rfl))
  exact ⟨hlength, rest, hrest⟩

theorem SessionBuffer.nvDefineSpace
    (h : SessionBuffer buffer size handles authorization parameters)
    (hhandles : handles.length = 4) {locals params : NvDefineSpaceParams} {consumed : Nat}
    (hread : unmarshalNvDefineSpace locals buffer size = .ok (params, consumed)) :
    params.authSize = 0 ∧ params.publicSize = authorization.length ∧
      ∃ rest, authorization ++ parameters = bytes32 params.nvIndex ++ bytes16 params.nameAlg ++
        bytes32 params.attributes ++ tpm2bBytes ⟨params.authPolicySize, params.authPolicy⟩ ++
        bytes16 params.dataSize ++ rest := by
  have hzero := h.words.1
  rw [hhandles] at hzero
  have hauthSize : params.authSize = 0 := (unmarshalNvDefineSpace_sizes hread).1.trans hzero
  obtain ⟨hrange, -, hstarts⟩ := unmarshalNvDefineSpace_only hread
  obtain ⟨rest, hrest⟩ := starts_iff_append.mp hstarts
  have hauth : tpm2bBytes ⟨params.authSize, params.auth⟩ = bytes16 0 := by
    rw [hauthSize]
    rfl
  simp only [encodeNvDefineSpace, hauth, List.append_assoc] at hrest
  obtain ⟨hlength, hrest⟩ := h.split (bytes32 params.authHandle) hrange.publicSize hhandles hrest
  refine ⟨hauthSize, hlength, rest, ?_⟩
  simp only [List.append_assoc]
  exact hrest

/-- The area is always accepted as an empty sensitive area and a template. -/
theorem SessionBuffer.createPrimary
    (h : SessionBuffer buffer size handles authorization parameters)
    (hhandles : handles.length = 4) (locals : CreatePrimaryParams) :
    unmarshalCreatePrimary locals buffer size =
      .ok ({ locals with
        primaryHandle := get32 buffer 0
        inSensitiveSize := 0
        inPublicSize := authorization.length }, 8 + authorization.length) := by
  obtain ⟨hzero, hlength, hstarts⟩ := h.words
  rw [hhandles] at hzero hlength hstarts
  have hroom := hstarts.1
  rw [List.length_append] at hroom
  rw [unmarshalCreatePrimary, field_uint32 _ (by omega), field_uint16 _ (by omega), hzero,
    unmarshalInSensitive, if_neg (by decide), field_uint16 _ (by omega), hlength,
    sub32_of_le (by omega), if_neg (by omega)]

theorem SessionBuffer.untouched_nvRead
    (h : SessionBuffer buffer size handles authorization parameters)
    (hhandles : handles.length = 8) (locals : NvReadParams) (bytesRead : Nat) :
    (∀ position ∈ (tracedNvRead locals bytesRead 0 buffer size).reads,
      position < 12 ∨ 12 + authorization.length ≤ position) ↔
      authorization = [] ∨ authorization.length + parameters.length < 2 := by
  have hsize := h.size_eq
  have hzero := h.words.1
  rw [hhandles] at hsize hzero
  rw [tracedNvRead, reads_field_uint32 _ (by omega), reads_field_uint32 _ (by omega),
    reads_field_uint16 _ (by omega), hzero, if_neg (not_not.mpr rfl),
    reads_field_uint16 _ (by omega)]
  simp only [List.mem_append, List.mem_range'_1]
  by_cases hshort : authorization.length + parameters.length < 2
  · have hnone : sub32 size (0 + 4 + 4 + 2 + 2) < 2 := by
      rw [sub32_of_le (by omega)]
      omega
    rw [reads_field_short (if_pos hnone)]
    refine iff_of_true ?_ (.inr hshort)
    simp only [List.not_mem_nil, or_false]
    omega
  · rw [reads_field_uint16 _ (by omega), or_iff_left hshort, ← List.length_eq_zero_iff]
    simp only [List.mem_append, List.mem_range'_1]
    constructor
    · intro hall
      have hfirst := hall 12 (by omega)
      omega
    · intro hempty position _
      omega

theorem SessionBuffer.untouched_nvWrite
    (h : SessionBuffer buffer size handles authorization parameters)
    (hhandles : handles.length = 8) (locals : NvWriteParams) (bytesRead : Nat) :
    (∀ position ∈ (tracedNvWrite locals bytesRead 0 buffer size).reads,
      position < 12 ∨ 12 + authorization.length ≤ position) ↔ authorization = [] := by
  have hsize := h.size_eq
  have hsmall := h.small
  obtain ⟨hzero, hlength, -⟩ := h.words
  rw [hhandles] at hsize hzero hlength
  rw [tracedNvWrite, reads_field_uint32 _ (by omega), reads_field_uint32 _ (by omega),
    reads_field_uint16 _ (by omega), hzero, if_neg (not_not.mpr rfl), tracedTpm2bMaxNvBuffer]
  rw [reads_field_tpm2b _ _ (by rw [hlength]; exact hsmall) (by rw [hlength]; omega), hlength,
    ← List.length_eq_zero_iff]
  simp only [List.mem_append, List.mem_range'_1]
  constructor
  · intro hall
    have hfirst := hall 12
    omega
  · intro hempty position _
    omega

/-- A body that ends before the index of the public area has been rejected by then. -/
theorem SessionBuffer.untouched_nvDefineSpace
    (h : SessionBuffer buffer size handles authorization parameters)
    (hhandles : handles.length = 4) (locals : NvDefineSpaceParams) :
    (∀ position ∈ (tracedNvDefineSpace locals 0 buffer size).reads,
      position < 8 ∨ 8 + authorization.length ≤ position) ↔
      authorization = [] ∨ authorization.length + parameters.length < 4 := by
  have hsize := h.size_eq
  have hzero := h.words.1
  rw [hhandles] at hsize hzero
  rw [tracedNvDefineSpace, reads_field_uint32 _ (by omega),
    reads_field_tpm2b _ _ (by rw [hzero]; decide) (by rw [hzero]; omega), hzero,
    reads_field_uint16 _ (by omega)]
  simp only [List.mem_append, List.mem_range'_1]
  by_cases hshort : authorization.length + parameters.length < 4
  · have hnone : sub32 size (0 + 4 + (2 + 0) + 2) < 4 := by
      rw [sub32_of_le (by omega)]
      omega
    rw [reads_field_short (if_pos hnone)]
    refine iff_of_true ?_ (.inr hshort)
    simp only [List.not_mem_nil, or_false]
    omega
  · rw [reads_field_uint32 _ (by omega), or_iff_left hshort, ← List.length_eq_zero_iff]
    simp only [List.mem_append, List.mem_range'_1]
    constructor
    · intro hall
      have hfirst := hall 8
      omega
    · intro hempty position _
      omega

theorem untouched_createPrimary (locals : CreatePrimaryParams) (buffer : Nat → UInt8) (size : Nat)
    (authorization : List UInt8) :
    (∀ position ∈ (tracedCreatePrimary locals 0 buffer size).reads ++
        (tracedTemplate buffer 8).2, position < 8 ∨ 8 + authorization.length ≤ position) ↔
      authorization = [] := by
  rw [← List.length_eq_zero_iff]
  constructor
  · intro hall
    have hfirst := hall 8 (List.mem_append_right _ ((mem_tracedTemplate buffer 8 8).mpr
      (.inl ⟨Nat.le_refl 8, by decide⟩)))
    omega
  · intro hempty position _
    omega

end Area

def FailsCleanly (s t : Tpm2State) : Prop :=
  (responseHeader t).code ≠ tpmRcSuccess ∧ t.persistent = s.persistent

/-- The first command fails cleanly, or both have the same response code and effect. -/
def FailsOrAgrees (s t t' : Tpm2State) : Prop :=
  FailsCleanly s t ∨ ((responseHeader t).code = (responseHeader t').code ∧
    t.persistent = t'.persistent)

/-- What is accepted results in `result`, which is not a clean failure, and without
anything to accept the command fails cleanly. -/
structure Outcome {α : Type} (s t : Tpm2State) (Accepts : α → Prop)
    (result : α → Nat × Persistent) : Prop where
  accepted : ∀ a, Accepts a →
    ((responseHeader t).code, t.persistent) = result a ∧ ¬ FailsCleanly s t
  rejected : (∀ a, ¬ Accepts a) → FailsCleanly s t

theorem outcome_of_success {α : Type} {s t : Tpm2State} {Accepts : α → Prop}
    {result : α → Persistent}
    (haccepted : ∀ a, Accepts a → (responseHeader t).code = tpmRcSuccess ∧ t.persistent = result a)
    (hrejected : (∀ a, ¬ Accepts a) → FailsCleanly s t) :
    Outcome s t Accepts fun a => (tpmRcSuccess, result a) where
  accepted := by
    intro a ha
    obtain ⟨hcode, hresult⟩ := haccepted a ha
    exact ⟨by rw [hcode, hresult], fun hfails => hfails.1 hcode⟩
  rejected := hrejected

/-- The comparison holds exactly when whatever the first command is accepted for has a
counterpart with the same result. -/
theorem failsOrAgrees_iff {α : Type} {s t s' t' : Tpm2State} {Accepts Accepts' : α → Prop}
    {result result' : α → Nat × Persistent} (hsame : s.persistent = s'.persistent)
    (h : Outcome s t Accepts result) (h' : Outcome s' t' Accepts' result') :
    FailsOrAgrees s t t' ↔ ∀ a, Accepts a → ∃ b, Accepts' b ∧ result a = result' b := by
  constructor
  · intro hagrees a ha
    obtain ⟨hresult, hnot⟩ := h.accepted a ha
    obtain ⟨hcode, hpersistent⟩ := hagrees.resolve_left hnot
    by_cases hsome : ∃ b, Accepts' b
    · obtain ⟨b, hb⟩ := hsome
      refine ⟨b, hb, ?_⟩
      rw [← hresult, ← (h'.accepted b hb).1, hcode, hpersistent]
    · obtain ⟨hcode', hpersistent'⟩ := h'.rejected (not_exists.mp hsome)
      refine absurd ⟨hcode ▸ hcode', ?_⟩ hnot
      rw [hpersistent, hpersistent', hsame]
  · intro hall
    by_cases hsome : ∃ a, Accepts a
    · obtain ⟨a, ha⟩ := hsome
      obtain ⟨b, hb, heq⟩ := hall a ha
      have hboth := (h.accepted a ha).1.trans (heq.trans (h'.accepted b hb).1.symm)
      exact .inr (Prod.mk.inj hboth)
    · exact .inl (h.rejected (not_exists.mp hsome))

section Outcomes

variable (host : Host) (env : Surroundings) {s : Tpm2State}

theorem failsCleanly_of_error {t : Tpm2State} {rc : Nat} (hstate : s.state = .receiving)
    (hrc : IsErrorCode rc) (hreply : executeReply host env s = (.error rc, t))
    (ht : t.persistent = s.persistent) :
    FailsCleanly s (step host s (.write env tpm2CmdReg 1)) := by
  obtain ⟨hcode, hpersistent⟩ := execute_error host env hstate hreply ht
  exact ⟨hcode ▸ hrc.1, hpersistent⟩

/-- A command that no handler gets fails cleanly, so only what its own handler does is
left to look at. -/
theorem failsCleanly_of_dispatched {code : Nat} (hstate : s.state = .receiving)
    (hcmd : get32 s.commandBuffer 6 = code)
    (h : dispatchedCode s = some code → FailsCleanly s (step host s (.write env tpm2CmdReg 1))) :
    FailsCleanly s (step host s (.write env tpm2CmdReg 1)) := by
  obtain hnone | hdispatched := dispatchedCode_eq hcmd
  · obtain ⟨rc, t, hrc, heq, ht, -⟩ := executeReply_rejected host env hnone
    exact failsCleanly_of_error host env hstate hrc heq ht
  · exact h hdispatched

theorem outcome_nvRead (hstate : s.state = .receiving)
    (hcmd : get32 s.commandBuffer 6 = tpmCcNvRead) :
    Outcome s (step host s (.write env tpm2CmdReg 1))
      (fun a : NvReadParams × NvEntry => Reads env s a.1 a.2)
      fun _ => (tpmRcSuccess, s.persistent) := by
  refine outcome_of_success ?_ ?_
  · intro a hreads
    refine ⟨code_ok hstate (congrArg Prod.fst (hreads.reply host)), ?_⟩
    rw [persistent_execute host env hstate, nvRead_persistent host env s hreads.code]
  · intro hnone
    refine failsCleanly_of_dispatched host env hstate hcmd fun hdispatched => ?_
    obtain ⟨rc, hrc, herror⟩ | ⟨params, e, hreads⟩ := nvRead_effect host env s hdispatched
    · refine ⟨code_error hstate herror ▸ hrc.1, ?_⟩
      rw [persistent_execute host env hstate, nvRead_persistent host env s hdispatched]
    · exact absurd hreads (hnone (params, e))

theorem outcome_nvDefineSpace (hstate : s.state = .receiving)
    (hcmd : get32 s.commandBuffer 6 = tpmCcNvDefineSpace) :
    Outcome s (step host s (.write env tpm2CmdReg 1)) (Defines env s)
      fun params => (tpmRcSuccess, (nvDefined s (nvPublicOf params)).persistent) := by
  refine outcome_of_success ?_ ?_
  · intro params hdefines
    have hreply := hdefines.reply host
    refine ⟨code_ok hstate (congrArg Prod.fst hreply), ?_⟩
    rw [persistent_execute host env hstate, hreply]
    rfl
  · intro hnone
    refine failsCleanly_of_dispatched host env hstate hcmd fun hdispatched => ?_
    obtain ⟨rc, hrc, heq⟩ | ⟨params, hdefines⟩ := nvDefineSpace_effect host env s hdispatched
    · exact failsCleanly_of_error host env hstate hrc heq rfl
    · exact absurd hdefines (hnone params)

theorem outcome_nvWrite
    (hsizes : ∀ i e, s.nvMap.lookup i = some e → e.dataLen = e.pub.dataSize)
    (hstate : s.state = .receiving) (hcmd : get32 s.commandBuffer 6 = tpmCcNvWrite) :
    Outcome s (step host s (.write env tpm2CmdReg 1))
      (fun a : NvWriteParams × NvEntry => Writes env s a.1 a.2)
      fun a => (tpmRcSuccess,
        (nvWritten host s a.1.nvIndex a.2 a.1.data a.1.offset).persistent) := by
  refine outcome_of_success ?_ ?_
  · intro a hwrites
    have hreply := hwrites.reply host
    refine ⟨code_ok hstate (congrArg Prod.fst hreply), ?_⟩
    rw [persistent_execute host env hstate, hreply]
    rfl
  · intro hnone
    refine failsCleanly_of_dispatched host env hstate hcmd fun hdispatched => ?_
    obtain ⟨rc, hrc, heq⟩ | ⟨params, e, hwrites⟩ := nvWrite_effect host env s hdispatched hsizes
    · exact failsCleanly_of_error host env hstate hrc heq rfl
    · exact absurd hwrites (hnone (params, e))

theorem nextTransientHandle_createPrimaryFrom (params : CreatePrimaryParams)
    (template : Nat → UInt8) :
    (createPrimaryFrom host s params template).2.persistent.nextTransientHandle =
      (s.nextTransientHandle + 1) % 2 ^ 32 := by
  cases hseed : hierarchySeed s params.primaryHandle with
  | none =>
      rw [createPrimaryFrom_no_hierarchy host s params template hseed]
      rfl
  | some seed =>
      by_cases htype : get16 template 0 = tpmAlgEcc
      · rw [createPrimaryFrom_created host s params template hseed htype]
        rfl
      · rw [createPrimaryFrom_not_ecc host s params template hseed htype]
        rfl

/-- The authorization of the request is stored whether the creation succeeds or not. -/
theorem authValue_createPrimaryFrom (params : CreatePrimaryParams) {seed : Nat → UInt8}
    (hseed : hierarchySeed s params.primaryHandle = some seed) (template : Nat → UInt8) :
    (createPrimaryFrom host s params template).2.persistent.primarySensitive.authValue =
      (inSensitiveOf params).userAuth := by
  by_cases htype : get16 template 0 = tpmAlgEcc
  · rw [createPrimaryFrom_created host s params template hseed htype]
    rfl
  · rw [createPrimaryFrom_not_ecc host s params template hseed htype]
    rfl

def createResult (host : Host) (s : Tpm2State) (params : CreatePrimaryParams)
    (template : Nat → UInt8) : Nat × Persistent :=
  let reply := createPrimaryFrom host (accept s) params template
  (returnCode reply.1, reply.2.persistent)

theorem outcome_createPrimary (hstate : s.state = .receiving)
    (hcmd : get32 s.commandBuffer 6 = tpmCcCreatePrimary) :
    Outcome s (step host s (.write env tpm2CmdReg 1))
      (fun a : CreatePrimaryParams × (Nat → UInt8) => Creates env s a.1 a.2)
      fun a => createResult host s a.1 a.2 where
  accepted := by
    intro a hcreates
    have hreply := hcreates.reply host
    have hpersistent := persistent_execute host env hstate
    have hcode : (responseHeader (step host s (.write env tpm2CmdReg 1))).code =
        returnCode (executeReply host env s).1 := by
      cases hreport : (executeReply host env s).1 with
      | error rc => exact code_error hstate hreport
      | ok bodySize => exact code_ok hstate hreport
    refine ⟨?_, fun hfails => ?_⟩
    · rw [hcode, hpersistent, hreply]
      rfl
    · have hhandle := nextTransientHandle_createPrimaryFrom host a.1 a.2 (s := accept s)
      rw [← hreply, ← hpersistent, hfails.2] at hhandle
      exact advance_ne _ hhandle.symm
  rejected := by
    intro hnone
    refine failsCleanly_of_dispatched host env hstate hcmd fun hdispatched => ?_
    obtain ⟨rc, hrc, -, heq⟩ | ⟨params, template, hrequests, -⟩ :=
      createPrimary_effect host env s hdispatched
    · exact failsCleanly_of_error host env hstate hrc heq rfl
    · exact absurd ⟨hdispatched, hrequests⟩ (hnone (params, template))

end Outcomes

def Tpm2State.withPersistent (s : Tpm2State) (p : Persistent) : Tpm2State :=
  { s with
    nvBank := p.nvBank, nvBankSize := p.nvBankSize, nvAllocOffset := p.nvAllocOffset
    nvMap := p.nvMap, nvCount := p.nvCount, nvDirty := p.nvDirty, tpmMode := p.tpmMode
    pps := p.pps, sps := p.sps, eps := p.eps
    phProof := p.phProof, shProof := p.shProof, ehProof := p.ehProof
    primarySensitive := p.primarySensitive, primaryPublic := p.primaryPublic
    primaryName := p.primaryName, nextTransientHandle := p.nextTransientHandle
    initialized := p.initialized }

structure DefinedAlike (nv nv' : NvPublic) : Prop where
  nvIndex : nv.nvIndex = nv'.nvIndex
  nameAlg : nv.nameAlg = nv'.nameAlg
  attributes : nv.attributes = nv'.attributes
  dataSize : nv.dataSize = nv'.dataSize

section Results

variable {host : Host} {s s' : Tpm2State} (hsame : s.persistent = s'.persistent)

include hsame

theorem withPersistent_eq : s'.withPersistent s.persistent = s' := by
  rw [hsame]
  rfl

theorem nvDefined_persistent_iff {nv nv' : NvPublic} (hfresh : nv.nvIndex ∉ s.nvMap) :
    (nvDefined s nv).persistent = (nvDefined s' nv').persistent ↔ DefinedAlike nv nv' := by
  rw [← withPersistent_eq hsame]
  constructor
  · intro h
    have hlookup := congrArg (fun p : Persistent => p.nvMap.lookup nv.nvIndex) h
    change (s.nvMap.insert nv.nvIndex _).lookup nv.nvIndex =
      (s.nvMap.insert nv'.nvIndex _).lookup nv.nvIndex at hlookup
    rw [Finmap.lookup_insert] at hlookup
    by_cases hindex : nv.nvIndex = nv'.nvIndex
    · rw [← hindex, Finmap.lookup_insert, Option.some_inj] at hlookup
      have hname := congrArg (fun e : NvEntry => e.pub.nameAlg) hlookup
      have hattributes := congrArg (fun e : NvEntry => e.pub.attributes) hlookup
      have hsize := congrArg (fun e : NvEntry => e.pub.dataSize) hlookup
      exact ⟨hindex, hname, hattributes, hsize⟩
    · rw [Finmap.lookup_insert_of_ne _ hindex, Finmap.lookup_eq_none.mpr hfresh] at hlookup
      cases hlookup
  · rintro ⟨hindex, hname, hattributes, hsize⟩
    simp only [nvDefined, Tpm2State.persistent, Tpm2State.withPersistent, hindex, hname,
      hattributes, hsize]

theorem createResult_eq_iff {params params' : CreatePrimaryParams}
    {template template' : Nat → UInt8} (hhandle : params.primaryHandle = params'.primaryHandle) :
    createResult host s params template = createResult host s' params' template' ↔
      ((hierarchySeed s params.primaryHandle).isSome → TemplatesAgree template template' ∧
        (inSensitiveOf params).userAuth = (inSensitiveOf params').userAuth) := by
  rw [← withPersistent_eq hsame]
  cases hseed : hierarchySeed s params.primaryHandle with
  | none =>
      have hseed' : hierarchySeed (s'.withPersistent s.persistent) params'.primaryHandle = none :=
        hhandle ▸ hseed
      simp only [createResult, createPrimaryFrom_no_hierarchy host (accept s) params template hseed,
        createPrimaryFrom_no_hierarchy host (accept (s'.withPersistent s.persistent)) params'
          template' hseed']
      exact iff_of_true rfl fun hsome => (by cases hsome)
  | some seed =>
      have hseed' : hierarchySeed (s'.withPersistent s.persistent) params'.primaryHandle =
        some seed := hhandle ▸ hseed
      constructor
      · intro h _
        have hpersistent := congrArg Prod.snd h
        refine ⟨templatesAgree_of_persistent host (accept s) params
          (accept (s'.withPersistent s.persistent)) hseed hseed' hpersistent, ?_⟩
        have hauth := authValue_createPrimaryFrom host params (s := accept s) hseed template
        have hauth' := authValue_createPrimaryFrom host params'
          (s := accept (s'.withPersistent s.persistent)) hseed' template'
        exact hauth.symm.trans ((congrArg (·.primarySensitive.authValue) hpersistent).trans hauth')
      · intro h
        obtain ⟨⟨htype, htemplate⟩, hauth⟩ := h rfl
        by_cases hecc : get16 template 0 = tpmAlgEcc
        · simp only [createResult,
            createPrimaryFrom_created host (accept s) params template hseed hecc,
            createPrimaryFrom_created host (accept (s'.withPersistent s.persistent)) params'
              template' hseed' (htype ▸ hecc)]
          refine congrArg (Prod.mk tpmRcSuccess) ?_
          change (primaryCreated host s params template seed).persistent =
            (primaryCreated host s params' template' seed).persistent
          simp only [primaryCreated, templateOf, htemplate hecc, withPrimary, initialSensitive,
            hauth]
        · simp only [createResult,
            createPrimaryFrom_not_ecc host (accept s) params template hseed hecc,
            createPrimaryFrom_not_ecc host (accept (s'.withPersistent s.persistent)) params'
              template' hseed' (htype ▸ hecc)]
          refine congrArg (Prod.mk tpmRcAsymmetric) ?_
          change (primaryWiped host s params template seed).persistent =
            (primaryWiped host s params' template' seed).persistent
          simp only [primaryWiped, templateOf, parseTemplate, initialSensitive, htype, hauth]

end Results

/-- What is read of the authorization area of the pending command: its size stands for
that of the template, of the public area, of the data or of the bytes to read, and the
area for what follows such a size. -/
def HandleCommand.Misreads (env : Surroundings) (s : Tpm2State)
    (authorization parameters : List UInt8) : HandleCommand → Prop
  | .createPrimary => ∃ params template, Requests env s params template ∧
      params.inSensitiveSize = 0 ∧ params.inPublicSize = authorization.length ∧
      slice template 0 authorization.length = authorization
  | .nvDefineSpace => ∀ params bytesRead,
      unmarshalNvDefineSpace env.nvDefineSpaceParams (commandBody env s) (commandBodySize s) =
        .ok (params, bytesRead) →
      params.authSize = 0 ∧ params.publicSize = authorization.length ∧
      ∃ rest, authorization ++ parameters = bytes32 params.nvIndex ++ bytes16 params.nameAlg ++
        bytes32 params.attributes ++ tpm2bBytes ⟨params.authPolicySize, params.authPolicy⟩ ++
        bytes16 params.dataSize ++ rest
  | .nvWrite => ∀ params bytesRead,
      unmarshalNvWrite env.nvWriteParams env.bytesRead (commandBody env s) (commandBodySize s) =
        .ok (params, bytesRead) →
      slice params.data.buffer 0 params.data.size = authorization ∧
      ∃ rest, parameters = bytes16 params.offset ++ rest
  | .nvRead => ∀ params bytesRead,
      unmarshalNvRead env.nvReadParams env.bytesRead (commandBody env s) (commandBodySize s) =
        .ok (params, bytesRead) →
      params.sizeToRead = authorization.length ∧
      ∃ rest, authorization ++ parameters = bytes16 params.offset ++ rest

/-- The positions of the body from which the handler takes parameters. -/
def HandleCommand.parameterReads (env : Surroundings) (s : Tpm2State) : HandleCommand → List Nat
  | .createPrimary =>
    let parse :=
      tracedCreatePrimary env.createPrimaryParams 0 (commandBody env s) (commandBodySize s)
    parse.reads ++
      match parse.1 with
      | .error _ => []
      | .ok (params, bytesRead) =>
        (tracedTemplate (commandBody env s) (bytesRead - params.inPublicSize)).2
  | .nvDefineSpace =>
    (tracedNvDefineSpace env.nvDefineSpaceParams 0 (commandBody env s) (commandBodySize s)).reads
  | .nvWrite =>
    (tracedNvWrite env.nvWriteParams env.bytesRead 0 (commandBody env s)
      (commandBodySize s)).reads
  | .nvRead =>
    (tracedNvRead env.nvReadParams env.bytesRead 0 (commandBody env s) (commandBodySize s)).reads

/-- The law for a session command pending in `s` and the plain command pending in `s'`. -/
structure NotMisparsed (host : Host) (env : Surroundings) (cmd : HandleCommand)
    (s s' : Tpm2State) (authorization : List UInt8) : Prop where
  agrees : FailsOrAgrees s (step host s (.write env tpm2CmdReg 1))
    (step host s' (.write env tpm2CmdReg 1))
  untouched : ∀ position ∈ cmd.parameterReads env s,
    position < cmd.handleLength + 4 ∨ cmd.handleLength + 4 + authorization.length ≤ position

/-- The area is empty, or the body ends before a parameter would be read from it; and with
an empty area CreatePrimary and NV_DefineSpace ask for the same as without its size. -/
def HandleCommand.Harmless (env : Surroundings) (s s' : Tpm2State)
    (authorization parameters : List UInt8) : HandleCommand → Prop
  | .createPrimary => authorization = [] ∧ ∀ params template, Creates env s params template →
      ∃ params' template', Creates env s' params' template' ∧
        ((hierarchySeed s params.primaryHandle).isSome → TemplatesAgree template template' ∧
          (inSensitiveOf params).userAuth = (inSensitiveOf params').userAuth)
  | .nvDefineSpace => authorization.length + parameters.length < 4 ∨
      (authorization = [] ∧ ∀ params, Defines env s params →
        ∃ params', Defines env s' params' ∧ DefinedAlike (nvPublicOf params) (nvPublicOf params'))
  | .nvWrite => authorization = []
  | .nvRead => authorization = [] ∨ authorization.length + parameters.length < 2

section Harmless

variable {host : Host} {env : Surroundings} {s s' : Tpm2State}
  {handles authorization parameters : List UInt8} (hstate : s.state = .receiving)
  (hbuffer : SessionBuffer (commandBody env s) (commandBodySize s) handles authorization
    parameters)

include hstate hbuffer

/-- The size of the area is the number of bytes to read, so an empty area asks for none. -/
theorem nvRead_fails (hhandles : handles.length = 8)
    (hcmd : get32 s.commandBuffer 6 = tpmCcNvRead)
    (h : authorization = [] ∨ authorization.length + parameters.length < 2) :
    FailsCleanly s (step host s (.write env tpm2CmdReg 1)) := by
  refine (outcome_nvRead host env hstate hcmd).rejected fun a hreads => ?_
  obtain ⟨bytesRead, hread⟩ := hreads.unmarshal
  obtain ⟨hcount, rest, hrest⟩ := hbuffer.nvRead hhandles hread
  have hnonempty := hreads.nonempty
  have hlength := congrArg List.length hrest
  simp only [List.length_append, length_bytes16] at hlength
  rw [hcount] at hnonempty
  obtain rfl | hshort := h
  · exact absurd hnonempty (by decide)
  · omega

/-- The area is the data to write, and an empty write is refused. -/
theorem nvWrite_fails (hsizes : ∀ i e, s.nvMap.lookup i = some e → e.dataLen = e.pub.dataSize)
    (hhandles : handles.length = 8) (hcmd : get32 s.commandBuffer 6 = tpmCcNvWrite)
    (h : authorization = []) : FailsCleanly s (step host s (.write env tpm2CmdReg 1)) := by
  refine (outcome_nvWrite host env hsizes hstate hcmd).rejected fun a hwrites => ?_
  obtain ⟨bytesRead, hread⟩ := hwrites.unmarshal
  have hdata := congrArg List.length (hbuffer.nvWrite hhandles hread).1
  rw [length_slice, h] at hdata
  exact absurd hwrites.writable.nonempty (by rw [hdata]; decide)

theorem nvDefineSpace_fails (hhandles : handles.length = 4)
    (hcmd : get32 s.commandBuffer 6 = tpmCcNvDefineSpace)
    (h : authorization.length + parameters.length < 4) :
    FailsCleanly s (step host s (.write env tpm2CmdReg 1)) := by
  refine (outcome_nvDefineSpace host env hstate hcmd).rejected fun params hdefines => ?_
  obtain ⟨bytesRead, hread⟩ := hdefines.unmarshal
  obtain ⟨-, -, rest, hrest⟩ := hbuffer.nvDefineSpace hhandles hread
  have hlength := congrArg List.length hrest
  simp only [List.length_append, length_bytes32] at hlength
  omega

end Harmless

section Matches

variable {host : Host} {env : Surroundings} {s s' : Tpm2State}
  (hsame : s.persistent = s'.persistent) (hstate : s.state = .receiving)
  (hstate' : s'.state = .receiving)

include hsame hstate hstate'

theorem nvDefineSpace_agrees_iff (hcmd : get32 s.commandBuffer 6 = tpmCcNvDefineSpace)
    (hcmd' : get32 s'.commandBuffer 6 = tpmCcNvDefineSpace) :
    FailsOrAgrees s (step host s (.write env tpm2CmdReg 1))
        (step host s' (.write env tpm2CmdReg 1)) ↔
      ∀ params, Defines env s params →
        ∃ params', Defines env s' params' ∧
          DefinedAlike (nvPublicOf params) (nvPublicOf params') := by
  rw [failsOrAgrees_iff hsame (outcome_nvDefineSpace host env hstate hcmd)
    (outcome_nvDefineSpace host env hstate' hcmd')]
  refine forall₂_congr fun params hdefines =>
    exists_congr fun params' => and_congr_right fun _ => ?_
  rw [Prod.mk.injEq, eq_self_iff_true, true_and, nvDefined_persistent_iff hsame hdefines.fresh]

theorem createPrimary_agrees_iff (hcmd : get32 s.commandBuffer 6 = tpmCcCreatePrimary)
    (hcmd' : get32 s'.commandBuffer 6 = tpmCcCreatePrimary)
    (hhandle : pendingHandle s = pendingHandle s') :
    FailsOrAgrees s (step host s (.write env tpm2CmdReg 1))
        (step host s' (.write env tpm2CmdReg 1)) ↔
      ∀ params template, Creates env s params template →
        ∃ params' template', Creates env s' params' template' ∧
          ((hierarchySeed s params.primaryHandle).isSome → TemplatesAgree template template' ∧
            (inSensitiveOf params).userAuth = (inSensitiveOf params').userAuth) := by
  rw [failsOrAgrees_iff hsame (outcome_createPrimary host env hstate hcmd)
    (outcome_createPrimary host env hstate' hcmd')]
  have hhandles : ∀ {params params' template template'}, Creates env s params template →
      Creates env s' params' template' → params.primaryHandle = params'.primaryHandle := fun h h' =>
    h.requests.handle.trans (hhandle.trans h'.requests.handle.symm)
  constructor
  · intro h params template hcreates
    obtain ⟨b, hcreates', heq⟩ := h (params, template) hcreates
    exact ⟨b.1, b.2, hcreates', (createResult_eq_iff hsame (hhandles hcreates hcreates')).mp heq⟩
  · intro h a hcreates
    obtain ⟨params', template', hcreates', heq⟩ := h a.1 a.2 hcreates
    exact ⟨(params', template'), hcreates',
      (createResult_eq_iff hsame (hhandles hcreates hcreates')).mpr heq⟩

end Matches

theorem notMisparsed_iff {host : Host} {env : Surroundings} {cmd : HandleCommand}
    {s s' : Tpm2State} {authorization : List UInt8} :
    NotMisparsed host env cmd s s' authorization ↔
      FailsOrAgrees s (step host s (.write env tpm2CmdReg 1))
        (step host s' (.write env tpm2CmdReg 1)) ∧
      ∀ position ∈ cmd.parameterReads env s,
        position < cmd.handleLength + 4 ∨
          cmd.handleLength + 4 + authorization.length ≤ position :=
  ⟨fun h => ⟨h.1, h.2⟩, fun h => ⟨h.1, h.2⟩⟩

theorem SessionBuffer.misreads_createPrimary {env : Surroundings} {s : Tpm2State}
    {handles authorization parameters : List UInt8}
    (h : SessionBuffer (commandBody env s) (commandBodySize s) handles authorization parameters)
    (hhandles : handles.length = 4) :
    HandleCommand.createPrimary.Misreads env s authorization parameters := by
  have hparse := h.createPrimary hhandles env.createPrimaryParams
  refine ⟨_, _, ⟨_, hparse, rfl⟩, rfl, rfl, ?_⟩
  have harea := (starts_append.mp h.words.2.2).1.2
  rw [hhandles] at harea
  rw [slice_advance, Nat.add_zero, Nat.add_sub_cancel]
  exact harea

theorem SessionBuffer.parameterReads_createPrimary {env : Surroundings} {s : Tpm2State}
    {handles authorization parameters : List UInt8}
    (h : SessionBuffer (commandBody env s) (commandBodySize s) handles authorization parameters)
    (hhandles : handles.length = 4) :
    HandleCommand.createPrimary.parameterReads env s =
      (tracedCreatePrimary env.createPrimaryParams 0 (commandBody env s)
        (commandBodySize s)).reads ++ (tracedTemplate (commandBody env s) 8).2 := by
  have hparse := h.createPrimary hhandles env.createPrimaryParams
  rw [← (safeUnmarshal_createPrimary env.createPrimaryParams).erases 0] at hparse
  simp only [HandleCommand.parameterReads, hparse, Nat.add_sub_cancel]

/-- The authorization area of a session command is read as parameters. The law holds
exactly of the commands whose area is empty or that end before a parameter would be read
from it, with the condition on what CreatePrimary and NV_DefineSpace then ask for. -/
theorem sessionCommand_iff {host : Host} (env : Surroundings) (cmd : HandleCommand)
    {s s' : Tpm2State} {handles authorization parameters : List UInt8} (hs : Reachable host s)
    (hs' : Reachable host s') (hsame : s.persistent = s'.persistent)
    (hhandles : handles.length = cmd.handleLength)
    (h : Pending s (sessionCommand cmd handles authorization parameters))
    (h' : Pending s' (plainCommand cmd handles parameters)) :
    dispatchedCode s = some cmd.code ∧ cmd.Misreads env s authorization parameters ∧
    (NotMisparsed host env cmd s s' authorization ↔
      cmd.Harmless env s s' authorization parameters) := by
  have hcode : cmd.code < 2 ^ 32 := by cases cmd <;> decide
  have hvalid : isValidCcCommand cmd.code := by cases cmd <;> decide
  have hmax := (transportInvariant_reachable hs).cmdSize_le
  obtain ⟨hcmd, hsize, hbody⟩ := h.fields hmax hcode
  obtain ⟨hcmd', -, hbody'⟩ := h'.fields (transportInvariant_reachable hs').cmdSize_le hcode
  have hbuffer := sessionBuffer_of_starts env hsize hbody
  have hbytes : ∀ k < handles.length, s.commandBuffer (10 + k) = s'.commandBuffer (10 + k) :=
    fun k hk => (starts_append.mp hbody).1.congr (starts_append.mp hbody').1 hk
  refine ⟨h.dispatched (keyInvariant_reachable hs).mode hmax (.inr rfl) hvalid hcode, ?_⟩
  rw [notMisparsed_iff]
  cases cmd with
  | createPrimary =>
      refine ⟨hbuffer.misreads_createPrimary hhandles, ?_⟩
      have huntouched := untouched_createPrimary env.createPrimaryParams (commandBody env s)
        (commandBodySize s) authorization
      rw [hbuffer.parameterReads_createPrimary hhandles, createPrimary_agrees_iff hsame h.state
        h'.state hcmd hcmd' (get32_congr fun k hk => hbytes k (hhandles ▸ hk))]
      exact (and_congr_right fun _ => huntouched).trans and_comm
  | nvDefineSpace =>
      refine ⟨fun _ _ => hbuffer.nvDefineSpace hhandles, ?_⟩
      have huntouched := hbuffer.untouched_nvDefineSpace hhandles env.nvDefineSpaceParams
      refine (and_congr_right fun _ => huntouched).trans ?_
      by_cases hshort : authorization.length + parameters.length < 4
      · exact iff_of_true ⟨.inl (nvDefineSpace_fails h.state hbuffer hhandles hcmd hshort),
          .inr hshort⟩ (.inl hshort)
      · rw [or_iff_left hshort, nvDefineSpace_agrees_iff hsame h.state h'.state hcmd hcmd']
        exact and_comm.trans (or_iff_right hshort).symm
  | nvWrite =>
      refine ⟨fun _ _ => hbuffer.nvWrite hhandles, ?_⟩
      have huntouched := hbuffer.untouched_nvWrite hhandles env.nvWriteParams env.bytesRead
      refine (and_congr_right fun _ => huntouched).trans (and_iff_right_of_imp fun hempty => ?_)
      exact .inl (nvWrite_fails h.state hbuffer (fun _ _ => (bankInvariant_reachable hs).sizes)
        hhandles hcmd hempty)
  | nvRead =>
      refine ⟨fun _ _ => hbuffer.nvRead hhandles, ?_⟩
      have huntouched := hbuffer.untouched_nvRead hhandles env.nvReadParams env.bytesRead
      refine (and_congr_right fun _ => huntouched).trans (and_iff_right_of_imp fun hharmless => ?_)
      exact .inl (nvRead_fails h.state hbuffer hhandles hcmd hharmless)

def nvHandles : List UInt8 := [0x40, 0x00, 0x00, 0x0C, 0x01, 0x00, 0x00, 0x01]

/-- Two bodies that both start with an empty area and go on with the same type of key, not
ECC, ask for the same. -/
theorem creates_alike {env : Surroundings} {s s' : Tpm2State}
    {handles parameters parameters' : List UInt8} (hhandles : handles.length = 4)
    (hbuffer : SessionBuffer (commandBody env s) (commandBodySize s) handles [] parameters)
    (hbuffer' : SessionBuffer (commandBody env s') (commandBodySize s') handles [] parameters')
    (hcode' : dispatchedCode s' = some tpmCcCreatePrimary)
    (htype : get16 (commandBody env s) 8 = get16 (commandBody env s') 8)
    (hecc : get16 (commandBody env s) 8 ≠ tpmAlgEcc) {params : CreatePrimaryParams}
    {template : Nat → UInt8} (h : Creates env s params template) :
    ∃ params' template', Creates env s' params' template' ∧ TemplatesAgree template template' ∧
      (inSensitiveOf params).userAuth = (inSensitiveOf params').userAuth := by
  obtain ⟨rfl, rfl⟩ := Requests.unique ⟨_, hbuffer.createPrimary hhandles _, rfl⟩ h.requests
  refine ⟨_, _, ⟨hcode', _, hbuffer'.createPrimary hhandles _, rfl⟩, ⟨?_, fun hbad => ?_⟩, rfl⟩
  · rw [get16_advance, get16_advance]
    exact htype
  · rw [get16_advance] at hbad
    exact absurd hbad hecc

/-- With an empty area and eight zero bytes a creation asks for no type of key with the
area and without it, and is answered the same. -/
theorem sessionCommand_iff_empty :
    let handles : List UInt8 := [0x40, 0x00, 0x00, 0x01]
    let s := pendingCommand [] (sessionCommand .createPrimary handles [] (List.replicate 8 0))
    let s' := pendingCommand [] (plainCommand .createPrimary handles (List.replicate 8 0))
    let t := step referenceHost s (.write zeroSurroundings tpm2CmdReg 1)
    (responseHeader t).code = tpmRcAsymmetric ∧
      NotMisparsed referenceHost zeroSurroundings .createPrimary s s' [] := by
  intro handles s s' t
  have hsame : s.persistent = s'.persistent :=
    (persistent_transmit _ _ _ _).trans (persistent_transmit _ _ _ _).symm
  have hpending : Pending s (sessionCommand .createPrimary handles [] (List.replicate 8 0)) :=
    ⟨by decide +kernel, by decide +kernel, by decide +kernel⟩
  have hpending' : Pending s' (plainCommand .createPrimary handles (List.replicate 8 0)) :=
    ⟨by decide +kernel, by decide +kernel, by decide +kernel⟩
  have hcode' : dispatchedCode s' = some tpmCcCreatePrimary := by decide +kernel
  have hbuffer : SessionBuffer (commandBody zeroSurroundings s) (commandBodySize s) handles []
      (List.replicate 8 0) := ⟨by decide, by decide +kernel⟩
  -- The first four of the eight zero bytes pass for such an area as well.
  have hbuffer' : SessionBuffer (commandBody zeroSurroundings s') (commandBodySize s') handles []
      (List.replicate 4 0) := ⟨by decide, by decide +kernel⟩
  refine ⟨by decide +kernel, (sessionCommand_iff zeroSurroundings .createPrimary
    (reachable_pendingCommand _ _) (reachable_pendingCommand _ _) hsame rfl hpending
    hpending').2.2.mpr ⟨rfl, ?_⟩⟩
  intro params template hcreates
  obtain ⟨params', template', hcreates', hagrees⟩ := creates_alike rfl hbuffer hbuffer' hcode'
    (by decide +kernel) (by decide +kernel) hcreates
  exact ⟨params', template', hcreates', fun _ => hagrees⟩

/-- The firmware's write as a session command with four bytes of authorization. -/
def cmdNvWriteSession : List UInt8 :=
  sessionCommand .nvWrite nvHandles [0xDE, 0xAD, 0xBE, 0xEF] (cmdNvWrite.drop 18)

theorem nvBank_session_ne :
    slice (step referenceHost (pendingCommand [cmdNvDefineSpace] cmdNvWriteSession)
        (.write zeroSurroundings tpm2CmdReg 1)).nvBank 64 4 ≠
      slice (step referenceHost (pendingCommand [cmdNvDefineSpace] cmdNvWrite)
        (.write zeroSurroundings tpm2CmdReg 1)).nvBank 64 4 := by
  decide +kernel

/-- Instead of the firmware's text the session command stores its authorization, and a
read of the index shows it. -/
theorem sessionCommand_fails :
    let s := pendingCommand [cmdNvDefineSpace] cmdNvWriteSession
    let t := step referenceHost s (.write zeroSurroundings tpm2CmdReg 1)
    let t' := step referenceHost (pendingCommand [cmdNvDefineSpace] cmdNvWrite)
      (.write zeroSurroundings tpm2CmdReg 1)
    plainCommand .nvWrite nvHandles (cmdNvWrite.drop 18) = cmdNvWrite ∧
      (responseHeader t).code = tpmRcSuccess ∧ (responseHeader t').code = tpmRcSuccess ∧
      slice (afterCommands [cmdNvDefineSpace, cmdNvWriteSession, cmdNvRead]).responseBuffer 12 4 =
        [0xDE, 0xAD, 0xBE, 0xEF] ∧
      12 ∈ HandleCommand.nvWrite.parameterReads zeroSurroundings s ∧ ¬ FailsOrAgrees s t t' := by
  intro s t t'
  have hcode : (responseHeader t).code = tpmRcSuccess := by decide +kernel
  refine ⟨by decide +kernel, hcode, by decide +kernel, by decide +kernel, by decide +kernel, ?_⟩
  rintro (hfails | hagrees)
  · exact hfails.1 hcode
  · exact nvBank_session_ne (congrArg (slice · 64 4) (SameNv.of_persistent hagrees.2).bank)

end TpmEmulator

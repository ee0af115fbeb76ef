import TpmEmulator.ParameterGrammar
import TpmEmulator.StaleBytes
import TpmEmulator.Library.StructLayout

/-!
Where CreatePrimary reads the template. The handler finds the template at the end of
what the unmarshaller consumed and reads it a second time by hand, without its size.
`tracedTemplate` is that parse together with the positions it reads. They lie inside
the template exactly when the template holds the fixed members and, for ECC, the curve
identifier behind the policy that it announces.
-/
namespace TpmEmulator

open CellMemory BigEndian Framing StructLayout

def tracedGet16 (cmdBody : Nat → UInt8) (position : Nat) : Nat × List Nat :=
  (get16 cmdBody position, List.range' position 2)

def tracedGet32 (cmdBody : Nat → UInt8) (position : Nat) : Nat × List Nat :=
  (get32 cmdBody position, List.range' position 4)

/-- The parse of the template at `start` and the positions of the body that it reads. -/
def tracedTemplate (cmdBody : Nat → UInt8) (start : Nat) : TpmtPublic × List Nat :=
  let type := tracedGet16 cmdBody start
  let nameAlg := tracedGet16 cmdBody (start + 2)
  let objectAttributes := tracedGet32 cmdBody (start + 4)
  let authPolicySize := tracedGet16 cmdBody (start + 8)
  let inPublic :=
    { TpmtPublic.zero with
      type := type.1, nameAlg := nameAlg.1, objectAttributes := objectAttributes.1 }
  let reads := type.2 ++ nameAlg.2 ++ objectAttributes.2 ++ authPolicySize.2
  if type.1 = tpmAlgEcc then
    let curveId := tracedGet16 cmdBody (start + (10 + authPolicySize.1 + 4))
    ({ inPublic with curveId := curveId.1 }, reads ++ curveId.2)
  else (inPublic, reads)

def announcedSize (pubBuf : Nat → UInt8) : Nat :=
  if get16 pubBuf 0 = tpmAlgEcc then curveIdOffset pubBuf + 2 else 10 + get16 pubBuf 8

section Positions

variable (cmdBody : Nat → UInt8) (start : Nat)

theorem tracedTemplate_fst :
    (tracedTemplate cmdBody start).1 = parseTemplate (advance cmdBody start) := by
  simp only [tracedTemplate, tracedGet16, tracedGet32, parseTemplate, curveIdOffset, get16_advance,
    get32_advance, Nat.add_zero]
  by_cases htype : get16 cmdBody start = tpmAlgEcc
  · simp only [htype, if_true]
  · simp only [htype, if_false]
    rfl

theorem mem_tracedTemplate (position : Nat) :
    position ∈ (tracedTemplate cmdBody start).2 ↔
      (start ≤ position ∧ position < start + 10) ∨
      (get16 (advance cmdBody start) 0 = tpmAlgEcc ∧
        start + curveIdOffset (advance cmdBody start) ≤ position ∧
        position < start + curveIdOffset (advance cmdBody start) + 2) := by
  simp only [tracedTemplate, tracedGet16, tracedGet32, curveIdOffset, get16_advance, Nat.add_zero]
  by_cases htype : get16 cmdBody start = tpmAlgEcc
  · simp only [htype, if_true, true_and, List.mem_append, List.mem_range'_1]
    omega
  · simp only [htype, if_false, false_and, or_false, List.mem_append, List.mem_range'_1]
    omega

/-- The positions are those of a template of `inPublicSize` bytes exactly when it is long
enough for what is read. -/
theorem reads_inside_iff (inPublicSize : Nat) :
    (∀ position ∈ (tracedTemplate cmdBody start).2,
      start ≤ position ∧ position < start + inPublicSize) ↔
    10 ≤ inPublicSize ∧ (get16 (advance cmdBody start) 0 = tpmAlgEcc →
      curveIdOffset (advance cmdBody start) + 2 ≤ inPublicSize) := by
  simp only [mem_tracedTemplate]
  constructor
  · intro h
    refine ⟨?_, fun htype => ?_⟩
    · have hlast := h (start + 9) (.inl (by omega))
      omega
    · have hlast := h (start + curveIdOffset (advance cmdBody start) + 1)
        (.inr ⟨htype, by omega, by omega⟩)
      omega
  · rintro ⟨hfixed, hcurve⟩ position (hposition | ⟨htype, hposition⟩)
    · omega
    · have hend := hcurve htype
      omega

end Positions

section Echo

variable (host : Host) (s : Tpm2State) (params : CreatePrimaryParams) {pubBuf seed : Nat → UInt8}

theorem starts_createPrimary (hseed : hierarchySeed s params.primaryHandle = some seed)
    (htype : get16 pubBuf 0 = tpmAlgEcc) :
    Starts (respond (createPrimaryFrom host s params pubBuf)).responseBuffer responseBufferSize
      tpmRspHeaderSize
      (createPrimaryParts (primaryResponse host s params pubBuf seed)).flatten := by
  have hlength := length_primaryResponse host s params pubBuf seed
  rw [createPrimaryFrom_created host s params pubBuf hseed htype]
  refine ⟨?_, ?_⟩
  · simp only [responseBufferSize, tpmRspHeaderSize] at hlength ⊢
    omega
  · rw [slice_responseBody _ hlength]
    exact slice_store_same _ _ _

theorem curveId_echoed (hseed : hierarchySeed s params.primaryHandle = some seed)
    (htype : get16 pubBuf 0 = tpmAlgEcc) :
    get16 (respond (createPrimaryFrom host s params pubBuf)).responseBuffer 30 =
      get16 pubBuf (curveIdOffset pubBuf) := by
  have h := starts_createPrimary host s params hseed htype
  have hbytes := slice_store_same zeroBytes 0 (outPublicBytes
    (primaryOutPublic host (parseTemplate pubBuf) (primaryPrivate host seed)).publicArea)
  have hecc : (primaryOutPublic host (parseTemplate pubBuf)
    (primaryPrivate host seed)).publicArea.type = tpmAlgEcc := htype
  simp only [createPrimaryParts, primaryResponse, createPrimaryResponse, tpm2bBytes,
    List.flatten_cons, hbytes, starts_append] at h
  obtain ⟨-, ⟨-, houtPublic⟩, -⟩ := h
  simp only [outPublicBytes, if_pos hecc, List.append_assoc, starts_append, length_bytes16,
    length_bytes32, List.length_cons, List.length_nil, tpmRspHeaderSize, Nat.reduceAdd]
    at houtPublic
  obtain ⟨-, -, -, -, -, -, hcurve, -⟩ := houtPublic
  rw [← curveId_parseTemplate htype]
  exact (get16_of_slice hcurve.2).trans
    (Nat.mod_eq_of_lt (curveId_parseTemplate htype ▸ get16_lt _ _))

end Echo

/-- What should hold when the template of `inPublicSize` bytes at `start` of the body has
been answered with `t`: it is read inside, if it is too short for its fields the answer
is an error, and the curve identifier of a successful answer is taken from it. -/
structure TemplateConfined (cmdBody : Nat → UInt8) (start inPublicSize : Nat) (t : Tpm2State) :
    Prop where
  reads : ∀ position ∈ (tracedTemplate cmdBody start).2,
    start ≤ position ∧ position < start + inPublicSize
  tooShort : inPublicSize < announcedSize (advance cmdBody start) →
    IsErrorCode (responseHeader t).code
  echo : (responseHeader t).code = tpmRcSuccess → ∃ k, k + 2 ≤ inPublicSize ∧
    get16 t.responseBuffer 30 = get16 cmdBody (start + k)

theorem TemplateConfined.of_error {cmdBody : Nat → UInt8} {start inPublicSize rc : Nat}
    {s : Tpm2State} (hrc : IsErrorCode rc)
    (hreads : ∀ position ∈ (tracedTemplate cmdBody start).2,
      start ≤ position ∧ position < start + inPublicSize) :
    TemplateConfined cmdBody start inPublicSize (respond (.error rc, s)) := by
  have hcode : (responseHeader (respond (.error rc, s))).code = rc := by
    rw [responseHeader_error s hrc]
  refine ⟨hreads, fun _ => ?_, fun hsuccess => ?_⟩
  · rwa [hcode]
  · exact absurd (hcode.symm.trans hsuccess) hrc.1

/-- A template that the unmarshaller accepts is confined exactly when it holds the fixed
members and, for ECC, the curve identifier behind its policy. -/
theorem templateConfined_iff (host : Host) (env : Surroundings) (s : Tpm2State)
    {cmdBody : Nat → UInt8} {bodySize bytesRead : Nat} {params : CreatePrimaryParams}
    (hread : unmarshalCreatePrimary env.createPrimaryParams cmdBody bodySize =
      .ok (params, bytesRead)) :
    let start := bytesRead - params.inPublicSize
    let pubBuf := advance cmdBody start
    start + params.inPublicSize ≤ bodySize ∧
    (tracedTemplate cmdBody start).1 = parseTemplate pubBuf ∧
    (TemplateConfined cmdBody start params.inPublicSize
        (respond (handleCreatePrimary host env s cmdBody bodySize)) ↔
      10 ≤ params.inPublicSize ∧
        (get16 pubBuf 0 = tpmAlgEcc → curveIdOffset pubBuf + 2 ≤ params.inPublicSize)) := by
  intro start pubBuf
  obtain ⟨hle, hconsumed⟩ := unmarshalCreatePrimary_ok hread
  refine ⟨by omega, tracedTemplate_fst cmdBody start, ?_⟩
  rw [← reads_inside_iff cmdBody start]
  refine ⟨fun h => h.reads, fun hreads => ?_⟩
  have hreply : handleCreatePrimary host env s cmdBody bodySize =
      createPrimaryFrom host s params pubBuf := by
    simp only [handleCreatePrimary, hread]
    rfl
  rw [hreply]
  cases hseed : hierarchySeed s params.primaryHandle with
  | none =>
      rw [createPrimaryFrom_no_hierarchy host s params pubBuf hseed]
      exact .of_error (by decide) hreads
  | some seed =>
      by_cases htype : get16 pubBuf 0 = tpmAlgEcc
      swap
      · rw [createPrimaryFrom_not_ecc host s params pubBuf hseed htype]
        exact .of_error (by decide) hreads
      have hfits := ((reads_inside_iff cmdBody start _).mp hreads).2 htype
      refine ⟨hreads, fun hshort => ?_, fun _ => ⟨curveIdOffset pubBuf, hfits, ?_⟩⟩
      · rw [announcedSize, if_pos htype] at hshort
        omega
      · rw [curveId_echoed host s params hseed htype, get16_advance]

theorem templateConfined_iff_firmware :
    let body : Nat → UInt8 := ((cmdCreatePrimary.drop 10).getD · 0)
    ∃ params bytesRead,
      unmarshalCreatePrimary zeroSurroundings.createPrimaryParams body 58 =
        .ok (params, bytesRead) ∧
      TemplateConfined body (bytesRead - params.inPublicSize) params.inPublicSize
        (respond (handleCreatePrimary referenceHost zeroSurroundings (afterCommands [])
          body 58)) := by
  intro body
  have hok : (unmarshalCreatePrimary zeroSurroundings.createPrimaryParams body 58).toOption.map
      (fun result => (result.1.inPublicSize, result.2)) = some (34, 52) := by decide +kernel
  obtain ⟨⟨params, bytesRead⟩, hread, hview⟩ := ok_of_toOption hok
  obtain ⟨hpublic, hbytes⟩ : params.inPublicSize = 34 ∧ bytesRead = 52 := Prod.mk.inj hview
  refine ⟨params, bytesRead, hread,
    (templateConfined_iff referenceHost zeroSurroundings (afterCommands []) hread).2.2.mpr ?_⟩
  rw [hpublic, hbytes]
  exact ⟨by decide, fun _ => by decide +kernel⟩

def cmdCreatePrimaryLongPolicy : List UInt8 := cmdCreatePrimary.set 36 0x08

/-- The members of `TPM2State` behind `command_buffer`, up to the seed of the platform. -/
def membersBehind (s : Tpm2State) : List UInt8 :=
  slice s.responseBuffer 0 responseBufferSize ++ leBytes 4 s.cmdSize ++ leBytes 4 s.respSize ++
    leBytes 4 s.respIdx ++ leBytes 4 s.state.value ++ leBytes 4 s.tpmMode.ctorIdx ++
    slice s.pps 0 32

/-- The curve identifier is read behind the command buffer, and the response shows what
lies there: two bytes of the seed. -/
theorem templateConfined_fails :
    let s := pendingCommand [] cmdCreatePrimaryLongPolicy
    let env : Surroundings := { zeroSurroundings with
      pastCommandBuffer := fun i => (membersBehind (accept s)).getD (i - commandBufferSize) 0 }
    let t := step referenceHost s (.write env tpm2CmdReg 1)
    (∃ result, unmarshalCreatePrimary env.createPrimaryParams (commandBody env s)
        (commandBodySize s) = .ok result ∧ (result.1.inPublicSize, result.2) = (34, 52)) ∧
      2080 ∈ (tracedTemplate (commandBody env s) 18).2 ∧
      (responseHeader t).code = tpmRcSuccess ∧ get16 t.responseBuffer 30 = 0x4647 ∧
      bytes16 0x4647 = slice s.pps 22 2 ∧
      (∀ k < 33, get16 (commandBody env s) (18 + k) ≠ 0x4647) ∧
      ¬ TemplateConfined (commandBody env s) 18 34 t := by
  intro s env t
  have hread : 2080 ∈ (tracedTemplate (commandBody env s) 18).2 := by decide +kernel
  refine ⟨ok_of_toOption (by decide +kernel), hread, by decide +kernel, by decide +kernel,
    by decide +kernel, by decide +kernel, fun hconfined => ?_⟩
  have hinside := (hconfined.reads 2080 hread).2
  omega

end TpmEmulator

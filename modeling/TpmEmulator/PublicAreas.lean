import TpmEmulator.PendingCommands
import TpmEmulator.PrimaryKeys
import TpmEmulator.ResponseCodec
import TpmEmulator.TemplateReads

/-!
The public areas that CreatePrimary takes and returns. The handler parses a template and
writes a public area with its own pair of layouts. What it writes it parses back, so a
returned public area is a template for the same object. It does not write all that a
template can ask for, and it does not parse what the firmware writes: the firmware spends
six bytes each on the symmetric algorithm and the scheme, the parser two.
-/
namespace TpmEmulator

open CellMemory BigEndian Framing

/-- The body of a CreatePrimary command with an authorization value and no data. Of the
parameters in `rest` the handler reads nothing. -/
def createBody (primaryHandle : Nat) (userAuth inPublic rest : List UInt8) : List UInt8 :=
  bytes32 primaryHandle ++ (bytes16 (4 + userAuth.length) ++
    ((bytes16 userAuth.length ++ userAuth) ++ (bytes16 0 ++
      (bytes16 inPublic.length ++ (inPublic ++ rest)))))

def createCommand (tag primaryHandle : Nat) (userAuth inPublic rest : List UInt8) : List UInt8 :=
  commandBytes tag tpmCcCreatePrimary (createBody primaryHandle userAuth inPublic rest)

theorem length_createCommand (tag primaryHandle : Nat) (userAuth inPublic rest : List UInt8) :
    (createCommand tag primaryHandle userAuth inPublic rest).length =
      22 + userAuth.length + inPublic.length + rest.length := by
  simp only [createCommand, commandBytes, headerBytes, createBody, List.length_append,
    length_bytes16, length_bytes32]
  omega

theorem unmarshalCreatePrimary_createBody (locals : CreatePrimaryParams) {buffer : Nat → UInt8}
    {size primaryHandle : Nat} {userAuth inPublic rest : List UInt8}
    (h : Starts buffer size 0 (createBody primaryHandle userAuth inPublic rest))
    (hhandle : primaryHandle < 2 ^ 32) (hauth : userAuth.length ≤ 64)
    (hpublic : inPublic.length < 2 ^ 16) :
    unmarshalCreatePrimary locals buffer size =
        .ok (⟨primaryHandle, 4 + userAuth.length, userAuth.length, store locals.userAuth 0 userAuth,
          0, locals.data, inPublic.length⟩, 12 + userAuth.length + inPublic.length) ∧
      Starts (advance buffer (12 + userAuth.length)) (size - (12 + userAuth.length)) 0
        inPublic := by
  obtain ⟨hprimary, h⟩ := starts_append.mp h
  obtain ⟨hsensitive, h⟩ := starts_append.mp h
  obtain ⟨huserAuth, h⟩ := starts_append.mp h
  obtain ⟨hdata, h⟩ := starts_append.mp h
  obtain ⟨hinPublicSize, h⟩ := starts_append.mp h
  obtain ⟨hinPublic, -⟩ := starts_append.mp h
  have hend := hinPublic.1
  have hempty : FrameTpm2b 256 locals.data ⟨0, store locals.data 0 []⟩ (bytes16 0) :=
    ⟨[], Nat.zero_le _, rfl, rfl⟩
  constructor
  · rw [unmarshalCreatePrimary, decodes_uint32.field_starts ⟨hhandle, rfl⟩ hprimary,
      decodes_uint16.field_starts ⟨by omega, rfl⟩ hsensitive, unmarshalInSensitive,
      if_pos (by omega), (decodes_tpm2b (by decide) _).field_starts
        ⟨userAuth, hauth, rfl, rfl⟩ huserAuth,
      (decodes_tpm2b (by decide) _).field_starts hempty hdata,
      decodes_uint16.field_starts ⟨hpublic, rfl⟩ hinPublicSize, sub32_of_le (by omega),
      if_neg (by omega), store_nil]
    have hread : 0 + (bytes32 primaryHandle).length + (bytes16 (4 + userAuth.length)).length +
        (bytes16 userAuth.length ++ userAuth).length + (bytes16 0).length +
        (bytes16 inPublic.length).length + inPublic.length =
        12 + userAuth.length + inPublic.length := by
      simp only [List.length_append, length_bytes16, length_bytes32]
      omega
    rw [hread]
  · simp only [List.length_append, length_bytes16, length_bytes32] at hinPublic hend
    rw [starts_advance (by omega)]
    convert hinPublic using 1
    omega

def emptyResponse : CreatePrimaryResponse := ⟨0, .zero, .zero, .zero, 0, 0, .zero, .zero⟩

structure Returns (t : Tpm2State) (outPublic name : List UInt8) : Prop where
  code : (responseHeader t).code = tpmRcSuccess
  decoded : ∃ r n, decodeCreatePrimaryResponse emptyResponse
      (advance t.responseBuffer tpmRspHeaderSize)
      ((responseHeader t).size - tpmRspHeaderSize) = .ok (r, n) ∧
    slice r.outPublic.buffer 0 r.outPublic.size = outPublic ∧
    slice r.name.buffer 0 r.name.size = name

theorem Returns.unique {t : Tpm2State} {outPublic name outPublic' name' : List UInt8}
    (h : Returns t outPublic name) (h' : Returns t outPublic' name') :
    outPublic' = outPublic ∧ name' = name := by
  obtain ⟨r, n, hr, rfl, rfl⟩ := h.decoded
  obtain ⟨r', n', hr', rfl, rfl⟩ := h'.decoded
  cases hr.symm.trans hr'
  exact ⟨rfl, rfl⟩

def createdPublic (host : Host) (template seed : Nat → UInt8) : TpmtPublic :=
  (primaryOutPublic host (parseTemplate template) (primaryPrivate host seed)).publicArea

def createdName (host : Host) (template seed : Nat → UInt8) : List UInt8 :=
  bytes16 tpmAlgSha256 ++ (host.sha256 (host.publicBytes (createdPublic host template seed))).toList

theorem length_createdName (host : Host) (template seed : Nat → UInt8) :
    (createdName host template seed).length = 34 := by
  rw [createdName, List.length_append, length_bytes16, Vector.length_toList]

theorem hierarchySeed_lt {s : Tpm2State} {primaryHandle : Nat} {seed : Nat → UInt8}
    (h : hierarchySeed s primaryHandle = some seed) : primaryHandle < 2 ^ 32 := by
  unfold hierarchySeed at h
  split at h
  · rename_i howner
    exact howner ▸ (by decide)
  split at h
  · rename_i hplatform
    exact hplatform ▸ (by decide)
  split at h
  · rename_i hendorsement
    exact hendorsement ▸ (by decide)
  · cases h

section Created

variable (host : Host) (s : Tpm2State) (params : CreatePrimaryParams) {template seed : Nat → UInt8}

theorem decode_primaryResponse (hseed : hierarchySeed s params.primaryHandle = some seed)
    {buffer : Nat → UInt8} {size : Nat}
    (h : Starts buffer size 0
      (createPrimaryParts (primaryResponse host s params template seed)).flatten) :
    ∃ r n, decodeCreatePrimaryResponse emptyResponse buffer size = .ok (r, n) ∧
      r.outPublic.Same (primaryResponse host s params template seed).outPublic ∧
      r.name.Same (primaryResponse host s params template seed).name := by
  let response := primaryResponse host s params template seed
  let truncated := { response with objectHandle := response.objectHandle % 2 ^ 32 }
  have hparts : createPrimaryParts response = createPrimaryParts truncated := by
    have hhandle : bytes32 response.objectHandle = bytes32 (response.objectHandle % 2 ^ 32) := by
      simp only [bytes32, List.cons.injEq, ← UInt8.toNat_inj, UInt8.toNat_ofNat', and_true]
      omega
    simp only [createPrimaryParts, truncated, hhandle]
  have hlength := length_outPublicBytes (createdPublic host template seed)
  have hrange : truncated.InRange := by
    exact ⟨Nat.mod_lt _ (by decide), hlength.trans (show 22 + 32 + 32 ≤ 512 by decide),
      Nat.zero_le _, Nat.zero_le _, show tpmStCreation < 2 ^ 16 by decide, hierarchySeed_lt hseed,
      Nat.zero_le _, show 34 ≤ 64 by decide⟩
  rw [hparts] at h
  obtain ⟨r, hdecode, hsame⟩ := decodeCreatePrimaryResponse_starts emptyResponse hrange h
  exact ⟨r, _, hdecode, hsame.outPublic, hsame.name⟩

theorem returns_createPrimaryFrom (hseed : hierarchySeed s params.primaryHandle = some seed)
    (htype : get16 template 0 = tpmAlgEcc) :
    Returns (respond (createPrimaryFrom host s params template))
      (outPublicBytes (createdPublic host template seed)) (createdName host template seed) := by
  have hlength := length_primaryResponse host s params template seed
  have hstarts := starts_createPrimary host s params hseed htype
  rw [createPrimaryFrom_created host s params template hseed htype] at hstarts ⊢
  have hheader := responseHeader_ok { primaryCreated host s params template seed with
    responseBuffer := store s.responseBuffer tpmRspHeaderSize
      (createPrimaryParts (primaryResponse host s params template seed)).flatten } hlength
  refine ⟨by rw [hheader], ?_⟩
  rw [hheader, Nat.add_sub_cancel_left]
  obtain ⟨r, n, hdecode, houtPublic, hname⟩ := decode_primaryResponse host s params hseed
    (show Starts (advance _ tpmRspHeaderSize) _ 0 _ from ⟨(Nat.zero_add _).le, by
      rw [slice_advance]; exact hstarts.2⟩)
  refine ⟨r, n, hdecode, houtPublic.2.trans ?_, hname.2.trans ?_⟩
  · exact slice_store_same zeroBytes 0 (outPublicBytes (createdPublic host template seed))
  · have hstored : slice (store zeroBytes 0 (createdName host template seed)) 0 34 =
        createdName host template seed := by
      have hsame := slice_store_same zeroBytes 0 (createdName host template seed)
      rwa [length_createdName] at hsame
    change slice (store zeroBytes 0 (slice (store zeroBytes 0 (createdName host template seed)) 0
      34)) 0 34 = createdName host template seed
    rw [hstored, hstored]

end Created

section Executed

variable {host : Host} {env : Surroundings} {s : Tpm2State} {params : CreatePrimaryParams}
  {template seed : Nat → UInt8}

/-- An accepted request for a known hierarchy and an ECC template is answered with the key. -/
theorem Creates.returns (host : Host) (h : Creates env s params template)
    (hstate : s.state = .receiving) (hseed : hierarchySeed s params.primaryHandle = some seed)
    (htype : get16 template 0 = tpmAlgEcc) :
    Returns (step host s (.write env tpm2CmdReg 1))
      (outPublicBytes (createdPublic host template seed)) (createdName host template seed) := by
  rw [step_executes host ⟨rfl, hstate⟩, h.reply host]
  exact returns_createPrimaryFrom host (accept s) params hseed htype

theorem Creates.success (h : Creates env s params template) (hstate : s.state = .receiving)
    (hcode : (responseHeader (step host s (.write env tpm2CmdReg 1))).code = tpmRcSuccess) :
    ∃ seed, hierarchySeed s params.primaryHandle = some seed ∧ get16 template 0 = tpmAlgEcc := by
  have hreply := congrArg Prod.fst (h.reply host)
  cases hseed : hierarchySeed s params.primaryHandle with
  | none =>
      rw [createPrimaryFrom_no_hierarchy host (accept s) params template hseed] at hreply
      exact absurd ((code_error hstate hreply).symm.trans hcode) (by decide)
  | some seed =>
      refine ⟨seed, rfl, by_contra fun htype => ?_⟩
      rw [createPrimaryFrom_not_ecc host (accept s) params template hseed htype] at hreply
      exact absurd ((code_error hstate hreply).symm.trans hcode) (by decide)

theorem Returns.creates {outPublic name : List UInt8} (hstate : s.state = .receiving)
    (hcmd : get32 s.commandBuffer 6 = tpmCcCreatePrimary)
    (h : Returns (step host s (.write env tpm2CmdReg 1)) outPublic name) :
    ∃ params template seed, Creates env s params template ∧
      hierarchySeed s params.primaryHandle = some seed ∧ get16 template 0 = tpmAlgEcc ∧
      outPublic = outPublicBytes (createdPublic host template seed) ∧
      name = createdName host template seed := by
  have hdispatched := dispatchedCode_of_success hstate hcmd h.code
  obtain ⟨rc, hrc, -, heq⟩ | ⟨params, template, hrequests, -⟩ :=
    createPrimary_effect host env s hdispatched
  · exact absurd ((code_error hstate (congrArg Prod.fst heq)).symm.trans h.code) hrc.1
  · have hcreates : Creates env s params template := ⟨hdispatched, hrequests⟩
    obtain ⟨seed, hseed, htype⟩ := hcreates.success hstate h.code
    obtain ⟨houtPublic, hname⟩ := (hcreates.returns host hstate hseed htype).unique h
    exact ⟨params, template, seed, hcreates, hseed, htype, houtPublic, hname⟩

end Executed

/-- What the parser finds in a public area that was returned: the fields of the template,
without its policy. -/
theorem created_fields (host : Host) {template seed m : Nat → UInt8} {size : Nat}
    (htype : get16 template 0 = tpmAlgEcc)
    (h : Starts m size 0 (outPublicBytes (createdPublic host template seed))) :
    get16 m 0 = tpmAlgEcc ∧ get16 m 2 = get16 template 2 ∧ get32 m 4 = get32 template 4 ∧
      get16 m 8 = 0 ∧ get16 m (curveIdOffset m) = get16 template (curveIdOffset template) := by
  have hecc : (createdPublic host template seed).type = tpmAlgEcc := htype
  have hcurveId : (createdPublic host template seed).curveId =
      get16 template (curveIdOffset template) := curveId_parseTemplate htype
  simp only [outPublicBytes, if_pos hecc, List.append_assoc, starts_append, length_bytes16,
    length_bytes32, List.length_cons, List.length_nil, Nat.reduceAdd] at h
  obtain ⟨htypeBytes, hnameAlg, hattributes, hpolicy, -, -, hcurve, -⟩ := h
  have hpolicySize : get16 m 8 = 0 := get16_of_slice (n := 0) hpolicy.2
  refine ⟨?_, ?_, ?_, hpolicySize, ?_⟩
  · rw [get16_of_slice htypeBytes.2, hecc]
    decide
  · exact (get16_of_slice hnameAlg.2).trans (Nat.mod_eq_of_lt (get16_lt template 2))
  · exact (get32_of_slice hattributes.2).trans (Nat.mod_eq_of_lt (get32_lt template 4))
  · rw [curveIdOffset, hpolicySize, get16_of_slice hcurve.2, hcurveId]
    exact Nat.mod_eq_of_lt (get16_lt template _)

theorem parseTemplate_created (host : Host) {template seed m : Nat → UInt8} {size : Nat}
    (htype : get16 template 0 = tpmAlgEcc)
    (h : Starts m size 0 (outPublicBytes (createdPublic host template seed))) :
    parseTemplate m = parseTemplate template := by
  obtain ⟨htype', hnameAlg, hattributes, -, hcurve⟩ := created_fields host htype h
  refine parseTemplate_congr (htype'.trans htype.symm) hnameAlg hattributes ?_
  rw [curveId_parseTemplate htype', curveId_parseTemplate htype, hcurve]

/-- Commands, resets and whatever else the guest does leave the seeds alone. -/
theorem hierarchySeed_reachable {host : Host} {s s' : Tpm2State} (h : Reachable host s)
    (h' : Reachable host s') (primaryHandle : Nat) :
    hierarchySeed s' primaryHandle = hierarchySeed s primaryHandle := by
  have hkeys := keyInvariant_reachable h
  have hkeys' := keyInvariant_reachable h'
  have hsps : s'.sps = s.sps := hkeys'.sps.trans hkeys.sps.symm
  have hpps : s'.pps = s.pps := hkeys'.pps.trans hkeys.pps.symm
  have heps : s'.eps = s.eps := hkeys'.eps.trans hkeys.eps.symm
  rw [hierarchySeed, hierarchySeed, hsps, hpps, heps]

theorem Pending.creates {host : Host} {s : Tpm2State} (hreach : Reachable host s)
    {tag primaryHandle : Nat} {userAuth inPublic rest : List UInt8}
    (h : Pending s (createCommand tag primaryHandle userAuth inPublic rest))
    (htag : tag = tpmStNoSessions ∨ tag = tpmStSessions) (hhandle : primaryHandle < 2 ^ 32)
    (hauth : userAuth.length ≤ 64) (env : Surroundings) :
    ∃ params template, Creates env s params template ∧ params.primaryHandle = primaryHandle ∧
      params.inPublicSize = inPublic.length ∧ ∃ size, Starts template size 0 inPublic := by
  have hmax := (transportInvariant_reachable hreach).cmdSize_le
  obtain ⟨-, hsize, hbody⟩ := h.fields hmax (by decide)
  have hstarts := starts_commandBody env hbody
  have hpublic : inPublic.length < 2 ^ 16 := by
    have hlength := hbody.1
    simp only [createBody, List.length_append, commandBufferSize] at hlength
    omega
  obtain ⟨hread, htemplate⟩ := unmarshalCreatePrimary_createBody
    env.createPrimaryParams hstarts hhandle hauth hpublic
  have hcreates : Creates env s _ _ := ⟨h.dispatched (keyInvariant_reachable hreach).mode hmax htag
    (by decide) (by decide), _, hsize ▸ hread, rfl⟩
  rw [Nat.add_sub_cancel] at hcreates
  exact ⟨_, _, hcreates, rfl, rfl, _, htemplate⟩

def p256Template (nameAlg : Nat) : List UInt8 :=
  bytes16 tpmAlgEcc ++ (bytes16 nameAlg ++ (bytes32 0x00030072 ++ (bytes16 0 ++
    ([0x00, 0x10, 0x00, 0x10] ++ bytes16 tpmEccNistP256))))

theorem p256Template_fields {nameAlg size : Nat} (halg : nameAlg < 2 ^ 16) {m : Nat → UInt8}
    (h : Starts m size 0 (p256Template nameAlg)) :
    get16 m 0 = tpmAlgEcc ∧ get16 m 2 = nameAlg ∧ get16 m 8 = 0 ∧
      get16 m (curveIdOffset m) = tpmEccNistP256 ∧ announcedSize m = 16 := by
  obtain ⟨htype, h⟩ := starts_append.mp h
  obtain ⟨hnameAlg, h⟩ := starts_append.mp h
  obtain ⟨-, h⟩ := starts_append.mp h
  obtain ⟨hpolicy, h⟩ := starts_append.mp h
  obtain ⟨-, hcurve⟩ := starts_append.mp h
  have hecc : get16 m 0 = tpmAlgEcc := ((starts_bytes16 (by decide)).mp htype).2
  have hsize : get16 m 8 = 0 := ((starts_bytes16 (by decide)).mp hpolicy).2
  have hoffset : curveIdOffset m = 14 := by rw [curveIdOffset, hsize]
  refine ⟨hecc, ((starts_bytes16 halg).mp hnameAlg).2, hsize, ?_, ?_⟩
  · rw [hoffset]
    exact ((starts_bytes16 (by decide)).mp hcurve).2
  · rw [announcedSize, if_pos hecc, hoffset]

def pendingP256 (nameAlg : Nat) : Tpm2State :=
  pendingCommand [] (createCommand tpmStNoSessions tpmRhOwner [] (p256Template nameAlg) [])

theorem pending_pendingP256 (nameAlg : Nat) : Pending (pendingP256 nameAlg)
    (createCommand tpmStNoSessions tpmRhOwner [] (p256Template nameAlg) []) :=
  pending_transmit referenceHost zeroSurroundings (afterCommands []) (show 38 ≤ 1024 by decide)

theorem pendingP256_returns {nameAlg : Nat} (halg : nameAlg < 2 ^ 16) :
    ∃ params template seed, Creates zeroSurroundings (pendingP256 nameAlg) params template ∧
      params.inPublicSize = 16 ∧ (∃ size, Starts template size 0 (p256Template nameAlg)) ∧
      Returns (step referenceHost (pendingP256 nameAlg) (.write zeroSurroundings tpm2CmdReg 1))
        (outPublicBytes (createdPublic referenceHost template seed))
        (createdName referenceHost template seed) := by
  have hpending := pending_pendingP256 nameAlg
  obtain ⟨params, template, hcreates, hhandle, hsize, size, hstarts⟩ :=
    hpending.creates (reachable_pendingCommand [] _) (.inl rfl) (by decide) (by decide)
      zeroSurroundings
  have hseed : hierarchySeed (pendingP256 nameAlg) params.primaryHandle =
      some (pendingP256 nameAlg).sps := by
    rw [hhandle]
    exact if_pos rfl
  exact ⟨params, template, _, hcreates, hsize, ⟨size, hstarts⟩,
    hcreates.returns referenceHost hpending.state hseed (p256Template_fields halg hstarts).1⟩

/-- CreatePrimary is idempotent: a returned public area, submitted for the same hierarchy
after whatever the guest has done in between, gives the same public area and name. -/
theorem createPrimary_idempotent {host : Host} {s : Tpm2State} (hreach : Reachable host s)
    {env env' : Surroundings} (hstate : s.state = .receiving)
    (hcmd : get32 s.commandBuffer 6 = tpmCcCreatePrimary) {outPublic name : List UInt8}
    (hfirst : Returns (step host s (.write env tpm2CmdReg 1)) outPublic name)
    (accesses : List Access) {tag : Nat} (htag : tag = tpmStNoSessions ∨ tag = tpmStSessions)
    {userAuth rest : List UInt8} (hauth : userAuth.length ≤ 64)
    (hpending : Pending
      (Runs.run (step host) (step host s (.write env tpm2CmdReg 1)) accesses)
      (createCommand tag (pendingHandle s) userAuth outPublic rest)) :
    Returns
      (step host (Runs.run (step host) (step host s (.write env tpm2CmdReg 1)) accesses)
        (.write env' tpm2CmdReg 1)) outPublic name := by
  have hreach' := (hreach.next (.write env tpm2CmdReg 1)).run accesses
  generalize Runs.run (step host) (step host s (.write env tpm2CmdReg 1)) accesses = s'
    at hpending hreach' ⊢
  obtain ⟨params, template, seed, hcreates, hseed, htype, rfl, rfl⟩ := hfirst.creates hstate hcmd
  have hhandle := hcreates.requests.handle
  rw [hhandle] at hseed
  obtain ⟨params', template', hcreates', hhandle', -, size, htemplate⟩ :=
    hpending.creates hreach' htag (hierarchySeed_lt hseed) hauth env'
  have hparse := parseTemplate_created host htype htemplate
  have hseed' : hierarchySeed s' params'.primaryHandle = some seed := by
    rw [hhandle', hierarchySeed_reachable hreach hreach', hseed]
  have htype' : get16 template' 0 = tpmAlgEcc := (created_fields host htype htemplate).1
  have hreturns := hcreates'.returns host hpending.state hseed' htype'
  rw [createdName, createdPublic, hparse] at hreturns
  exact hreturns

/-- The key of the owner hierarchy twice, the second time from the public area of the
first. -/
theorem createPrimary_idempotent_p256 :
    let t := step referenceHost (pendingP256 tpmAlgSha256) (.write zeroSurroundings tpm2CmdReg 1)
    ∃ outPublic name, Returns t outPublic name ∧
      Returns (step referenceHost (Runs.run (step referenceHost) t (transmit zeroSurroundings
          (createCommand tpmStNoSessions (pendingHandle (pendingP256 tpmAlgSha256)) []
            outPublic []))) (.write zeroSurroundings tpm2CmdReg 1)) outPublic name := by
  intro t
  have hpending := pending_pendingP256 tpmAlgSha256
  have hreach : Reachable referenceHost (pendingP256 tpmAlgSha256) := reachable_pendingCommand [] _
  have hcmd := (hpending.fields (transportInvariant_reachable hreach).cmdSize_le (by decide)).1
  obtain ⟨params, template, seed, -, -, -, hreturns⟩ := pendingP256_returns
    (show tpmAlgSha256 < 2 ^ 16 by decide)
  have hlength := length_outPublicBytes (createdPublic referenceHost template seed)
  have hsizes : (createdPublic referenceHost template seed).x.size = 32 ∧
      (createdPublic referenceHost template seed).y.size = 32 := ⟨rfl, rfl⟩
  refine ⟨_, _, hreturns, createPrimary_idempotent hreach hpending.state hcmd hreturns _ (.inl rfl)
    (Nat.zero_le _) (pending_transmit referenceHost zeroSurroundings t ?_)⟩
  rw [length_createCommand, List.length_nil]
  omega

/-- The public area and the name describe the key of the template: the fields are those
of the template, the name is made with its hash algorithm, and the curve is the one that
the generator uses. -/
structure DescribesKey (template : Nat → UInt8) (outPublic name : List UInt8) : Prop where
  type : get16 (outPublic.getD · 0) 0 = get16 template 0
  nameAlg : get16 (outPublic.getD · 0) 2 = get16 template 2
  objectAttributes : get32 (outPublic.getD · 0) 4 = get32 template 4
  policySize : get16 (outPublic.getD · 0) 8 = get16 template 8
  policy : slice (outPublic.getD · 0) 10 (get16 template 8) = slice template 10 (get16 template 8)
  curveId : get16 (outPublic.getD · 0) (curveIdOffset (outPublic.getD · 0)) =
    get16 template (curveIdOffset template)
  nameHash : name.take 2 = bytes16 (get16 template 2)
  curve : get16 template (curveIdOffset template) = tpmEccNistP256

theorem starts_getD (bytes : List UInt8) : Starts (bytes.getD · 0) bytes.length 0 bytes := by
  refine ⟨(Nat.zero_add _).le, List.ext_getElem (length_slice _ _ _) fun i h₁ h₂ => ?_⟩
  rw [getElem_slice, Nat.zero_add]
  simp [h₂]

/-- What is returned describes the key exactly for the values that the handler and the
name computation have written into them. -/
theorem describesKey_iff (host : Host) {template seed : Nat → UInt8}
    (htype : get16 template 0 = tpmAlgEcc) :
    DescribesKey template (outPublicBytes (createdPublic host template seed))
        (createdName host template seed) ↔
      get16 template 8 = 0 ∧ get16 template 2 = tpmAlgSha256 ∧
        get16 template (curveIdOffset template) = tpmEccNistP256 := by
  obtain ⟨htype', hnameAlg, hattributes, hpolicySize, hcurve⟩ := created_fields host htype
    (starts_getD (outPublicBytes (createdPublic host template seed)))
  have hname : (createdName host template seed).take 2 = bytes16 tpmAlgSha256 :=
    List.take_left' (length_bytes16 _)
  constructor
  · intro h
    refine ⟨h.policySize.symm.trans hpolicySize, ?_, h.curve⟩
    exact (bytes16_inj (by decide) (get16_lt template 2) (hname.symm.trans h.nameHash)).symm
  · rintro ⟨hpolicy, halg, hp256⟩
    refine ⟨htype'.trans htype.symm, hnameAlg, hattributes, hpolicySize.trans hpolicy.symm, ?_,
      hcurve, ?_, hp256⟩
    · rw [hpolicy]
      rfl
    · rw [hname, halg]

/-- The law of the public area holds of a request exactly when its template is cut off, or
it is refused for its hierarchy or its type, or the template asks for an empty policy, a
SHA-256 name and the P-256 curve. -/
theorem publicArea_iff {host : Host} {env : Surroundings} {s : Tpm2State}
    {params : CreatePrimaryParams} {template : Nat → UInt8} (hstate : s.state = .receiving)
    (hcreates : Creates env s params template) :
    let t := step host s (.write env tpm2CmdReg 1)
    (announcedSize template ≤ params.inPublicSize →
        ∀ outPublic name, Returns t outPublic name → DescribesKey template outPublic name) ↔
      params.inPublicSize < announcedSize template ∨
        (hierarchySeed s params.primaryHandle = none ∨ get16 template 0 ≠ tpmAlgEcc) ∨
        (get16 template 8 = 0 ∧ get16 template 2 = tpmAlgSha256 ∧
          get16 template (curveIdOffset template) = tpmEccNistP256) := by
  intro t
  constructor
  · intro hlaw
    by_contra hnot
    obtain ⟨hinside, hrefused, hother⟩ := not_or.mp hnot |>.imp_right not_or.mp
    obtain ⟨hknown, htype⟩ := not_or.mp hrefused
    obtain ⟨seed, hseed⟩ := Option.ne_none_iff_exists'.mp hknown
    rw [not_not] at htype
    exact hother ((describesKey_iff host htype).mp
      (hlaw (not_lt.mp hinside) _ _ (hcreates.returns host hstate hseed htype)))
  · intro hcases hinside outPublic name hreturns
    obtain ⟨seed, hseed, htype⟩ := hcreates.success hstate hreturns.code
    obtain ⟨rfl, rfl⟩ := (hcreates.returns host hstate hseed htype).unique hreturns
    rcases hcases with hcut | (hnone | hother) | hthree
    · exact absurd hcut (Nat.not_lt.mpr hinside)
    · rw [hnone] at hseed
      cases hseed
    · exact absurd htype hother
    · exact (describesKey_iff host htype).mpr hthree

theorem publicArea_iff_p256 :
    let t := step referenceHost (pendingP256 tpmAlgSha256) (.write zeroSurroundings tpm2CmdReg 1)
    ∃ params template, Creates zeroSurroundings (pendingP256 tpmAlgSha256) params template ∧
      (announcedSize template ≤ params.inPublicSize →
        ∀ outPublic name, Returns t outPublic name → DescribesKey template outPublic name) := by
  intro t
  obtain ⟨params, template, seed, hcreates, -, ⟨size, hstarts⟩, -⟩ := pendingP256_returns
    (show tpmAlgSha256 < 2 ^ 16 by decide)
  obtain ⟨-, hnameAlg, hpolicy, hcurve, -⟩ := p256Template_fields (by decide) hstarts
  exact ⟨params, template, hcreates, (publicArea_iff (pending_pendingP256 tpmAlgSha256).state
    hcreates).mpr (.inr (.inr ⟨hpolicy, hnameAlg, hcurve⟩))⟩

/-- A template that asks for SHA-384 names: the public area repeats it and the name is made
with SHA-256. -/
theorem publicArea_fails :
    let t := step referenceHost (pendingP256 0x000C) (.write zeroSurroundings tpm2CmdReg 1)
    ∃ params template outPublic name,
      Creates zeroSurroundings (pendingP256 0x000C) params template ∧
      announcedSize template ≤ params.inPublicSize ∧ Returns t outPublic name ∧
      get16 (outPublic.getD · 0) 2 = 0x000C ∧ name.take 2 = [0x00, 0x0B] ∧
      ¬ DescribesKey template outPublic name := by
  intro t
  obtain ⟨params, template, seed, hcreates, hsize, ⟨size, hstarts⟩, hreturns⟩ :=
    pendingP256_returns (show 0x000C < 2 ^ 16 by decide)
  obtain ⟨htype, hnameAlg, -, -, hannounced⟩ := p256Template_fields (by decide) hstarts
  refine ⟨params, template, _, _, hcreates, (hannounced.trans hsize.symm).le, hreturns, ?_,
    List.take_left' (length_bytes16 _), fun hdescribes => ?_⟩
  · rw [(created_fields referenceHost htype (starts_getD _)).2.1, hnameAlg]
  · have hsha := ((describesKey_iff referenceHost htype).mp hdescribes).2.1
    rw [hnameAlg] at hsha
    exact absurd hsha (by decide)

/-- The template in the layout of `CMD_CREATE_PRIMARY`: six bytes each for the symmetric
algorithm, the scheme and the key derivation function. -/
def firmwareTemplate (objectAttributes curveId : Nat) : List UInt8 :=
  bytes16 tpmAlgEcc ++ (bytes16 tpmAlgSha256 ++ (bytes32 objectAttributes ++ (bytes16 0 ++
    ([0x00, 0x10, 0x00, 0x00, 0x00, 0x00] ++ ([0x00, 0x10, 0x00, 0x00, 0x00, 0x00] ++
      (bytes16 curveId ++ ([0x00, 0x10, 0x00, 0x00, 0x00, 0x00] ++ (bytes16 0 ++ bytes16 0))))))))

def firmwareCommand (objectAttributes curveId : Nat) (userAuth : List UInt8) : List UInt8 :=
  createCommand tpmStNoSessions tpmRhOwner userAuth (firmwareTemplate objectAttributes curveId)
    (bytes16 0 ++ bytes32 0)

example : firmwareCommand 0x00030072 tpmEccNistP256 [0x70, 0x61, 0x73, 0x73, 0x77, 0x64] =
    cmdCreatePrimary := by decide

/-- What the handler reads of it. The curve identifier is taken from the middle of the
symmetric algorithm. -/
theorem firmwareTemplate_fields {objectAttributes curveId size : Nat}
    (hattributes : objectAttributes < 2 ^ 32) {m : Nat → UInt8}
    (h : Starts m size 0 (firmwareTemplate objectAttributes curveId)) :
    get16 m 0 = tpmAlgEcc ∧ get32 m 4 = objectAttributes ∧ get16 m (curveIdOffset m) = 0 := by
  obtain ⟨htype, h⟩ := starts_append.mp h
  obtain ⟨-, h⟩ := starts_append.mp h
  obtain ⟨hobject, h⟩ := starts_append.mp h
  obtain ⟨hpolicy, h⟩ := starts_append.mp h
  obtain ⟨hsymmetric, -⟩ := starts_append.mp h
  have hsize : get16 m 8 = 0 := ((starts_bytes16 (by decide)).mp hpolicy).2
  have hlast : Starts m size 14 (bytes16 0) :=
    (starts_append (a := [0x00, 0x10, 0x00, 0x00])).mp hsymmetric |>.2
  refine ⟨((starts_bytes16 (by decide)).mp htype).2,
    ((starts_bytes32 hattributes).mp hobject).2, ?_⟩
  rw [curveIdOffset, hsize]
  exact ((starts_bytes16 (by decide)).mp hlast).2

/-- The two sides agree on a command with these attributes and this curve: the handler
decodes them, and the public area in the response reports them. -/
structure TemplateAgrees (env : Surroundings) (s t : Tpm2State) (objectAttributes curveId : Nat) :
    Prop where
  decoded : ∃ params template, Creates env s params template ∧
    (parseTemplate template).objectAttributes = objectAttributes ∧
    (parseTemplate template).curveId = curveId
  reported : ∃ outPublic name, Returns t outPublic name ∧
    get32 (outPublic.getD · 0) 4 = objectAttributes ∧
    get16 (outPublic.getD · 0) (curveIdOffset (outPublic.getD · 0)) = curveId

/-- Every such command is answered with success, with its attributes and with curve 0, so
the sides agree exactly when curve 0 was meant. -/
theorem firmwareTemplate_iff {host : Host} {s : Tpm2State} (hreach : Reachable host s)
    (env : Surroundings) {objectAttributes curveId : Nat} {userAuth : List UInt8}
    (hattributes : objectAttributes < 2 ^ 32) (hauth : userAuth.length ≤ 64)
    (hpending : Pending s (firmwareCommand objectAttributes curveId userAuth)) :
    let t := step host s (.write env tpm2CmdReg 1)
    TemplateAgrees env s t objectAttributes 0 ∧
      (TemplateAgrees env s t objectAttributes curveId ↔ curveId = 0) := by
  intro t
  obtain ⟨params, template, hcreates, hhandle, -, size, hstarts⟩ :=
    hpending.creates hreach (.inl rfl) (by decide) hauth env
  obtain ⟨htype, hobject, hzero⟩ := firmwareTemplate_fields hattributes hstarts
  have hseed : hierarchySeed s params.primaryHandle = some s.sps := by
    rw [hhandle]
    exact if_pos rfl
  have hreturns := hcreates.returns host hpending.state hseed htype
  obtain ⟨-, -, hreported, -, hcurveId⟩ := created_fields host htype
    (starts_getD (outPublicBytes (createdPublic host template s.sps)))
  have hagrees : TemplateAgrees env s t objectAttributes 0 :=
    ⟨⟨params, template, hcreates, hobject, (curveId_parseTemplate htype).trans hzero⟩,
      _, _, hreturns, hreported.trans hobject, hcurveId.trans hzero⟩
  refine ⟨hagrees, fun hlaw => ?_, fun hcurve => hcurve ▸ hagrees⟩
  obtain ⟨params', template', hcreates', -, hdecoded⟩ := hlaw.decoded
  obtain ⟨-, rfl⟩ := hcreates.requests.unique hcreates'.requests
  exact hdecoded.symm.trans ((curveId_parseTemplate htype).trans hzero)

theorem firmwareTemplate_iff_zero :
    let s := pendingCommand [] (firmwareCommand 0x00030072 0 [])
    TemplateAgrees zeroSurroundings s
      (step referenceHost s (.write zeroSurroundings tpm2CmdReg 1)) 0x00030072 0 := by
  intro s
  have hpending : Pending s (firmwareCommand 0x00030072 0 []) :=
    pending_transmit referenceHost zeroSurroundings (afterCommands []) (by decide)
  exact (firmwareTemplate_iff (reachable_pendingCommand [] _) zeroSurroundings (by decide)
    (by decide) hpending).2.mpr rfl

/-- The command that the firmware sends means P-256, and its answer says curve 0. -/
theorem firmwareTemplate_fails :
    let s := pendingCommand [] cmdCreatePrimary
    let t := step referenceHost s (.write zeroSurroundings tpm2CmdReg 1)
    cmdCreatePrimary = firmwareCommand 0x00030072 tpmEccNistP256
        [0x70, 0x61, 0x73, 0x73, 0x77, 0x64] ∧
      (responseHeader t).code = tpmRcSuccess ∧ get16 t.responseBuffer 30 = 0 ∧
      ¬ TemplateAgrees zeroSurroundings s t 0x00030072 tpmEccNistP256 := by
  intro s t
  refine ⟨by decide, by decide +kernel, by decide +kernel, fun hlaw => ?_⟩
  obtain ⟨params, template, hcreates, -, hdecoded⟩ := hlaw.decoded
  have hpending : Pending s (firmwareCommand 0x00030072 tpmEccNistP256
      [0x70, 0x61, 0x73, 0x73, 0x77, 0x64]) :=
    pending_transmit referenceHost zeroSurroundings (afterCommands []) (by decide)
  obtain ⟨params', template', hcreates', -, -, size, hstarts⟩ :=
    hpending.creates (reachable_pendingCommand [] _) (.inl rfl) (by decide) (by decide)
      zeroSurroundings
  obtain ⟨-, rfl⟩ := hcreates.requests.unique hcreates'.requests
  obtain ⟨htype, -, hzero⟩ := firmwareTemplate_fields (by decide) hstarts
  rw [curveId_parseTemplate htype, hzero] at hdecoded
  exact absurd hdecoded (by decide)

end TpmEmulator

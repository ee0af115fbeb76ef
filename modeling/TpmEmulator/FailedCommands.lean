import TpmEmulator.CommandGate

/-!
What a command that fails leaves behind. The NV commands check before they change
anything, so a failed one leaves the NV store and the primary object as they were.
CreatePrimary does not: the handler advances the handle counter before it calls the
back end, and the back end overwrites the sensitive area before it looks at the
type of the template.
-/
namespace TpmEmulator

open CellMemory BigEndian

/-- The command code in the buffer is the one that is dispatched, if any. -/
theorem dispatchedCode_eq {s : Tpm2State} {code : Nat} (h : get32 s.commandBuffer 6 = code) :
    dispatchedCode s = none ∨ dispatchedCode s = some code := by
  cases hcode : dispatchedCode s with
  | none => exact .inl rfl
  | some code' =>
      obtain ⟨-, -, -, -, -, -, hbuffer⟩ := dispatchedCode_some hcode
      rw [← hbuffer, h]
      exact .inr rfl

section Executed

variable {host : Host} {env : Surroundings} {s : Tpm2State}

/-- What holds of the state that the reply is given in holds after the response. -/
theorem same_execute (hstate : s.state = .receiving)
    (h : SamePrimary s (executeReply host env s).2 ∧ SameNv s (executeReply host env s).2) :
    SamePrimary s (step host s (.write env tpm2CmdReg 1)) ∧
      SameNv s (step host s (.write env tpm2CmdReg 1)) := by
  have hpersistent := persistent_execute host env hstate
  exact ⟨h.1.trans (.of_persistent hpersistent), h.2.trans (.of_persistent hpersistent)⟩

theorem same_rejected (hstate : s.state = .receiving) (h : dispatchedCode s = none) :
    SamePrimary s (step host s (.write env tpm2CmdReg 1)) ∧
      SameNv s (step host s (.write env tpm2CmdReg 1)) := by
  obtain ⟨rc, t, -, heq, hsame, -⟩ := executeReply_rejected host env h
  refine same_execute hstate ?_
  rw [heq]
  exact ⟨.of_persistent hsame, .of_persistent hsame⟩

theorem same_accepted (hstate : s.state = .receiving) {report : Except Nat Nat}
    (h : executeReply host env s = (report, accept s)) :
    SamePrimary s (step host s (.write env tpm2CmdReg 1)) ∧
      SameNv s (step host s (.write env tpm2CmdReg 1)) := by
  refine same_execute hstate ?_
  rw [h]
  exact ⟨⟨rfl, rfl, rfl, rfl⟩, ⟨rfl, rfl, rfl, rfl, rfl, rfl⟩⟩

theorem code_ok (hstate : s.state = .receiving) {bodySize : Nat}
    (h : (executeReply host env s).1 = .ok bodySize) :
    (responseHeader (step host s (.write env tpm2CmdReg 1))).code = tpmRcSuccess :=
  ((answers_execute host env hstate).ok h).1

theorem code_error (hstate : s.state = .receiving) {rc : Nat}
    (h : (executeReply host env s).1 = .error rc) :
    (responseHeader (step host s (.write env tpm2CmdReg 1))).code = rc :=
  ((answers_execute host env hstate).error h).1

end Executed

/-- The back end rejects what the unmarshaller has accepted. -/
def CreationFails (env : Surroundings) (s : Tpm2State) : Prop :=
  dispatchedCode s = some tpmCcCreatePrimary ∧
    ∃ params template, Requests env s params template ∧
      (hierarchySeed s params.primaryHandle = none ∨ get16 template 0 ≠ tpmAlgEcc)

theorem advance_ne (n : Nat) : (n + 1) % 2 ^ 32 ≠ n := by
  omega

/-- A creation that fails in the back end has advanced the handle counter. -/
theorem creationFails_effect (host : Host) {env : Surroundings} {s : Tpm2State}
    (h : CreationFails env s) :
    ∃ rc, (executeReply host env s).1 = .error rc ∧ IsErrorCode rc ∧
      (executeReply host env s).2.nextTransientHandle ≠ s.nextTransientHandle := by
  obtain ⟨hcode, params, template, hrequests, hfails⟩ := h
  obtain ⟨rc, -, hnone, -⟩ | ⟨params', template', hrequests', hcases⟩ :=
    createPrimary_effect host env s hcode
  · exact absurd hrequests (hnone params template)
  obtain ⟨rfl, rfl⟩ := hrequests.unique hrequests'
  obtain ⟨-, heq⟩ | ⟨seed, -, -, heq⟩ | ⟨seed, hseed, htype, -⟩ := hcases
  · rw [heq]
    exact ⟨_, rfl, by decide, advance_ne _⟩
  · rw [heq]
    exact ⟨_, rfl, by decide, advance_ne _⟩
  · obtain hnone | htype' := hfails
    · cases hnone.symm.trans hseed
    · exact absurd htype htype'

/-- A CreatePrimary command that fails changes nothing exactly when the back end is
not what rejects it. -/
theorem createPrimary_failure_iff (host : Host) (env : Surroundings) {s : Tpm2State}
    (hstate : s.state = .receiving) (hcmd : get32 s.commandBuffer 6 = tpmCcCreatePrimary) :
    let t := step host s (.write env tpm2CmdReg 1)
    ((responseHeader t).code ≠ tpmRcSuccess → SamePrimary s t ∧ SameNv s t) ↔
      ¬ CreationFails env s := by
  intro t
  constructor
  · intro hkeeps hfails
    obtain ⟨rc, hreport, hrc, hhandle⟩ := creationFails_effect host hfails
    have hcode : (responseHeader t).code = rc := code_error hstate hreport
    have hsame := (hkeeps (hcode ▸ hrc.1)).1.handle
    have hpersistent := SamePrimary.of_persistent (persistent_execute host env hstate)
    exact hhandle (hpersistent.handle.symm.trans hsame)
  · intro hnot hcode
    obtain hnone | hdispatched := dispatchedCode_eq hcmd
    · exact same_rejected hstate hnone
    obtain ⟨rc, -, -, heq⟩ | ⟨params, template, hrequests, hcases⟩ :=
      createPrimary_effect host env s hdispatched
    · exact same_accepted hstate heq
    obtain ⟨hseed, -⟩ | ⟨seed, -, htype, -⟩ | ⟨seed, -, -, heq⟩ := hcases
    · exact absurd ⟨hdispatched, params, template, hrequests, .inl hseed⟩ hnot
    · exact absurd ⟨hdispatched, params, template, hrequests, .inr htype⟩ hnot
    · exact absurd (code_ok hstate (congrArg Prod.fst heq)) hcode

/-- The firmware's command with the type of an RSA key. -/
def cmdCreatePrimaryRsa : List UInt8 := cmdCreatePrimary.set 29 0x01

/-- The firmware's command with a tag that the header validator rejects. -/
def cmdCreatePrimaryBadTag : List UInt8 := cmdCreatePrimary.set 0 0x00

theorem createPrimary_failure_iff_badTag :
    let s := pendingCommand [] cmdCreatePrimaryBadTag
    let t := step referenceHost s (.write zeroSurroundings tpm2CmdReg 1)
    s.state = .receiving ∧ get32 s.commandBuffer 6 = tpmCcCreatePrimary ∧
      (responseHeader t).code = tpmRcBadTag ∧ SamePrimary s t := by
  intro s t
  have hstate : s.state = .receiving := by decide +kernel
  have hcmd : get32 s.commandBuffer 6 = tpmCcCreatePrimary := by decide +kernel
  have hcode : (responseHeader t).code = tpmRcBadTag := by decide +kernel
  have hnone : dispatchedCode s = none := by decide +kernel
  have hnot : ¬ CreationFails zeroSurroundings s := fun h => by
    cases hnone.symm.trans h.1
  have hkeeps := (createPrimary_failure_iff referenceHost zeroSurroundings hstate hcmd).mpr hnot
  exact ⟨hstate, hcmd, hcode, (hkeeps (hcode ▸ by decide)).1⟩

theorem createPrimary_failure_changes :
    let s := pendingCommand [] cmdCreatePrimaryRsa
    let t := step referenceHost s (.write zeroSurroundings tpm2CmdReg 1)
    s.state = .receiving ∧ (responseHeader t).code = tpmRcAsymmetric ∧
      s.nextTransientHandle = 1 ∧ t.nextTransientHandle = 2 ∧
      s.primarySensitive.ecc.size = 32 ∧ t.primarySensitive.ecc.size = 0 := by
  decide +kernel

/-- A failed NV command leaves the NV store and the primary object alone, and so does
NV_Read when it succeeds. -/
theorem nvCommand_failure_same {host : Host} (env : Surroundings) {s : Tpm2State}
    (h : Reachable host s) (hstate : s.state = .receiving)
    (hcmd : get32 s.commandBuffer 6 = tpmCcNvDefineSpace ∨
      get32 s.commandBuffer 6 = tpmCcNvWrite ∨ get32 s.commandBuffer 6 = tpmCcNvRead) :
    let t := step host s (.write env tpm2CmdReg 1)
    ((responseHeader t).code ≠ tpmRcSuccess ∨ get32 s.commandBuffer 6 = tpmCcNvRead) →
      SamePrimary s t ∧ SameNv s t := by
  intro t hfails
  have hsizes : ∀ i e, s.nvMap.lookup i = some e → e.dataLen = e.pub.dataSize := fun _ _ =>
    (bankInvariant_reachable h).sizes
  obtain hcmd | hcmd | hcmd := hcmd
  · obtain hnone | hdispatched := dispatchedCode_eq hcmd
    · exact same_rejected hstate hnone
    obtain ⟨rc, -, heq⟩ | ⟨params, hdefines⟩ := nvDefineSpace_effect host env s hdispatched
    · exact same_accepted hstate heq
    · obtain hcode | hread := hfails
      · exact absurd (code_ok hstate (congrArg Prod.fst (hdefines.reply host))) hcode
      · exact absurd (hcmd.symm.trans hread) (by decide)
  · obtain hnone | hdispatched := dispatchedCode_eq hcmd
    · exact same_rejected hstate hnone
    obtain ⟨rc, -, heq⟩ | ⟨params, e, hwrites⟩ := nvWrite_effect host env s hdispatched hsizes
    · exact same_accepted hstate heq
    · obtain hcode | hread := hfails
      · exact absurd (code_ok hstate (congrArg Prod.fst (hwrites.reply host))) hcode
      · exact absurd (hcmd.symm.trans hread) (by decide)
  · obtain hnone | hdispatched := dispatchedCode_eq hcmd
    · exact same_rejected hstate hnone
    have hsame := nvRead_persistent host env s hdispatched
    exact same_execute hstate ⟨.of_persistent hsame, .of_persistent hsame⟩

theorem nvCommand_failure_same_undefined :
    let s := pendingCommand [] cmdNvWrite
    let t := step referenceHost s (.write zeroSurroundings tpm2CmdReg 1)
    s.state = .receiving ∧ (responseHeader t).code = tpmRcHandle ∧ t.nvCount = s.nvCount := by
  intro s t
  have hstate : s.state = .receiving := by decide +kernel
  have hcmd : get32 s.commandBuffer 6 = tpmCcNvWrite := by decide +kernel
  have hcode : (responseHeader t).code = tpmRcHandle := by decide +kernel
  have hsame := nvCommand_failure_same zeroSurroundings (reachable_pendingCommand [] cmdNvWrite)
    hstate (.inr (.inl hcmd)) (.inl (hcode ▸ by decide))
  exact ⟨hstate, hcode, hsame.2.count⟩

end TpmEmulator

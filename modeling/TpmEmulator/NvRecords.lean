import TpmEmulator.NvCommands

/-!
What the two NV commands that change the store report and record. `TPM2_NV_Write`
stores under one condition on the entry and the request, but one of the branches that
store nothing returns the success code. A definition records the index and its size;
`nv_entry_alloc` clears the place of the policy and is not given the authorization
value, so neither is in the new entry.
-/
namespace TpmEmulator

open CellMemory BigEndian

/-- What a successful write leaves: the ciphertext in its place in the bank, both written
flags of the entry, and everything else as it was. -/
structure WriteStored (host : Host) (s : Tpm2State) (nvIndex : Nat) (e : NvEntry) (data : Tpm2b)
    (offset : Nat) (t : Tpm2State) : Prop where
  stored : slice t.nvBank (e.data + offset) data.size =
    CipherFeedback.encrypt (· ^^^ ·)
      (host.aesBlock (slice s.primarySensitive.ecc.buffer 0 s.primarySensitive.ecc.size))
      (slice s.nvBank e.ivPtr 16) (slice data.buffer 0 data.size)
  elsewhere : ∀ i, i < e.data + offset ∨ e.data + offset + data.size ≤ i →
    t.nvBank i = s.nvBank i
  flags : t.nvMap = s.nvMap.insert nvIndex
    { e with written := true, pub := { e.pub with
        attributes := { e.pub.attributes with written := true } } }
  frame : t = { s with nvBank := t.nvBank, nvMap := t.nvMap }

/-- Success is reported exactly when the write is allowed. An allowed write is stored and
any other changes nothing. -/
def ReportsStored (host : Host) (s : Tpm2State) (authHandle : Provision) (nvIndex : Nat)
    (data : Tpm2b) (offset : Nat) : Prop :=
  let result := tpm2NvWrite host s authHandle nvIndex data offset
  (result.1 = tpmRcSuccess ↔
    ∃ e, s.nvMap.lookup nvIndex = some e ∧ NvWritable s e data offset) ∧
  (∀ e, s.nvMap.lookup nvIndex = some e → NvWritable s e data offset →
    WriteStored host s nvIndex e data offset result.2) ∧
  ((∀ e, s.nvMap.lookup nvIndex = some e → ¬ NvWritable s e data offset) → result.2 = s)

theorem writeStored_nvStored (host : Host) {s : Tpm2State} (nvIndex : Nat) {e : NvEntry}
    {data : Tpm2b} {offset : Nat} (h : NvWritable s e data offset) :
    WriteStored host s nvIndex e data offset (nvStored host s nvIndex e data offset) := by
  have hlength : (nvCiphertext host s e data).length = data.size := by
    rw [nvCiphertext, length_nvCrypt host s e _ true h.key, length_slice]
  have hslice := slice_store_same s.nvBank (e.data + offset) (nvCiphertext host s e data)
  rw [hlength] at hslice
  refine ⟨hslice.trans (nvCrypt_of_isKeyLength host s e _ true h.key), fun i hi => ?_, rfl, rfl⟩
  exact store_outside _ _ _ i (by rw [hlength]; exact hi)

theorem NvWriteBeyond.not_writable {s : Tpm2State} {e : NvEntry} {data : Tpm2b} {offset : Nat}
    (h : NvWriteBeyond e offset) : ¬ NvWritable s e data offset := by
  intro hwritable
  have hbeyond := h.beyond
  have hfits := hwritable.fits
  omega

/-- `TPM2_NV_Write` reports exactly what it stored unless the offset lies behind the end
of an entry that could otherwise be written. -/
theorem reportsStored_iff (host : Host) (s : Tpm2State) (authHandle : Provision) (nvIndex : Nat)
    (data : Tpm2b) (offset : Nat) :
    ReportsStored host s authHandle nvIndex data offset ↔
      ¬ ∃ e, s.nvMap.lookup nvIndex = some e ∧ e.writeLocked = false ∧
        ¬ (e.pub.attributes.nvType = tpmNtCounter ∨ e.pub.attributes.nvType = tpmNtBits ∨
          e.pub.attributes.nvType = tpmNtExtend) ∧ e.dataLen < offset := by
  constructor
  · rintro ⟨hreport, -, -⟩ ⟨e, hlookup, hunlocked, hkind, hoffset⟩
    have hbeyond : NvWriteBeyond e offset := ⟨hunlocked, hkind, hoffset⟩
    have hsuccess := congrArg Prod.fst
      (tpm2NvWrite_beyond host authHandle data hlookup hbeyond)
    obtain ⟨e', hlookup', hwritable⟩ := hreport.mp hsuccess
    cases hlookup.symm.trans hlookup'
    exact hbeyond.not_writable hwritable
  · intro hnot
    unfold ReportsStored
    obtain ⟨rc, hrc, heq⟩ | ⟨e, hlookup, hbeyond⟩ | ⟨e, hlookup, hwritable⟩ :=
      tpm2NvWrite_cases host s authHandle nvIndex data offset
    · have hfails : ∀ e, s.nvMap.lookup nvIndex = some e → ¬ NvWritable s e data offset := by
        intro e hlookup hwritable
        have hsuccess := tpm2NvWrite_stored host authHandle hlookup hwritable
        exact hrc.1 (congrArg Prod.fst (heq.symm.trans hsuccess))
      rw [heq]
      exact ⟨iff_of_false hrc.1 fun ⟨e, hlookup, hwritable⟩ => hfails e hlookup hwritable,
        fun e hlookup hwritable => absurd hwritable (hfails e hlookup), fun _ => rfl⟩
    · exact absurd ⟨e, hlookup, hbeyond.unlocked, hbeyond.kind, hbeyond.beyond⟩ hnot
    · rw [tpm2NvWrite_stored host authHandle hlookup hwritable]
      refine ⟨iff_of_true rfl ⟨e, hlookup, hwritable⟩, fun e' hlookup' _ => ?_, fun hfails => ?_⟩
      · cases hlookup.symm.trans hlookup'
        exact writeStored_nvStored host nvIndex hwritable
      · exact absurd hwritable (hfails e hlookup)

/-- Four bytes for the firmware's index of 32 bytes, at offset 33. -/
theorem reportsStored_fails :
    let s := pendingCommand [cmdNvDefineSpace] cmdNvWrite
    let result := tpm2NvWrite referenceHost s ⟨tpmRhPlatform, tpmRhPlatform, tpmRhPlatform⟩
      0x01000001 ⟨4, zeroBytes⟩ 33
    BankInvariant s.persistent ∧ (s.nvMap.lookup 0x01000001).any (fun e => e.dataLen == 32) ∧
      result.1 = tpmRcSuccess ∧ (result.2.nvMap.lookup 0x01000001).any (fun e => !e.written) :=
  ⟨bankInvariant_reachable (reachable_pendingCommand [cmdNvDefineSpace] cmdNvWrite),
    by decide +kernel⟩

/-- The entry holds what the parameters of its definition ask for. -/
structure Recorded (params : NvDefineSpaceParams) (e : NvEntry) : Prop where
  nvIndex : e.pub.nvIndex = params.nvIndex
  nameAlg : e.pub.nameAlg = params.nameAlg
  dataSize : e.pub.dataSize = params.dataSize
  authPolicy : Tpm2b.Same ⟨e.pub.authPolicySize, e.pub.authPolicy⟩
    ⟨params.authPolicySize, params.authPolicy⟩
  auth : Tpm2b.Same ⟨e.authValueLen, e.authValue⟩ ⟨params.authSize, params.auth⟩

theorem same_empty_iff {buffer : Nat → UInt8} {b : Tpm2b} :
    Tpm2b.Same ⟨0, buffer⟩ b ↔ b.size = 0 := by
  constructor
  · exact fun h => h.1.symm
  · intro h
    refine ⟨h.symm, ?_⟩
    rw [h, slice_zero, slice_zero]

theorem recorded_newEntry_iff (base : Nat) (params : NvDefineSpaceParams) :
    let nv := nvPublicOf params
    Recorded params (newEntry base nv.nvIndex nv.dataSize nv.nameAlg nv.attributes) ↔
      params.authSize = 0 ∧ params.authPolicySize = 0 := by
  constructor
  · intro h
    exact ⟨same_empty_iff.mp h.auth, same_empty_iff.mp h.authPolicy⟩
  · rintro ⟨hauth, hpolicy⟩
    exact ⟨rfl, rfl, rfl, same_empty_iff.mpr hpolicy, same_empty_iff.mpr hauth⟩

/-- The entry of an index defined by a command holds the index, the name algorithm and
the size from the command. It holds the policy and the authorization value exactly when
both are empty. -/
theorem recorded_iff (host : Host) (env : Surroundings) {s : Tpm2State}
    (hstate : s.state = .receiving) (hcmd : get32 s.commandBuffer 6 = tpmCcNvDefineSpace)
    (hcode : (responseHeader (step host s (.write env tpm2CmdReg 1))).code = tpmRcSuccess) :
    ∃ params bytesRead e,
      unmarshalNvDefineSpace env.nvDefineSpaceParams (commandBody env s) (commandBodySize s) =
        .ok (params, bytesRead) ∧
      slice (commandBody env s) 0 bytesRead = encodeNvDefineSpace params ∧
      s.nvMap.lookup params.nvIndex = none ∧
      (step host s (.write env tpm2CmdReg 1)).nvMap.lookup params.nvIndex = some e ∧
      (e.pub.nvIndex, e.pub.nameAlg, e.pub.dataSize) =
        (params.nvIndex, params.nameAlg, params.dataSize) ∧
      (Recorded params e ↔ params.authSize = 0 ∧ params.authPolicySize = 0) := by
  have hdispatched := dispatchedCode_of_success hstate hcmd hcode
  obtain ⟨rc, hrc, heq⟩ | ⟨params, hdefines⟩ := nvDefineSpace_effect host env s hdispatched
  · exact absurd ((code_error hstate (congrArg Prod.fst heq)).symm.trans hcode) hrc.1
  obtain ⟨bytesRead, hread⟩ := hdefines.unmarshal
  obtain ⟨-, rfl, hstarts⟩ := unmarshalNvDefineSpace_only hread
  have hmap : (step host s (.write env tpm2CmdReg 1)).nvMap =
      (nvDefined (accept s) (nvPublicOf params)).nvMap := by
    have hpersistent := persistent_execute host env hstate
    rw [hdefines.reply host] at hpersistent
    exact congrArg Persistent.nvMap hpersistent
  refine ⟨params, _, _, hread, hstarts.2, ?_, ?_, rfl, recorded_newEntry_iff s.nvAllocOffset params⟩
  · exact Finmap.lookup_eq_none.mpr hdefines.fresh
  · rw [hmap]
    exact Finmap.lookup_insert _

theorem recorded_iff_firmware :
    let s := pendingCommand [] cmdNvDefineSpace
    let t := step referenceHost s (.write zeroSurroundings tpm2CmdReg 1)
    (responseHeader t).code = tpmRcSuccess ∧
      ∃ params e, t.nvMap.lookup params.nvIndex = some e ∧ Recorded params e := by
  intro s t
  have hstate : s.state = .receiving := by decide +kernel
  have hcmd : get32 s.commandBuffer 6 = tpmCcNvDefineSpace := by decide +kernel
  have hcode : (responseHeader t).code = tpmRcSuccess := by decide +kernel
  have hsizes : get16 (commandBody zeroSurroundings s) 4 = 0 ∧
      get16 (commandBody zeroSurroundings s) 18 = 0 := by
    decide +kernel
  obtain ⟨params, bytesRead, e, hread, -, -, hlookup, -, hiff⟩ :=
    recorded_iff referenceHost zeroSurroundings hstate hcmd hcode
  obtain ⟨hauth, -, hpolicy, -⟩ := unmarshalNvDefineSpace_sizes hread
  rw [hsizes.1] at hauth hpolicy
  exact ⟨hcode, params, e, hlookup, hiff.mpr ⟨hauth, hpolicy.trans hsizes.2⟩⟩

/-- The firmware's definition with an authorization value and a policy of two bytes each. -/
def cmdNvDefineSpaceAuth : List UInt8 :=
  [0x80, 0x01, 0x00, 0x00, 0x00, 0x24, 0x00, 0x00, 0x01, 0x2A, 0x40, 0x00, 0x00, 0x01,
   0x00, 0x02, 0x41, 0x42, 0x00, 0x10, 0x01, 0x00, 0x00, 0x01, 0x00, 0x0B,
   0x02, 0x4C, 0x00, 0x06, 0x00, 0x02, 0x43, 0x44, 0x00, 0x20]

theorem recorded_fails :
    let s := pendingCommand [] cmdNvDefineSpaceAuth
    let t := step referenceHost s (.write zeroSurroundings tpm2CmdReg 1)
    s.state = .receiving ∧ get32 s.commandBuffer 6 = tpmCcNvDefineSpace ∧
      (responseHeader t).code = tpmRcSuccess ∧
      get16 (commandBody zeroSurroundings s) 4 = 2 ∧
      get16 (commandBody zeroSurroundings s) 20 = 2 ∧
      (t.nvMap.lookup 0x01000001).any fun e =>
        e.authValueLen == 0 && e.pub.authPolicySize == 0 := by
  decide +kernel

end TpmEmulator

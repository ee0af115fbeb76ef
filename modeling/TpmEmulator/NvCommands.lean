import TpmEmulator.FailedCommands
import TpmEmulator.ParameterGrammar

/-!
The NV data commands as the guest writes them: where in the command the handle, the
index, the data and the offset stand. Two results about what the handlers check.
The handler of NV_Write maps the authorization handle to a hierarchy but the back
end looks only at whether some write bit is set, and the handler of NV_Read does
not look at the handle. And NV_Read compares the size it is asked for with the size
of the index, not with the size of its own buffer.
-/
namespace TpmEmulator

open CellMemory BigEndian

section Body

variable {env : Surroundings} {s : Tpm2State}

theorem commandBody_apply {i : Nat} (h : 10 + i < 1024) :
    commandBody env s i = s.commandBuffer (10 + i) :=
  if_pos h

theorem get16_commandBody {i : Nat} (h : 10 + i + 2 ≤ 1024) :
    get16 (commandBody env s) i = get16 s.commandBuffer (10 + i) :=
  get16_congr fun k hk => (commandBody_apply (by omega)).trans (by rw [Nat.add_assoc])

theorem get32_commandBody {i : Nat} (h : 10 + i + 4 ≤ 1024) :
    get32 (commandBody env s) i = get32 s.commandBuffer (10 + i) :=
  get32_congr fun k hk => (commandBody_apply (by omega)).trans (by rw [Nat.add_assoc])

end Body

theorem unmarshalNvWrite_handles {params value : NvWriteParams} {bytesRead size consumed : Nat}
    {buffer : Nat → UInt8}
    (h : unmarshalNvWrite params bytesRead buffer size = .ok (value, consumed)) :
    value.authHandle = get32 buffer 0 ∧ value.nvIndex = get32 buffer 4 := by
  obtain ⟨hsize, h⟩ := field_nvHandles_ok h
  split at h
  · cases h
    exact ⟨rfl, rfl⟩
  · obtain ⟨-, hsize, h⟩ := field_tpm2b_ok hsize h
    obtain ⟨-, h⟩ := field_uint16_ok (by omega) h
    cases h
    exact ⟨rfl, rfl⟩

theorem unmarshalNvRead_handles {params value : NvReadParams} {bytesRead size consumed : Nat}
    {buffer : Nat → UInt8}
    (h : unmarshalNvRead params bytesRead buffer size = .ok (value, consumed)) :
    value.authHandle = get32 buffer 0 ∧ value.nvIndex = get32 buffer 4 := by
  obtain ⟨hsize, h⟩ := field_nvHandles_ok h
  split at h
  · cases h
    exact ⟨rfl, rfl⟩
  · obtain ⟨hsize, h⟩ := field_uint16_ok hsize h
    obtain ⟨-, h⟩ := field_uint16_ok hsize h
    cases h
    exact ⟨rfl, rfl⟩

/-- The authorization handle and the index of a pending NV_Write or NV_Read. -/
def pendingHandle (s : Tpm2State) : Nat := get32 s.commandBuffer 10

def pendingIndex (s : Tpm2State) : Nat := get32 s.commandBuffer 14

theorem Writes.handles {env : Surroundings} {s : Tpm2State} {params : NvWriteParams} {e : NvEntry}
    (h : Writes env s params e) :
    params.authHandle = pendingHandle s ∧ params.nvIndex = pendingIndex s := by
  obtain ⟨bytesRead, hread⟩ := h.unmarshal
  obtain ⟨hhandle, hindex⟩ := unmarshalNvWrite_handles hread
  exact ⟨hhandle.trans (get32_commandBody (by decide)),
    hindex.trans (get32_commandBody (by decide))⟩

theorem Reads.handles {env : Surroundings} {s : Tpm2State} {params : NvReadParams} {e : NvEntry}
    (h : Reads env s params e) :
    params.authHandle = pendingHandle s ∧ params.nvIndex = pendingIndex s := by
  obtain ⟨bytesRead, hread⟩ := h.unmarshal
  obtain ⟨hhandle, hindex⟩ := unmarshalNvRead_handles hread
  exact ⟨hhandle.trans (get32_commandBody (by decide)),
    hindex.trans (get32_commandBody (by decide))⟩

section Success

variable {host : Host} {env : Surroundings} {s : Tpm2State}

/-- A command that is answered with success was dispatched. -/
theorem dispatchedCode_of_success {code : Nat} (hstate : s.state = .receiving)
    (hcmd : get32 s.commandBuffer 6 = code)
    (hcode : (responseHeader (step host s (.write env tpm2CmdReg 1))).code = tpmRcSuccess) :
    dispatchedCode s = some code := by
  refine (dispatchedCode_eq hcmd).resolve_left fun hnone => ?_
  obtain ⟨rc, t, hrc, heq, -⟩ := executeReply_rejected host env hnone
  exact hrc.1 ((code_error hstate (congrArg Prod.fst heq)).symm.trans hcode)

/-- An NV_Write is answered with success exactly when every check passes. -/
theorem nvWrite_success_iff (host : Host)
    (hsizes : ∀ i e, s.nvMap.lookup i = some e → e.dataLen = e.pub.dataSize)
    (hstate : s.state = .receiving) :
    (get32 s.commandBuffer 6 = tpmCcNvWrite ∧
      (responseHeader (step host s (.write env tpm2CmdReg 1))).code = tpmRcSuccess) ↔
    ∃ params e, Writes env s params e := by
  constructor
  · rintro ⟨hcmd, hcode⟩
    have hdispatched := dispatchedCode_of_success hstate hcmd hcode
    obtain ⟨rc, hrc, heq⟩ | hwrites := nvWrite_effect host env s hdispatched hsizes
    · exact absurd ((code_error hstate (congrArg Prod.fst heq)).symm.trans hcode) hrc.1
    · exact hwrites
  · rintro ⟨params, e, hwrites⟩
    obtain ⟨-, -, -, -, -, -, hcmd⟩ := dispatchedCode_some hwrites.code
    exact ⟨hcmd, code_ok hstate (congrArg Prod.fst (hwrites.reply host))⟩

theorem nvRead_success_iff (host : Host) (hstate : s.state = .receiving) :
    (get32 s.commandBuffer 6 = tpmCcNvRead ∧
      (responseHeader (step host s (.write env tpm2CmdReg 1))).code = tpmRcSuccess) ↔
    ∃ params e, Reads env s params e := by
  constructor
  · rintro ⟨hcmd, hcode⟩
    have hdispatched := dispatchedCode_of_success hstate hcmd hcode
    obtain ⟨rc, hrc, heq⟩ | hreads := nvRead_effect host env s hdispatched
    · exact absurd ((code_error hstate heq).symm.trans hcode) hrc.1
    · exact hreads
  · rintro ⟨params, e, hreads⟩
    obtain ⟨-, -, -, -, -, -, hcmd⟩ := dispatchedCode_some hreads.code
    exact ⟨hcmd, code_ok hstate (congrArg Prod.fst (hreads.reply host))⟩

end Success

/-- The attributes let the hierarchy behind the handle write. -/
def MayWrite (handle : Nat) (attrs : TpmaNv) : Prop :=
  (handle = tpmRhPlatform ∧ attrs.ppWrite) ∨ (handle = tpmRhOwner ∧ attrs.ownerWrite)

def MayRead (handle : Nat) (attrs : TpmaNv) : Prop :=
  (handle = tpmRhPlatform ∧ attrs.ppRead) ∨ (handle = tpmRhOwner ∧ attrs.ownerRead)

/-- The two hierarchy handles that the NV handlers map. -/
theorem provisionOf_eq_some {handle : Nat} :
    (∃ provHandle, provisionOf handle = some provHandle) ↔
      handle = tpmRhPlatform ∨ handle = tpmRhOwner := by
  unfold provisionOf
  by_cases hplatform : handle = 0x4000000C
  · rw [if_pos hplatform]
    exact ⟨fun _ => .inl hplatform, fun _ => ⟨_, rfl⟩⟩
  rw [if_neg hplatform]
  by_cases howner : handle = 0x40000001
  · rw [if_pos howner]
    exact ⟨fun _ => .inr howner, fun _ => ⟨_, rfl⟩⟩
  · rw [if_neg howner]
    exact ⟨fun ⟨_, h⟩ => (by cases h), fun h => (h.elim hplatform howner).elim⟩

/-- Every NV_Write and NV_Read that is answered with success is one that the attributes
of its index permit. -/
def AccessControlled (host : Host) (env : Surroundings) (s : Tpm2State) : Prop :=
  (responseHeader (step host s (.write env tpm2CmdReg 1))).code = tpmRcSuccess →
    (get32 s.commandBuffer 6 = tpmCcNvWrite → ∃ e, s.nvMap.lookup (pendingIndex s) = some e ∧
      MayWrite (pendingHandle s) e.pub.attributes) ∧
    (get32 s.commandBuffer 6 = tpmCcNvRead → ∃ e, s.nvMap.lookup (pendingIndex s) = some e ∧
      MayRead (pendingHandle s) e.pub.attributes)

/-- The pending command passes the checks of NV_Write for the platform or the owner
although the index gives that hierarchy no write access, or it passes those of
NV_Read, which say nothing about the handle, without read access. -/
def AccessMissed (env : Surroundings) (s : Tpm2State) : Prop :=
  (∃ params e, Writes env s params e ∧
    ((params.authHandle = tpmRhPlatform ∧ e.pub.attributes.ppWrite = false) ∨
      (params.authHandle = tpmRhOwner ∧ e.pub.attributes.ownerWrite = false))) ∨
  (∃ params e, Reads env s params e ∧ ¬ MayRead params.authHandle e.pub.attributes)

theorem Writes.mayWrite_or {env : Surroundings} {s : Tpm2State} {params : NvWriteParams}
    {e : NvEntry} (h : Writes env s params e) :
    MayWrite params.authHandle e.pub.attributes ∨
      (params.authHandle = tpmRhPlatform ∧ e.pub.attributes.ppWrite = false) ∨
      (params.authHandle = tpmRhOwner ∧ e.pub.attributes.ownerWrite = false) := by
  obtain hplatform | howner := provisionOf_eq_some.mp h.provision
  · cases hbit : e.pub.attributes.ppWrite with
    | true => exact .inl (.inl ⟨hplatform, hbit⟩)
    | false => exact .inr (.inl ⟨hplatform, rfl⟩)
  · cases hbit : e.pub.attributes.ownerWrite with
    | true => exact .inl (.inr ⟨howner, hbit⟩)
    | false => exact .inr (.inr ⟨howner, rfl⟩)

theorem not_mayWrite {handle : Nat} {attrs : TpmaNv}
    (h : (handle = tpmRhPlatform ∧ attrs.ppWrite = false) ∨
      (handle = tpmRhOwner ∧ attrs.ownerWrite = false)) : ¬ MayWrite handle attrs := by
  rintro (⟨hhandle, hbit⟩ | ⟨hhandle, hbit⟩)
  · obtain ⟨-, hbit'⟩ | ⟨hhandle', -⟩ := h
    · cases hbit.symm.trans hbit'
    · exact absurd (hhandle.symm.trans hhandle') (by decide)
  · obtain ⟨hhandle', -⟩ | ⟨-, hbit'⟩ := h
    · exact absurd (hhandle.symm.trans hhandle') (by decide)
    · cases hbit.symm.trans hbit'

/-- Access control holds for the pending command exactly when the bits of its
hierarchy happen to be those that the checks leave out. -/
theorem accessControlled_iff {host : Host} (env : Surroundings) {s : Tpm2State}
    (h : Reachable host s) (hstate : s.state = .receiving) :
    (∀ handle, (∃ provHandle, provisionOf handle = some provHandle) ↔
      handle = tpmRhPlatform ∨ handle = tpmRhOwner) ∧
    (AccessControlled host env s ↔ ¬ AccessMissed env s) := by
  have hsizes : ∀ i e, s.nvMap.lookup i = some e → e.dataLen = e.pub.dataSize := fun _ _ =>
    (bankInvariant_reachable h).sizes
  refine ⟨fun _ => provisionOf_eq_some, ?_, ?_⟩
  · rintro hcontrolled (⟨params, e, hwrites, hbit⟩ | ⟨params, e, hreads, hnot⟩)
    · obtain ⟨hcmd, hcode⟩ := (nvWrite_success_iff host hsizes hstate).mpr
        ⟨params, e, hwrites⟩
      obtain ⟨e', hentry, hmay⟩ := (hcontrolled hcode).1 hcmd
      rw [← hwrites.handles.2] at hentry
      rw [← hwrites.handles.1] at hmay
      cases hwrites.entry.symm.trans hentry
      exact not_mayWrite hbit hmay
    · obtain ⟨hcmd, hcode⟩ := (nvRead_success_iff host hstate).mpr ⟨params, e, hreads⟩
      obtain ⟨e', hentry, hmay⟩ := (hcontrolled hcode).2 hcmd
      rw [← hreads.handles.2] at hentry
      rw [← hreads.handles.1] at hmay
      cases hreads.entry.symm.trans hentry
      exact hnot hmay
  · intro hnot hcode
    constructor
    · intro hcmd
      obtain ⟨params, e, hwrites⟩ := (nvWrite_success_iff host hsizes hstate).mp ⟨hcmd, hcode⟩
      rw [← hwrites.handles.1, ← hwrites.handles.2]
      refine ⟨e, hwrites.entry, hwrites.mayWrite_or.resolve_right fun hbit => ?_⟩
      exact hnot (.inl ⟨params, e, hwrites, hbit⟩)
    · intro hcmd
      obtain ⟨params, e, hreads⟩ := (nvRead_success_iff host hstate).mp ⟨hcmd, hcode⟩
      rw [← hreads.handles.1, ← hreads.handles.2]
      refine ⟨e, hreads.entry, not_not.mp fun hmay => ?_⟩
      exact hnot (.inr ⟨params, e, hreads, hmay⟩)

/-- The firmware's write with the handle of the owner. -/
def cmdNvWriteOwner : List UInt8 := cmdNvWrite.set 13 0x01

theorem accessControlled_iff_owner :
    let s := pendingCommand [cmdNvDefineSpace] cmdNvWriteOwner
    AccessControlled referenceHost zeroSurroundings s ∧
      (responseHeader (step referenceHost s (.write zeroSurroundings tpm2CmdReg 1))).code =
        tpmRcSuccess := by
  intro s
  have hstate : s.state = .receiving := by decide +kernel
  have hcode : dispatchedCode s = some tpmCcNvWrite := by decide +kernel
  have hhandle : pendingHandle s = tpmRhOwner := by decide +kernel
  have hbits : ((s.nvMap.lookup (pendingIndex s)).all fun e => e.pub.attributes.ownerWrite) := by
    decide +kernel
  have hnot : ¬ AccessMissed zeroSurroundings s := by
    rintro (⟨params, e, hwrites, hbit⟩ | ⟨params, e, hreads, -⟩)
    · rw [← hwrites.handles.2, hwrites.entry, Option.all_some] at hbits
      rw [hwrites.handles.1, hhandle, hbits] at hbit
      exact hbit.elim (fun hbad => absurd hbad.1 (by decide)) fun hbad => absurd hbad.2 (by decide)
    · cases hcode.symm.trans hreads.code
  exact ⟨(accessControlled_iff zeroSurroundings
    (reachable_pendingCommand [cmdNvDefineSpace] cmdNvWriteOwner) hstate).2.mpr hnot,
    by decide +kernel⟩

/-- The firmware writes and reads its index with the handle of the platform, and the
index gives the platform neither access. -/
theorem accessControlled_fails :
    let defined := pendingCommand [cmdNvDefineSpace] cmdNvWrite
    let written := pendingCommand [cmdNvDefineSpace, cmdNvWrite] cmdNvRead
    (pendingHandle defined = tpmRhPlatform ∧
      (defined.nvMap.lookup (pendingIndex defined)).any (fun e => !e.pub.attributes.ppWrite) ∧
      (responseHeader (step referenceHost defined
        (.write zeroSurroundings tpm2CmdReg 1))).code = tpmRcSuccess) ∧
    (pendingHandle written = tpmRhPlatform ∧
      (written.nvMap.lookup (pendingIndex written)).any (fun e => !e.pub.attributes.ppRead) ∧
      (responseHeader (step referenceHost written
        (.write zeroSurroundings tpm2CmdReg 1))).code = tpmRcSuccess) := by
  decide +kernel

/-- The pending command is an NV_Read that passes the checks of its handler. -/
structure ReadAdmitted (env : Surroundings) (s : Tpm2State) (params : NvReadParams)
    (e : NvEntry) : Prop where
  code : dispatchedCode s = some tpmCcNvRead
  unmarshal : ∃ bytesRead, unmarshalNvRead env.nvReadParams env.bytesRead (commandBody env s)
    (commandBodySize s) = .ok (params, bytesRead)
  entry : s.nvMap.lookup params.nvIndex = some e
  written : e.written = true
  range : params.offset + params.sizeToRead ≤ e.pub.dataSize
  unlocked : e.readLocked = false

/-- The bytes that `nv_read_decrypt_from_bank` stores at the address of its output. -/
def bytesStored (host : Host) (s : Tpm2State) (e : NvEntry) (len offset : Nat) : List UInt8 :=
  match nvReadDecryptFromBank host s e len offset with
  | .ok out => out
  | .error _ => []

theorem length_bytesStored (host : Host) {s : Tpm2State} {e : NvEntry} {len offset : Nat}
    (hfits : offset + len ≤ e.dataLen) (hkey : IsKeyLength s.primarySensitive.ecc.size) :
    (bytesStored host s e len offset).length = len := by
  obtain hzero | hpos := Nat.eq_zero_or_pos len
  · have hempty : nvReadDecryptFromBank host s e len offset = .error tpmRcFailure := by
      subst hzero
      rw [nvReadDecryptFromBank, if_neg (Nat.not_lt.mpr hfits), slice_zero]
      have hlen := length_nvCrypt host s e [] false hkey
      dsimp only
      rw [if_neg (by rw [hlen]; decide)]
    rw [bytesStored, hempty, hzero]
    rfl
  · rw [bytesStored, nvReadDecryptFromBank_eq_ok host hfits hpos hkey]
    exact length_nvPlaintext host e len offset hkey

theorem bytesStored_no_key (host : Host) {s : Tpm2State} (e : NvEntry) (len offset : Nat)
    (hkey : ¬ IsKeyLength s.primarySensitive.ecc.size) :
    bytesStored host s e len offset = [] := by
  rw [bytesStored]
  cases hout : nvReadDecryptFromBank host s e len offset with
  | error rc => rfl
  | ok out => exact absurd (nvReadDecryptFromBank_ok hout).2.2.1 hkey

theorem ReadAdmitted.length_bytesStored {host : Host} {env : Surroundings} {s : Tpm2State}
    {params : NvReadParams} {e : NvEntry} (hadmitted : ReadAdmitted env s params e)
    (h : Reachable host s) (hkey : IsKeyLength s.primarySensitive.ecc.size) :
    (bytesStored host s e params.sizeToRead params.offset).length = params.sizeToRead := by
  refine TpmEmulator.length_bytesStored host ?_ hkey
  rw [(bankInvariant_reachable h).sizes hadmitted.entry]
  exact hadmitted.range

/-- What NV_Read stores fits in its buffer exactly when no more is asked for, unless
there is no key to decrypt with. -/
theorem nvRead_stored_iff {host : Host} {env : Surroundings} {s : Tpm2State}
    {params : NvReadParams} {e : NvEntry} (h : Reachable host s)
    (hadmitted : ReadAdmitted env s params e) :
    (bytesStored host s e params.sizeToRead params.offset).length ≤ maxNvBufferSize ↔
      params.sizeToRead ≤ maxNvBufferSize ∨ ¬ IsKeyLength s.primarySensitive.ecc.size := by
  by_cases hkey : IsKeyLength s.primarySensitive.ecc.size
  · rw [hadmitted.length_bytesStored h hkey]
    exact ⟨.inl, fun hor => hor.resolve_right (not_not.mpr hkey)⟩
  · rw [bytesStored_no_key host e _ _ hkey]
    exact ⟨fun _ => .inr hkey, fun _ => Nat.zero_le _⟩

/-- What the checks of the handler come to on a device of which everything but the
entry is known. -/
theorem readAdmitted_of_checks (env : Surroundings) (s : Tpm2State) (params : NvReadParams)
    (bytesRead : Nat) (hcode : dispatchedCode s = some tpmCcNvRead)
    (hread : unmarshalNvRead env.nvReadParams env.bytesRead (commandBody env s)
      (commandBodySize s) = .ok (params, bytesRead))
    (hentry : (s.nvMap.lookup params.nvIndex).any fun e =>
      e.written && decide (params.offset + params.sizeToRead ≤ e.pub.dataSize) && !e.readLocked) :
    ∃ e, ReadAdmitted env s params e := by
  rw [Option.any_eq_true_iff_get] at hentry
  obtain ⟨hsome, hentry⟩ := hentry
  simp only [Bool.and_eq_true, decide_eq_true_eq, Bool.not_eq_true'] at hentry
  obtain ⟨⟨hwritten, hrange⟩, hunlocked⟩ := hentry
  exact ⟨_, hcode, ⟨bytesRead, hread⟩, (Option.some_get hsome).symm, hwritten, hrange, hunlocked⟩

theorem nvRead_stored_iff_four :
    ∃ e, ReadAdmitted zeroSurroundings
        (pendingCommand [cmdNvDefineSpace, cmdNvWrite] cmdNvRead)
        ⟨tpmRhPlatform, 0x01000001, 4, 0⟩ e ∧
      (bytesStored referenceHost (pendingCommand [cmdNvDefineSpace, cmdNvWrite] cmdNvRead) e
        4 0).length ≤ maxNvBufferSize := by
  obtain ⟨e, hadmitted⟩ := readAdmitted_of_checks zeroSurroundings
    (pendingCommand [cmdNvDefineSpace, cmdNvWrite] cmdNvRead) ⟨tpmRhPlatform, 0x01000001, 4, 0⟩ 14
    (by decide +kernel) (by decide +kernel) (by decide +kernel)
  have hiff := nvRead_stored_iff
    (reachable_pendingCommand [cmdNvDefineSpace, cmdNvWrite] cmdNvRead) hadmitted
  exact ⟨e, hadmitted, hiff.mpr (.inl (by decide))⟩

/-- The firmware's definition with 2000 bytes of data. -/
def cmdNvDefineSpaceLarge : List UInt8 := (cmdNvDefineSpace.set 30 0x07).set 31 0xD0

/-- The firmware's read with a size of 1100 bytes. -/
def cmdNvReadLarge : List UInt8 := (cmdNvRead.set 20 0x04).set 21 0x4C

theorem nvRead_stored_overruns :
    ∃ e, ReadAdmitted zeroSurroundings
        (pendingCommand [cmdNvDefineSpaceLarge, cmdNvWrite] cmdNvReadLarge)
        ⟨tpmRhPlatform, 0x01000001, 1100, 0⟩ e ∧
      (bytesStored referenceHost
        (pendingCommand [cmdNvDefineSpaceLarge, cmdNvWrite] cmdNvReadLarge) e
        1100 0).length = 1100 ∧ maxNvBufferSize < 1100 := by
  let s := pendingCommand [cmdNvDefineSpaceLarge, cmdNvWrite] cmdNvReadLarge
  obtain ⟨e, hadmitted⟩ := readAdmitted_of_checks zeroSurroundings s
    ⟨tpmRhPlatform, 0x01000001, 1100, 0⟩ 14
    (by decide +kernel) (by decide +kernel) (by decide +kernel)
  have hkey : s.primarySensitive.ecc.size = 32 := by decide +kernel
  have hlen := hadmitted.length_bytesStored
    (reachable_pendingCommand [cmdNvDefineSpaceLarge, cmdNvWrite] cmdNvReadLarge)
    (.inr (.inr hkey))
  exact ⟨e, hadmitted, hlen, by decide⟩

end TpmEmulator

import TpmEmulator.NvContents

/-!
Which NV commands the device serves. On a device with a primary key the checks on an
ordinary index come down to sizes, and what decides is how the limits of the parts meet:
the cipher reports the empty text as a failure, the response buffer has room for 1012
bytes of data, and the command buffer has room for 1000.
-/
namespace TpmEmulator

open CellMemory BigEndian Framing

/-- What holds of every entry of the table. No command sets a lock. -/
structure EntryOpen (i : Nat) (e : NvEntry) : Prop where
  index_lt : i < 2 ^ 32
  writeUnlocked : e.writeLocked = false
  readUnlocked : e.readLocked = false
  consistent : AttributesConsistent e.pub.attributes e.pub.dataSize

theorem entryOpen_reachable {host : Host} {s : Tpm2State} (h : Reachable host s) {i : Nat}
    {e : NvEntry} (hentry : s.nvMap.lookup i = some e) : EntryOpen i e := by
  refine entry_reachable ?_ ?_ ?_ h hentry
  · exact ⟨by decide, rfl, rfl,
      (nvDefineSpaceChecks_attributes nvDefineSpaceChecks_testNvPublic).1⟩
  · intro env s params hdefines
    obtain ⟨bytesRead, hread⟩ := hdefines.unmarshal
    obtain ⟨provHandle, -, hchecks⟩ := hdefines.checks
    exact ⟨(unmarshalNvDefineSpace_only hread).1.nvIndex, rfl, rfl,
      (nvDefineSpaceChecks_attributes hchecks).1⟩
  · intro i e hopen
    exact ⟨hopen.index_lt, hopen.writeUnlocked, hopen.readUnlocked, hopen.consistent.markWritten⟩

theorem BankInvariant.dataSize_le {s : Tpm2State} (h : BankInvariant s.persistent) {i : Nat}
    {e : NvEntry} (hentry : s.nvMap.lookup i = some e) : e.pub.dataSize ≤ tpm2NvStorageSize := by
  have hinside : e.ivPtr + (16 + e.dataLen) ≤ s.nvAllocOffset := h.packed.inside hentry
  have hcursor : s.nvAllocOffset ≤ s.nvBankSize := h.cursor_le
  have hbank : s.nvBankSize = tpm2NvStorageSize := h.bankSize
  have hsizes := h.sizes hentry
  omega

theorem ordinary_writable {host : Host} {s : Tpm2State} {i : Nat} {e : NvEntry}
    (hreach : Reachable host s) (hkey : s.primarySensitive.ecc.size = 32)
    (hentry : s.nvMap.lookup i = some e) (hordinary : e.pub.attributes.nvType = tpmNtOrdinary)
    (data : Tpm2b) (offset : Nat) :
    NvWritable s e data offset ↔ offset + data.size ≤ e.pub.dataSize ∧
      (e.pub.attributes.writeAll → data.size = e.pub.dataSize) ∧ 0 < data.size ∧
      data.size ≤ maxNvBufferSize := by
  have hopen := entryOpen_reachable hreach hentry
  have hsizes := (bankInvariant_reachable hreach).sizes hentry
  constructor
  · intro h
    refine ⟨hsizes ▸ h.fits, fun hall => ?_, h.nonempty, h.max⟩
    by_contra hne
    exact h.whole ⟨hall, hsizes ▸ hne⟩
  · rintro ⟨hfits, hwhole, hnonempty, hmax⟩
    refine ⟨hopen.writeUnlocked, ?_, hsizes ▸ hfits, ?_, ?_, hmax, hnonempty, .inr (.inr hkey)⟩
    · rw [hordinary]
      decide
    · rw [hsizes]
      exact fun h => h.2 (hwhole h.1)
    · have hwrite := hopen.consistent.write
      simp only [Bool.or_eq_true]
      tauto

theorem length_encodeNvWrite (authHandle nvIndex : Nat) (data : List UInt8) (offset : Nat) :
    (encodeNvWrite authHandle nvIndex data offset).length = 14 + data.length := by
  simp only [encodeNvWrite, encodeNvHandles, List.length_append, length_bytes16, length_bytes32,
    List.length_cons, List.length_nil]
  omega

section Pending

variable {host : Host} {s : Tpm2State} {i : Nat} {e : NvEntry} {tag authHandle offset : Nat}
  {rest : List UInt8}

variable (hreach : Reachable host s) (hentry : s.nvMap.lookup i = some e)

include hreach hentry

theorem Pending.nvWriteParams {data : List UInt8} (hoffset : offset < 2 ^ 16)
    (hhandle : authHandle = tpmRhPlatform ∨ authHandle = tpmRhOwner)
    (h : Pending s (commandBytes tag tpmCcNvWrite
      (encodeNvWrite authHandle i data offset ++ rest))) (env : Surroundings) :
    data.length ≤ 1000 ∧
    unmarshalNvWrite env.nvWriteParams env.bytesRead (commandBody env s) (commandBodySize s) =
      .ok (⟨authHandle, i, ⟨data.length, store env.nvWriteParams.data.buffer 0 data⟩, offset⟩,
        14 + data.length) := by
  have hauth : authHandle < 2 ^ 32 := by obtain rfl | rfl := hhandle <;> decide
  have hindex := (entryOpen_reachable hreach hentry).index_lt
  obtain ⟨-, hsize, hbody⟩ :=
    h.fields (transportInvariant_reachable hreach).cmdSize_le (by decide)
  have hdata : data.length ≤ 1000 := by
    have hfits := (starts_append.mp hbody).1.1
    rw [length_encodeNvWrite, commandBufferSize] at hfits
    omega
  have hstarts := starts_commandBody env hbody
  rw [← hsize] at hstarts
  exact ⟨hdata, unmarshalNvWrite_sentence _ ⟨authHandle, i, data, offset, hauth, hindex,
    hdata.trans (by decide), hoffset, (starts_append.mp hstarts).1, rfl⟩⟩

theorem Pending.nvReadParams {sizeToRead : Nat} (hauth : authHandle < 2 ^ 32)
    (hsizeToRead : sizeToRead < 2 ^ 16) (hoffset : offset < 2 ^ 16)
    (h : Pending s (commandBytes tag tpmCcNvRead
      (encodeNvRead ⟨authHandle, i, sizeToRead, offset⟩ ++ rest))) (env : Surroundings) :
    unmarshalNvRead env.nvReadParams env.bytesRead (commandBody env s) (commandBodySize s) =
      .ok (⟨authHandle, i, sizeToRead, offset⟩, 14) := by
  have hindex := (entryOpen_reachable hreach hentry).index_lt
  obtain ⟨-, hsize, hbody⟩ :=
    h.fields (transportInvariant_reachable hreach).cmdSize_le (by decide)
  have hstarts := starts_commandBody env hbody
  rw [← hsize] at hstarts
  exact unmarshalNvRead_sentence _ _ ⟨⟨authHandle, i, sizeToRead, offset⟩, hauth, hindex,
    hsizeToRead, hoffset, (starts_append.mp hstarts).1, rfl⟩

variable (env : Surroundings) (htag : tag = tpmStNoSessions ∨ tag = tpmStSessions)

include htag

theorem Pending.writes {data : List UInt8} (hoffset : offset < 2 ^ 16)
    (hhandle : authHandle = tpmRhPlatform ∨ authHandle = tpmRhOwner)
    (h : Pending s (commandBytes tag tpmCcNvWrite
      (encodeNvWrite authHandle i data offset ++ rest)))
    (hwritable :
      NvWritable s e ⟨data.length, store env.nvWriteParams.data.buffer 0 data⟩ offset) :
    Writes env s ⟨authHandle, i, ⟨data.length, store env.nvWriteParams.data.buffer 0 data⟩,
      offset⟩ e := by
  have hdispatched := h.dispatched (keyInvariant_reachable hreach).mode
    (transportInvariant_reachable hreach).cmdSize_le htag (by decide) (by decide)
  have hread := (h.nvWriteParams hreach hentry hoffset hhandle env).2
  have hsizes := (bankInvariant_reachable hreach).sizes hentry
  exact ⟨hdispatched, ⟨_, hread⟩, hentry, hwritable.fits.trans hsizes.le,
    provisionOf_eq_some.mpr hhandle, hwritable⟩

/-- A pending write under an accepted handle is answered with success exactly when the
entry can be written. -/
theorem Pending.nvWrite_iff {data : List UInt8} (hoffset : offset < 2 ^ 16)
    (hhandle : authHandle = tpmRhPlatform ∨ authHandle = tpmRhOwner)
    (h : Pending s (commandBytes tag tpmCcNvWrite
      (encodeNvWrite authHandle i data offset ++ rest))) :
    (responseHeader (step host s (.write env tpm2CmdReg 1))).code = tpmRcSuccess ↔
      NvWritable s e ⟨data.length, store env.nvWriteParams.data.buffer 0 data⟩ offset := by
  have hinv := bankInvariant_reachable hreach
  have hcmd := (h.fields (transportInvariant_reachable hreach).cmdSize_le (by decide)).1
  constructor
  · intro hcode
    obtain ⟨params, e', hwrites⟩ := (nvWrite_success_iff host (fun _ _ => hinv.sizes) h.state).mp
      ⟨hcmd, hcode⟩
    obtain ⟨bytesRead, hparams⟩ := hwrites.unmarshal
    cases hparams.symm.trans (h.nvWriteParams hreach hentry hoffset hhandle env).2
    cases hwrites.entry.symm.trans hentry
    exact hwrites.writable
  · intro hwritable
    have hwrites := h.writes hreach hentry env htag hoffset hhandle hwritable
    exact ((nvWrite_success_iff host (fun _ _ => hinv.sizes) h.state).mpr ⟨_, e, hwrites⟩).2

/-- A pending read with a primary key is answered with as many bytes as it asks for exactly
when the range is inside the written data and the bytes fit the response. -/
theorem Pending.nvRead_iff {sizeToRead : Nat} (hkey : s.primarySensitive.ecc.size = 32)
    (hauth : authHandle < 2 ^ 32) (hsizeToRead : sizeToRead < 2 ^ 16) (hoffset : offset < 2 ^ 16)
    (h : Pending s (commandBytes tag tpmCcNvRead
      (encodeNvRead ⟨authHandle, i, sizeToRead, offset⟩ ++ rest))) :
    (∃ bytes, bytes.length = sizeToRead ∧
      AnsweredWith (step host s (.write env tpm2CmdReg 1)) bytes) ↔
      e.written = true ∧ offset + sizeToRead ≤ e.pub.dataSize ∧ 0 < sizeToRead ∧
        sizeToRead ≤ 1012 := by
  have hmax := (transportInvariant_reachable hreach).cmdSize_le
  have hopen := entryOpen_reachable hreach hentry
  have hread := h.nvReadParams hreach hentry hauth hsizeToRead hoffset env
  have hsizes := (bankInvariant_reachable hreach).sizes hentry
  constructor
  · rintro ⟨bytes, -, hanswered⟩
    obtain ⟨params, e', hreads⟩ := (nvRead_success_iff host h.state).mp
      ⟨(h.fields hmax (by decide)).1, hanswered.code⟩
    obtain ⟨bytesRead, hparams⟩ := hreads.unmarshal
    cases hparams.symm.trans hread
    cases hreads.entry.symm.trans hentry
    exact ⟨hreads.written, hreads.range, hreads.nonempty, hreads.size_le⟩
  · rintro ⟨hwritten, hrange, hnonempty, hle⟩
    have hdispatched := h.dispatched (keyInvariant_reachable hreach).mode hmax htag
      (by decide) (by decide)
    have hreads : Reads env s ⟨authHandle, i, sizeToRead, offset⟩ e :=
      ⟨hdispatched, ⟨14, hread⟩, hentry, hwritten, hrange, hopen.readUnlocked, hsizes ▸ hrange,
        hnonempty, .inr (.inr hkey), hle⟩
    exact ⟨_, length_nvPlaintext host e sizeToRead offset hreads.key, hreads.answered host h.state⟩

end Pending

theorem nvMap_transmit (host : Host) (env : Surroundings) (s : Tpm2State) (cmd : List UInt8) :
    (Runs.run (step host) s (transmit env cmd)).nvMap = s.nvMap :=
  congrArg Persistent.nvMap (persistent_transmit host env s cmd)

theorem primarySensitive_transmit (host : Host) (env : Surroundings) (s : Tpm2State)
    (cmd : List UInt8) :
    (Runs.run (step host) s (transmit env cmd)).primarySensitive = s.primarySensitive :=
  congrArg Persistent.primarySensitive (persistent_transmit host env s cmd)

inductive NvAccess where
  | write (authHandle : Nat) (data : List UInt8) (offset : Nat)
  | read (authHandle sizeToRead offset : Nat)

namespace NvAccess

def code : NvAccess → Nat
  | .write _ _ _ => tpmCcNvWrite
  | .read _ _ _ => tpmCcNvRead

def body (i : Nat) : NvAccess → List UInt8
  | .write authHandle data offset => encodeNvWrite authHandle i data offset
  | .read authHandle sizeToRead offset => encodeNvRead ⟨authHandle, i, sizeToRead, offset⟩

def size : NvAccess → Nat
  | .write _ data _ => data.length
  | .read _ sizeToRead _ => sizeToRead

/-- A write under the handle of the owner or the platform, or a read of an index that has
been written; in both cases inside the data of the index. -/
def InEntry (e : NvEntry) : NvAccess → Prop
  | .write authHandle data offset =>
      (authHandle = tpmRhPlatform ∨ authHandle = tpmRhOwner) ∧
        offset + data.length ≤ e.pub.dataSize
  | .read authHandle sizeToRead offset =>
      authHandle < 2 ^ 32 ∧ e.written = true ∧ offset + sizeToRead ≤ e.pub.dataSize

def Succeeds (t : Tpm2State) : NvAccess → Prop
  | .write _ _ _ => (responseHeader t).code = tpmRcSuccess
  | .read _ sizeToRead _ => ∃ bytes, bytes.length = sizeToRead ∧ AnsweredWith t bytes

end NvAccess

/-- An access inside an ordinary index succeeds unless it is empty or longer than what
the response has room for. -/
theorem nvAccess_succeeds_iff {host : Host} {s : Tpm2State} (hreach : Reachable host s)
    (hkey : s.primarySensitive.ecc.size = 32) {i : Nat} {e : NvEntry}
    (hentry : s.nvMap.lookup i = some e) (hordinary : e.pub.attributes.nvType = tpmNtOrdinary)
    (hpieces : e.pub.attributes.writeAll = false) (env : Surroundings) {tag : Nat}
    (htag : tag = tpmStNoSessions ∨ tag = tpmStSessions) {access : NvAccess}
    (hinside : access.InEntry e) {rest : List UInt8}
    (hpending : Pending s (commandBytes tag access.code (access.body i ++ rest))) :
    access.Succeeds (step host s (.write env tpm2CmdReg 1)) ↔
      0 < access.size ∧ access.size ≤ 1012 := by
  have hbank := (bankInvariant_reachable hreach).dataSize_le hentry
  rw [tpm2NvStorageSize] at hbank
  cases access with
  | write authHandle data offset =>
      obtain ⟨hhandle, hrange⟩ := hinside
      have hdata := (Pending.nvWriteParams hreach hentry (by omega) hhandle hpending env).1
      refine (Pending.nvWrite_iff hreach hentry env htag (by omega) hhandle hpending).trans ?_
      rw [ordinary_writable hreach hkey hentry hordinary]
      constructor
      · rintro ⟨-, -, hpos, -⟩
        exact ⟨hpos, hdata.trans (by decide)⟩
      · rintro ⟨hpos, -⟩
        exact ⟨hrange, fun hall => by simp [hpieces] at hall, hpos, hdata.trans (by decide)⟩
  | read authHandle sizeToRead offset =>
      obtain ⟨hauth, hwritten, hrange⟩ := hinside
      refine (Pending.nvRead_iff hreach hentry env htag hkey hauth (by omega) (by omega)
        hpending).trans ?_
      constructor
      · rintro ⟨-, -, hsize⟩
        exact hsize
      · intro hsize
        exact ⟨hwritten, hrange, hsize⟩

theorem entry_of_any {s : Tpm2State} {i : Nat} {P : NvEntry → Prop} [DecidablePred P]
    (h : (s.nvMap.lookup i).any fun e => decide (P e)) :
    ∃ e, s.nvMap.lookup i = some e ∧ P e := by
  rw [Option.any_eq_true_iff_get] at h
  obtain ⟨hsome, hentry⟩ := h
  exact ⟨_, (Option.some_get hsome).symm, of_decide_eq_true hentry⟩

def NvAccess.command (access : NvAccess) : List UInt8 :=
  commandBytes tpmStNoSessions access.code (access.body 0x01000001 ++ [])

theorem nvAccess_succeeds_iff_firmware :
    let access := NvAccess.write tpmRhPlatform [0x54, 0x45, 0x53, 0x54] 0
    access.command = cmdNvWrite ∧
      access.Succeeds (step referenceHost (pendingCommand [cmdNvDefineSpace] access.command)
        (.write zeroSurroundings tpm2CmdReg 1)) := by
  intro access
  obtain ⟨e, hentry, hordinary, hpieces, hsize⟩ := entry_of_any
    (s := pendingCommand [cmdNvDefineSpace] access.command) (i := 0x01000001)
    (P := fun e => e.pub.attributes.nvType = tpmNtOrdinary ∧
      e.pub.attributes.writeAll = false ∧ 4 ≤ e.pub.dataSize) (by decide +kernel)
  have hpending : Pending (pendingCommand [cmdNvDefineSpace] access.command) access.command :=
    pending_transmit referenceHost zeroSurroundings (afterCommands [cmdNvDefineSpace]) (by decide)
  have hinside : access.InEntry e := ⟨.inl rfl, hsize⟩
  exact ⟨by decide, (nvAccess_succeeds_iff (reachable_pendingCommand _ _) (by decide +kernel)
    hentry hordinary hpieces zeroSurroundings (.inl rfl) hinside hpending).mpr (by decide)⟩

/-- The access is pending on a device with a primary key, and inside the data of an ordinary
index that need not be written as a whole. -/
def NvAccess.ShouldSucceed (s : Tpm2State) (access : NvAccess) : Prop :=
  s.primarySensitive.ecc.size = 32 ∧ Pending s access.command ∧
    ∃ e, s.nvMap.lookup 0x01000001 = some e ∧ e.pub.attributes.nvType = tpmNtOrdinary ∧
      e.pub.attributes.writeAll = false ∧ access.InEntry e

theorem largeSpace_pending {access : NvAccess} (hlen : access.command.length ≤ 1024) :
    let s := pendingCommand [cmdNvDefineSpaceLarge, cmdNvWrite] access.command
    s.primarySensitive.ecc.size = 32 ∧ Pending s access.command ∧
      ∃ e, s.nvMap.lookup 0x01000001 = some e ∧ e.pub.attributes.nvType = tpmNtOrdinary ∧
        e.pub.attributes.writeAll = false ∧ e.pub.dataSize = 2000 ∧ e.written = true := by
  intro s
  let before := afterCommands [cmdNvDefineSpaceLarge, cmdNvWrite]
  have hmap : s.nvMap = before.nvMap := nvMap_transmit _ _ _ _
  have hsensitive : s.primarySensitive = before.primarySensitive :=
    primarySensitive_transmit _ _ _ _
  rw [hmap, hsensitive]
  exact ⟨by decide +kernel, pending_transmit referenceHost zeroSurroundings before hlen,
    entry_of_any (by decide +kernel)⟩

theorem nvAccess_fails :
    let empty := NvAccess.write tpmRhOwner [] 0
    let long := NvAccess.read tpmRhOwner 1013 0
    let s := pendingCommand [cmdNvDefineSpaceLarge, cmdNvWrite] empty.command
    let t := pendingCommand [cmdNvDefineSpaceLarge, cmdNvWrite] long.command
    (empty.ShouldSucceed s ∧
      ¬ empty.Succeeds (step referenceHost s (.write zeroSurroundings tpm2CmdReg 1))) ∧
    (long.ShouldSucceed t ∧
      ¬ long.Succeeds (step referenceHost t (.write zeroSurroundings tpm2CmdReg 1))) := by
  intro empty long s t
  constructor
  · obtain ⟨hkey, hpending, e, hentry, hordinary, hpieces, hsize, -⟩ :=
      largeSpace_pending (show empty.command.length ≤ 1024 by decide)
    have hinside : empty.InEntry e := ⟨.inr rfl, by rw [hsize]; decide⟩
    refine ⟨⟨hkey, hpending, e, hentry, hordinary, hpieces, hinside⟩, fun hsucceeds => ?_⟩
    have hwritable := (Pending.nvWrite_iff (reachable_pendingCommand _ _) hentry zeroSurroundings
      (.inl rfl) (by decide) (.inr rfl) hpending).mp hsucceeds
    exact absurd hwritable.nonempty (by decide)
  · obtain ⟨hkey, hpending, e, hentry, hordinary, hpieces, hsize, hwritten⟩ :=
      largeSpace_pending (show long.command.length ≤ 1024 by decide)
    have hinside : long.InEntry e := ⟨by decide, hwritten, by rw [hsize]; decide⟩
    refine ⟨⟨hkey, hpending, e, hentry, hordinary, hpieces, hinside⟩, fun hsucceeds => ?_⟩
    have hserved := (Pending.nvRead_iff (reachable_pendingCommand _ _) hentry zeroSurroundings
      (.inl rfl) hkey (by decide) (by decide) (by decide) hpending).mp hsucceeds
    exact absurd hserved.2.2.2 (by decide)

/-- There is an NV_Write command for the index that fits the command buffer and, once the
driver has sent it, is answered with success. -/
def CanBeWritten (host : Host) (s : Tpm2State) (i : Nat) : Prop :=
  ∃ cmd : List UInt8, cmd.length ≤ commandBufferSize ∧
    ∀ env, WritesIndex host i (Runs.run (step host) s (transmit env cmd))
      (.write env tpm2CmdReg 1)

/-- The data of a write is what the local variable held, or it fits the command buffer
together with the 24 bytes around it. -/
theorem Writes.size_le {env : Surroundings} {s : Tpm2State} {params : NvWriteParams} {e : NvEntry}
    (h : Writes env s params e) (hmax : s.cmdSize ≤ commandBufferSize) :
    params.data.size = env.nvWriteParams.data.size ∨ params.data.size ≤ 1000 := by
  obtain ⟨bytesRead, hread⟩ := h.unmarshal
  obtain ⟨-, -, -, -, hlow, hhigh, -⟩ := dispatchedCode_some h.code
  have hbody : commandBodySize s = get32 s.commandBuffer 2 - 10 := sub32_of_le hlow
  obtain ⟨hsize, hauthSize⟩ | ⟨authHandle, nvIndex, data, offset, -, -, -, -, hstarts, heq⟩ :=
    unmarshalNvWrite_only hread
  · cases hread.symm.trans ((field_nvHandles hsize).trans (if_pos hauthSize))
    exact .inl rfl
  · cases heq
    have hfits := hstarts.1
    rw [length_encodeNvWrite] at hfits
    rw [commandBufferSize] at hmax
    exact .inr (show data.length ≤ 1000 by omega)

section WriteAll

variable {host : Host} {s : Tpm2State} (hreach : Reachable host s) {i : Nat} {e : NvEntry}
  (hentry : s.nvMap.lookup i = some e) (hall : e.pub.attributes.writeAll = true)

include hreach hentry hall

/-- The local variable of the handler may hold no data, so the data is in the command. -/
theorem CanBeWritten.dataSize (h : CanBeWritten host s i) :
    0 < e.pub.dataSize ∧ e.pub.dataSize ≤ 1000 := by
  obtain ⟨cmd, -, hanswered⟩ := h
  let t := Runs.run (step host) s (transmit zeroSurroundings cmd)
  have hreach' : Reachable host t := hreach.run _
  have hinv := bankInvariant_reachable hreach'
  have hentry' : t.nvMap.lookup i = some e := by
    rw [nvMap_transmit]
    exact hentry
  obtain ⟨env, ⟨-, hstate⟩, hcmd, hindex, hcode⟩ := hanswered zeroSurroundings
  obtain ⟨params, e', hwrites⟩ :=
    (nvWrite_success_iff host (fun _ _ => hinv.sizes) hstate).mp ⟨hcmd, hcode⟩
  have hentry'' := hwrites.entry
  rw [hwrites.handles.2, hindex, hentry'] at hentry''
  cases hentry''
  have hwritable := hwrites.writable
  have hwhole : params.data.size = e.pub.dataSize := by
    by_contra hne
    exact hwritable.whole ⟨hall, hinv.sizes hentry' ▸ hne⟩
  have hnonempty := hwritable.nonempty
  rw [← hwhole]
  refine ⟨hnonempty, ?_⟩
  obtain hlocal | hle := hwrites.size_le (transportInvariant_reachable hreach').cmdSize_le
  · rw [hlocal] at hnonempty
    exact absurd hnonempty (by decide)
  · exact hle

end WriteAll

def wholeWrite (i dataSize : Nat) : List UInt8 :=
  commandBytes tpmStNoSessions tpmCcNvWrite
    (encodeNvWrite tpmRhOwner i (List.replicate dataSize 0) 0 ++ [])

theorem length_wholeWrite (i dataSize : Nat) : (wholeWrite i dataSize).length = 24 + dataSize := by
  simp only [wholeWrite, commandBytes, headerBytes, List.append_nil, List.length_append,
    length_encodeNvWrite, List.length_replicate, length_bytes16, length_bytes32]
  omega

/-- An ordinary index that is written as a whole can be written exactly when its data is
not empty and leaves room in the command buffer for the 24 other bytes of the command. -/
theorem canBeWritten_iff {host : Host} {s : Tpm2State} (hreach : Reachable host s)
    (hkey : s.primarySensitive.ecc.size = 32) {i : Nat} {e : NvEntry}
    (hentry : s.nvMap.lookup i = some e) (hordinary : e.pub.attributes.nvType = tpmNtOrdinary)
    (hall : e.pub.attributes.writeAll = true) :
    CanBeWritten host s i ↔ 0 < e.pub.dataSize ∧ e.pub.dataSize ≤ 1000 := by
  refine ⟨CanBeWritten.dataSize hreach hentry hall, fun ⟨hpos, hle⟩ => ?_⟩
  have hfits : (wholeWrite i e.pub.dataSize).length ≤ commandBufferSize := by
    rw [length_wholeWrite, commandBufferSize]
    omega
  refine ⟨wholeWrite i e.pub.dataSize, hfits, fun env => ?_⟩
  let t := Runs.run (step host) s (transmit env (wholeWrite i e.pub.dataSize))
  have hreach' : Reachable host t := hreach.run _
  have hentry' : t.nvMap.lookup i = some e := by
    rw [nvMap_transmit]
    exact hentry
  have hkey' : t.primarySensitive.ecc.size = 32 := by
    rw [primarySensitive_transmit]
    exact hkey
  have hpending : Pending t (wholeWrite i e.pub.dataSize) := pending_transmit host env s hfits
  have hdata : (List.replicate e.pub.dataSize (0 : UInt8)).length = e.pub.dataSize :=
    List.length_replicate
  have hwritable := (ordinary_writable hreach' hkey' hentry' hordinary
    ⟨_, store env.nvWriteParams.data.buffer 0 (List.replicate e.pub.dataSize 0)⟩ 0).mpr
      ⟨((Nat.zero_add _).trans hdata).le, fun _ => hdata, hpos.trans_eq hdata.symm,
        hdata.le.trans (hle.trans (by decide))⟩
  have hwrites := hpending.writes hreach' hentry' env (.inl rfl) (by decide) (.inr rfl) hwritable
  exact hwrites.writesIndex host (bankInvariant_reachable hreach') ⟨rfl, hpending.state⟩

def cmdNvDefineSpaceAll (dataSize : Nat) : List UInt8 :=
  (cmdNvDefineSpace.set 26 0x20).take 30 ++ bytes16 dataSize

theorem defineSpaceAll_entry {dataSize : Nat} (h : dataSize ∈ [0, 1000, 1001]) :
    let s := afterCommands [cmdNvDefineSpaceAll dataSize]
    (responseHeader s).code = tpmRcSuccess ∧ s.primarySensitive.ecc.size = 32 ∧
      ∃ e, s.nvMap.lookup 0x01000001 = some e ∧ e.pub.attributes.nvType = tpmNtOrdinary ∧
        e.pub.attributes.writeAll = true ∧ e.pub.dataSize = dataSize := by
  simp only [List.mem_cons, List.not_mem_nil, or_false] at h
  refine ⟨?_, ?_, entry_of_any ?_⟩ <;> obtain rfl | rfl | rfl := h <;> decide +kernel

theorem canBeWritten_iff_thousand :
    CanBeWritten referenceHost (afterCommands [cmdNvDefineSpaceAll 1000]) 0x01000001 := by
  obtain ⟨-, hkey, e, hentry, hordinary, hall, hsize⟩ :=
    defineSpaceAll_entry (show 1000 ∈ _ by decide)
  exact (canBeWritten_iff (reachable_afterCommands _) hkey hentry hordinary hall).mpr
    (by rw [hsize]; decide)

/-- Sizes that the definition accepts and no write can meet. -/
theorem canBeWritten_fails :
    let s := afterCommands [cmdNvDefineSpaceAll 0]
    let t := afterCommands [cmdNvDefineSpaceAll 1001]
    ((responseHeader s).code = tpmRcSuccess ∧ s.primarySensitive.ecc.size = 32 ∧
      ¬ CanBeWritten referenceHost s 0x01000001) ∧
    ((responseHeader t).code = tpmRcSuccess ∧ t.primarySensitive.ecc.size = 32 ∧
      ¬ CanBeWritten referenceHost t 0x01000001) := by
  intro s t
  obtain ⟨hcode, hkey, e, hentry, -, hall, hsize⟩ := defineSpaceAll_entry (show 0 ∈ _ by decide)
  obtain ⟨hcode', hkey', e', hentry', -, hall', hsize'⟩ :=
    defineSpaceAll_entry (show 1001 ∈ _ by decide)
  refine ⟨⟨hcode, hkey, fun hcan => ?_⟩, hcode', hkey', fun hcan => ?_⟩
  · have hbounds := CanBeWritten.dataSize (reachable_afterCommands _) hentry hall hcan
    omega
  · have hbounds := CanBeWritten.dataSize (reachable_afterCommands _) hentry' hall' hcan
    omega

end TpmEmulator

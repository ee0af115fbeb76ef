import TpmEmulator.PrimaryObjects
import TpmEmulator.PrimaryKeys
import TpmEmulator.PendingCommands

/-!
Requests that a handler copies behind the end of a local array. CreatePrimary copies up
to 256 bytes of sensitive data into 128 bytes, and without a sensitive area it copies as
many bytes as its uninitialised parameters say; NV_Read decrypts as many bytes as the
index has into 1024. `RequestOverruns` says of the bytes of a request and of the
persistent part of the state before it whether this happens, and it is exactly then that
the device does not answer. The name of a primary object, which is written behind its
structure at every success, is a matter of its own and does not count here.
-/
namespace TpmEmulator

open CellMemory BigEndian

/-- The count and the position that an NV_Read body asks for. Behind an authorization
area of a size other than zero they are what the handler's local held. -/
def requestedRange (locals : NvReadParams) (body : Nat → UInt8) (size : Nat) :
    Option (Nat × Nat) :=
  if size < 10 then none
  else if get16 body 8 ≠ 0 then some (locals.sizeToRead, locals.offset)
  else if size < 14 then none
  else some (get16 body 10, get16 body 12)

/-- The sensitive area of an accepted CreatePrimary body has no room in `inSensitive`. -/
def CreateOverruns (locals : CreatePrimaryParams) (body : Nat → UInt8) (size : Nat) : Prop :=
  CreateFits body size ∧
    if 0 < get16 body 4 then 128 < get16 body (dataSizeOffset body)
    else 64 < locals.userAuthSize ∨ 128 < locals.dataSize

/-- An NV_Read body asks for more than 1024 bytes of an index that has them, has been
written and is not locked, and there is a key. -/
def ReadOverruns (locals : NvReadParams) (p : Persistent) (body : Nat → UInt8) (size : Nat) :
    Prop :=
  ∃ count offset e, requestedRange locals body size = some (count, offset) ∧
    p.nvMap.lookup (get32 body 4) = some e ∧ e.written = true ∧
    offset + count ≤ e.pub.dataSize ∧ e.readLocked = false ∧
    IsKeyLength p.primarySensitive.ecc.size ∧ 1024 < count

/-- The first `received` bytes at `m` hold a request that overruns a local array. -/
structure RequestOverruns (env : Surroundings) (p : Persistent) (m : Nat → UInt8)
    (received : Nat) : Prop where
  tag : get16 m 0 = tpmStNoSessions ∨ get16 m 0 = tpmStSessions
  low : 10 ≤ get32 m 2
  high : get32 m 2 ≤ received
  overruns :
    get32 m 6 = tpmCcCreatePrimary ∧
      CreateOverruns env.createPrimaryParams (advance m 10) (get32 m 2 - 10) ∨
    get32 m 6 = tpmCcNvRead ∧
      ReadOverruns env.nvReadParams p (advance m 10) (get32 m 2 - 10)

section Range

variable {locals params : NvReadParams} {body : Nat → UInt8} {size bytesRead consumed : Nat}

theorem unmarshalNvRead_range
    (h : unmarshalNvRead locals bytesRead body size = .ok (params, consumed)) :
    params.nvIndex = get32 body 4 ∧
      requestedRange locals body size = some (params.sizeToRead, params.offset) := by
  obtain ⟨hsize, h⟩ := field_nvHandles_ok h
  rw [requestedRange, if_neg (by omega)]
  by_cases hauth : get16 body 8 ≠ 0
  · rw [if_pos hauth] at h ⊢
    cases h
    exact ⟨rfl, rfl⟩
  · rw [if_neg hauth] at h ⊢
    obtain ⟨hsize, h⟩ := field_uint16_ok hsize h
    obtain ⟨hsize, h⟩ := field_uint16_ok hsize h
    cases h
    exact ⟨rfl, if_neg (by omega)⟩

theorem unmarshalNvRead_of_range {count offset : Nat} (bytesRead : Nat)
    (h : requestedRange locals body size = some (count, offset)) :
    ∃ consumed, unmarshalNvRead locals bytesRead body size =
      .ok (⟨get32 body 0, get32 body 4, count, offset⟩, consumed) := by
  rw [requestedRange] at h
  split at h
  · cases h
  rename_i hsize
  rw [unmarshalNvRead, field_uint32 _ (by omega), field_uint32 _ (by omega),
    field_uint16 _ (by omega)]
  split at h
  · rename_i hauth
    cases h
    exact ⟨bytesRead, if_pos hauth⟩
  rename_i hauth
  split at h
  · cases h
  cases h
  rw [if_neg hauth, field_uint16 _ (by omega), field_uint16 _ (by omega)]
  exact ⟨_, rfl⟩

end Range

section Congr

variable {body body' : Nat → UInt8} {size : Nat}

theorem requestedRange_congr (locals : NvReadParams) (h : ∀ i < size, body i = body' i) :
    requestedRange locals body size = requestedRange locals body' size := by
  unfold requestedRange
  by_cases hsize : size < 10
  · rw [if_pos hsize, if_pos hsize]
  have hauth : get16 body 8 = get16 body' 8 := get16_congr fun k hk => h (8 + k) (by omega)
  rw [if_neg hsize, if_neg hsize, hauth]
  by_cases hlast : size < 14
  · rw [if_pos hlast, if_pos hlast]
  have hcount : get16 body 10 = get16 body' 10 := get16_congr fun k hk => h (10 + k) (by omega)
  have hoffset : get16 body 12 = get16 body' 12 := get16_congr fun k hk => h (12 + k) (by omega)
  rw [if_neg hlast, if_neg hlast, hcount, hoffset]

theorem CreateFits.congr (h : ∀ i < size, body i = body' i) (hfits : CreateFits body size) :
    CreateFits body' size := by
  have locals : CreatePrimaryParams := zeroSurroundings.createPrimaryParams
  rw [← unmarshalCreatePrimary_isOk_iff locals] at hfits ⊢
  rwa [← (isReader_createPrimary locals).congr h]

theorem CreateOverruns.congr {locals : CreatePrimaryParams} (h : ∀ i < size, body i = body' i)
    (hoverruns : CreateOverruns locals body size) : CreateOverruns locals body' size := by
  obtain ⟨hfits, hlarge⟩ := hoverruns
  have hroom := hfits.2
  refine ⟨hfits.congr h, ?_⟩
  rw [publicSizeOffset] at hroom
  have hsensitive : get16 body 4 = get16 body' 4 :=
    get16_congr fun k hk => h (4 + k) (by split at hroom <;> omega)
  rw [← hsensitive]
  by_cases hpos : 0 < get16 body 4
  · rw [if_pos hpos] at hroom hlarge ⊢
    have hauth : get16 body 6 = get16 body' 6 := get16_congr fun k hk => h (6 + k) (by omega)
    have hdata : get16 body (dataSizeOffset body) = get16 body' (dataSizeOffset body') := by
      rw [dataSizeOffset, dataSizeOffset, ← hauth]
      exact get16_congr fun k hk => h _ (by omega)
    rwa [← hdata]
  · rwa [if_neg hpos] at hlarge ⊢

theorem ReadOverruns.congr {locals : NvReadParams} {p : Persistent}
    (h : ∀ i < size, body i = body' i) (hoverruns : ReadOverruns locals p body size) :
    ReadOverruns locals p body' size := by
  obtain ⟨count, offset, e, hrange, hentry, hchecks⟩ := hoverruns
  have hsize : 10 ≤ size := by
    rw [requestedRange] at hrange
    split at hrange
    · cases hrange
    · omega
  have hindex : get32 body 4 = get32 body' 4 := get32_congr fun k hk => h (4 + k) (by omega)
  exact ⟨count, offset, e, requestedRange_congr locals h ▸ hrange, hindex ▸ hentry, hchecks⟩

end Congr

/-- Only the bytes of the request count. -/
theorem RequestOverruns.congr {env : Surroundings} {p : Persistent} {m m' : Nat → UInt8}
    {received received' : Nat} (h : RequestOverruns env p m received)
    (hbytes : ∀ i < get32 m 2, m i = m' i) (hreceived : get32 m 2 ≤ received') :
    RequestOverruns env p m' received' := by
  have hlow := h.low
  have htag : get16 m 0 = get16 m' 0 := get16_congr fun k hk => hbytes (0 + k) (by omega)
  have hsize : get32 m 2 = get32 m' 2 := get32_congr fun k hk => hbytes (2 + k) (by omega)
  have hcode : get32 m 6 = get32 m' 6 := get32_congr fun k hk => hbytes (6 + k) (by omega)
  have hbody : ∀ i < get32 m 2 - 10, advance m 10 i = advance m' 10 i := fun i hi =>
    hbytes (10 + i) (by omega)
  refine ⟨htag ▸ h.tag, hsize ▸ hlow, hsize ▸ hreceived, ?_⟩
  rw [← hcode, ← hsize]
  exact h.overruns.imp (fun hc => ⟨hc.1, hc.2.congr hbody⟩) fun hc => ⟨hc.1, hc.2.congr hbody⟩

theorem not_fits (capacity : Nat) (m : Nat → UInt8) (offset count : Nat) :
    (LocalCopy.fits ⟨capacity, slice m offset count⟩ = false) ↔ capacity < count := by
  rw [LocalCopy.fits, length_slice, decide_eq_false_iff_not, Nat.not_le]

theorem createPrimaryCopies_iff (env : Surroundings) (body : Nat → UInt8) (size : Nat) :
    (createPrimaryCopies env body size).all LocalCopy.fits = false ↔
      CreateOverruns env.createPrimaryParams body size := by
  rw [createPrimaryCopies, CreateOverruns,
    ← unmarshalCreatePrimary_isOk_iff env.createPrimaryParams]
  cases hread : unmarshalCreatePrimary env.createPrimaryParams body size with
  | error rc => simp
  | ok result =>
      obtain ⟨params, bytesRead⟩ := result
      simp only [List.all_cons, List.all_nil, Bool.and_true, Bool.and_eq_false_iff, userAuthCopy,
        dataCopy, not_fits, Except.ok.injEq, exists_eq', true_and]
      obtain ⟨-, ⟨hpos, hauth, hlimit, hdata, -⟩ | ⟨hzero, hauth, hdata⟩⟩ :=
        unmarshalCreatePrimary_sizes hread
      · rw [if_pos hpos, ← hdata]
        exact or_iff_right (by omega)
      · rw [if_neg (by omega), hauth, hdata]

/-- NV_DefineSpace compares both sizes with the size of their arrays. -/
theorem nvDefineSpaceCopies_fit (env : Surroundings) (body : Nat → UInt8) (size : Nat) :
    (nvDefineSpaceCopies env body size).all LocalCopy.fits = true := by
  rw [nvDefineSpaceCopies]
  cases hread : unmarshalNvDefineSpace env.nvDefineSpaceParams body size with
  | error rc => rfl
  | ok result =>
      obtain ⟨params, bytesRead⟩ := result
      have hrange := (unmarshalNvDefineSpace_only hread).1
      cases hprovision : provisionOf params.authHandle with
      | none => simp only [hprovision, List.all_nil]
      | some provHandle =>
          simp only [hprovision, List.all_cons, List.all_nil, Bool.and_true, Bool.and_eq_true,
            LocalCopy.fits, authCopy, authPolicyCopy, length_slice, decide_eq_true_eq]
          exact ⟨hrange.authSize, hrange.authPolicySize⟩

theorem nvReadCopies_iff (host : Host) (env : Surroundings) {s : Tpm2State}
    (hsizes : ∀ i e, s.nvMap.lookup i = some e → e.dataLen = e.pub.dataSize)
    (body : Nat → UInt8) (size : Nat) :
    (nvReadCopies host env s body size).all LocalCopy.fits = false ↔
      ReadOverruns env.nvReadParams s.persistent body size := by
  rw [nvReadCopies]
  constructor
  · intro h
    obtain ⟨rc, -, heq⟩ | ⟨params, bytesRead, e, hread, hentry, hwritten, hrange, hunlocked, -, -,
      hkey, heq⟩ := nvReadOutput_cases host env s body size
    · rw [heq] at h
      cases h
    · obtain ⟨hindex, hrequested⟩ := unmarshalNvRead_range hread
      rw [heq] at h
      simp only [List.all_cons, List.all_nil, Bool.and_true, readCopy, LocalCopy.fits,
        length_nvPlaintext host e _ _ hkey, decide_eq_false_iff_not, Nat.not_le] at h
      exact ⟨_, _, e, hrequested, hindex ▸ hentry, hwritten, hrange, hunlocked, hkey, h⟩
  · rintro ⟨count, offset, e, hrequested, hentry, hwritten, hrange, hunlocked, hkey, hlarge⟩
    obtain ⟨consumed, hread⟩ := unmarshalNvRead_of_range env.bytesRead hrequested
    have hfits : offset + count ≤ e.dataLen := (hsizes _ e hentry).symm ▸ hrange
    rw [nvReadOutput_decrypted host env s body size hread hentry hwritten hrange hunlocked hfits
      (Nat.zero_lt_of_lt hlarge) hkey]
    simp only [List.all_cons, List.all_nil, Bool.and_true, readCopy, LocalCopy.fits,
      decide_eq_false_iff_not, Nat.not_le]
    exact hlarge.trans_eq (length_nvPlaintext host e _ _ hkey).symm

section Execute

variable {host : Host} {env : Surroundings} {s : Tpm2State}

theorem accessCopies_execute (hstate : s.state = .receiving) :
    accessCopies host s (.write env tpm2CmdReg 1) =
      if s.cmdSize < get32 s.commandBuffer 2 then [] else commandCopies host env (accept s) :=
  if_pos ⟨rfl, rfl, hstate⟩

theorem commandCopies_error {rc : Nat} (h : validateCommand s = .error rc) :
    commandCopies host env s = [] := by
  simp only [commandCopies, h]

theorem commandCopies_ok {header : Header} (h : validateCommand s = .ok header) :
    commandCopies host env s = dispatchCopies host env s header.code := by
  simp only [commandCopies, h]

theorem accessCopies_rejected (hstate : s.state = .receiving) (hcode : dispatchedCode s = none) :
    accessCopies host s (.write env tpm2CmdReg 1) = [] := by
  rw [accessCopies_execute hstate]
  unfold dispatchedCode at hcode
  by_cases hsize : s.cmdSize < get32 s.commandBuffer 2
  · exact if_pos hsize
  rw [if_neg hsize] at hcode
  rw [if_neg hsize]
  cases hvalid : validateCommand (accept s) with
  | error rc => exact commandCopies_error hvalid
  | ok header =>
      rw [hvalid] at hcode
      cases hcode

theorem accessCopies_dispatched {code : Nat} (hstate : s.state = .receiving)
    (hcode : dispatchedCode s = some code) :
    accessCopies host s (.write env tpm2CmdReg 1) = dispatchCopies host env (accept s) code := by
  rw [accessCopies_execute hstate]
  unfold dispatchedCode at hcode
  split at hcode
  · cases hcode
  rename_i hsize
  rw [if_neg hsize]
  cases hvalid : validateCommand (accept s) with
  | error rc =>
      rw [hvalid] at hcode
      cases hcode
  | ok header =>
      rw [hvalid] at hcode
      cases hcode
      exact commandCopies_ok hvalid

theorem commandBody_eq (env : Surroundings) (hlow : 10 ≤ get32 s.commandBuffer 2)
    (hhigh : get32 s.commandBuffer 2 ≤ 1024) :
    ∀ i < get32 s.commandBuffer 2 - 10,
      commandBody env s i = advance s.commandBuffer 10 i := fun _ hi =>
  commandBody_apply (by omega)

theorem dispatchCopies_accept (host : Host) (env : Surroundings) (s : Tpm2State) (code : Nat) :
    dispatchCopies host env (accept s) code =
      if code = tpmCcCreatePrimary then
        createPrimaryCopies env (commandBody env s) (commandBodySize s)
      else if code = tpmCcNvDefineSpace then
        nvDefineSpaceCopies env (commandBody env s) (commandBodySize s)
      else if code = tpmCcNvRead then
        nvReadCopies host env (accept s) (commandBody env s) (commandBodySize s)
      else [] :=
  rfl

/-- A dispatched command overruns exactly when it is one of the two and its body does. -/
theorem dispatchCopies_iff (env : Surroundings) (h : Reachable host s) (code : Nat) :
    (dispatchCopies host env (accept s) code).all LocalCopy.fits = false ↔
      code = tpmCcCreatePrimary ∧
        CreateOverruns env.createPrimaryParams (commandBody env s) (commandBodySize s) ∨
      code = tpmCcNvRead ∧
        ReadOverruns env.nvReadParams s.persistent (commandBody env s) (commandBodySize s) := by
  have hsizes : ∀ i e, (accept s).nvMap.lookup i = some e → e.dataLen = e.pub.dataSize :=
    fun _ _ => (bankInvariant_reachable h).sizes
  rw [dispatchCopies_accept]
  by_cases hcreate : code = tpmCcCreatePrimary
  · subst hcreate
    rw [if_pos rfl, createPrimaryCopies_iff]
    exact ⟨fun hcopies => .inl ⟨rfl, hcopies⟩,
      fun hor => (hor.resolve_right fun hread => absurd hread.1 (by decide)).2⟩
  rw [if_neg hcreate, or_iff_right fun hand => hcreate hand.1]
  by_cases hdefine : code = tpmCcNvDefineSpace
  · subst hdefine
    rw [if_pos rfl, nvDefineSpaceCopies_fit]
    exact ⟨fun hbad => absurd hbad (by decide), fun hread => absurd hread.1 (by decide)⟩
  rw [if_neg hdefine]
  by_cases hread : code = tpmCcNvRead
  · rw [if_pos hread, nvReadCopies_iff host env hsizes, and_iff_right hread]
    rfl
  · rw [if_neg hread]
    exact ⟨fun hbad => absurd hbad (by decide), fun hand => absurd hand.1 hread⟩

/-- The request of a reachable device overruns an array exactly when its bytes and the
persistent part of the state say so. -/
theorem accessCopies_iff (env : Surroundings) (h : Reachable host s)
    (hstate : s.state = .receiving) :
    (accessCopies host s (.write env tpm2CmdReg 1)).all LocalCopy.fits = false ↔
      RequestOverruns env s.persistent s.commandBuffer s.cmdSize := by
  have hmax : s.cmdSize ≤ 1024 := (transportInvariant_reachable h).cmdSize_le
  have hbodySize (hlow : 10 ≤ get32 s.commandBuffer 2) :
      commandBodySize s = get32 s.commandBuffer 2 - 10 := sub32_of_le hlow
  constructor
  · intro hcopies
    cases hcode : dispatchedCode s with
    | none =>
        rw [accessCopies_rejected hstate hcode] at hcopies
        cases hcopies
    | some code =>
        obtain ⟨header, hheader, -, -, hlow, hhigh, rfl⟩ := dispatchedCode_some hcode
        obtain ⟨-, rfl, -, htag, -⟩ := tpm2ValidateCommandHeader_ok hheader
        have hbody := commandBody_eq env hlow (hhigh.trans hmax)
        rw [accessCopies_dispatched hstate hcode, dispatchCopies_iff env h, hbodySize hlow]
          at hcopies
        exact ⟨htag, hlow, hhigh, hcopies.imp (fun hc => ⟨hc.1, hc.2.congr hbody⟩)
          fun hc => ⟨hc.1, hc.2.congr hbody⟩⟩
  · rintro ⟨htag, hlow, hhigh, hoverruns⟩
    have hbody := commandBody_eq env hlow (hhigh.trans hmax)
    have hvalid : isValidCcCommand (get32 s.commandBuffer 6) := by
      obtain ⟨hcode, -⟩ | ⟨hcode, -⟩ := hoverruns <;> rw [hcode] <;> decide
    have hcode := dispatchedCode_of_header (keyInvariant_reachable h).mode htag hlow hhigh rfl
      hvalid
    rw [accessCopies_dispatched hstate hcode, dispatchCopies_iff env h, hbodySize hlow]
    exact hoverruns.imp (fun hc => ⟨hc.1, hc.2.congr fun i hi => (hbody i hi).symm⟩)
      fun hc => ⟨hc.1, hc.2.congr fun i hi => (hbody i hi).symm⟩

end Execute

section Process

variable {host : Host} {env : Surroundings} {s : Tpm2State}

theorem process_stops {a : Access} (h : (accessCopies host s a).all LocalCopy.fits = false) :
    process host (some s) a = none :=
  if_neg (Bool.not_eq_true _ ▸ h)

theorem process_continues {a : Access} (h : (accessCopies host s a).all LocalCopy.fits = true) :
    process host (some s) a = some (step host s a) :=
  if_pos h

theorem process_overruns (h : Reachable host s) (hstate : s.state = .receiving)
    (hoverruns : RequestOverruns env s.persistent s.commandBuffer s.cmdSize) :
    process host (some s) (.write env tpm2CmdReg 1) = none :=
  process_stops ((accessCopies_iff env h hstate).mpr hoverruns)

theorem process_survives (h : Reachable host s) (hstate : s.state = .receiving)
    (hfits : ¬ RequestOverruns env s.persistent s.commandBuffer s.cmdSize) :
    process host (some s) (.write env tpm2CmdReg 1) =
      some (step host s (.write env tpm2CmdReg 1)) := by
  rw [← accessCopies_iff env h hstate, Bool.not_eq_false] at hfits
  exact process_continues hfits

theorem accessCopies_quiet {a : Access} (h : ∀ env, ¬ a.Executes s env) :
    accessCopies host s a = [] := by
  cases a with
  | read addr => rfl
  | write env addr value =>
      refine if_neg ?_
      rintro ⟨rfl, rfl, hstate⟩
      exact h env ⟨rfl, hstate⟩

theorem process_quiet {a : Access} (h : ∀ env, ¬ a.Executes s env) :
    process host (some s) a = some (step host s a) :=
  process_continues (congrArg (List.all · LocalCopy.fits) (accessCopies_quiet h))

theorem run_process_transmit (host : Host) (env : Surroundings) (s : Tpm2State)
    (cmdBuf : Nat → UInt8) (len : Nat) :
    Runs.run (process host) (some s) (tpmTransmit env cmdBuf len) =
      some (Runs.run (step host) s (tpmTransmit env cmdBuf len)) := by
  refine Runs.run_stopping_iff.mpr ⟨Runs.along_of_forall fun t a ha => ?_, rfl⟩
  rw [accessCopies_quiet fun _ => not_executes_transmit ha]
  rfl

theorem run_process_send (host : Host) (env : Surroundings) (s : Tpm2State)
    (cmdBuf : Nat → UInt8) (len : Nat) :
    Runs.run (process host) (some s) (tpmSendCommand env cmdBuf len) =
      process host (some (Runs.run (step host) s (tpmTransmit env cmdBuf len)))
        (.write env tpm2CmdReg 1) := by
  rw [tpmSendCommand, Runs.run_append, run_process_transmit]
  rfl

/-- An execution is answered exactly when it does not overrun an array. -/
theorem execute_answered_iff (env : Surroundings) (h : Reachable host s)
    (hstate : s.state = .receiving) :
    (∃ t, process host (some s) (.write env tpm2CmdReg 1) = some t ∧
      ResponseReady (executeReply host env s).1 t) ↔
      ¬ RequestOverruns env s.persistent s.commandBuffer s.cmdSize := by
  constructor
  · rintro ⟨t, ht, -⟩ hoverruns
    cases (process_overruns h hstate hoverruns).symm.trans ht
  · intro hfits
    exact ⟨_, process_survives h hstate hfits, responseReady_execute host env hstate⟩

theorem not_overruns_of_range {p : Persistent} {m : Nat → UInt8} {received : Nat}
    (count offset : Nat) (hcode : get32 m 6 = tpmCcNvRead)
    (hrange : requestedRange env.nvReadParams (advance m 10) (get32 m 2 - 10) =
      some (count, offset)) (hcount : count ≤ 1024) : ¬ RequestOverruns env p m received := by
  rintro ⟨-, -, -, ⟨hcreate, -⟩ | ⟨-, count', offset', e, hrange', -, -, -, -, -, hlarge⟩⟩
  · exact absurd (hcreate.symm.trans hcode) (by decide)
  · cases hrange'.symm.trans hrange
    exact absurd hlarge (Nat.not_lt.mpr hcount)

theorem execute_answered_iff_nvRead :
    let s := pendingCommand [cmdNvDefineSpace, cmdNvWrite] cmdNvRead
    ∃ t, process referenceHost (some s) (.write zeroSurroundings tpm2CmdReg 1) = some t ∧
      t.state = .sending ∧ (responseHeader t).code = tpmRcSuccess := by
  intro s
  have hreach := reachable_pendingCommand [cmdNvDefineSpace, cmdNvWrite] cmdNvRead
  have hstate : s.state = .receiving := by decide +kernel
  have hfits : ¬ RequestOverruns zeroSurroundings s.persistent s.commandBuffer s.cmdSize :=
    not_overruns_of_range 4 0 (by decide +kernel) (by decide +kernel)
      (by decide)
  obtain ⟨t, ht, hready⟩ :=
    (execute_answered_iff zeroSurroundings hreach hstate).mpr hfits
  refine ⟨t, ht, hready.1, ?_⟩
  obtain rfl := Option.some.inj ((process_survives hreach hstate hfits).symm.trans ht)
  decide +kernel

def cmdCreatePrimaryLargeData : List UInt8 :=
  commandBytes tpmStNoSessions tpmCcCreatePrimary bodyLargeData

/-- The firmware's commands for an index of 2000 bytes, up to a read of 1100 bytes. The
process gets that far and does not survive the execution. -/
theorem execute_answered_fails :
    let s := pendingCommand [cmdNvDefineSpaceLarge, cmdNvWrite] cmdNvReadLarge
    (s.state = .receiving ∧
      Runs.run (process referenceHost) (some (tpm2Realize referenceHost))
        ([cmdNvDefineSpaceLarge, cmdNvWrite].flatMap (send zeroSurroundings) ++
          transmit zeroSurroundings cmdNvReadLarge) = some s ∧
      process referenceHost (some s) (.write zeroSurroundings tpm2CmdReg 1) = none) ∧
    (let s := pendingCommand [] cmdCreatePrimaryLargeData
     s.state = .receiving ∧
      process referenceHost (some s) (.write zeroSurroundings tpm2CmdReg 1) = none) := by
  intro s
  refine ⟨⟨by decide +kernel, Runs.run_stopping_iff.mpr ⟨by decide +kernel, ?_⟩, ?_⟩,
    by decide +kernel, ?_⟩
  · exact Runs.run_append _ _ _ _
  · exact process_stops (by decide +kernel)
  · exact process_stops (by decide +kernel)

/-- The driver's command and the driver's reading of the response agree with the device
exactly when the command does not overrun an array. -/
theorem driver_agreement_iff (env : Surroundings) (h : Reachable host s)
    (cmdBuf : Nat → UInt8) {len : Nat} (hlow : 10 ≤ len) (hhigh : len ≤ 1024)
    (hsize : get32 cmdBuf 2 = len) (respBuf : Nat → UInt8) {maxLen fuel : Nat}
    (hmax : 1024 ≤ maxLen) (hfuel : 256 ≤ fuel) :
    (∃ t, Runs.run (process host) (some s) (tpmSendCommand env cmdBuf len) = some t ∧
      Exchanged host env s cmdBuf len respBuf maxLen fuel t) ↔
      ¬ RequestOverruns env s.persistent cmdBuf len := by
  have hreceiving := receiving_transmit host env cmdBuf hhigh s
  have hreach := h.run (tpmTransmit env cmdBuf len)
  have hpersistent := persistent_tpmTransmit host env s cmdBuf len
  have hrun := run_process_send host env s cmdBuf len
  -- The command stands at the beginning of the buffer, and zeros fill the last word.
  have hbytes : ∀ j < len, (Runs.run (step host) s (tpmTransmit env cmdBuf len)).commandBuffer j =
      cmdBuf j := fun j hj => (hreceiving.bytes j (by omega)).trans (if_pos hj)
  have hfield : get32 (Runs.run (step host) s (tpmTransmit env cmdBuf len)).commandBuffer 2 = len :=
    (get32_congr fun k hk => hbytes (2 + k) (by omega)).trans hsize
  constructor
  · rintro ⟨t, ht, -⟩ hoverruns
    rw [hrun, process_overruns hreach hreceiving.state] at ht
    · cases ht
    · rw [hpersistent]
      refine hoverruns.congr (fun i hi => (hbytes i (hsize ▸ hi)).symm) ?_
      rw [hreceiving.cmdSize]
      omega
  · intro hfits
    refine ⟨_, hrun.trans (process_survives hreach hreceiving.state fun hoverruns => hfits ?_), ?_⟩
    · rw [hpersistent] at hoverruns
      exact hoverruns.congr (fun i hi => hbytes i (hfield ▸ hi)) hfield.le
    · have hexchanged := exchanged_send host env s cmdBuf hlow hhigh hsize respBuf hmax hfuel
      rwa [tpmSendCommand, Runs.run_append] at hexchanged

theorem driver_agreement_iff_nvRead :
    let s := afterCommands [cmdNvDefineSpace, cmdNvWrite]
    ∃ t, Runs.run (process referenceHost) (some s) (send zeroSurroundings cmdNvRead) = some t ∧
      ∃ size d, tpmReadResponse 256 t zeroBytes 1024 = some (size, d) ∧
        d.device.state = .idle := by
  intro s
  obtain ⟨t, ht, -, -, -, d, hread, -, -, hidle, -⟩ :=
    (driver_agreement_iff zeroSurroundings
      (reachable_afterCommands [cmdNvDefineSpace, cmdNvWrite]) (cmdNvRead.getD · 0)
      (show 10 ≤ cmdNvRead.length by decide) (by decide) (by decide +kernel) zeroBytes
      (Nat.le_refl 1024) (Nat.le_refl 256)).mpr
      (not_overruns_of_range 4 0 (by decide +kernel) (by decide +kernel)
        (by decide))
  exact ⟨t, ht, _, d, hread, hidle⟩

theorem driver_agreement_fails :
    let s := afterCommands [cmdNvDefineSpaceLarge, cmdNvWrite]
    get32 (cmdNvReadLarge.getD · 0) 2 = cmdNvReadLarge.length ∧
      Runs.run (process referenceHost) (some s) (send zeroSurroundings cmdNvReadLarge) = none := by
  intro s
  refine ⟨by decide +kernel, (run_process_send _ _ _ _ _).trans ?_⟩
  exact process_stops (by decide +kernel)

end Process

end TpmEmulator

import TpmEmulator.Transport

/-!
What stands between the register interface and the handlers. The execute branch
compares the size field with the number of received bytes and then overwrites the
latter, so that the header validator's own comparison always agrees. A size field
that is too large is rejected. One that is too small by a word or more is not: the
excess words are ignored. Outside normal mode the mode check lets through only
codes that have no handler.
-/
namespace TpmEmulator

open CellMemory BigEndian

/-- The count of received bytes after one more access. -/
def receivedAfter (received : Nat) : Access → Nat
  | .read _ => received
  | .write _ addr value =>
    if addr = tpm2CtrlReg then if value = 1 then 0 else received
    else if addr = tpm2DataReg then received + 4
    else received

/-- The bytes written to the data register since the last write of 1 to the control
register. -/
def bytesReceived (accesses : List Access) : Nat := accesses.foldl receivedAfter 0

section Received

variable {s : Tpm2State} {received : Nat}

theorem cmdSize_mmioRead {addr : Nat} (hs : s.state = .receiving → s.cmdSize = received)
    (h : (tpm2MmioRead s addr).2.state = .receiving) :
    (tpm2MmioRead s addr).2.cmdSize = received := by
  unfold tpm2MmioRead at h ⊢
  dsimp only at h ⊢
  split_ifs at h ⊢ <;> exact hs h

theorem cmdSize_ctrl (host : Host) (env : Surroundings) {value : Nat}
    (hs : s.state = .receiving → s.cmdSize = received)
    (h : (tpm2MmioWrite host env s tpm2CtrlReg value).state = .receiving) :
    (tpm2MmioWrite host env s tpm2CtrlReg value).cmdSize = if value = 1 then 0 else received := by
  rw [tpm2MmioWrite, if_pos rfl] at h ⊢
  by_cases hone : value = 1
  · rw [if_pos hone, if_pos hone]
  rw [if_neg hone] at h ⊢
  rw [if_neg hone]
  by_cases hzero : value = 0
  · rw [if_pos hzero] at h
    cases h
  · rw [if_neg hzero] at h ⊢
    exact hs h

/-- The only write to the command register that leaves the device receiving is one
that does nothing. -/
theorem cmdSize_cmd (host : Host) (env : Surroundings) {value : Nat}
    (hs : s.state = .receiving → s.cmdSize = received)
    (h : (tpm2MmioWrite host env s tpm2CmdReg value).state = .receiving) :
    (tpm2MmioWrite host env s tpm2CmdReg value).cmdSize = received := by
  rw [tpm2MmioWrite, if_neg (by decide), if_pos rfl] at h ⊢
  by_cases hone : value = 1
  · rw [if_pos hone] at h
    by_cases hstate : s.state = .receiving
    · rw [if_neg (not_not.mpr hstate), executeCommand_eq_respond, (respond_sending _).1] at h
      cases h
    · rw [if_pos hstate] at h
      cases h
  · rw [if_neg hone] at h ⊢
    exact hs h

theorem cmdSize_data (host : Host) (env : Surroundings) {value : Nat}
    (hle : s.cmdSize ≤ commandBufferSize) (hs : s.state = .receiving → s.cmdSize = received)
    (h : (tpm2MmioWrite host env s tpm2DataReg value).state = .receiving) :
    (tpm2MmioWrite host env s tpm2DataReg value).cmdSize = received + 4 := by
  rw [tpm2MmioWrite, if_neg (by decide), if_neg (by decide), if_pos rfl] at h ⊢
  by_cases hstate : s.state = .receiving
  · rw [if_neg (not_not.mpr hstate)] at h ⊢
    by_cases hroom : commandBufferSize < (s.cmdSize + 4) % 2 ^ 32
    · rw [if_pos hroom] at h
      cases h
    · rw [if_neg hroom, ← hs hstate]
      change (s.cmdSize + 4) % 2 ^ 32 = s.cmdSize + 4
      simp only [commandBufferSize] at hle
      omega
  · rw [if_pos hstate] at h
    exact absurd h hstate

theorem cmdSize_step (host : Host) (a : Access) (hle : s.cmdSize ≤ commandBufferSize)
    (hs : s.state = .receiving → s.cmdSize = received)
    (h : (step host s a).state = .receiving) :
    (step host s a).cmdSize = receivedAfter received a := by
  cases a with
  | read addr => exact cmdSize_mmioRead hs h
  | write env addr value =>
      change (tpm2MmioWrite host env s addr value).state = _ at h
      change (tpm2MmioWrite host env s addr value).cmdSize = _
      rw [receivedAfter]
      by_cases hctrl : addr = tpm2CtrlReg
      · subst hctrl
        rw [if_pos rfl]
        exact cmdSize_ctrl host env hs h
      rw [if_neg hctrl]
      by_cases hdata : addr = tpm2DataReg
      · subst hdata
        rw [if_pos rfl]
        exact cmdSize_data host env hle hs h
      rw [if_neg hdata]
      by_cases hcmd : addr = tpm2CmdReg
      · subst hcmd
        exact cmdSize_cmd host env hs h
      · rw [tpm2MmioWrite, if_neg hctrl, if_neg hcmd, if_neg hdata] at h ⊢
        exact hs h

end Received

/-- While the device receives, `cmd_size` is the number of received bytes. -/
theorem cmdSize_eq_bytesReceived (host : Host) (accesses : List Access)
    (h : (Runs.run (step host) (tpm2Realize host) accesses).state = .receiving) :
    (Runs.run (step host) (tpm2Realize host) accesses).cmdSize = bytesReceived accesses := by
  induction accesses using List.reverseRecOn with
  | nil =>
      rw [Runs.run_nil, tpm2Realize_eq] at h
      cases h
  | append_singleton accesses a ih =>
      have hinv := transportInvariant_reachable ((reachable_realize host).run accesses)
      rw [Runs.run_append] at h ⊢
      rw [bytesReceived, List.foldl_append]
      exact cmdSize_step host a hinv.cmdSize_le ih h

/-- The pending command reaches one of the five handlers. -/
def HandlerEntered (s : Tpm2State) : Prop := ∃ code ∈ handledCodes, dispatchedCode s = some code

/-- The size field rounded up to whole words. -/
def paddedSizeField (s : Tpm2State) : Nat := (get32 s.commandBuffer 2 + 3) / 4 * 4

/-- The law for one execution: a handler runs only if the received bytes are the
words of the declared command, and otherwise the size is rejected. -/
def LengthsAgree (host : Host) (env : Surroundings) (s : Tpm2State) (received : Nat) : Prop :=
  (HandlerEntered s → received = paddedSizeField s) ∧
    (received ≠ paddedSizeField s →
      (responseHeader (step host s (.write env tpm2CmdReg 1))).code = tpmRcCommandSize ∧
      (step host s (.write env tpm2CmdReg 1)).persistent = s.persistent)

theorem persistent_execute (host : Host) (env : Surroundings) {s : Tpm2State}
    (h : s.state = .receiving) :
    (step host s (.write env tpm2CmdReg 1)).persistent =
      (executeReply host env s).2.persistent := by
  rw [step_executes host ⟨rfl, h⟩, persistent_respond]

theorem not_executes_transmit {env env' : Surroundings} {cmdBuf : Nat → UInt8} {len : Nat}
    {s : Tpm2State} {a : Access} (h : a ∈ tpmTransmit env cmdBuf len) : ¬ a.Executes s env' := by
  rintro ⟨rfl, -⟩
  obtain h | h := List.mem_cons.mp h
  · cases h
  · obtain ⟨word, -, h⟩ := List.mem_map.mp h
    cases h

/-- Sending a command does not change what it is executed on. -/
theorem persistent_tpmTransmit (host : Host) (env : Surroundings) (s : Tpm2State)
    (cmdBuf : Nat → UInt8) (len : Nat) :
    (Runs.run (step host) s (tpmTransmit env cmdBuf len)).persistent = s.persistent := by
  have hkept : Runs.Along (step host) (fun t a => ∀ env', ¬ a.Executes t env') s
      (tpmTransmit env cmdBuf len) := Runs.along_of_forall fun _ _ ha _ => not_executes_transmit ha
  refine Runs.run_along (P := fun t => t.persistent = s.persistent) ?_ s _ rfl hkept
  intro t a hsame hkept
  obtain heq | ⟨env', hexec, -⟩ := persistent_step host t a
  · exact heq.trans hsame
  · exact absurd hexec (hkept env')

theorem persistent_transmit (host : Host) (env : Surroundings) (s : Tpm2State) (cmd : List UInt8) :
    (Runs.run (step host) s (transmit env cmd)).persistent = s.persistent :=
  persistent_tpmTransmit host env s (cmd.getD · 0) cmd.length

/-- A command answered with an error in a state that differs from `s` only in the
interface. -/
theorem execute_error (host : Host) (env : Surroundings) {s t : Tpm2State} {rc : Nat}
    (h : s.state = .receiving) (hreply : executeReply host env s = (.error rc, t))
    (ht : t.persistent = s.persistent) :
    (responseHeader (step host s (.write env tpm2CmdReg 1))).code = rc ∧
      (step host s (.write env tpm2CmdReg 1)).persistent = s.persistent := by
  refine ⟨((answers_execute host env h).error (congrArg Prod.fst hreply)).1, ?_⟩
  rw [persistent_execute host env h, hreply]
  exact ht

theorem not_handlerEntered {s : Tpm2State} (h : dispatchedCode s = none) : ¬ HandlerEntered s := by
  rintro ⟨code, -, hcode⟩
  rw [h] at hcode
  cases hcode

theorem dispatchedCode_short {s : Tpm2State} (h : s.cmdSize < get32 s.commandBuffer 2) :
    dispatchedCode s = none :=
  if_pos h

theorem dispatchedCode_invalid {s : Tpm2State} {rc : Nat}
    (hvalid : validateCommand (accept s) = .error rc) : dispatchedCode s = none := by
  unfold dispatchedCode
  rw [hvalid]
  split <;> rfl

theorem validateCommand_small {s : Tpm2State} (h : s.cmdSize < 10) :
    validateCommand s = .error tpmRcCommandSize := by
  obtain ⟨rc, hheader, heq⟩ | ⟨header, hheader, -⟩ | ⟨header, hheader, -⟩ :=
    validateCommand_cases s
  · rw [tpm2ValidateCommandHeader, if_pos h] at hheader
    cases hheader
    exact heq
  · have := (tpm2ValidateCommandHeader_ok hheader).1
    omega
  · have := (tpm2ValidateCommandHeader_ok hheader).1
    omega

/-- With a complete header the size is not what the header validator rejects. -/
theorem validateCommand_ne_commandSize {s : Tpm2State} (h : 10 ≤ get32 s.commandBuffer 2)
    (hvalid : validateCommand (accept s) = .error tpmRcCommandSize) : False := by
  obtain ⟨rc, hheader, heq⟩ | ⟨header, -, -, heq⟩ | ⟨header, -, -, heq⟩ :=
    validateCommand_cases (accept s)
  · cases heq.symm.trans hvalid
    obtain ⟨-, hshort | hfield⟩ | htag | hcode := tpm2ValidateCommandHeader_rejects hheader
    · exact absurd h (Nat.not_le.mpr hshort)
    · exact hfield rfl
    · exact absurd htag (by decide)
    · exact absurd hcode (by decide)
  · have hcode := Except.error.inj (heq.symm.trans hvalid)
    obtain hrc | ⟨-, hrc⟩ | ⟨-, hrc⟩ | ⟨-, hrc⟩ :=
      tpm2ValidateMode_rejects header (accept s).tpmMode <;>
    · rw [hrc] at hcode
      exact absurd hcode (by decide)
  · cases heq.symm.trans hvalid

theorem lengthsAgree_short (host : Host) (env : Surroundings) {s : Tpm2State} (received : Nat)
    (hstate : s.state = .receiving) (h : s.cmdSize < get32 s.commandBuffer 2) :
    LengthsAgree host env s received :=
  ⟨fun hentered => absurd hentered (not_handlerEntered (dispatchedCode_short h)),
    fun _ => execute_error host env hstate (executeReply_short host env h) rfl⟩

theorem lengthsAgree_small (host : Host) (env : Surroundings) {s : Tpm2State} (received : Nat)
    (hstate : s.state = .receiving) (hle : get32 s.commandBuffer 2 ≤ s.cmdSize)
    (h : get32 s.commandBuffer 2 < 10) : LengthsAgree host env s received :=
  have hvalid : validateCommand (accept s) = .error tpmRcCommandSize := validateCommand_small h
  ⟨fun hentered => absurd hentered (not_handlerEntered (dispatchedCode_invalid hvalid)),
    fun _ => execute_error host env hstate (executeReply_invalid host env hle hvalid) rfl⟩

/-- Excess words are ignored: with a complete header and too many received words
either a handler runs or something else than the size is rejected. -/
theorem not_lengthsAgree_excess (host : Host) (env : Surroundings) {s : Tpm2State}
    {received : Nat} (hstate : s.state = .receiving) (hle : get32 s.commandBuffer 2 ≤ s.cmdSize)
    (hlong : 10 ≤ get32 s.commandBuffer 2) (hne : received ≠ paddedSizeField s) :
    ¬ LengthsAgree host env s received := by
  rintro ⟨hentered, hrejected⟩
  obtain ⟨hcode, -⟩ := hrejected hne
  cases hvalid : validateCommand (accept s) with
  | error rc =>
      have hrc := (execute_error host env hstate (executeReply_invalid host env hle hvalid) rfl).1
      rw [hrc] at hcode
      rw [hcode] at hvalid
      exact validateCommand_ne_commandSize hlong hvalid
  | ok header =>
      have hdispatched : dispatchedCode s = some header.code := by
        rw [dispatchedCode, if_neg (Nat.not_lt.mpr hle), hvalid]
        rfl
      by_cases hhandled : header.code ∈ handledCodes
      · exact hne (hentered ⟨header.code, hhandled, hdispatched⟩)
      · have hrc := (execute_error host env hstate
          (executeReply_unhandled host env hdispatched hhandled) rfl).1
        rw [hrc] at hcode
        exact absurd hcode (by decide)

/-- Lengths agree exactly when the size field exceeds what was received, does not
cover a header, or is what was received up to the padding of the last word. -/
theorem lengthsAgree_iff (host : Host) (env : Surroundings) (accesses : List Access)
    (h : (Runs.run (step host) (tpm2Realize host) accesses).state = .receiving) :
    let s := Runs.run (step host) (tpm2Realize host) accesses
    LengthsAgree host env s (bytesReceived accesses) ↔
      bytesReceived accesses < get32 s.commandBuffer 2 ∨ get32 s.commandBuffer 2 < 10 ∨
        bytesReceived accesses = paddedSizeField s := by
  intro s
  have hsize : s.cmdSize = bytesReceived accesses := cmdSize_eq_bytesReceived host accesses h
  rw [← hsize]
  constructor
  · intro hagree
    by_contra hcond
    push Not at hcond
    obtain ⟨hle, hlong, hne⟩ := hcond
    exact not_lengthsAgree_excess host env h hle hlong hne hagree
  · rintro (hshort | hsmall | heq)
    · exact lengthsAgree_short host env _ h hshort
    · by_cases hshort : s.cmdSize < get32 s.commandBuffer 2
      · exact lengthsAgree_short host env _ h hshort
      · exact lengthsAgree_small host env _ h (Nat.le_of_not_lt hshort) hsmall
    · exact ⟨fun _ => heq, fun hne => absurd heq hne⟩

/-- A GetRandom command of twelve bytes followed by one more word. -/
def getRandomExcess : List Access := transmit zeroSurroundings (cmdGetRandom ++ [0, 0, 0, 0])

theorem lengthsAgree_iff_getRandom :
    let s := Runs.run (step referenceHost) (tpm2Realize referenceHost)
      (transmit zeroSurroundings cmdGetRandom)
    s.state = .receiving ∧ LengthsAgree referenceHost zeroSurroundings s 12 := by
  intro s
  have hstate : s.state = .receiving := by decide +kernel
  have hreceived : bytesReceived (transmit zeroSurroundings cmdGetRandom) = 12 := by
    decide +kernel
  have hiff := lengthsAgree_iff referenceHost zeroSurroundings
    (transmit zeroSurroundings cmdGetRandom) hstate
  rw [hreceived] at hiff
  exact ⟨hstate, hiff.mpr (by decide +kernel)⟩

theorem lengthsAgree_excess_fails :
    let s := Runs.run (step referenceHost) (tpm2Realize referenceHost) getRandomExcess
    s.state = .receiving ∧ bytesReceived getRandomExcess = 16 ∧
      get32 s.commandBuffer 2 = 12 ∧ dispatchedCode s = some tpmCcGetRandom ∧
      (responseHeader (step referenceHost s (.write zeroSurroundings tpm2CmdReg 1))).code =
        tpmRcSuccess ∧
      ¬ LengthsAgree referenceHost zeroSurroundings s (bytesReceived getRandomExcess) := by
  intro s
  have hstate : s.state = .receiving := by decide +kernel
  have hreceived : bytesReceived getRandomExcess = 16 := by decide +kernel
  have hfield : get32 s.commandBuffer 2 = 12 := by decide +kernel
  have hcode : dispatchedCode s = some tpmCcGetRandom := by decide +kernel
  refine ⟨hstate, hreceived, hfield, hcode, by decide +kernel, fun hagree => ?_⟩
  have heq := hagree.1 ⟨tpmCcGetRandom, by decide, hcode⟩
  rw [hreceived, paddedSizeField, hfield] at heq
  cases heq

/-- Outside normal mode no code that has a handler passes the mode check. -/
theorem tpm2ValidateMode_unhandled {header : Header} {mode : TpmMode} (hmode : mode ≠ .normal)
    (h : tpm2ValidateMode header mode = tpmRcSuccess) : header.code ∉ handledCodes := by
  unfold tpm2ValidateMode at h
  cases mode with
  | normal => exact absurd rfl hmode
  | failure =>
      obtain ⟨⟨hcode | hcode, -⟩, -⟩ | ⟨-, h⟩ := ite_eq_cases h
      · rw [hcode]
        decide
      · rw [hcode]
        decide
      · cases h
  | field | noInit =>
      obtain ⟨hcode, -⟩ | ⟨-, h⟩ := ite_eq_cases h
      · rw [hcode]
        decide
      · cases h

/-- What an execution outside normal mode is answered with. -/
theorem executeReply_otherMode (host : Host) (env : Surroundings) {s : Tpm2State}
    (hmode : s.tpmMode ≠ .normal) :
    ∃ rc t, executeReply host env s = (.error rc, t) ∧ t.persistent = s.persistent ∧
      t.randomData = s.randomData ∧
      (rc = tpmRcCommandSize ∨ rc = tpmRcBadTag ∨ rc = tpmRcCommandCode ∨
        (s.tpmMode = .failure ∧ rc = tpmRcFailure) ∨ (s.tpmMode = .field ∧ rc = tpmRcUpgrade) ∨
        (s.tpmMode = .noInit ∧ rc = tpmRcInitialize)) := by
  by_cases hshort : s.cmdSize < get32 s.commandBuffer 2
  · exact ⟨_, _, executeReply_short host env hshort, rfl, rfl, .inl rfl⟩
  have hle := Nat.le_of_not_lt hshort
  obtain ⟨rc, hheader, heq⟩ | ⟨header, -, hne, heq⟩ | ⟨header, -, hok, heq⟩ :=
    validateCommand_cases (accept s)
  · refine ⟨rc, _, executeReply_invalid host env hle heq, rfl, rfl, ?_⟩
    obtain ⟨hrc, -⟩ | hrc | hrc := tpm2ValidateCommandHeader_rejects hheader
    · exact .inl hrc
    · exact .inr (.inl hrc)
    · exact .inr (.inr (.inl hrc))
  · refine ⟨_, _, executeReply_invalid host env hle heq, rfl, rfl, .inr (.inr (.inr ?_))⟩
    exact (tpm2ValidateMode_rejects header s.tpmMode).resolve_left hne
  · have hdispatched : dispatchedCode s = some header.code := by
      rw [dispatchedCode, if_neg hshort, heq]
      rfl
    exact ⟨_, _, executeReply_unhandled host env hdispatched
      (tpm2ValidateMode_unhandled hmode hok), rfl, rfl, .inr (.inr (.inl rfl))⟩

theorem randomData_respond (r : Reply) : (respond r).randomData = r.2.randomData := by
  obtain ⟨report, s⟩ := r
  cases report <;> rfl

/-- Outside normal mode no command succeeds and none changes anything but the
interface. -/
theorem mode_isolation (host : Host) (env : Surroundings) {s : Tpm2State}
    (hstate : s.state = .receiving) (hmode : s.tpmMode ≠ .normal) :
    let t := step host s (.write env tpm2CmdReg 1)
    let rc := (responseHeader t).code
    rc ≠ tpmRcSuccess ∧ t.persistent = s.persistent ∧ t.randomData = s.randomData ∧
      (rc = tpmRcCommandSize ∨ rc = tpmRcBadTag ∨ rc = tpmRcCommandCode ∨
        (s.tpmMode = .failure ∧ rc = tpmRcFailure) ∨ (s.tpmMode = .field ∧ rc = tpmRcUpgrade) ∨
        (s.tpmMode = .noInit ∧ rc = tpmRcInitialize)) := by
  intro t rc
  obtain ⟨rc', t', hreply, hpersistent, hrandom, hcases⟩ := executeReply_otherMode host env hmode
  obtain ⟨hcode, hsame⟩ := execute_error host env hstate hreply hpersistent
  have hrc : rc = rc' := hcode
  have herror : IsErrorCode rc' :=
    (executeReply_wellFormed host env s).error_code (congrArg Prod.fst hreply)
  refine ⟨hrc ▸ herror.1, hsame, ?_, hrc ▸ hcases⟩
  change (step host s (.write env tpm2CmdReg 1)).randomData = s.randomData
  rw [step_executes host ⟨rfl, hstate⟩, randomData_respond, hreply]
  exact hrandom

theorem mode_isolation_failure :
    let s := { pendingCommand [] cmdGetRandom with tpmMode := TpmMode.failure }
    s.state = .receiving ∧ s.tpmMode ≠ .normal ∧
      (responseHeader (step referenceHost s (.write zeroSurroundings tpm2CmdReg 1))).code ≠
        tpmRcSuccess := by
  intro s
  have hstate : s.state = .receiving := by decide +kernel
  have hmode : s.tpmMode ≠ .normal := by decide
  exact ⟨hstate, hmode, (mode_isolation referenceHost zeroSurroundings hstate hmode).1⟩

end TpmEmulator

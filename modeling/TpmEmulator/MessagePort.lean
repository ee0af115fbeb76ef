import TpmEmulator.TpmMigration
import TpmEmulator.LocalCopies

/-!
The register window as a port for messages. A guest opens a request, writes it word by
word and has it executed; then it reads the response word by word. `Port.Step` is this
protocol in terms of the messages, without buffers and indices. Whatever a guest does,
in whatever order, it sees this protocol until a request overruns a local array of its
handler, and only a complete request for a command that stores something can change what
the TPM stores.
-/

namespace TpmEmulator

open CellMemory BigEndian

/-- The message under way. -/
inductive Port
  | idle
  | receiving (request : List UInt8)
  | sending (unread : List Nat)

def Port.state : Port → TpmState
  | .idle => .idle
  | .receiving _ => .receiving
  | .sending _ => .sending

/-- The words of a response: a header that states the length, a body if the command
succeeded, and less than a word of padding. -/
structure IsResponse (words : List Nat) (code : Nat) : Prop where
  bytes : ∃ body padding, words.flatMap bytes32 =
    headerBytes ⟨tpmStNoSessions, tpmRspHeaderSize + body.length, code⟩ ++ body ++ padding ∧
    padding.length < 4 ∧ (code ≠ tpmRcSuccess → body = [])
  length_le : words.length ≤ 256

/-- The number at a position of a request. -/
def requestField (request : List UInt8) (i : Nat) : Nat := get32 (request.getD · 0) i

/-- The size that the header declares covers the header and has been received. -/
def Complete (request : List UInt8) : Prop :=
  tpmCmdHeaderSize ≤ requestField request 2 ∧ requestField request 2 ≤ request.length

/-- The commands that can change what the TPM stores. -/
def storingCodes : List Nat := [tpmCcCreatePrimary, tpmCcNvDefineSpace, tpmCcNvWrite]

/-- An access that the port takes no notice of. -/
def Port.Ignores : Port → Access → Prop
  | p, .read addr => addr ≠ tpm2StatusReg ∧ (addr = tpm2DataReg → p.state ≠ .sending)
  | p, .write _ addr value =>
      (addr = tpm2CtrlReg → value ≠ 0 ∧ value ≠ 1) ∧ (addr = tpm2CmdReg → value ≠ 1) ∧
        (addr = tpm2DataReg → p.state ≠ .receiving)

/-- One access, with the value it gives, before and after it the message under way and
what the TPM stores. The process ends with a request that overruns a local array. -/
inductive Port.Step : Option (Port × Persistent) → Access → Nat → Option (Port × Persistent) → Prop
  | start (p : Port) (stored : Persistent) (env : Surroundings) :
      Step (some (p, stored)) (.write env tpm2CtrlReg 1) 0 (some (.receiving [], stored))
  | reset (p : Port) (stored : Persistent) (env : Surroundings) :
      Step (some (p, stored)) (.write env tpm2CtrlReg 0) 0 (some (.idle, stored))
  | word (request : List UInt8) (stored : Persistent) (env : Surroundings) (value : Nat)
      (room : request.length + 4 ≤ 1024) :
      Step (some (.receiving request, stored)) (.write env tpm2DataReg value) 0
        (some (.receiving (request ++ bytes32 (value % 2 ^ 32)), stored))
  | overflow (request : List UInt8) (stored : Persistent) (env : Surroundings) (value : Nat)
      (full : 1024 < request.length + 4) :
      Step (some (.receiving request, stored)) (.write env tpm2DataReg value) 0
        (some (.idle, stored))
  | refuse (request : List UInt8) (stored : Persistent) (env : Surroundings)
      (response : List Nat) (incomplete : ¬ Complete request)
      (isResponse : IsResponse response tpmRcCommandSize) :
      Step (some (.receiving request, stored)) (.write env tpm2CmdReg 1) 0
        (some (.sending response, stored))
  | execute (request : List UInt8) (stored stored' : Persistent) (env : Surroundings)
      (response : List Nat) (code : Nat) (complete : Complete request)
      (fits : ¬ RequestOverruns env stored (request.getD · 0) request.length)
      (isResponse : IsResponse response code)
      (kept : requestField request 6 ∉ storingCodes → stored' = stored) :
      Step (some (.receiving request, stored)) (.write env tpm2CmdReg 1) 0
        (some (.sending response, stored'))
  | overrun (request : List UInt8) (stored : Persistent) (env : Surroundings)
      (complete : Complete request)
      (overruns : RequestOverruns env stored (request.getD · 0) request.length) :
      Step (some (.receiving request, stored)) (.write env tpm2CmdReg 1) 0 none
  | abort (p : Port) (stored : Persistent) (env : Surroundings) (h : p.state ≠ .receiving) :
      Step (some (p, stored)) (.write env tpm2CmdReg 1) 0 (some (.idle, stored))
  | fetch (word next : Nat) (unread : List Nat) (stored : Persistent) :
      Step (some (.sending (word :: next :: unread), stored)) (.read tpm2DataReg) word
        (some (.sending (next :: unread), stored))
  | last (word : Nat) (stored : Persistent) :
      Step (some (.sending [word], stored)) (.read tpm2DataReg) word (some (.idle, stored))
  | status (p : Port) (stored : Persistent) :
      Step (some (p, stored)) (.read tpm2StatusReg) p.state.value (some (p, stored))
  | ignore (p : Port) (stored : Persistent) (a : Access) (h : p.Ignores a) :
      Step (some (p, stored)) a 0 (some (p, stored))
  | gone (a : Access) : Step none a 0 none

/-- The words of the response that have not been read. -/
def Tpm2State.unread (s : Tpm2State) : List Nat :=
  (List.range ((s.respSize - s.respIdx + 3) / 4)).map fun k =>
    get32 s.responseBuffer (s.respIdx + 4 * k)

def Tpm2State.port (s : Tpm2State) : Port :=
  match s.state with
  | .receiving => .receiving (slice s.commandBuffer 0 s.cmdSize)
  | .sending => .sending s.unread
  | .idle | .ready | .processing => .idle

/-- What the process shows of itself, if it is still there. -/
def portOf (s : Option Tpm2State) : Option (Port × Persistent) :=
  s.map fun s => (s.port, s.persistent)

/-- The value that an access gives; nothing answers when the process has ended. -/
def processValue (s : Option Tpm2State) (a : Access) : Nat := s.elim 0 (accessValue · a)

section Port
variable {s : Tpm2State}

theorem port_receiving (h : s.state = .receiving) :
    s.port = .receiving (slice s.commandBuffer 0 s.cmdSize) := by
  rw [Tpm2State.port, h]

theorem port_sending (h : s.state = .sending) : s.port = .sending s.unread := by
  rw [Tpm2State.port, h]

theorem port_idle (h : s.state = .idle) : s.port = .idle := by
  rw [Tpm2State.port, h]

/-- The device is never seen in the states READY and PROCESSING. -/
theorem state_port (h : TransportInvariant s) : s.port.state = s.state := by
  obtain hidle | hreceiving | hsending := h.states
  · rw [port_idle hidle, hidle]
    rfl
  · rw [port_receiving hreceiving, hreceiving]
    rfl
  · rw [port_sending hsending, hsending]
    rfl

theorem unread_cons (h : s.respIdx < s.respSize) :
    s.unread = get32 s.responseBuffer s.respIdx ::
      Tpm2State.unread { s with respIdx := s.respIdx + 4 } := by
  have hcount : (s.respSize - s.respIdx + 3) / 4 =
      (s.respSize - (s.respIdx + 4) + 3) / 4 + 1 := by omega
  rw [Tpm2State.unread, hcount, List.range_succ_eq_map, List.map_cons, List.map_map]
  simp only [Tpm2State.unread, Function.comp_def, Nat.mul_zero, Nat.add_zero, Nat.mul_succ,
    Nat.succ_eq_add_one, Nat.add_assoc, Nat.add_comm 4]

theorem unread_nil (h : s.respSize ≤ s.respIdx + 4) :
    Tpm2State.unread { s with respIdx := s.respIdx + 4 } = [] := by
  have hcount : (s.respSize - (s.respIdx + 4) + 3) / 4 = 0 := by omega
  rw [Tpm2State.unread, hcount]
  rfl

theorem flatMap_words (m : Nat → UInt8) (start n : Nat) :
    ((List.range n).map fun k => get32 m (start + 4 * k)).flatMap bytes32 =
      slice m start (4 * n) := by
  induction n with
  | zero => rfl
  | succ n ih =>
      rw [List.range_succ, List.map_append, List.flatMap_append, ih, Nat.mul_succ, slice_add,
        slice_eq_bytes32]
      simp

/-- An error response is sent in three words, and any other is padded to whole words. -/
theorem respSize_respond {r : Reply} (hr : r.WellFormed) :
    tpmRspHeaderSize ≤ (responseHeader (respond r)).size ∧
      (responseHeader (respond r)).size ≤ ((respond r).respSize + 3) / 4 * 4 ∧
      ((respond r).respSize + 3) / 4 * 4 < (responseHeader (respond r)).size + 4 := by
  obtain ⟨report, s⟩ := r
  cases report with
  | error rc =>
      rw [responseHeader_error s (hr.error_code rfl)]
      exact show 10 ≤ 10 ∧ 10 ≤ (10 + 3) / 4 * 4 ∧ (10 + 3) / 4 * 4 < 10 + 4 by decide
  | ok bodySize =>
      have hbody := hr.body_le rfl
      rw [responseHeader_ok s hbody, respSize_ok s hbody]
      dsimp only
      omega

theorem isResponse_respond {r : Reply} (hr : r.WellFormed) :
    IsResponse (respond r).unread (responseHeader (respond r)).code := by
  have hans := answers_respond hr
  obtain ⟨hlow, hfits, hclose⟩ := respSize_respond hr
  have hmax := hans.respSize_le
  generalize hcells : (respond r).respSize + 3 = cells at hfits hclose
  generalize hsize : (responseHeader (respond r)).size = size at hlow hfits hclose
  have hwords : (respond r).unread =
      (List.range (cells / 4)).map fun k => get32 (respond r).responseBuffer (0 + 4 * k) := by
    rw [Tpm2State.unread, hans.respIdx, Nat.sub_zero, hcells]
  constructor
  · refine ⟨slice (respond r).responseBuffer tpmRspHeaderSize (size - tpmRspHeaderSize),
      slice (respond r).responseBuffer size (4 * (cells / 4) - size), ?_, ?_, ?_⟩
    · have hheader : headerBytes ⟨tpmStNoSessions, tpmRspHeaderSize + (size - tpmRspHeaderSize),
          (responseHeader (respond r)).code⟩ = slice (respond r).responseBuffer 0
            tpmRspHeaderSize := by
        rw [slice_responseHeader, ← hans.tag, Nat.add_sub_cancel' hlow, ← hsize]
      rw [length_slice, hheader, hwords, flatMap_words, slice_append_slice _ hlow,
        slice_append_slice _ (by omega)]
    · rw [length_slice]
      omega
    · intro hcode
      cases hreport : r.1 with
      | error rc =>
          have hten : size = tpmRspHeaderSize := hsize.symm.trans (hans.error hreport).2
          rw [hten, Nat.sub_self, slice_zero]
      | ok bodySize => exact absurd (hans.ok hreport).1 hcode
  · rw [hwords, List.length_map, List.length_range]
    rw [responseBufferSize] at hmax
    omega

end Port

theorem requestField_slice (m : Nat → UInt8) {n i : Nat} (h : i + 4 ≤ n) :
    requestField (slice m 0 n) i = get32 m i := by
  apply get32_congr
  intro k hk
  rw [List.getD_eq_getElem?_getD, getElem?_slice m 0 (show i + k < n by omega), Nat.zero_add]
  rfl

/-- Only three commands have an effect. -/
theorem Effect.kept {host : Host} {s : Tpm2State} {a : Access} {p : Persistent}
    (h : Effect host s a p) (hcode : get32 s.commandBuffer 6 ∉ storingCodes) :
    p = s.persistent := by
  have hnot {code : Nat} (hdispatched : dispatchedCode s = some code) : code ∉ storingCodes := by
    obtain ⟨-, -, -, -, -, -, hbuffer⟩ := dispatchedCode_some hdispatched
    rwa [← hbuffer]
  cases h with
  | none => rfl
  | define env params _ hdefines => exact absurd (by decide) (hnot hdefines.code)
  | write env params e _ hwrites => exact absurd (by decide) (hnot hwrites.code)
  | advance env params template _ hcreate => exact absurd (by decide) (hnot hcreate)
  | wipe env params template seed _ hcreate => exact absurd (by decide) (hnot hcreate)
  | create env params template seed _ hcreate => exact absurd (by decide) (hnot hcreate)

/-- An incomplete request is refused, whatever an earlier one has left in the buffer. -/
theorem execute_incomplete (host : Host) (env : Surroundings) {s : Tpm2State}
    (hstate : s.state = .receiving) (h : ¬ Complete (slice s.commandBuffer 0 s.cmdSize)) :
    (responseHeader (step host s (.write env tpm2CmdReg 1))).code = tpmRcCommandSize ∧
      (step host s (.write env tpm2CmdReg 1)).persistent = s.persistent := by
  by_cases hshort : s.cmdSize < get32 s.commandBuffer 2
  · exact execute_error host env hstate (executeReply_short host env hshort) rfl
  have hle : get32 s.commandBuffer 2 ≤ s.cmdSize := Nat.le_of_not_lt hshort
  have hsmall : get32 s.commandBuffer 2 < 10 := by
    by_contra hten
    refine h ⟨?_, ?_⟩
    · rw [requestField_slice _ (by omega)]
      exact Nat.le_of_not_lt hten
    · rw [requestField_slice _ (by omega), length_slice]
      exact hle
  have hvalid : validateCommand (accept s) = .error tpmRcCommandSize := validateCommand_small hsmall
  exact execute_error host env hstate (executeReply_invalid host env hle hvalid) rfl

/-- The request as the port has it and as the device has it. -/
theorem requestOverruns_slice (env : Surroundings) (p : Persistent) (m : Nat → UInt8) (n : Nat) :
    RequestOverruns env p ((slice m 0 n).getD · 0) (slice m 0 n).length ↔
      RequestOverruns env p m n := by
  have hbytes (i : Nat) (hi : i < n) : (slice m 0 n).getD i 0 = m i := by
    rw [List.getD_eq_getElem?_getD, getElem?_slice m 0 hi, Nat.zero_add]
    rfl
  rw [length_slice]
  constructor
  · intro h
    exact h.congr (fun i hi => hbytes i (hi.trans_le h.high)) h.high
  · intro h
    exact h.congr (fun i hi => (hbytes i (hi.trans_le h.high)).symm) h.high

section Step
variable {host : Host} {s : Tpm2State}

theorem port_fetch (hinv : TransportInvariant s) (hsending : s.state = .sending) :
    Port.Step (portOf (some s)) (.read tpm2DataReg) (tpm2MmioRead s tpm2DataReg).1
      (some ((tpm2MmioRead s tpm2DataReg).2.port, s.persistent)) := by
  have hmore := hinv.sending hsending
  obtain ⟨hword, hbuffer, hgoes, hends⟩ := mmioRead_data hsending hmore hinv.respSize_le
  rw [portOf, Option.map_some, port_sending hsending, unread_cons hmore, hword]
  by_cases hlast : s.respSize ≤ s.respIdx + 4
  · rw [port_idle (hends hlast).1, unread_nil hlast]
    exact .last _ _
  · obtain ⟨hstate, hidx, hsize⟩ := hgoes (Nat.lt_of_not_le hlast)
    have hrest : (tpm2MmioRead s tpm2DataReg).2.unread =
        Tpm2State.unread { s with respIdx := s.respIdx + 4 } := by
      simp only [Tpm2State.unread, hbuffer, hidx, hsize]
    rw [port_sending hstate, hrest, unread_cons (Nat.lt_of_not_le hlast)]
    exact .fetch _ _ _ _

theorem port_read (hreach : Reachable host s) (addr : Nat) :
    Port.Step (portOf (some s)) (.read addr) (accessValue s (.read addr))
      (portOf (some (step host s (.read addr)))) := by
  have hinv := transportInvariant_reachable hreach
  change Port.Step _ _ (tpm2MmioRead s addr).1
    (some ((tpm2MmioRead s addr).2.port, (tpm2MmioRead s addr).2.persistent))
  rw [persistent_mmioRead]
  by_cases hdata : addr = tpm2DataReg ∧ s.state = .sending
  · obtain ⟨rfl, hsending⟩ := hdata
    exact port_fetch hinv hsending
  by_cases hstatus : addr = tpm2StatusReg
  · subst hstatus
    rw [mmioRead_status, ← state_port hinv]
    exact .status _ _
  · -- The control register reads 0, because nothing assigns to it.
    have hzero : tpm2MmioRead s addr = (0, s) := by
      have hctrl : s.ctrl = 0 := congrArg Prod.fst (registers_reachable hreach)
      unfold tpm2MmioRead
      split
      · rw [hctrl]
      split
      · rename_i haddr
        exact if_pos fun hsending => hdata ⟨haddr, hsending⟩
      · rfl
    rw [hzero]
    refine .ignore _ _ _ ⟨hstatus, fun haddr hsending => hdata ⟨haddr, ?_⟩⟩
    rw [← state_port hinv, hsending]

theorem port_overrun (hreceiving : s.state = .receiving) {env : Surroundings}
    (hoverruns : RequestOverruns env s.persistent s.commandBuffer s.cmdSize) :
    Port.Step (portOf (some s)) (.write env tpm2CmdReg 1) 0 none := by
  have hcomplete : Complete (slice s.commandBuffer 0 s.cmdSize) := by
    have hlow := hoverruns.low
    have hhigh := hoverruns.high
    rw [Complete, requestField_slice _ (by omega), length_slice]
    exact ⟨hlow, hhigh⟩
  rw [portOf, Option.map_some, port_receiving hreceiving]
  exact .overrun _ _ _ hcomplete ((requestOverruns_slice _ _ _ _).mpr hoverruns)

theorem port_execute (hreach : Reachable host s) (env : Surroundings)
    (hreceiving : s.state = .receiving)
    (hfits : ¬ RequestOverruns env s.persistent s.commandBuffer s.cmdSize) :
    Port.Step (portOf (some s)) (.write env tpm2CmdReg 1) 0
      (portOf (some (step host s (.write env tpm2CmdReg 1)))) := by
  have hresponse : IsResponse (step host s (.write env tpm2CmdReg 1)).unread
      (responseHeader (step host s (.write env tpm2CmdReg 1))).code := by
    rw [step_executes host ⟨rfl, hreceiving⟩]
    exact isResponse_respond (executeReply_wellFormed host env s)
  rw [portOf, portOf, Option.map_some, Option.map_some, port_receiving hreceiving,
    port_sending (answers_execute host env hreceiving).sending]
  by_cases hcomplete : Complete (slice s.commandBuffer 0 s.cmdSize)
  · refine .execute _ _ _ _ _ _ hcomplete (mt (requestOverruns_slice _ _ _ _).mp hfits) hresponse
      fun hcode => ?_
    obtain ⟨hlow, hhigh⟩ := hcomplete
    rw [length_slice] at hhigh
    rw [requestField_slice _ (show 6 + 4 ≤ s.cmdSize from hlow.trans hhigh)] at hcode
    exact ((bankInvariant_reachable hreach).effect host _).kept hcode
  · obtain ⟨hcode, hkept⟩ := execute_incomplete host env hreceiving hcomplete
    rw [hcode] at hresponse
    rw [hkept]
    exact .refuse _ _ _ _ hcomplete hresponse

theorem port_word (hinv : TransportInvariant s) (env : Surroundings) (value : Nat)
    (hreceiving : s.state = .receiving) :
    Port.Step (portOf (some s)) (.write env tpm2DataReg value) 0
      (portOf (some (step host s (.write env tpm2DataReg value)))) := by
  have hmax : s.cmdSize ≤ 1024 := hinv.cmdSize_le
  have hlength : (slice s.commandBuffer 0 s.cmdSize).length = s.cmdSize := length_slice _ _ _
  rw [portOf, portOf, Option.map_some, Option.map_some, port_receiving hreceiving]
  by_cases hroom : s.cmdSize + 4 ≤ 1024
  · have hrequest : slice (store s.commandBuffer s.cmdSize (bytes32 (value % 2 ^ 32))) 0
        (s.cmdSize + 4) = slice s.commandBuffer 0 s.cmdSize ++ bytes32 (value % 2 ^ 32) := by
      rw [slice_add, slice_store_disjoint _ _ _ _ _ (by omega), Nat.zero_add]
      exact congrArg _ (slice_store_same _ _ (bytes32 (value % 2 ^ 32)))
    rw [step_data host env value hreceiving hroom, port_receiving (by exact hreceiving)]
    dsimp only
    rw [hrequest]
    exact .word _ _ _ _ (by rwa [hlength])
  · have hmod : (s.cmdSize + 4) % 2 ^ 32 = s.cmdSize + 4 := by omega
    have hstep : step host s (.write env tpm2DataReg value) = { s with state := .idle } := by
      change tpm2MmioWrite host env s tpm2DataReg value = _
      rw [tpm2MmioWrite, if_neg (by decide), if_neg (by decide), if_pos rfl,
        if_neg (not_not.mpr hreceiving), hmod]
      exact if_pos (Nat.lt_of_not_le hroom)
    rw [hstep]
    exact .overflow _ _ _ _ (by rw [hlength]; omega)

theorem port_ctrl (env : Surroundings) (value : Nat) :
    Port.Step (portOf (some s)) (.write env tpm2CtrlReg value) 0
      (portOf (some (step host s (.write env tpm2CtrlReg value)))) := by
  change Port.Step _ _ _ (portOf (some (tpm2MmioWrite host env s tpm2CtrlReg value)))
  rw [tpm2MmioWrite, if_pos rfl]
  split
  · rename_i hone
    subst hone
    exact .start _ _ _
  split
  · rename_i hzero
    subst hzero
    exact .reset _ _ _
  · rename_i hone hzero
    exact .ignore _ _ _ ⟨fun _ => ⟨hzero, hone⟩, fun h => absurd h (by decide),
      fun h => absurd h (by decide)⟩

/-- Every write that does not execute a request. -/
theorem port_write (hreach : Reachable host s) (env : Surroundings) (addr value : Nat)
    (hquiet : ∀ env', ¬ (Access.write env addr value).Executes s env') :
    Port.Step (portOf (some s)) (.write env addr value) 0
      (portOf (some (step host s (.write env addr value)))) := by
  have hinv := transportInvariant_reachable hreach
  have hstate := state_port hinv
  by_cases hctrl : addr = tpm2CtrlReg
  · subst hctrl
    exact port_ctrl env value
  by_cases hcmd : addr = tpm2CmdReg ∧ value = 1
  · obtain ⟨rfl, rfl⟩ := hcmd
    have hreceiving : s.state ≠ .receiving := fun hstate => hquiet env ⟨rfl, hstate⟩
    have hstep : step host s (.write env tpm2CmdReg 1) = { s with state := .idle } := by
      change tpm2MmioWrite host env s tpm2CmdReg 1 = _
      rw [tpm2MmioWrite, if_neg hctrl, if_pos rfl, if_pos rfl, if_pos hreceiving]
    rw [hstep]
    exact .abort _ _ _ (by rwa [hstate])
  by_cases hdata : addr = tpm2DataReg ∧ s.state = .receiving
  · obtain ⟨rfl, hreceiving⟩ := hdata
    exact port_word hinv env value hreceiving
  · have hsame : step host s (.write env addr value) = s := by
      change tpm2MmioWrite host env s addr value = s
      rw [tpm2MmioWrite, if_neg hctrl]
      split
      · rename_i haddr
        exact if_neg fun hone => hcmd ⟨haddr, hone⟩
      split
      · rename_i haddr
        exact if_pos fun hreceiving => hdata ⟨haddr, hreceiving⟩
      · rfl
    rw [hsame]
    refine .ignore _ _ _ ⟨fun h => absurd h hctrl, fun haddr hone => hcmd ⟨haddr, hone⟩,
      fun haddr hreceiving => hdata ⟨haddr, ?_⟩⟩
    rw [← hstate, hreceiving]

/-- One access to the live process. -/
theorem port_step (hreach : Reachable host s) (a : Access) :
    Port.Step (portOf (some s)) a (accessValue s a) (portOf (process host (some s) a)) := by
  by_cases hexec : ∃ env, a.Executes s env
  · obtain ⟨env, rfl, hstate⟩ := hexec
    by_cases hoverruns : RequestOverruns env s.persistent s.commandBuffer s.cmdSize
    · rw [process_overruns hreach hstate hoverruns]
      exact port_overrun hstate hoverruns
    · rw [process_survives hreach hstate hoverruns]
      exact port_execute hreach env hstate hoverruns
  · have hquiet : ∀ env, ¬ a.Executes s env := not_exists.mp hexec
    rw [process_quiet hquiet]
    cases a with
    | read addr => exact port_read hreach addr
    | write env addr value => exact port_write hreach env addr value hquiet

theorem reachable_process (h : Reachable host s) {t : Tpm2State} {a : Access}
    (ht : process host (some s) a = some t) : Reachable host t := by
  have hrun : Runs.run (process host) (some s) [a] = some t := ht
  obtain ⟨-, rfl⟩ := Runs.run_stopping_iff.mp hrun
  exact h.next a

end Step

/-- Whatever a guest does, the values it reads are those of the protocol of messages, from
realization on and to the end of the process, if it has one. -/
theorem tpm_implements_port (host : Host) (accesses : List Access) :
    Runs.Traces Port.Step (some (.idle, (tpm2Realize host).persistent))
      (Runs.observed (process host) processValue (some (tpm2Realize host)) accesses)
      (portOf (Runs.run (process host) (some (tpm2Realize host)) accesses)) := by
  have hidle : portOf (some (tpm2Realize host)) = some (.idle, (tpm2Realize host).persistent) := by
    rw [portOf, Option.map_some, tpm2Realize_eq]
    rfl
  have hsteps (s : Option Tpm2State) (a : Access) (hs : ∀ t, s = some t → Reachable host t) :
      Port.Step (portOf s) a (processValue s a) (portOf (process host s a)) := by
    cases s with
    | none => exact .gone a
    | some s => exact port_step (hs s rfl) a
  have hkept (s : Option Tpm2State) (a : Access) (hs : ∀ t, s = some t → Reachable host t) :
      ∀ t, process host s a = some t → Reachable host t := by
    intro t ht
    cases s with
    | none => cases ht
    | some s => exact reachable_process (hs s rfl) ht
  rw [← hidle]
  refine Runs.traces_of_steps portOf hkept hsteps _ accesses fun t ht => ?_
  exact Option.some.inj ht ▸ reachable_realize host

end TpmEmulator

import TpmEmulator.Transport
import TpmEmulator.ReferenceHost
import TpmEmulator.ReadResponse

/-!
The driver and the device agree. Sending a command leaves exactly its bytes in the
command buffer, whatever was there before, and the device processes them and not the
padding. Reading a response takes every word of it once, in order, for both ways in
which the device states the size of a response: an error has ten bytes and ends
inside its third word, a success ends with a whole word. The last word that the
driver reads puts the device back to idle.
-/
namespace TpmEmulator

open CellMemory BigEndian

/-- The device has received these `k` words of the command. -/
structure Receiving (cmdBuf : Nat → UInt8) (len k : Nat) (s : Tpm2State) : Prop where
  state : s.state = .receiving
  cmdSize : s.cmdSize = 4 * k
  bytes : ∀ j < 4 * k, s.commandBuffer j = if j < len then cmdBuf j else 0

theorem receiving_start (host : Host) (env : Surroundings) (cmdBuf : Nat → UInt8) (len : Nat)
    (s : Tpm2State) : Receiving cmdBuf len 0 (step host s (.write env tpm2CtrlReg 1)) :=
  ⟨rfl, rfl, fun _ hj => absurd hj (Nat.not_lt_zero _)⟩

theorem bytes32_commandWord (cmdBuf : Nat → UInt8) (len i : Nat) :
    bytes32 (commandWord cmdBuf len i % 2 ^ 32) =
      slice (fun j => if j < len then cmdBuf j else 0) i 4 := by
  rw [commandWord, Nat.mod_eq_of_lt (be32_lt _ _ _ _), bytes32_be32]
  rfl

theorem step_data (host : Host) (env : Surroundings) {s : Tpm2State} (value : Nat)
    (hstate : s.state = .receiving) (hroom : s.cmdSize + 4 ≤ commandBufferSize) :
    step host s (.write env tpm2DataReg value) =
      { s with
        commandBuffer := store s.commandBuffer s.cmdSize (bytes32 (value % 2 ^ 32))
        cmdSize := s.cmdSize + 4
        touched := s.commandCells.record s.cmdSize 4 } := by
  have hmod : (s.cmdSize + 4) % 2 ^ 32 = s.cmdSize + 4 := by
    rw [commandBufferSize] at hroom
    omega
  change tpm2MmioWrite host env s tpm2DataReg value = _
  rw [tpm2MmioWrite, if_neg (by decide), if_neg (by decide), if_pos rfl,
    if_neg (not_not.mpr hstate), hmod, if_neg (Nat.not_lt.mpr hroom)]
  rfl

theorem Receiving.next (host : Host) (env : Surroundings) {cmdBuf : Nat → UInt8} {len k : Nat}
    {s : Tpm2State} (h : Receiving cmdBuf len k s) (hroom : 4 * (k + 1) ≤ commandBufferSize) :
    Receiving cmdBuf len (k + 1)
      (step host s (.write env tpm2DataReg (commandWord cmdBuf len (4 * k)))) := by
  rw [step_data host env _ h.state (by rw [h.cmdSize]; omega), bytes32_commandWord, h.cmdSize]
  refine ⟨h.state, rfl, fun j hj => ?_⟩
  by_cases hold : j < 4 * k
  · exact (store_outside _ _ _ _ (.inl hold)).trans (h.bytes j hold)
  · obtain ⟨r, rfl⟩ := Nat.exists_eq_add_of_le (Nat.le_of_not_lt hold)
    have hr : r < (slice (fun j => if j < len then cmdBuf j else 0) (4 * k) 4).length := by
      rw [length_slice]
      omega
    exact (store_inside _ _ _ r hr).trans (getElem_slice _ _ _ r hr)

/-- The loop over the words of the command. -/
theorem receiving_words (host : Host) (env : Surroundings) (cmdBuf : Nat → UInt8) (len k : Nat)
    {s : Tpm2State} (h : Receiving cmdBuf len 0 s) (hroom : 4 * k ≤ commandBufferSize) :
    Receiving cmdBuf len k (Runs.run (step host) s ((List.range k).map fun j =>
      .write env tpm2DataReg (commandWord cmdBuf len (4 * j)))) := by
  induction k with
  | zero => exact h
  | succ k ih =>
      rw [List.range_succ, List.map_append, Runs.run_append]
      exact (ih (by omega)).next host env hroom

theorem receiving_transmit (host : Host) (env : Surroundings) (cmdBuf : Nat → UInt8) {len : Nat}
    (hlen : len ≤ 1024) (s : Tpm2State) :
    Receiving cmdBuf len ((len + 3) / 4) (Runs.run (step host) s (tpmTransmit env cmdBuf len)) := by
  have hwords : (len + 3) % 2 ^ 32 / 4 * 4 / 4 = (len + 3) / 4 := by omega
  rw [tpmTransmit, Runs.run_cons, commandWords, hwords, List.map_map]
  exact receiving_words host env cmdBuf len _ (receiving_start host env cmdBuf len s)
    (by rw [commandBufferSize]; omega)

/-- A command whose header states its length is processed as it is. -/
theorem Receiving.execute (host : Host) (env : Surroundings) {cmdBuf : Nat → UInt8} {len : Nat}
    {s : Tpm2State} (h : Receiving cmdBuf len ((len + 3) / 4) s) (hlow : 10 ≤ len)
    (hsize : get32 cmdBuf 2 = len) :
    (accept s).cmdSize = len ∧ slice (accept s).commandBuffer 0 len = slice cmdBuf 0 len ∧
      step host s (.write env tpm2CmdReg 1) = tpm2ProcessCommand host env (accept s) := by
  have hbytes : ∀ j < len, s.commandBuffer j = cmdBuf j := fun j hj =>
    (h.bytes j (by omega)).trans (if_pos hj)
  have hfield : get32 s.commandBuffer 2 = len :=
    (get32_congr fun k hk => hbytes (2 + k) (by omega)).trans hsize
  refine ⟨hfield, slice_congr fun j hj => ?_, ?_⟩
  · rw [Nat.zero_add]
    exact hbytes j hj
  · change tpm2MmioWrite host env s tpm2CmdReg 1 = _
    rw [tpm2MmioWrite, if_neg (by decide), if_pos rfl, if_pos rfl,
      if_neg (not_not.mpr h.state), executeCommand]
    refine if_neg ?_
    change ¬ s.cmdSize < get32 s.commandBuffer 2
    rw [hfield, h.cmdSize]
    omega

/-- What the driver has when it has read `k` words of the response of `t` into a buffer
that was `start`. The header says that the response has `size` bytes. -/
structure Received (host : Host) (t : Tpm2State) (start : Nat → UInt8) (size k : Nat)
    (d : Driver) : Prop where
  device : d.device = Runs.run (step host) t (List.replicate k (.read tpm2DataReg))
  response : d.device.responseBuffer = t.responseBuffer
  words : d.words = (List.range k).map fun j => get32 t.responseBuffer (4 * j)
  respBuf : d.respBuf = store start 0 (slice t.responseBuffer 0 (min (max 12 size) (4 * k)))
  more : 4 * k < t.respSize →
    d.device.state = .sending ∧ d.device.respIdx = 4 * k ∧ d.device.respSize = t.respSize
  done : t.respSize ≤ 4 * k →
    d.device.state = .idle ∧ d.device.respIdx = 0 ∧ d.device.respSize = 0

theorem mmioRead_data {s : Tpm2State} (hstate : s.state = .sending) (hmore : s.respIdx < s.respSize)
    (hsize : s.respSize ≤ 1024) :
    (tpm2MmioRead s tpm2DataReg).1 = get32 s.responseBuffer s.respIdx ∧
      (tpm2MmioRead s tpm2DataReg).2.responseBuffer = s.responseBuffer ∧
      (s.respIdx + 4 < s.respSize → (tpm2MmioRead s tpm2DataReg).2.state = .sending ∧
        (tpm2MmioRead s tpm2DataReg).2.respIdx = s.respIdx + 4 ∧
        (tpm2MmioRead s tpm2DataReg).2.respSize = s.respSize) ∧
      (s.respSize ≤ s.respIdx + 4 → (tpm2MmioRead s tpm2DataReg).2.state = .idle ∧
        (tpm2MmioRead s tpm2DataReg).2.respIdx = 0 ∧
        (tpm2MmioRead s tpm2DataReg).2.respSize = 0) := by
  have hmod : (s.respIdx + 4) % 2 ^ 32 = s.respIdx + 4 := by omega
  rw [tpm2MmioRead, if_neg (by decide), if_neg (by decide), if_pos rfl,
    if_neg (not_not.mpr hstate), if_neg (Nat.not_le.mpr hmore)]
  dsimp only
  rw [hmod]
  split
  · rename_i hlast
    exact ⟨rfl, rfl, fun h => absurd hlast (Nat.not_le.mpr h), fun _ => ⟨rfl, rfl, rfl⟩⟩
  · rename_i hlast
    exact ⟨rfl, rfl, fun _ => ⟨hstate, rfl, rfl⟩, fun h => absurd h hlast⟩

theorem mmioRead_status (s : Tpm2State) :
    tpm2MmioRead s tpm2StatusReg = (s.state.value, s) := by
  rw [tpm2MmioRead, if_neg (by decide), if_pos rfl]

theorem status_tpmRegisters (d : Driver) : d.status tpmRegisters = (d.device.state.value, d) := by
  rw [Reader.status, tpmRegisters]
  dsimp only
  rw [mmioRead_status]

namespace Received
variable {host : Host} {t : Tpm2State} {start : Nat → UInt8} {size k : Nat} {d : Driver}

theorem of_sending (host : Host) (start : Nat → UInt8) (size : Nat) (log : List ReadMessage)
    (hstate : t.state = .sending) (hidx : t.respIdx = 0) (hpos : 0 < t.respSize) :
    Received host t start size 0 ⟨t, start, [], [], log⟩ where
  device := rfl
  response := rfl
  words := rfl
  respBuf := by simp
  more := fun _ => ⟨hstate, hidx, rfl⟩
  done := fun hdone => absurd hdone (Nat.not_le.mpr hpos)

theorem say (h : Received host t start size k d) (m : ReadMessage) :
    Received host t start size k (d.say m) :=
  ⟨h.device, h.response, h.words, h.respBuf, h.more, h.done⟩

theorem bytes (h : Received host t start size k d) {i : Nat} (hi : i < max 12 size)
    (hk : i < 4 * k) : d.respBuf i = t.responseBuffer i := by
  have hlength : i < (slice t.responseBuffer 0 (min (max 12 size) (4 * k))).length := by
    rw [length_slice]
    omega
  have hinside := store_inside start 0 _ i hlength
  rwa [getElem_slice, Nat.zero_add, ← h.respBuf] at hinside

/-- One word more. The driver drops what lies behind the response. -/
theorem next (h : Received host t start size k d) (hmore : 4 * k < t.respSize)
    (hhigh : t.respSize ≤ 1024) {count : Nat}
    (hcount : 4 * k + min count 4 = min (max 12 size) (4 * (k + 1))) {d' : Driver}
    (htakes : d.Takes tpmRegisters (4 * k) count d') : Received host t start size (k + 1) d' := by
  obtain ⟨hstate, hidx, hresp⟩ := h.more hmore
  obtain ⟨hword, hbuffer, hnext, hlast⟩ :=
    mmioRead_data hstate (by omega) (by omega : d.device.respSize ≤ 1024)
  rw [hidx, h.response] at hword
  rw [hidx, hresp] at hnext hlast
  have hdevice : d'.device = (tpm2MmioRead d.device tpm2DataReg).2 := htakes.device
  have hvalue : (tpmRegisters.data d.device).1 = get32 t.responseBuffer (4 * k) := hword
  rw [← hdevice] at hbuffer hnext hlast
  refine ⟨?_, hbuffer.trans h.response, ?_, ?_, hnext, hlast⟩
  · rw [List.replicate_succ', Runs.run_append, ← h.device]
    exact hdevice
  · rw [htakes.words, List.range_succ, List.map_append, ← h.words, hvalue]
    rfl
  · have hbytes : (bytes32 (get32 t.responseBuffer (4 * k))).take count =
        slice t.responseBuffer (4 * k) (min count 4) := by
      rw [← slice_eq_bytes32, ← take_slice t.responseBuffer (4 * k) (Nat.min_le_right count 4),
        List.take_eq_take_iff, length_slice]
      omega
    have hold : min (max 12 size) (4 * k) = 4 * k := by omega
    rw [htakes.respBuf, hvalue, h.respBuf, hbytes, ← hcount, hold, slice_add, store_append,
      length_slice, Nat.zero_add]

/-- The loop over the rest, on the number of words that are left. -/
theorem tail (fuel : Nat) (h : Received host t start size k d) (hk : 3 ≤ k)
    (hsize : size ≤ t.respSize) (hhigh : t.respSize ≤ 1024) {n : Nat}
    (hn : k + n = (size + 3) / 4) (passes : Nat) (hpasses : n ≤ passes) :
    ∃ d', tpmRegisters.bus.exec fuel (ReadCode.readTail size (padded size) passes (4 * k)) d =
        some (size, d'.say (.complete (.ofNat 32 size) (.ofNat 32 (padded size)))) ∧
      Received host t start size ((size + 3) / 4) d' ∧ d'.log = d.log := by
  have hpadded : padded size = (size + 3) / 4 * 4 := padded_eq (by omega)
  induction n generalizing k passes d with
  | zero =>
      have hdone : 4 * k = padded size := by omega
      refine ⟨d, ?_, hn ▸ h, rfl⟩
      rw [hdone, exec_readTail_done tpmRegisters d fuel (Nat.lt_irrefl _)]
  | succ n ih =>
      obtain ⟨passes, rfl⟩ := Nat.exists_eq_add_of_le' (Nat.one_le_of_lt hpasses)
      have hmore : 4 * k < t.respSize := by omega
      have hstatus := status_tpmRegisters d
      obtain ⟨d₁, hword, htakes⟩ := takes_readWord tpmRegisters (d.status tpmRegisters).2 size
        (show 4 * k + 3 < 2 ^ 32 by omega)
      have hsending : (d.status tpmRegisters).1 = TpmState.sending.value := by
        rw [hstatus, (h.more hmore).1]
      rw [hstatus] at htakes
      obtain ⟨d', hrest, hd', hlog⟩ :=
        ih (h.next hmore hhigh (by omega) htakes) (by omega) (by omega) passes
          (Nat.le_of_succ_le_succ hpasses)
      refine ⟨d', ?_, hd', hlog.trans htakes.log⟩
      rw [exec_readTail_sending tpmRegisters d fuel (by omega) hsending (hword fuel),
        Nat.mod_eq_of_lt (by omega)]
      exact hrest

end Received

/-- The driver reads the whole response, and prints what it does. -/
theorem readResponse_sending (host : Host) {t : Tpm2State} (start : Nat → UInt8)
    (hstate : t.state = .sending) (hidx : t.respIdx = 0) (hlow : 10 ≤ (responseHeader t).size)
    (hsize : (responseHeader t).size ≤ t.respSize) (hhigh : t.respSize ≤ 1024)
    {maxLen fuel : Nat} (hmax : 1024 ≤ maxLen) (hfuel : 0 < fuel) :
    let size := (responseHeader t).size
    ∃ d, tpmReadResponse fuel t start maxLen = some (size, d) ∧
      Received host t start size ((size + 3) / 4) d ∧
      d.log = [.reading, .size (.ofNat 32 size) (.ofNat 32 (padded size)),
        .complete (.ofNat 32 size) (.ofNat 32 (padded size))] := by
  intro size
  let d₀ : Driver := ⟨t, start, [], [], []⟩
  have hvalue : t.state.value = TpmState.sending.value := congrArg _ hstate
  have hawait : tpmRegisters.bus.await () fuel d₀ = some d₀ := by
    obtain ⟨fuel, rfl⟩ := Nat.exists_eq_add_of_le' hfuel
    have hready := await_ready tpmRegisters d₀ fuel
    rw [status_tpmRegisters] at hready
    exact hready fun hbusy => absurd (hvalue.symm.trans hbusy) (by decide)
  have hstart : Received host t start size 0 (d₀.say .reading) :=
    .of_sending host start size _ hstate hidx (by omega)
  obtain ⟨d₁, d₂, d₃, h₁, h₂, h₃, hheaders⟩ := takes_headers tpmRegisters (d₀.say .reading)
  have hheader := ((hstart.next (by omega) hhigh (by omega) h₁).next (by omega) hhigh (by omega)
    h₂).next (by omega) hhigh (by omega) h₃
  have hfield : get32 d₃.respBuf 2 = size :=
    get32_congr fun k hk => hheader.bytes (by omega) (by omega)
  have hpadded : padded size = (size + 3) / 4 * 4 := padded_eq (by omega)
  have hsaid := hheader.say (.size (.ofNat 32 size) (.ofNat 32 (padded size)))
  obtain ⟨d, htail, hd, hlog⟩ := hsaid.tail fuel (Nat.le_refl 3) hsize hhigh
    (n := (size + 3) / 4 - 3) (by omega) (padded size / 4) (by omega)
  refine ⟨d.say (.complete (.ofNat 32 size) (.ofNat 32 (padded size))), ?_, hd.say _, ?_⟩
  · rw [tpmReadResponse, Registers.tpmReadResponse,
      exec_tpmReadResponse tpmRegisters d₀ fuel hawait, status_tpmRegisters,
      if_neg (not_not.mpr hvalue), hheaders, exec_readRest, hfield, if_neg (by omega),
      if_neg (by omega)]
    exact htail
  · rw [Reader.say, hlog, Reader.say, h₃.log, h₂.log, h₁.log]
    rfl

/-- A response ends in the last word that the driver asks for: an error is not padded
and a success is padded to whole words. -/
theorem respSize_le_padded {r : Reply} (hr : r.WellFormed) :
    10 ≤ (responseHeader (respond r)).size ∧
      (respond r).respSize ≤ ((responseHeader (respond r)).size + 3) / 4 * 4 := by
  obtain ⟨report, s⟩ := r
  cases report with
  | error rc =>
      rw [responseHeader_error s (hr.error_code rfl)]
      have hsize : (respond (.error rc, s)).respSize = tpmRspHeaderSize := rfl
      rw [hsize]
      exact ⟨Nat.le_refl _, show tpmRspHeaderSize ≤ (tpmRspHeaderSize + 3) / 4 * 4 by decide⟩
  | ok bodySize =>
      rw [responseHeader_ok s (hr.body_le rfl), respSize_ok s (hr.body_le rfl)]
      exact ⟨Nat.le_add_right _ _, Nat.le_refl _⟩

/-- The driver reads the whole response to an executed command. -/
theorem readResponse_execute (host : Host) (env : Surroundings) {s : Tpm2State}
    (hstate : s.state = .receiving) (respBuf : Nat → UInt8) {maxLen fuel : Nat}
    (hmax : 1024 ≤ maxLen) (hfuel : 0 < fuel) :
    let t := step host s (.write env tpm2CmdReg 1)
    let size := (responseHeader t).size
    ∃ d, tpmReadResponse fuel t respBuf maxLen = some (size, d) ∧
      Received host t respBuf size ((size + 3) / 4) d ∧ t.respSize ≤ 4 * ((size + 3) / 4) := by
  intro t size
  have hans := answers_execute host env hstate
  have hpadded : 10 ≤ size ∧ t.respSize ≤ (size + 3) / 4 * 4 := by
    have h := respSize_le_padded (executeReply_wellFormed host env s)
    rwa [← step_executes host ⟨rfl, hstate⟩] at h
  obtain ⟨d, hread, hd, -⟩ := readResponse_sending host respBuf hans.sending hans.respIdx hpadded.1
    hans.size_le hans.respSize_le hmax hfuel
  exact ⟨d, hread, hd, by omega⟩

/-- The device processes what the driver sent, and the driver reads what the device in
state `t` answers: the header's size in bytes, word by word, and no more. -/
def Exchanged (host : Host) (env : Surroundings) (s : Tpm2State) (cmdBuf : Nat → UInt8)
    (len : Nat) (respBuf : Nat → UInt8) (maxLen fuel : Nat) (t : Tpm2State) : Prop :=
  let p := Runs.run (step host) s (tpmTransmit env cmdBuf len)
  let size := (responseHeader t).size
  (accept p).cmdSize = len ∧ slice (accept p).commandBuffer 0 len = slice cmdBuf 0 len ∧
    t = tpm2ProcessCommand host env (accept p) ∧
    ∃ d, tpmReadResponse fuel t respBuf maxLen = some (size, d) ∧
      slice d.respBuf 0 size = slice t.responseBuffer 0 size ∧
      d.words = (List.range ((size + 3) / 4)).map (fun k => get32 t.responseBuffer (4 * k)) ∧
      d.device.state = .idle ∧ d.device.respSize = 0 ∧ d.device.respIdx = 0

/-- From any state of the device and for any fuel that covers the largest response. -/
theorem exchanged_send (host : Host) (env : Surroundings) (s : Tpm2State)
    (cmdBuf : Nat → UInt8) {len : Nat} (hlow : 10 ≤ len) (hhigh : len ≤ 1024)
    (hsize : get32 cmdBuf 2 = len) (respBuf : Nat → UInt8) {maxLen fuel : Nat}
    (hmax : 1024 ≤ maxLen) (hfuel : 256 ≤ fuel) :
    Exchanged host env s cmdBuf len respBuf maxLen fuel
      (Runs.run (step host) s (tpmSendCommand env cmdBuf len)) := by
  let p := Runs.run (step host) s (tpmTransmit env cmdBuf len)
  set t := Runs.run (step host) s (tpmSendCommand env cmdBuf len)
  have hreceiving := receiving_transmit host env cmdBuf hhigh s
  obtain ⟨hcmd, hbytes, hprocess⟩ := hreceiving.execute host env hlow hsize
  have ht : t = step host p (.write env tpm2CmdReg 1) := Runs.run_append _ _ _ _
  obtain ⟨d, hread, hreceived, hlast⟩ :=
    readResponse_execute host env hreceiving.state respBuf hmax (by omega : 0 < fuel)
  rw [← ht] at hprocess hread hreceived hlast
  obtain ⟨hidle, hidx, hresp⟩ := hreceived.done hlast
  refine ⟨hcmd, hbytes, hprocess, d, hread, slice_congr fun i hi => ?_, hreceived.words, hidle,
    hresp, hidx⟩
  rw [Nat.zero_add]
  exact hreceived.bytes (Nat.lt_of_lt_of_le hi (Nat.le_max_right _ _)) (by omega)

end TpmEmulator

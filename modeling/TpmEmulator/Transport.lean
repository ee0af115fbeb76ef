import TpmEmulator.BankInvariant

/-!
The register interface as a state machine. Whatever the guest reads and writes, in
whatever order, the two buffers are indexed inside their 1024 bytes, the counters
stay in range, and between two accesses the device is idle, receives or sends. An
execution always ends with a response whose header describes it.
-/
namespace TpmEmulator

open CellMemory BigEndian

section ResponseHeader

variable (memory : Nat → UInt8) (header : Header)

theorem get16_responseHeader :
    get16 (marshalResponseHeader memory 0 responseBufferSize header).2 0 =
      header.tag % 2 ^ 16 :=
  get16_of_slice (slice_store_inside memory 0
    (bytes16 header.tag ++ bytes32 header.size ++ bytes32 header.code) 0 2 (show 2 ≤ 10 by decide))

theorem get32_responseHeader_size :
    get32 (marshalResponseHeader memory 0 responseBufferSize header).2 2 =
      header.size % 2 ^ 32 :=
  get32_of_slice (slice_store_inside memory 0
    (bytes16 header.tag ++ bytes32 header.size ++ bytes32 header.code) 2 4 (show 6 ≤ 10 by decide))

theorem get32_responseHeader_code :
    get32 (marshalResponseHeader memory 0 responseBufferSize header).2 6 =
      header.code % 2 ^ 32 :=
  get32_of_slice (slice_store_inside memory 0
    (bytes16 header.tag ++ bytes32 header.size ++ bytes32 header.code) 6 4 (show 10 ≤ 10 by decide))

end ResponseHeader

/-- The header of the response in the buffer. -/
def responseHeader (s : Tpm2State) : Header :=
  ⟨get16 s.responseBuffer 0, get32 s.responseBuffer 2, get32 s.responseBuffer 6⟩

theorem responseBuffer_error (s : Tpm2State) (rc : Nat) :
    (respond (.error rc, s)).responseBuffer =
      (marshalResponseHeader s.responseBuffer 0 responseBufferSize
        ⟨tpmStNoSessions, tpmRspHeaderSize, rc⟩).2 := rfl

theorem responseBuffer_ok (s : Tpm2State) (bodySize : Nat) :
    let size := (tpmRspHeaderSize + bodySize) % 2 ^ 32
    (respond (.ok bodySize, s)).responseBuffer =
      store (marshalResponseHeader s.responseBuffer 0 responseBufferSize
        ⟨tpmStNoSessions, size, tpmRcSuccess⟩).2 size
        (List.replicate ((size + 3) % 2 ^ 32 / 4 * 4 - size) 0) := rfl

theorem responseHeader_error (s : Tpm2State) {rc : Nat} (h : IsErrorCode rc) :
    responseHeader (respond (.error rc, s)) = ⟨tpmStNoSessions, tpmRspHeaderSize, rc⟩ := by
  simp only [responseHeader, responseBuffer_error, get16_responseHeader,
    get32_responseHeader_size, get32_responseHeader_code, Nat.mod_eq_of_lt h.2]
  rfl

/-- The padding starts behind the header, so it leaves the header alone. -/
theorem responseHeader_ok (s : Tpm2State) {bodySize : Nat}
    (h : bodySize ≤ responseBufferSize - tpmRspHeaderSize) :
    responseHeader (respond (.ok bodySize, s)) =
      ⟨tpmStNoSessions, tpmRspHeaderSize + bodySize, tpmRcSuccess⟩ := by
  have hsize : (tpmRspHeaderSize + bodySize) % 2 ^ 32 = tpmRspHeaderSize + bodySize := by
    simp only [responseBufferSize, tpmRspHeaderSize] at h ⊢
    omega
  have hframe : ∀ (m : Nat → UInt8) (zeros : List UInt8) (i : Nat), i < 10 →
      store m (tpmRspHeaderSize + bodySize) zeros i = m i := fun m zeros i hi =>
    store_outside m _ zeros i (.inl (by simp only [tpmRspHeaderSize]; omega))
  simp only [responseHeader, responseBuffer_ok, hsize]
  rw [get16_congr fun k hk => hframe _ _ _ (by omega),
    get32_congr fun k hk => hframe _ _ _ (by omega),
    get32_congr fun k hk => hframe _ _ _ (by omega), get16_responseHeader,
    get32_responseHeader_size, get32_responseHeader_code, hsize]
  rfl

theorem respSize_ok (s : Tpm2State) {bodySize : Nat}
    (h : bodySize ≤ responseBufferSize - tpmRspHeaderSize) :
    (respond (.ok bodySize, s)).respSize = (tpmRspHeaderSize + bodySize + 3) / 4 * 4 := by
  simp only [respond, buildSuccessResponse]
  simp only [responseBufferSize, tpmRspHeaderSize] at h ⊢
  omega

/-- The builder leaves the body that the handler has marshalled alone. -/
theorem slice_responseBody (s : Tpm2State) {bodySize : Nat}
    (h : bodySize ≤ responseBufferSize - tpmRspHeaderSize) :
    slice (respond (.ok bodySize, s)).responseBuffer tpmRspHeaderSize bodySize =
      slice s.responseBuffer tpmRspHeaderSize bodySize := by
  have hsize : (tpmRspHeaderSize + bodySize) % 2 ^ 32 = tpmRspHeaderSize + bodySize := by
    simp only [responseBufferSize, tpmRspHeaderSize] at h ⊢
    omega
  simp only [responseBuffer_ok, hsize]
  rw [slice_store_disjoint _ _ _ _ _ (.inl (Nat.le_refl _))]
  exact slice_store_disjoint s.responseBuffer 0
    (bytes16 tpmStNoSessions ++ bytes32 (tpmRspHeaderSize + bodySize) ++ bytes32 tpmRcSuccess)
    _ _ (.inr (Nat.le_refl 10))

theorem respond_sending (r : Reply) : (respond r).state = .sending ∧ (respond r).respIdx = 0 := by
  obtain ⟨report, s⟩ := r
  cases report <;> exact ⟨rfl, rfl⟩

structure TransportInvariant (s : Tpm2State) : Prop where
  cmdSize_le : s.cmdSize ≤ commandBufferSize
  respSize_le : s.respSize ≤ responseBufferSize
  aligned : s.respIdx % 4 = 0
  respIdx_le : s.respIdx ≤ s.respSize
  sending : s.state = .sending → s.respIdx < s.respSize
  states : s.state = .idle ∨ s.state = .receiving ∨ s.state = .sending
  touched : ∀ p ∈ s.touched, p.2 < 1024

theorem record_lt {c : Cells} (h : ∀ p ∈ c.touched, p.2 < 1024) {start count : Nat}
    (hcount : start + count ≤ 1024) : ∀ p ∈ c.record start count, p.2 < 1024 := by
  intro p hp
  rcases List.mem_append.mp hp with hp | hp
  · exact h p hp
  · obtain ⟨i, hi, rfl⟩ := List.mem_map.mp hp
    rw [List.mem_range'_1] at hi
    dsimp only
    omega

/-- A response builder keeps the indices in range and sets up the response. -/
theorem transportInvariant_respond {r : Reply} (hr : r.WellFormed)
    (hcmd : r.2.cmdSize ≤ commandBufferSize) (htouched : ∀ p ∈ r.2.touched, p.2 < 1024) :
    TransportInvariant (respond r) := by
  obtain ⟨report, s⟩ := r
  -- The marshaller of the header reports ten bytes.
  have hheader : ∀ p ∈ s.responseCells.record 0 10, p.2 < 1024 :=
    record_lt (c := s.responseCells) htouched (by decide)
  cases report with
  | error rc =>
      exact ⟨hcmd, show 10 ≤ 1024 by decide, rfl, Nat.zero_le _, fun _ => show 0 < 10 by decide,
        .inr (.inr rfl), hheader⟩
  | ok bodySize =>
      have hbody := hr.body_le rfl
      have hsize := respSize_ok s hbody
      simp only [responseBufferSize, tpmRspHeaderSize] at hbody hsize
      refine ⟨hcmd, ?_, rfl, Nat.zero_le _, fun _ => ?_, .inr (.inr rfl), ?_⟩
      · rw [hsize, responseBufferSize]
        omega
      · rw [hsize]
        change 0 < _
        omega
      · refine record_lt (c := ⟨.response, _, s.responseCells.record 0 10⟩) hheader ?_
        simp only [List.length_replicate, tpmRspHeaderSize]
        omega

theorem transportInvariant_execute (host : Host) (env : Surroundings) {s : Tpm2State}
    (h : TransportInvariant s) : TransportInvariant (respond (executeReply host env s)) := by
  have hframe := executeReply_framed host env s
  refine transportInvariant_respond (executeReply_wellFormed host env s)
    (hframe.cmdSize_le.trans h.cmdSize_le) ?_
  rw [hframe.touched]
  exact record_lt (c := s.commandCells) h.touched (by decide)

theorem transportInvariant_mmioRead {s : Tpm2State} (h : TransportInvariant s) (addr : Nat) :
    TransportInvariant (tpm2MmioRead s addr).2 := by
  unfold tpm2MmioRead
  split
  · exact h
  split
  · exact h
  split
  swap
  · exact h
  split
  · exact h
  split
  · exact h
  rename_i hroom
  have halign := h.aligned
  have hsize := h.respSize_le
  simp only [responseBufferSize] at hsize
  have htouched : ∀ p ∈ s.responseCells.record s.respIdx 4, p.2 < 1024 :=
    record_lt (c := s.responseCells) h.touched (by omega)
  simp only [Cells.loadWord]
  split
  · exact ⟨h.cmdSize_le, Nat.zero_le _, rfl, Nat.le_refl _, fun h => (by cases h), .inl rfl,
      htouched⟩
  · rename_i hmore
    refine ⟨h.cmdSize_le, h.respSize_le, ?_, ?_, fun _ => ?_, h.states, htouched⟩
    · change (s.respIdx + 4) % 2 ^ 32 % 4 = 0
      omega
    · exact Nat.le_of_not_le hmore
    · exact Nat.lt_of_not_le hmore

theorem transportInvariant_mmioWrite (host : Host) (env : Surroundings) {s : Tpm2State}
    (h : TransportInvariant s) (addr value : Nat) :
    TransportInvariant (tpm2MmioWrite host env s addr value) := by
  unfold tpm2MmioWrite
  split
  · split
    · exact ⟨Nat.zero_le _, Nat.zero_le _, rfl, Nat.le_refl _, fun h => (by cases h),
        .inr (.inl rfl), h.touched⟩
    split
    · exact ⟨Nat.zero_le _, Nat.zero_le _, rfl, Nat.le_refl _, fun h => (by cases h), .inl rfl,
        h.touched⟩
    · exact h
  split
  · split
    · split
      · exact ⟨h.cmdSize_le, h.respSize_le, h.aligned, h.respIdx_le, fun h => (by cases h),
          .inl rfl, h.touched⟩
      · rw [executeCommand_eq_respond]
        exact transportInvariant_execute host env h
    · exact h
  split
  · split
    · exact h
    split
    · exact ⟨h.cmdSize_le, h.respSize_le, h.aligned, h.respIdx_le, fun h => (by cases h),
        .inl rfl, h.touched⟩
    rename_i hroom
    have hcmd := h.cmdSize_le
    simp only [commandBufferSize] at hroom hcmd
    refine ⟨?_, h.respSize_le, h.aligned, h.respIdx_le, h.sending, h.states, ?_⟩
    · change (s.cmdSize + 4) % 2 ^ 32 ≤ 1024
      omega
    · exact record_lt (c := s.commandCells) h.touched (by rw [length_bytes32]; omega)
  · exact h

theorem transportInvariant_step (host : Host) {s : Tpm2State} (h : TransportInvariant s)
    (a : Access) : TransportInvariant (step host s a) := by
  cases a with
  | read addr => exact transportInvariant_mmioRead h addr
  | write env addr value => exact transportInvariant_mmioWrite host env h addr value

theorem transportInvariant_realize (host : Host) : TransportInvariant (tpm2Realize host) := by
  rw [tpm2Realize_eq]
  exact ⟨Nat.zero_le _, Nat.zero_le _, rfl, Nat.le_refl _, fun h => (by cases h), .inl rfl,
    fun p hp => (by cases hp)⟩

theorem transportInvariant_reachable {host : Host} {s : Tpm2State} (h : Reachable host s) :
    TransportInvariant s := by
  refine h.invariant (P := TransportInvariant) ?_ ?_
  · rintro s rfl
    exact transportInvariant_realize host
  · intro s a hs
    exact transportInvariant_step host hs a

/-- The interface after any run of guest accesses. -/
theorem transport_safe (host : Host) {s : Tpm2State} (h : Reachable host s) :
    s.cmdSize ≤ 1024 ∧ s.respSize ≤ 1024 ∧ s.respIdx % 4 = 0 ∧ s.respIdx ≤ s.respSize ∧
      (s.state = .sending → s.respIdx < s.respSize) ∧
      (s.state = .idle ∨ s.state = .receiving ∨ s.state = .sending) ∧
      ∀ p ∈ s.touched, p.2 < 1024 := by
  have hinv := transportInvariant_reachable h
  exact ⟨hinv.cmdSize_le, hinv.respSize_le, hinv.aligned, hinv.respIdx_le, hinv.sending,
    hinv.states, hinv.touched⟩

theorem transport_safe_getRandom :
    (afterCommands [cmdGetRandom]).state = .sending ∧
      (afterCommands [cmdGetRandom]).respIdx < (afterCommands [cmdGetRandom]).respSize := by
  have h := transport_safe referenceHost (reachable_afterCommands [cmdGetRandom])
  have hstate : (afterCommands [cmdGetRandom]).state = .sending := by decide +kernel
  exact ⟨hstate, h.2.2.2.2.1 hstate⟩

/-- A response with a plausible header passes the driver-side check of headers. -/
theorem unmarshalResponseHeader_eq_ok {buffer : Nat → UInt8} {bufferSize : Nat}
    (htag : get16 buffer 0 = tpmStNoSessions) (hlow : tpmRspHeaderSize ≤ get32 buffer 2)
    (hhigh : get32 buffer 2 ≤ bufferSize) (hmax : bufferSize ≤ tpmMaxResponseSize) :
    unmarshalResponseHeader buffer bufferSize =
      .ok (⟨get16 buffer 0, get32 buffer 2, get32 buffer 6⟩, 10) := by
  have htag' : unmarshalResponseTag (get16 buffer 0) = tpmRcSuccess := by
    rw [htag]
    decide
  have hsize : unmarshalResponseSize (get32 buffer 2) = tpmRcSuccess := if_neg (by omega)
  unfold unmarshalResponseHeader
  rw [if_neg (by omega)]
  dsimp only
  rw [if_neg (not_not.mpr htag'), if_neg (not_not.mpr hsize), if_neg (by omega)]

/-- What a command is answered with: the header says how long the response is, and
its code and size are those of the reply. -/
structure Answers (r : Reply) (t : Tpm2State) : Prop where
  sending : t.state = .sending
  respIdx : t.respIdx = 0
  tag : (responseHeader t).tag = tpmStNoSessions
  size_le : (responseHeader t).size ≤ t.respSize
  lt_size : t.respSize < (responseHeader t).size + 4
  respSize_le : t.respSize ≤ responseBufferSize
  error : ∀ {rc}, r.1 = .error rc → (responseHeader t).code = rc ∧
    (responseHeader t).size = tpmRspHeaderSize
  ok : ∀ {bodySize}, r.1 = .ok bodySize → (responseHeader t).code = tpmRcSuccess ∧
    (responseHeader t).size = tpmRspHeaderSize + bodySize

theorem answers_respond {r : Reply} (hr : r.WellFormed) : Answers r (respond r) := by
  obtain ⟨hstate, hidx⟩ := respond_sending r
  obtain ⟨report, s⟩ := r
  cases report with
  | error rc =>
      have hheader := responseHeader_error s (hr.error_code rfl)
      have hsize : (respond (.error rc, s)).respSize = tpmRspHeaderSize := rfl
      refine ⟨hstate, hidx, ?_, ?_, ?_, ?_, ?_, ?_⟩
      · rw [hheader]
      · rw [hheader, hsize]
      · rw [hheader, hsize]
        exact Nat.lt_add_of_pos_right (by decide)
      · rw [hsize]
        decide
      · rintro _ ⟨⟩
        rw [hheader]
        exact ⟨rfl, rfl⟩
      · rintro _ ⟨⟩
  | ok bodySize =>
      have hbody := hr.body_le rfl
      have hheader := responseHeader_ok s hbody
      have hsize := respSize_ok s hbody
      simp only [responseBufferSize, tpmRspHeaderSize] at hbody
      refine ⟨hstate, hidx, ?_, ?_, ?_, ?_, ?_, ?_⟩
      · rw [hheader]
      · rw [hheader, hsize]
        simp only
        omega
      · rw [hheader, hsize]
        simp only
        omega
      · rw [hsize, responseBufferSize, tpmRspHeaderSize]
        omega
      · rintro _ ⟨⟩
      · rintro _ ⟨⟩
        rw [hheader]
        exact ⟨rfl, rfl⟩

theorem answers_execute (host : Host) (env : Surroundings) {s : Tpm2State}
    (h : s.state = .receiving) :
    Answers (executeReply host env s) (step host s (.write env tpm2CmdReg 1)) := by
  rw [step_executes host ⟨rfl, h⟩]
  exact answers_respond (executeReply_wellFormed host env s)

/-- The device delivers a response that carries the report of the handler: its header
can be read back, it fills the response up to the padding, and its size and code are
those of the report. -/
def ResponseReady (report : Except Nat Nat) (t : Tpm2State) : Prop :=
  t.state = .sending ∧ t.respIdx = 0 ∧
    ∃ header, unmarshalResponseHeader t.responseBuffer t.respSize = .ok (header, 10) ∧
      header.tag = tpmStNoSessions ∧ 10 ≤ header.size ∧ header.size ≤ t.respSize ∧
      t.respSize < header.size + 4 ∧
      (header.code ≠ tpmRcSuccess → header.size = 10 ∧ report = .error header.code) ∧
      (header.code = tpmRcSuccess → report = .ok (header.size - 10))

theorem responseReady_execute (host : Host) (env : Surroundings) {s : Tpm2State}
    (h : s.state = .receiving) :
    ResponseReady (executeReply host env s).1 (step host s (.write env tpm2CmdReg 1)) := by
  have hans := answers_execute host env h
  have hwf := executeReply_wellFormed host env s
  set t := step host s (.write env tpm2CmdReg 1)
  have hlow : tpmRspHeaderSize ≤ (responseHeader t).size := by
    cases hreport : (executeReply host env s).1 with
    | error rc => exact (hans.error hreport).2.ge
    | ok bodySize => exact (Nat.le_add_right _ _).trans (hans.ok hreport).2.ge
  refine ⟨hans.sending, hans.respIdx, responseHeader t, ?_, hans.tag, hlow, hans.size_le,
    hans.lt_size, ?_, ?_⟩
  · exact unmarshalResponseHeader_eq_ok hans.tag hlow hans.size_le
      (hans.respSize_le.trans (by decide))
  · intro hcode
    cases hreport : (executeReply host env s).1 with
    | error rc =>
        obtain ⟨hrc, hsize⟩ := hans.error hreport
        exact ⟨hsize, by rw [hrc]⟩
    | ok bodySize => exact absurd (hans.ok hreport).1 hcode
  · intro hcode
    cases hreport : (executeReply host env s).1 with
    | error rc => exact absurd ((hans.error hreport).1.symm.trans hcode) (hwf.error_code hreport).1
    | ok bodySize =>
        rw [(hans.ok hreport).2]
        simp [tpmRspHeaderSize]

end TpmEmulator

import TpmEmulator.UartRegisters
import Mathlib.Tactic.Common

/-!
Reception over whole runs. Words reach the receive FIFO from the host, from the
transmitter in loopback, and as breaks of either kind. As long as none of them
overruns the FIFO, each word is read once, in order, or dropped by a change of the
FIFO mode or a reset. The arrays of the device are accessed within their bounds,
overruns included, apart from one identification register.
-/
namespace TpmEmulator
open RingBuffer

/-- The words an input puts into the FIFO. -/
def rxAccepted (s : NxpUartState) : UartInput → List (BitVec 32)
  | .read _ | .reset => []
  | .write offset value =>
      if offset / 4 = 0 then
        if nxpUartLoopbackEnabled s then [rxWord (.ofBitVec (value.setWidth 8))] else []
      else if offset / 4 = 11 ∧ LoopsBreak s value then [drBe]
      else []
  | .receive buf => if nxpUartLoopbackEnabled s then [] else buf.map rxWord
  | .event e => if e = .break ∧ ¬ nxpUartLoopbackEnabled s then [drBe] else []

/-- The input empties the FIFO. -/
def DropsRx (s : NxpUartState) : UartInput → Prop
  | .write offset value => offset / 4 = 11 ∧ ChangesFifoMode s value
  | .reset => True
  | .read _ | .receive _ | .event _ => False

instance DropsRx.decidable (s : NxpUartState) : (i : UartInput) → Decidable (DropsRx s i)
  | .write _ _ => inferInstanceAs (Decidable (_ ∧ _))
  | .reset => .isTrue trivial
  | .read _ | .receive _ | .event _ => .isFalse not_false

/-- The words that leave the FIFO: the one a read returns, or all that are dropped. -/
def rxTaken (s : NxpUartState) (i : UartInput) : List (BitVec 32) :=
  if DropsRx s i then fifoContents s else (rxDataRead s i).toList

theorem rxTaken_of_drops (s : NxpUartState) (i : UartInput) (h : DropsRx s i) :
    rxTaken s i = s.rx.contents := (if_pos h).trans (fifoContents_eq s)

theorem rxTaken_of_keeps (s : NxpUartState) (i : UartInput) (h : ¬ DropsRx s i) :
    rxTaken s i = (rxDataRead s i).toList := if_neg h

theorem rxTaken_of_idle (s : NxpUartState) (i : UartInput) (h : ¬ DropsRx s i)
    (hread : rxDataRead s i = none) : rxTaken s i = [] := by
  rw [rxTaken_of_keeps s i h, hread]
  rfl

theorem contents_put_of_room {s : NxpUartState} (h : s.rx.WellFormed)
    (hroom : s.readCount ≠ nxpUartGetFifoDepth s) (word : BitVec 32) :
    (s.rx.put word).contents = s.rx.contents ++ [word] := by
  have hcount : s.readCount ≤ nxpUartGetFifoDepth s := h.count_le
  exact Fifo.contents_put (r := s.rx) (Nat.lt_of_le_of_ne hcount hroom) word

/-- A write to the line control register that keeps the mode puts in a break at most. -/
theorem contents_rxAfterLcr {s : NxpUartState} (h : s.rx.WellFormed) {value : BitVec 32}
    (hmode : ¬ ChangesFifoMode s value)
    (hroom : LoopsBreak s value → s.readCount ≠ nxpUartGetFifoDepth s) :
    (rxAfterLcr s value).contents =
      s.rx.contents ++ if LoopsBreak s value then [drBe] else [] := by
  rw [rxAfterLcr, if_neg hmode, fifoDepthOf_of_same_mode hmode]
  split
  · next hbreak => exact contents_put_of_room h (hroom hbreak) drBe
  · rw [List.append_nil]

/-- A write that does not overrun loops a byte or a break back, or drops what the
FIFO holds. -/
theorem conserved_write {s : NxpUartState} (h : s.rx.WellFormed) {offset : Nat}
    {value : BitVec 32} (hover : ¬ Overruns s (.write offset value)) :
    rxTaken s (.write offset value) ++ (rxStep s (.write offset value)).contents =
      s.rx.contents ++ rxAccepted s (.write offset value) := by
  by_cases hlcr : offset / 4 = 11
  · have hdata : offset / 4 ≠ 0 := by omega
    rw [rxStep, if_neg hdata, if_pos hlcr, rxAccepted, if_neg hdata]
    simp only [hlcr, true_and]
    by_cases hmode : ChangesFifoMode s value
    · -- A break would be looped back at the wrong depth, so there is none.
      have hbreak : ¬ LoopsBreak s value := fun hbreak => hover (.inr ⟨hlcr, hbreak, .inl hmode⟩)
      rw [rxTaken_of_drops s (.write offset value) ⟨hlcr, hmode⟩, rxAfterLcr, if_pos hmode,
        if_neg hbreak, if_neg hbreak]
      rfl
    · rw [rxTaken_of_idle s (.write offset value) (fun hdrops => hmode hdrops.2) rfl,
        contents_rxAfterLcr h hmode]
      · rfl
      · exact fun hbreak hfull => hover (.inr ⟨hlcr, hbreak, .inr hfull⟩)
  · rw [rxTaken_of_idle s (.write offset value) (fun hdrops => hlcr hdrops.1) rfl, rxStep,
      rxAccepted]
    by_cases hdata : offset / 4 = 0
    · rw [if_pos hdata, if_pos hdata]
      split
      · next hloop =>
          exact contents_put_of_room h (fun hfull => hover (.inl ⟨hdata, hloop, hfull⟩)) _
      · exact (List.append_nil _).symm
    · rw [if_neg hdata, if_neg hdata, if_neg hlcr, if_neg fun hbreak => hlcr hbreak.1]
      exact (List.append_nil _).symm

/-- One paced input that does not overrun the FIFO. -/
theorem conserved_step {s : NxpUartState} (h : s.rx.WellFormed) {i : UartInput}
    (hpaced : Paced s i) (hover : ¬ Overruns s i) :
    rxTaken s i ++ (uartStep s i).rx.contents = s.rx.contents ++ rxAccepted s i := by
  rw [rx_step]
  cases i with
  | read offset =>
      rw [rxTaken_of_keeps s (.read offset) not_false, rxAccepted, List.append_nil]
      exact contents_read h offset
  | write offset value => exact conserved_write h hover
  | receive buf =>
      have hroom : (buf.length : Int) ≤ (s.rx.depth : Int) - s.rx.count := hpaced
      rw [rxTaken_of_idle s (.receive buf) not_false rfl, rxStep, rxAccepted]
      split
      · exact (List.append_nil _).symm
      · rw [Fifo.contents_putAll (by rw [List.length_map]; omega)]
        rfl
  | event e =>
      rw [rxTaken_of_idle s (.event e) not_false rfl, rxStep, rxAccepted]
      split
      · next hbreak =>
          exact contents_put_of_room h (fun hfull => hover ⟨hbreak.1, hbreak.2, hfull⟩) drBe
      · exact (List.append_nil _).symm
  | reset =>
      rw [rxTaken_of_drops s .reset trivial, rxStep, rxAccepted]
      rfl

/-- From reset on, as long as nothing overruns the FIFO, the words that leave it
followed by those still in it are the words that entered it, in their order. -/
theorem reception_conserved (s : NxpUartState) (inputs : List UartInput)
    (hpaced : Runs.Along uartStep Paced (nxpUartReset s) inputs)
    (hover : Runs.Along uartStep (fun t i => ¬ Overruns t i) (nxpUartReset s) inputs) :
    Runs.gather uartStep rxTaken (nxpUartReset s) inputs ++
        fifoContents (Runs.run uartStep (nxpUartReset s) inputs) =
      Runs.gather uartStep rxAccepted (nxpUartReset s) inputs := by
  have hconserved :
      Runs.gather uartStep rxTaken (nxpUartReset s) inputs ++
          (Runs.run uartStep (nxpUartReset s) inputs).rx.contents =
        (nxpUartReset s).rx.contents ++
          Runs.gather uartStep rxAccepted (nxpUartReset s) inputs := by
    refine Runs.gather_conserves (P := fun t => t.rx.WellFormed) (fun t => t.rx.contents) ?_ ?_ _
      inputs (wellFormed_reset s) (hpaced.and hover)
    · intro t i ht hi
      exact (wellFormed_step_iff ht hi.1).mpr hi.2
    · intro t i ht hi
      exact conserved_step ht hi.1 hi.2
  have hnone : (nxpUartReset s).rx.contents = [] := Fifo.contents_of_count_zero rfl
  rw [hnone] at hconserved
  rw [fifoContents_eq]
  exact hconserved

/-- A byte looped back, a byte of the host and a break, of which the first two are
read. -/
theorem reception_conserved_loopback :
    let s := nxpUartReset uartPowerOn
    let inputs := [.write 0x2c 0x10, .write 0x30 0x380, .write 0 0x41, .receive [0x2e],
      .write 0x30 0x300, .receive [0x42], .event .break, .read 0, .read 0]
    Runs.gather uartStep rxTaken s inputs = [0x41, 0x42] ∧
      Runs.gather uartStep rxTaken s inputs ++ fifoContents (Runs.run uartStep s inputs) =
        [0x41, 0x42, 0x400] := by
  intro s inputs
  have hentered : Runs.gather uartStep rxAccepted s inputs = [0x41, 0x42, 0x400] := by
    decide +kernel
  exact ⟨by decide +kernel,
    (reception_conserved uartPowerOn inputs (by decide +kernel) (by decide +kernel)).trans hentered⟩

def UartArray.length : UartArray → Nat
  | .readFifo => nxpUartFifoDepth
  | .id => nxpUartIdArm.length

/-- The element that the load or store of an operation uses. -/
def opElements (s : NxpUartState) : UartOp → List (UartArray × Nat)
  | .put word => [(storeRxWord s word).2]
  | .get => [(loadRxWord s).2]
  | _ => []

/-- The identification registers are read from an array of their own. -/
def idElements : UartInput → List (UartArray × Nat)
  | .read offset =>
      if 0x3f8 ≤ offset / 4 ∧ offset / 4 ≤ 0x400 then [(loadId offset).2] else []
  | .write _ _ | .receive _ | .event _ | .reset => []

/-- The elements an input accesses. -/
def uartElements (s : NxpUartState) (i : UartInput) : List (UartArray × Nat) :=
  Runs.gather applyOp opElements s (uartOps s i) ++ idElements i

theorem fifoDepth_le (s : NxpUartState) : nxpUartGetFifoDepth s ≤ nxpUartFifoDepth := by
  rw [nxpUartGetFifoDepth]
  split <;> decide

/-- The slot of a put lies in the array in any state, also after an overrun. -/
theorem putElement_lt {s : NxpUartState} {op : UartOp} (hop : op ≠ .get)
    {element : UartArray × Nat} (h : element ∈ opElements s op) :
    element.2 < element.1.length := by
  cases op with
  | put word =>
      obtain rfl := List.mem_singleton.mp h
      show (s.readPos + s.readCount) &&& (nxpUartGetFifoDepth s - 1) < nxpUartFifoDepth
      rw [and_depth_sub_one]
      exact Nat.lt_of_lt_of_le (Nat.mod_lt _ (rx_depth_pos s)) (fifoDepth_le s)
  | get => exact absurd rfl hop
  | clear | transmit _ | raiseTx | setLcr _ | setCr _ | setEnabled _ | clearLevel _ | store _ _
  | reset => cases h

theorem idElements_lt_iff (offset : Nat) :
    (∀ element ∈ idElements (.read offset), element.2 < element.1.length) ↔
      offset / 4 ≠ 0x400 := by
  have hid : UartArray.id.length = 8 := rfl
  rw [idElements]
  split
  · simp only [List.mem_singleton, forall_eq, loadId, hid]
    omega
  · simp only [List.not_mem_nil, false_imp_iff, implies_true, true_iff]
    omega

theorem opElements_lt {s : NxpUartState} (h : s.rx.Positioned) (i : UartInput) :
    ∀ element ∈ Runs.gather applyOp opElements s (uartOps s i),
      element.2 < element.1.length := by
  intro element helement
  by_cases hread : ∃ offset, i = .read offset
  · obtain ⟨offset, rfl⟩ := hread
    rw [uartOps] at helement
    split at helement
    · obtain rfl := List.mem_singleton.mp helement
      exact Nat.lt_of_lt_of_le h.pos_lt (fifoDepth_le s)
    · cases helement
  · obtain ⟨t, op, hop, hmem⟩ := Runs.mem_gather helement
    refine putElement_lt (fun hget => hread ?_) hmem
    subst hget
    exact emits_of_mem hop

theorem uartElements_lt_iff {s : NxpUartState} (h : s.rx.Positioned) (i : UartInput) :
    (∀ element ∈ uartElements s i, element.2 < element.1.length) ↔
      ∀ offset, i = .read offset → offset / 4 ≠ 0x400 := by
  rw [uartElements, List.forall_mem_append]
  refine (and_iff_right (opElements_lt h i)).trans ?_
  cases i with
  | read offset => simpa using idElements_lt_iff offset
  | write _ _ | receive _ | event _ | reset => simp [idElements]

/-- In every run, with or without overruns, every array element the device
accesses exists, exactly when the guest does not read the identification register
behind the last one. -/
theorem uartElements_inBounds_iff (inputs : List UartInput) :
    (∀ element ∈ Runs.gather uartStep uartElements uartPowerOn inputs,
      element.2 < element.1.length) ↔
    ∀ i ∈ inputs, ∀ offset, i = .read offset → offset / 4 ≠ 0x400 :=
  Runs.forall_mem_gather_iff (P := fun t => t.rx.Positioned) (fun _ i h => positioned_step h i)
    (fun _ i h => uartElements_lt_iff h i) uartPowerOn inputs (wellFormed_reset _).positioned

end TpmEmulator

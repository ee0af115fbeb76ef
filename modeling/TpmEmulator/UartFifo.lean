import TpmEmulator.NxpUart
import Mathlib.Tactic.Common

/-!
The receive FIFO over whole runs of the UART. While the device is out of
loopback and the FIFO mode stays as it is, the FIFO is a queue of the bytes the
host delivers. Its representation invariant survives everything the guest and
the host do, apart from the ways in which a word enters the FIFO without a
check for room.
-/
namespace TpmEmulator
open RingBuffer

/-- The representation invariant of the receive FIFO. -/
structure FifoInvariant (s : NxpUartState) : Prop where
  count_le : s.readCount ≤ nxpUartGetFifoDepth s
  pos_lt : s.readPos < nxpUartGetFifoDepth s
  rxfe_iff : s.rxfe = true ↔ s.readCount = 0
  rxff_iff : s.rxff = true ↔ s.readCount = nxpUartGetFifoDepth s
  canReceive_eq : nxpUartCanReceive s = (nxpUartGetFifoDepth s : Int) - s.readCount
  canReceive_nonneg : 0 ≤ nxpUartCanReceive s

theorem fifoInvariant_iff_wellFormed (s : NxpUartState) :
    FifoInvariant s ↔ s.rx.WellFormed := by
  constructor
  · intro h
    exact ⟨h.count_le, h.pos_lt, h.rxfe_iff, h.rxff_iff⟩
  · intro h
    have hcount : s.readCount ≤ nxpUartGetFifoDepth s := h.count_le
    refine ⟨hcount, h.pos_lt, h.empty_iff, h.full_iff, rfl, ?_⟩
    rw [nxpUartCanReceive]
    omega

/-- The host delivers no more than the device says it can take. -/
def Paced (s : NxpUartState) : UartInput → Prop
  | .receive buf => (buf.length : Int) ≤ nxpUartCanReceive s
  | _ => True

instance Paced.decidable (s : NxpUartState) : (i : UartInput) → Decidable (Paced s i)
  | .receive buf => inferInstanceAs (Decidable ((buf.length : Int) ≤ nxpUartCanReceive s))
  | .read _ | .write _ _ | .event _ | .reset => .isTrue trivial

/-- A word enters the FIFO where nothing has checked for room: a byte looped
back or a break into a full FIFO. A break looped back by the write that changes
the FIFO mode is also one, since its flags are those of the old depth. -/
def Overruns (s : NxpUartState) : UartInput → Prop
  | .write offset value =>
      offset / 4 = 0 ∧ nxpUartLoopbackEnabled s ∧ s.readCount = nxpUartGetFifoDepth s ∨
      offset / 4 = 11 ∧ LoopsBreak s value ∧
        (ChangesFifoMode s value ∨ s.readCount = nxpUartGetFifoDepth s)
  | .event e => e = .break ∧ ¬ nxpUartLoopbackEnabled s ∧ s.readCount = nxpUartGetFifoDepth s
  | _ => False

instance Overruns.decidable (s : NxpUartState) : (i : UartInput) → Decidable (Overruns s i)
  | .write _ _ => inferInstanceAs (Decidable (_ ∧ _ ∧ _ ∨ _ ∧ _ ∧ (_ ∨ _)))
  | .event _ => inferInstanceAs (Decidable (_ ∧ _ ∧ _))
  | .read _ | .receive _ | .reset => .isFalse not_false

theorem changesFifoMode_iff (s : NxpUartState) (value : BitVec 32) :
    ChangesFifoMode s value ↔ fifoDepthOf value ≠ s.rx.depth := by
  have hbit (x : BitVec 32) : (x &&& lcrFen != 0) = x.getLsbD 4 :=
    and_twoPow_bne_zero x (i := 4) (by decide)
  have hchange : ((s.lcr ^^^ value) &&& lcrFen != 0) = (s.lcr.getLsbD 4 ^^ value.getLsbD 4) := by
    rw [hbit, BitVec.getLsbD_xor]
  rw [ChangesFifoMode, ← bne_iff_ne, hchange]
  show _ ↔ fifoDepthOf value ≠ nxpUartGetFifoDepth s
  rw [fifoDepthOf, nxpUartGetFifoDepth, nxpUartIsFifoEnabled, hbit, hbit]
  cases s.lcr.getLsbD 4 <;> cases value.getLsbD 4 <;> decide

theorem fifoDepthOf_of_same_mode {s : NxpUartState} {value : BitVec 32}
    (h : ¬ ChangesFifoMode s value) : fifoDepthOf value = s.rx.depth :=
  not_ne_iff.mp fun hne => h ((changesFifoMode_iff s value).mpr hne)

/-- A break put into an emptied FIFO of one depth is not well formed at another:
the flag says whether one word fills the old depth. -/
theorem not_wellFormed_put_clear (r : Fifo (BitVec 32)) (v : BitVec 32) {depth : Nat}
    (h : r.depth = 1 ↔ depth ≠ 1) : ¬ { r.clear.put v with depth := depth }.WellFormed := by
  intro hwf
  have hfull := hwf.full_iff
  simp only [Fifo.put, Fifo.clear] at hfull
  by_cases hone : r.depth = 1
  · simp [hone] at hfull
    exact (h.mp hone) hfull.symm
  · simp [Ne.symm hone] at hfull
    exact hone (h.mpr (Ne.symm hfull))

theorem fifoDepthOf_eq (lcr : BitVec 32) : fifoDepthOf lcr = 1 ∨ fifoDepthOf lcr = 16 := by
  rw [fifoDepthOf]
  split
  · exact .inr rfl
  · exact .inl rfl

/-- A write to the line control register keeps the FIFO well formed unless it
loops a break back into a full FIFO or while it changes the mode. -/
theorem wellFormed_rxAfterLcr_iff {s : NxpUartState} (h : s.rx.WellFormed) (value : BitVec 32) :
    (rxAfterLcr s value).WellFormed ↔
      ¬ (LoopsBreak s value ∧ (ChangesFifoMode s value ∨ s.rx.count = s.rx.depth)) := by
  have hcount := h.count_le
  have hold : s.rx.depth = 1 ∨ s.rx.depth = 16 := fifoDepthOf_eq s.lcr
  have hnew := fifoDepthOf_eq value
  by_cases hmode : ChangesFifoMode s value
  · have hdepth := (changesFifoMode_iff s value).mp hmode
    by_cases hbreak : LoopsBreak s value
    · simp only [rxAfterLcr, hmode, hbreak, if_true, true_or, and_self, not_true_eq_false,
        iff_false]
      exact not_wellFormed_put_clear s.rx drBe (by omega)
    · simp only [rxAfterLcr, hmode, hbreak, if_true, if_false, false_and, not_false_eq_true,
        iff_true]
      exact Fifo.WellFormed.clear (r := { s.rx with depth := fifoDepthOf value })
        (show 0 < fifoDepthOf value by omega)
  · have hdepth := fifoDepthOf_of_same_mode hmode
    by_cases hbreak : LoopsBreak s value
    · simp only [rxAfterLcr, hmode, hbreak, if_true, if_false, true_and, false_or, hdepth]
      refine (Fifo.wellFormed_put_iff h drBe).trans ?_
      omega
    · simp only [rxAfterLcr, hmode, hbreak, if_false, false_and, not_false_eq_true, iff_true,
        hdepth]
      exact h

theorem wellFormed_reset (s : NxpUartState) : (nxpUartReset s).rx.WellFormed := by
  rw [rx_reset]
  exact Fifo.WellFormed.clear (r := { s.rx with depth := 1 }) Nat.one_pos

theorem wellFormed_step_iff {s : NxpUartState} {i : UartInput} (h : s.rx.WellFormed)
    (hpaced : Paced s i) : (uartStep s i).rx.WellFormed ↔ ¬ Overruns s i := by
  have hcount : s.readCount ≤ nxpUartGetFifoDepth s := h.count_le
  have hput (v : BitVec 32) :
      (s.rx.put v).WellFormed ↔ s.readCount ≠ nxpUartGetFifoDepth s := by
    rw [Fifo.wellFormed_put_iff h v]
    show s.readCount < nxpUartGetFifoDepth s ↔ _
    omega
  rw [rx_step]
  cases i with
  | read offset =>
      refine iff_of_true ?_ not_false
      rw [rxStep]
      split
      · exact h.get
      · exact h
  | write offset value =>
      rw [rxStep, Overruns]
      by_cases hdata : offset / 4 = 0
      · by_cases hloop : nxpUartLoopbackEnabled s
        · simpa [hdata, hloop] using hput _
        · simpa [hdata, hloop] using h
      · by_cases hlcr : offset / 4 = 11
        · rw [if_neg hdata, if_pos hlcr, wellFormed_rxAfterLcr_iff h]
          simp [hlcr, NxpUartState.rx]
        · simpa [hdata, hlcr] using h
  | receive buf =>
      refine iff_of_true ?_ not_false
      have hroom : (buf.length : Int) ≤ (s.rx.depth : Int) - s.rx.count := hpaced
      rw [rxStep]
      split
      · exact h
      · exact h.putAll (by rw [List.length_map]; omega)
  | event e =>
      rw [rxStep, Overruns]
      by_cases hbreak : e = .break ∧ ¬ nxpUartLoopbackEnabled s
      · rw [if_pos hbreak, hput]
        simp [hbreak]
      · rw [if_neg hbreak]
        exact iff_of_true h fun hover => hbreak ⟨hover.1, hover.2.1⟩
  | reset =>
      refine iff_of_true ?_ not_false
      rw [← rx_step]
      exact wellFormed_reset s

/-- From reset on, under any reads and writes of the guest, paced deliveries and
events, the invariant holds throughout exactly when no input overruns the FIFO. -/
theorem fifoInvariant_iff_no_overrun (s : NxpUartState) (inputs : List UartInput)
    (hpaced : Runs.Along uartStep Paced (nxpUartReset s) inputs) :
    (∀ before after, inputs = before ++ after →
      FifoInvariant (Runs.run uartStep (nxpUartReset s) before)) ↔
    Runs.Along uartStep (fun t i => ¬ Overruns t i) (nxpUartReset s) inputs := by
  refine Runs.forall_run_iff_along ?_ _ inputs ?_ hpaced
  · intro t i ht hi
    rw [fifoInvariant_iff_wellFormed] at ht ⊢
    exact wellFormed_step_iff ht hi
  · rw [fifoInvariant_iff_wellFormed]
    exact wellFormed_reset s

/-- The device after power on, with the FIFO mode off and all lines low. -/
def uartPowerOn : NxpUartState :=
  nxpUartReset
    { flags := 0, lcr := 0, rsr := 0, cr := 0, dmacr := 0, intEnabled := 0, intLevel := 0,
      readFifo := fun _ => 0, ilpr := 0, ibrd := 0, fbrd := 0, ifl := 0, readPos := 0,
      readCount := 0, readTrigger := 0, irq := List.replicate 6 false, chr := [] }

def quietSession : List UartInput :=
  [.write 0x2c 0x10, .receive [0x41], .event .break, .read 0, .read 0]

theorem fifoInvariant_quietSession :
    Runs.Along uartStep Paced uartPowerOn quietSession ∧
      ∀ before after, quietSession = before ++ after →
        FifoInvariant (Runs.run uartStep uartPowerOn before) :=
  ⟨by decide +kernel, (fifoInvariant_iff_no_overrun _ quietSession (by decide +kernel)).mpr
    (by decide +kernel)⟩

/-- Two break events after reset leave two words in a FIFO of depth one, and the
host is told that a negative number of bytes fits. A break that is looped back
by the write that switches the FIFO mode on leaves one word in a FIFO of depth
sixteen that says it is full. -/
theorem fifoInvariant_fails :
    let twice := Runs.run uartStep uartPowerOn [.event .break, .event .break]
    let switched := Runs.run uartStep uartPowerOn [.write 0x30 0x380, .write 0x2c 0x11]
    (nxpUartGetFifoDepth twice = 1 ∧ twice.readCount = 2 ∧ nxpUartCanReceive twice = -1 ∧
      ¬ FifoInvariant twice) ∧
    (nxpUartGetFifoDepth switched = 16 ∧ switched.readCount = 1 ∧ switched.rxff = true ∧
      ¬ FifoInvariant switched) := by
  intro twice switched
  have htwice : nxpUartGetFifoDepth twice = 1 ∧ twice.readCount = 2 ∧
      nxpUartCanReceive twice = -1 := by decide +kernel
  have hswitched : nxpUartGetFifoDepth switched = 16 ∧ switched.readCount = 1 ∧
      switched.rxff = true := by decide +kernel
  refine ⟨⟨htwice.1, htwice.2.1, htwice.2.2, fun h => ?_⟩,
    ⟨hswitched.1, hswitched.2.1, hswitched.2.2, fun h => ?_⟩⟩
  · have hcount := h.count_le
    omega
  · have hfull := h.rxff_iff.mp hswitched.2.2
    omega

/-- The words in the FIFO from the read position on. -/
def fifoContents (s : NxpUartState) : List (BitVec 32) :=
  (List.range s.readCount).map fun k =>
    s.readFifo ((s.readPos + k) &&& (nxpUartGetFifoDepth s - 1))

theorem fifoContents_eq (s : NxpUartState) : fifoContents s = s.rx.contents := by
  simp only [fifoContents, and_depth_sub_one]
  rfl

def rxDataRead (s : NxpUartState) : UartInput → Option (BitVec 32)
  | .read offset => if offset / 4 = 0 ∧ ¬ s.rxfe then some (nxpUartRead s offset).1 else none
  | _ => none

def delivered : UartInput → List (BitVec 32)
  | .receive buf => buf.map rxWord
  | .read _ | .write _ _ | .event _ | .reset => []

/-- Loopback is off, and the input is any access of the guest that keeps the
FIFO mode, a delivery of what fits, or an event other than a break. -/
def PlainInput (s : NxpUartState) (i : UartInput) : Prop :=
  nxpUartLoopbackEnabled s = false ∧
    match i with
    | .read _ => True
    | .write offset value => offset / 4 = 11 → ¬ ChangesFifoMode s value
    | .receive buf => (buf.length : Int) ≤ nxpUartCanReceive s
    | .event e => e ≠ .break
    | .reset => False

instance PlainInput.decidable (s : NxpUartState) : (i : UartInput) → Decidable (PlainInput s i)
  | .read _ => inferInstanceAs (Decidable (_ ∧ True))
  | .write _ _ => inferInstanceAs (Decidable (_ ∧ (_ → ¬ _)))
  | .receive _ => inferInstanceAs (Decidable (_ ∧ (_ : Int) ≤ _))
  | .event _ => inferInstanceAs (Decidable (_ ∧ _ ≠ _))
  | .reset => inferInstanceAs (Decidable (_ ∧ False))

theorem positioned_rxAfterLcr {s : NxpUartState} (h : s.rx.Positioned) (value : BitVec 32) :
    (rxAfterLcr s value).Positioned := by
  have hnew := fifoDepthOf_eq value
  have hemptied : (if ChangesFifoMode s value then s.rx.clear else s.rx).Positioned ∧
      (if ChangesFifoMode s value then s.rx.clear else s.rx).pos < fifoDepthOf value := by
    split
    · exact ⟨Fifo.Positioned.clear (rx_depth_pos s), show 0 < fifoDepthOf value by omega⟩
    · next hmode =>
        rw [fifoDepthOf_of_same_mode hmode]
        exact ⟨h, h.pos_lt⟩
  obtain ⟨hpositioned, hpos⟩ := hemptied
  simp only [rxAfterLcr]
  split
  · exact (hpositioned.put drBe).withDepth hpos
  · exact hpositioned.withDepth hpos

/-- The read position and the flags are consistent whatever happens, also after
an overrun. -/
theorem positioned_step {s : NxpUartState} (h : s.rx.Positioned) (i : UartInput) :
    (uartStep s i).rx.Positioned := by
  rw [rx_step]
  cases i with
  | read offset =>
      rw [rxStep]
      split
      · exact h.get
      · exact h
  | write offset value =>
      rw [rxStep]
      split_ifs
      · exact h.put _
      · exact h
      · exact positioned_rxAfterLcr h value
      · exact h
  | receive buf =>
      rw [rxStep]
      split
      · exact h
      · exact h.putAll _
  | event e =>
      rw [rxStep]
      split
      · exact h.put _
      · exact h
  | reset =>
      rw [← rx_step]
      exact (wellFormed_reset s).positioned

/-- Every state the device can be in, overruns included, has a consistent FIFO
once the FIFO is empty. -/
theorem wellFormed_of_empty {s : NxpUartState}
    (hs : Runs.Reachable uartStep (fun t => ∃ before, t = nxpUartReset before) s)
    (hempty : s.readCount = 0) : s.rx.WellFormed := by
  have hpositioned : s.rx.Positioned := by
    refine hs.invariant (P := fun t => t.rx.Positioned) ?_ fun t i ht => positioned_step ht i
    rintro t ⟨before, rfl⟩
    exact (wellFormed_reset before).positioned
  exact hpositioned.wellFormed hempty

theorem PlainInput.not_overruns {s : NxpUartState} {i : UartInput} (h : PlainInput s i) :
    ¬ Overruns s i := by
  obtain ⟨hloop, hinput⟩ := h
  cases i with
  | write offset value => simp [Overruns, LoopsBreak, hloop]
  | event e => exact fun hover => hinput hover.1
  | read _ | receive _ | reset => exact not_false

theorem PlainInput.paced {s : NxpUartState} {i : UartInput} (h : PlainInput s i) : Paced s i := by
  cases i with
  | receive buf => exact h.2
  | read _ | write _ _ | event _ | reset => trivial

theorem contents_read {s : NxpUartState} (h : s.rx.WellFormed) (offset : Nat) :
    (rxDataRead s (.read offset)).toList ++ (rxStep s (.read offset)).contents =
      s.rx.contents := by
  rw [rxStep, rxDataRead]
  by_cases hdata : offset / 4 = 0
  · rw [if_pos hdata, read_data s hdata, readRxdata_value]
    by_cases hcount : 0 < s.readCount
    · have hrxfe : ¬ s.rxfe = true := fun hset => by
        have hzero : s.readCount = 0 := h.empty_iff.mp hset
        omega
      rw [if_pos ⟨hdata, hrxfe⟩]
      exact Fifo.contents_get h.pos_lt hcount
    · have hzero : s.readCount = 0 := by omega
      have hrxfe : s.rxfe = true := h.empty_iff.mpr hzero
      rw [if_neg fun hread => hread.2 hrxfe]
      exact Fifo.contents_get_of_count_zero hzero
  · rw [if_neg hdata, if_neg fun hread => hdata hread.1]
    rfl

theorem rxStep_write {s : NxpUartState} {offset : Nat} {value : BitVec 32}
    (hplain : PlainInput s (.write offset value)) : rxStep s (.write offset value) = s.rx := by
  obtain ⟨hloop, hmode⟩ := hplain
  have hbreak : ¬ LoopsBreak s value := by simp [LoopsBreak, hloop]
  rw [rxStep, hloop, if_neg Bool.false_ne_true]
  split_ifs with hdata hlcr
  · rfl
  · rw [rxAfterLcr, if_neg (hmode hlcr), if_neg hbreak, fifoDepthOf_of_same_mode (hmode hlcr)]
  · rfl

/-- One plain input: what is read leaves at the front, what is delivered enters
at the back. -/
theorem contents_step {s : NxpUartState} {i : UartInput} (h : s.rx.WellFormed)
    (hplain : PlainInput s i) :
    (rxDataRead s i).toList ++ (uartStep s i).rx.contents = s.rx.contents ++ delivered i := by
  rw [rx_step]
  cases i with
  | read offset =>
      rw [delivered, List.append_nil]
      exact contents_read h offset
  | write offset value =>
      rw [rxStep_write hplain, delivered, List.append_nil]
      rfl
  | receive buf =>
      obtain ⟨hloop, hpaced⟩ := hplain
      have hroom : (buf.length : Int) ≤ (s.rx.depth : Int) - s.rx.count := hpaced
      rw [rxStep, hloop, if_neg Bool.false_ne_true,
        Fifo.contents_putAll (by rw [List.length_map]; omega)]
      rfl
  | event e =>
      rw [rxStep, if_neg fun hbreak => hplain.2 hbreak.1, delivered, List.append_nil]
      rfl
  | reset => exact absurd hplain.2 not_false

/-- The words read from the data register while it was not empty, followed by
the words still in the FIFO, are the delivered bytes in their order. The start
is any state the device can be in with an empty FIFO, in either FIFO mode. -/
theorem fifo_order {s : NxpUartState}
    (hs : Runs.Reachable uartStep (fun t => ∃ before, t = nxpUartReset before) s)
    (hempty : s.readCount = 0) (inputs : List UartInput)
    (hplain : Runs.Along uartStep PlainInput s inputs) :
    Runs.trace uartStep rxDataRead s inputs ++ fifoContents (Runs.run uartStep s inputs) =
      inputs.flatMap delivered := by
  have hstart := wellFormed_of_empty hs hempty
  have hconserved := Runs.trace_conserves (P := fun t => t.rx.WellFormed)
    (fun t => t.rx.contents) delivered
    (fun _ _ ht hi => (wellFormed_step_iff ht hi.paced).mpr hi.not_overruns)
    (fun _ _ ht hi => contents_step ht hi) s inputs hstart hplain
  have hnone : s.rx.contents = [] := Fifo.contents_of_count_zero hempty
  rw [hnone, List.nil_append] at hconserved
  rw [fifoContents_eq]
  exact hconserved

/-- The FIFO mode on, three bytes in, one read early and one read of the empty
data register on the way. -/
theorem fifo_order_session :
    let s := Runs.run uartStep uartPowerOn [.write 0x2c 0x10]
    let inputs := [.read 0, .receive [0x41, 0x42], .read 0x18, .read 0, .write 0 0x2e,
      .receive [0x43]]
    Runs.Along uartStep PlainInput s inputs ∧
      Runs.trace uartStep rxDataRead s inputs = [0x41] ∧
      Runs.trace uartStep rxDataRead s inputs ++ fifoContents (Runs.run uartStep s inputs) =
        [0x41, 0x42, 0x43] := by
  intro s inputs
  have hpower : Runs.Reachable uartStep (fun t => ∃ before, t = nxpUartReset before) uartPowerOn :=
    .start ⟨_, rfl⟩
  have hplain : Runs.Along uartStep PlainInput s inputs := by decide +kernel
  have hgiven : inputs.flatMap delivered = [0x41, 0x42, 0x43] := by decide +kernel
  have horder :=
    fifo_order (hpower.run [.write 0x2c 0x10]) (by decide +kernel) inputs hplain
  exact ⟨hplain, by decide +kernel, horder.trans hgiven⟩

end TpmEmulator
